import Btcbot.ExecutionWrapper
import Btcbot.Stage4Reconcile
import Mathlib.Data.List.Sort
import Mathlib.Algebra.Field.Rat
import Mathlib.Data.Rat.Floor

/-!
# The stage 4 execution service

Lifecycle actions are split into plain actions and replace groups. A replace group
cancels first and submits once the cancels are confirmed. `calls` is a log that no code
reads: the exchange calls, each with the orders stored when it was made.
-/
namespace Stage4Execute

open PyData ExchangeErrors ExecutionWrapper Stage4Store
open Stage4Reconcile (buildExchangeClientId truthy)

inductive LifecycleActionType where
  | submit
  | cancel
  | replace
  deriving DecidableEq, Repr

structure LifecycleAction where
  actionType : LifecycleActionType
  symbol : String
  side : String
  price : ℚ
  qty : ℚ
  reason : String
  clientOrderId : Option String := none
  exchangeOrderId : Option String := none
  deriving DecidableEq, Repr

structure Settings where
  liveTrading : Bool
  liveTradingAck : Bool
  dryRun : Bool
  killSwitch : Bool
  killSwitchEffective : Option Bool := none
  killSwitchFreezeAll : Bool := false
  monitorRole : Bool := false
  reject1123EnforceExecutionGate : Bool := false
  minOrderNotionalTry : ℚ
  riskMaxOrderNotionalTry : Option ℚ := none
  submitRetryMaxAttempts : ℕ := 2
  cancelRetryMaxAttempts : ℕ := 2

def Settings.isLiveTradingEnabled (settings : Settings) : Bool :=
  settings.liveTrading && settings.liveTradingAck

structure ExchangeRules where
  tickSize : ℚ
  stepSize : ℚ
  minNotionalTry : ℚ
  pricePrecision : ℤ
  qtyPrecision : ℤ

inductive CooldownRead where
  | inactive
  | readFailed
  | until_ (cooldownUntil : ℤ)

inductive RulesRead where
  | found (rules : ExchangeRules)
  | missing (reason : String)
  | raises (exc : Exc)

/-- What an exchange is asked to place, with the client id it lists the order under. -/
structure LimitOrder where
  symbol : String
  side : String
  price : ℚ
  qty : ℚ
  clientOrderId : String
  deriving DecidableEq, Repr

/-- What the service is answered from outside: clock and reads by the readings made so
far, exchange calls by the calls made so far. -/
structure Env where
  sha256 : String → String
  now : ℕ → ℤ
  cooldown : ℕ → String → CooldownRead
  rules : ℕ → String → RulesRead
  submitLimitOrder : ℕ → LimitOrder → Except Exc String
  cancelOrder : ℕ → String → Except Exc Bool
  listOpenOrders : ℕ → String → Except Exc (List (Option String))

structure FreezeState where
  active : Bool
  reason : Option String := none

/-- The transaction a submission belongs to, with the orders it replaces. -/
structure Replaces where
  replaceTxId : String
  symbol : String
  side : String
  oldIds : List String
  deriving DecidableEq, Repr

inductive Call where
  | submit (replaces : Option Replaces) (clientOrderId : String) (order : LimitOrder)
      (answer : Except Exc String)
  | cancel (exchangeOrderId : String) (answer : Except Exc Bool)
  | openOrders (symbol : String) (answer : Except Exc (List (Option String)))
  deriving DecidableEq

structure Entry where
  call : Call
  orders : List OrderRow
  deriving DecidableEq

structure World where
  orders : List OrderRow
  replaceTxs : ReplaceTxs
  freeze : FreezeState
  ticks : ℕ
  calls : List Entry

abbrev Exec := EStateM Exc World

/-- What a submit action counts. -/
structure Counts where
  submitted : ℕ := 0
  simulated : ℕ := 0
  rejected : ℕ := 0
  rejectedMinNotional : ℕ := 0
  deriving DecidableEq, Repr

section Quantizer

def quantumOf (precision : ℤ) : ℚ := (10 : ℚ) ^ (-precision)

/-- The step a value is rounded to. -/
def gridStep (step : ℚ) (precision : ℤ) : ℚ := if 0 < step then step else quantumOf precision

def quantizePrice (price : ℚ) (rules : ExchangeRules) : ℚ :=
  ⌊price / gridStep rules.tickSize rules.pricePrecision⌋ *
    gridStep rules.tickSize rules.pricePrecision

def quantizeQty (qty : ℚ) (rules : ExchangeRules) : ℚ :=
  ⌊qty / gridStep rules.stepSize rules.qtyPrecision⌋ * gridStep rules.stepSize rules.qtyPrecision

def quantizeQtyUp (qty : ℚ) (rules : ExchangeRules) : ℚ :=
  if qty ≤ 0 then 0
  else ⌈qty / gridStep rules.stepSize rules.qtyPrecision⌉ *
    gridStep rules.stepSize rules.qtyPrecision

inductive Sizing where
  | raises (message : String)
  | rejected (reason : String) (price qty : ℚ) (minNotional : Bool)
  | sized (price qty : ℚ)

/-- The quantity of an order whose notional fell below the minimum by rounding is
rounded up. -/
def sizedQty (minRequired price : ℚ) (action : LifecycleAction) (rules : ExchangeRules) : ℚ :=
  let qty := quantizeQty action.qty rules
  if price * qty < minRequired ∧ minRequired ≤ action.price * action.qty ∧ 0 < price then
    let up := quantizeQtyUp (minRequired / price) rules
    if minRequired ≤ price * up then up else qty
  else qty

def sizeSubmit (settings : Settings) (rules : ExchangeRules) (action : LifecycleAction) : Sizing :=
  if action.price ≤ 0 then .raises "price must be > 0"
  else if action.qty ≤ 0 then .raises "qty must be > 0"
  else
    let minRequired := max settings.minOrderNotionalTry rules.minNotionalTry
    let price := quantizePrice action.price rules
    let qty := sizedQty minRequired price action rules
    if price * qty < minRequired then .rejected "min_notional_violation" price qty true
    else
      match settings.riskMaxOrderNotionalTry with
      | none => .sized price qty
      | some cap =>
        if 0 < cap ∧ cap < price * qty then .rejected "max_order_notional_try" price qty false
        else .sized price qty

end Quantizer

section Primitives

variable (env : Env)

def readClock : Exec ℤ := fun w => .ok (env.now w.ticks) { w with ticks := w.ticks + 1 }

/-- A write of the orders table at a time. -/
def writeOrders (f : List OrderRow → ℤ → List OrderRow) : Exec Unit := do
  let now ← readClock env
  modify fun w => { w with orders := f w.orders now }

def writeReplaceTxs (f : ReplaceTxs → ℤ → ReplaceTxs) : Exec Unit := do
  let now ← readClock env
  modify fun w => { w with replaceTxs := f w.replaceTxs now }

/-- An exchange call is logged with the orders stored. -/
def callExchange {α : Type} (answer : ℕ → Except Exc α) (call : Except Exc α → Call) : Exec α :=
  fun w =>
    let entry : Entry := ⟨call (answer w.calls.length), w.orders⟩
    match answer w.calls.length with
    | .ok a => .ok a { w with calls := w.calls ++ [entry] }
    | .error exc => .error exc { w with calls := w.calls ++ [entry] }

/-- The world after an exchange call. -/
def World.called (w : World) (call : Call) : World :=
  { w with calls := w.calls ++ [⟨call, w.orders⟩] }

theorem ends_callExchange {α : Type} {answer : ℕ → Except Exc α} {call : Except Exc α → Call}
    {w : World} {Q : α → World → Prop} {E : Exc → World → Prop}
    (hok : ∀ a, answer w.calls.length = .ok a → Q a (w.called (call (.ok a))))
    (herror : ∀ exc, answer w.calls.length = .error exc → E exc (w.called (call (.error exc)))) :
    Effects.Ends (callExchange answer call) w Q E := by
  unfold Effects.Ends callExchange
  cases hanswer : answer w.calls.length with
  | ok a => exact hok a hanswer
  | error exc => exact herror exc hanswer

end Primitives

def policyMessage (settings : Settings) : Option String :=
  if settings.monitorRole then some "MONITOR role blocks side effects"
  else if settings.killSwitch then some "KILL_SWITCH=true blocks side effects"
  else if settings.dryRun then some "DRY_RUN=true blocks side effects"
  else if ¬ settings.isLiveTradingEnabled then
    some ("Live trading is not armed; set LIVE_TRADING=true and " ++
      "LIVE_TRADING_ACK=I_UNDERSTAND")
  else none

def ensureLiveWriteSideEffectsAllowed (settings : Settings) : Exec Unit :=
  match policyMessage settings with
  | some message => throw (.runtimeError message)
  | none => pure ()

section Submit

variable (env : Env) (settings : Settings)

def reject1123Code : ℤ := 1123

def extractExchangeErrorCode : Exc → Option ℤ
  | .exchangeError error =>
    match error.errorCode with
    | some (.number n) => some n
    | some (.text s) => (strip s).toInt?
    | none => none
  | _ => none

/-- The order an action asks for, as it is recorded. -/
def recordOf (action : LifecycleAction) (clientOrderId : String) (price qty : ℚ) (live : Bool)
    (status : OrderStatus) : Recorded :=
  ⟨action.symbol, clientOrderId, action.side, price, qty, if live then .live else .dryRun, status⟩

def rejectSubmit (action : LifecycleAction) (clientOrderId : String) (price qty : ℚ) (live : Bool)
    (reason : String) (errorCode : Option ℤ) : Exec Unit :=
  writeOrders env fun orders now =>
    recordStage4OrderRejected orders now (recordOf action clientOrderId price qty live .rejected)
      reason errorCode

/-- Why the cooldown of a symbol stops a submission. -/
def cooldownGate (action : LifecycleAction) : Exec (Option String) := do
  let now ← readClock env
  if settings.reject1123EnforceExecutionGate then
    let w ← get
    match env.cooldown w.ticks action.symbol with
    | .inactive => pure none
    | .readFailed => pure (some "exchange_reject_1123_state_read_failed")
    | .until_ cooldownUntil =>
      pure (if now / 1000000 < cooldownUntil then some "exchange_reject_1123_cooldown_gate"
        else none)
  else pure none

def submitLimitOrder (replaces : Option Replaces) (clientOrderId : String) (order : LimitOrder) :
    Exec (WrapperResult String) :=
  execute .submit settings.submitRetryMaxAttempts (pure ()) fun _ =>
    callExchange (fun n => env.submitLimitOrder n order) (.submit replaces clientOrderId order)

/-- The submission itself, once everything allows it. -/
def sendSubmit (replaces : Option Replaces) (action : LifecycleAction)
    (clientOrderId exchangeClientId : String) (price qty : ℚ) : Exec Counts := do
  ensureLiveWriteSideEffectsAllowed settings
  let result ← tryExcept
    (do
      let result ← submitLimitOrder env settings replaces clientOrderId
        ⟨action.symbol, action.side, price, qty, exchangeClientId⟩
      pure (some result)) fun exc =>
    if extractExchangeErrorCode exc = some reject1123Code then do
      rejectSubmit env action clientOrderId price qty true "exchange_reject_1123"
        (some reject1123Code)
      pure none
    else throw exc
  match result with
  | none => pure { rejected := 1 }
  | some (.uncertainResult _) => do
    writeOrders env fun orders now =>
      recordStage4OrderError orders now (recordOf action clientOrderId price qty true .unknown)
        "submit_uncertain_outcome" none
    pure {}
  | some (.value exchangeOrderId) => do
    writeOrders env fun orders now =>
      recordStage4OrderSubmitted orders now (recordOf action clientOrderId price qty true .open)
        (some exchangeClientId) exchangeOrderId
    pure { submitted := 1 }

/-- Rules and size of an order, then its submission or its simulation. -/
def sizeAndSubmit (replaces : Option Replaces) (action : LifecycleAction)
    (clientOrderId exchangeClientId : String) (live : Bool) : Exec Counts := do
  let w ← get
  match env.rules w.ticks action.symbol with
  | .raises exc => throw exc
  | .missing reason => do
    rejectSubmit env action clientOrderId action.price action.qty live reason none
    pure { rejected := 1 }
  | .found rules =>
    match sizeSubmit settings rules action with
    | .raises message => throw (.valueError message)
    | .rejected reason price qty minNotional => do
      rejectSubmit env action clientOrderId price qty live reason none
      pure { rejected := 1, rejectedMinNotional := if minNotional then 1 else 0 }
    | .sized price qty =>
      if live then sendSubmit env settings replaces action clientOrderId exchangeClientId price qty
      else do
        writeOrders env fun orders now =>
          recordStage4OrderSimulatedSubmit orders now
            (recordOf action clientOrderId price qty false .open)
        pure { simulated := 1 }

/-- The cooldown gate and the order book of the bot itself. -/
def gateAndSubmit (replaces : Option Replaces) (action : LifecycleAction) (clientOrderId : String)
    (live : Bool) : Exec Counts := do
  let gate ← cooldownGate env settings action
  match gate with
  | some reason => do
    rejectSubmit env action clientOrderId action.price action.qty live reason (some reject1123Code)
    pure { rejected := 1 }
  | none => do
    let exchangeClientId :=
      buildExchangeClientId env.sha256 clientOrderId action.symbol action.side
    let now ← readClock env
    let w ← get
    if (stage4SubmitDedupeStatus w.orders now clientOrderId exchangeClientId).shouldDedupe then
      pure {}
    else sizeAndSubmit env settings replaces action clientOrderId exchangeClientId live

def executeSubmitAction (replaces : Option Replaces) (action : LifecycleAction) (live : Bool) :
    Exec Counts := do
  let w ← get
  if w.freeze.active then pure {}
  else
    match action.clientOrderId with
    | none => pure {}
    | some clientOrderId =>
      if clientOrderId = "" then pure {}
      else gateAndSubmit env settings replaces action clientOrderId live

end Submit

section Cancel

variable (env : Env) (settings : Settings)

def cancelOrder (exchangeOrderId : String) : Exec (WrapperResult Bool) :=
  execute .cancel settings.cancelRetryMaxAttempts (pure ()) fun _ =>
    callExchange (fun n => env.cancelOrder n exchangeOrderId) (.cancel exchangeOrderId)

def sendCancel (action : LifecycleAction) (clientOrderId exchangeOrderId : String) (live : Bool) :
    Exec ℕ := do
  writeOrders env fun orders now => recordStage4OrderCancelRequested orders now clientOrderId
  if ¬ live then do
    writeOrders env fun orders now => recordStage4OrderCanceled orders now clientOrderId
    pure 1
  else do
    ensureLiveWriteSideEffectsAllowed settings
    let result ← cancelOrder env settings exchangeOrderId
    match result with
    | .uncertainResult _ => do
      writeOrders env fun orders now =>
        recordStage4OrderError orders now
          (recordOf action clientOrderId action.price action.qty true .unknown)
          "cancel_uncertain_outcome" none
      pure 0
    | .value canceled => pure (if canceled then 1 else 0)

def cancelKnown (action : LifecycleAction) (clientOrderId : String) (live : Bool) : Exec ℕ := do
  let w ← get
  if isOrderTerminal w.orders clientOrderId then pure 0
  else
    let stored := (getStage4OrderByClientId w.orders clientOrderId).bind OrderRow.exchangeOrderId
    match if truthy action.exchangeOrderId then action.exchangeOrderId else stored with
    | none => do
      writeOrders env fun orders now =>
        recordStage4OrderError orders now
          (recordOf action clientOrderId action.price action.qty live .error)
          "cancel_missing_exchange_order_id" none
      pure 0
    | some exchangeOrderId => sendCancel env settings action clientOrderId exchangeOrderId live

def executeCancelAction (action : LifecycleAction) (live : Bool) : Exec ℕ :=
  match action.clientOrderId with
  | none => pure 0
  | some clientOrderId =>
    if clientOrderId = "" then pure 0
    else cancelKnown env settings action clientOrderId live

/-- What the writes of one row and the cancel calls keep, a cancel keeps. -/
theorem cancelKnown_keeps {R : World → World → Prop} [IsPreorder World R]
    {env : Env} {settings : Settings} (action : LifecycleAction) (clientOrderId : String)
    (live : Bool)
    (hwrite : ∀ (w : World) orders ticks, OnlyRow clientOrderId w.orders orders →
      R w { w with orders := orders, ticks := ticks })
    (hcall : ∀ (w : World) exchangeOrderId answer,
      R w (w.called (.cancel exchangeOrderId answer))) :
    Effects.Keeps R (cancelKnown env settings action clientOrderId live) := by
  have herror (price qty : ℚ) (live : Bool) (status : OrderStatus) (reason : String) :
      Effects.Keeps R (writeOrders env fun orders now =>
        recordStage4OrderError orders now (recordOf action clientOrderId price qty live status)
          reason none) :=
    fun w => hwrite w _ _ (onlyRow_recordError _ (recordOf action clientOrderId _ _ _ _) _ _)
  have hrequested : Effects.Keeps R (writeOrders env fun orders now =>
      recordStage4OrderCancelRequested orders now clientOrderId) :=
    fun w => hwrite w _ _ (onlyRow_recordCancelRequested _ _)
  have hcanceled : Effects.Keeps R (writeOrders env fun orders now =>
      recordStage4OrderCanceled orders now clientOrderId) :=
    fun w => hwrite w _ _ (onlyRow_recordCanceled _ _)
  have hensure : Effects.Keeps R (ensureLiveWriteSideEffectsAllowed settings) := by
    unfold ensureLiveWriteSideEffectsAllowed
    split
    · exact Effects.Keeps.throw _
    · exact Effects.Keeps.pure _
  have hcancel (exchangeOrderId : String) :
      Effects.Keeps R (cancelOrder env settings exchangeOrderId) := by
    refine attempts_keeps .cancel (Effects.Keeps.pure _) (fun _ w => ?_) _ _
    exact ends_callExchange (fun _ _ => hcall w _ _) (fun _ _ => hcall w _ _)
  refine Effects.Keeps.get.bind fun w => (Effects.Keeps.pure _).ite ?_
  dsimp only
  split
  · exact (herror _ _ _ _ _).bind fun _ => Effects.Keeps.pure _
  · refine hrequested.bind fun _ => ?_
    refine Effects.Keeps.ite (hcanceled.bind fun _ => Effects.Keeps.pure _) ?_
    refine hensure.bind fun _ => (hcancel _).bind fun result => ?_
    split
    · exact (herror _ _ _ _ _).bind fun _ => Effects.Keeps.pure _
    · exact Effects.Keeps.pure _

theorem executeCancelAction_keeps {R : World → World → Prop} [IsPreorder World R]
    {env : Env} {settings : Settings} {action : LifecycleAction} {live : Bool}
    (hwrite : ∀ clientOrderId, action.clientOrderId = some clientOrderId →
      ∀ (w : World) orders ticks, OnlyRow clientOrderId w.orders orders →
        R w { w with orders := orders, ticks := ticks })
    (hcall : ∀ (w : World) exchangeOrderId answer,
      R w (w.called (.cancel exchangeOrderId answer))) :
    Effects.Keeps R (executeCancelAction env settings action live) := by
  unfold executeCancelAction
  cases hnamed : action.clientOrderId with
  | none => exact Effects.Keeps.pure _
  | some clientOrderId =>
    exact (Effects.Keeps.pure _).ite (cancelKnown_keeps _ _ _ (hwrite clientOrderId hnamed) hcall)

end Cancel

structure ReplaceGroup where
  symbol : String
  side : String
  cancelActions : List LifecycleAction
  submitAction : LifecycleAction
  submitCount : ℕ
  deriving DecidableEq, Repr

section Groups

def groupKey (action : LifecycleAction) : String × String := (action.symbol, action.side)

/-- The keys of the actions, each where it comes first. -/
def groupKeys (actions : List LifecycleAction) : List (String × String) :=
  KeyedTable.keys (KeyedTable.ofEntries (actions.map fun action => (groupKey action, ())))

def isReplaceCancel (action : LifecycleAction) : Bool :=
  action.actionType = .cancel && action.reason = "replace_cancel"

def isReplaceSubmit (action : LifecycleAction) : Bool :=
  action.actionType = .submit && action.reason = "replace_submit"

structure Bucket where
  cancel : List LifecycleAction
  submit : List LifecycleAction
  other : List LifecycleAction

def bucketOf (actions : List LifecycleAction) (key : String × String) : Bucket :=
  let own := actions.filter fun action => groupKey action = key
  { cancel := own.filter isReplaceCancel
    submit := own.filter isReplaceSubmit
    other := own.filter fun action => ¬ isReplaceCancel action ∧ ¬ isReplaceSubmit action }

/-- Cancels and submits of a bucket that has both make a group, with the last submit. -/
def Bucket.group (bucket : Bucket) (key : String × String) : Option ReplaceGroup :=
  match bucket.cancel, bucket.submit.getLast? with
  | _ :: _, some selected =>
    some ⟨key.1, key.2, bucket.cancel, selected, bucket.submit.length⟩
  | _, _ => none

def Bucket.regular (bucket : Bucket) (key : String × String) : List LifecycleAction :=
  bucket.other ++
    match bucket.group key with
    | some _ => []
    | none => bucket.cancel ++ bucket.submit

def extractReplaceGroups (actions : List LifecycleAction) :
    List LifecycleAction × List ReplaceGroup :=
  ((groupKeys actions).flatMap fun key => (bucketOf actions key).regular key,
    (groupKeys actions).filterMap fun key => (bucketOf actions key).group key)

end Groups

section Replace

variable (env : Env) (settings : Settings)

def oldIdsOf (group : ReplaceGroup) : List String :=
  (group.cancelActions.filterMap LifecycleAction.clientOrderId).filter (· ≠ "")

def replaceTxIdOf (group : ReplaceGroup) : String :=
  let named := fun id : Option String => if truthy id then id.getD "" else "missing"
  let oldIds := (group.cancelActions.map fun action => named action.clientOrderId).insertionSort
    (· ≤ ·)
  let payload := "|".intercalate
    ([group.symbol, group.side, named group.submitAction.clientOrderId] ++ oldIds)
  "rpl:" ++ String.ofList ((env.sha256 payload).toList.take 24)

def setReplaceTxState (replaceTxId : String) (state : ReplaceTxState)
    (lastError : Option String) : Exec Unit :=
  writeReplaceTxs env fun txs now => updateReplaceTxState txs now replaceTxId state lastError

def cancelAll (actions : List LifecycleAction) (live : Bool) : Exec ℕ :=
  actions.foldlM (fun canceled action => do
    let more ← executeCancelAction env settings action live
    pure (canceled + more)) 0

def errorTypeName : Exc → String
  | .timeoutException _ => "TimeoutException"
  | .networkError _ => "NetworkError"
  | .httpStatusError _ _ => "HTTPStatusError"
  | .exchangeError _ => "ExchangeError"
  | .transportError _ => "TransportError"
  | .timeoutError _ => "TimeoutError"
  | .valueError _ => "ValueError"
  | .runtimeError _ => "RuntimeError"
  | _ => "Exception"

/-- Why one old order keeps a replacement from going on. -/
def unconfirmed (openIds : List (Option String)) (orders : List OrderRow) (oldId : String) :
    Option String :=
  if some oldId ∈ openIds then some ("old_id_still_open:" ++ oldId)
  else
    match getStage4OrderByClientId orders oldId with
    | none => some ("local_missing_record:" ++ oldId)
    | some row =>
      if row.status.terminal then none
      else some ("local_state_not_terminal:" ++ oldId ++ ":" ++ statusText row.status)

/-- Why the cancels of a group are not confirmed, if they are not. -/
def confirmReplaceCancels (group : ReplaceGroup) : Exec (Option String) :=
  tryExcept
    (do
      let openIds ← callExchange (fun n => env.listOpenOrders n group.symbol)
        (.openOrders group.symbol)
      let w ← get
      pure ((oldIdsOf group).findSome? (unconfirmed openIds w.orders)))
    fun exc => pure (some ("reconcile_failed:" ++ errorTypeName exc))

structure Totals where
  submitted : ℕ := 0
  canceled : ℕ := 0
  simulated : ℕ := 0
  rejected : ℕ := 0
  rejectedMinNotional : ℕ := 0
  deriving DecidableEq, Repr

def Totals.plus (totals : Totals) (counts : Counts) : Totals :=
  { totals with
    submitted := totals.submitted + counts.submitted
    simulated := totals.simulated + counts.simulated
    rejected := totals.rejected + counts.rejected
    rejectedMinNotional := totals.rejectedMinNotional + counts.rejectedMinNotional }

/-- The submission of a group whose cancels are confirmed. -/
def submitReplacement (group : ReplaceGroup) (replaceTxId : String) (live : Bool) :
    Exec Counts := do
  setReplaceTxState env replaceTxId .cancelConfirmed none
  setReplaceTxState env replaceTxId .submitSent none
  let counts ← executeSubmitAction env settings
    (some ⟨replaceTxId, group.symbol, group.side, oldIdsOf group⟩)
    { group.submitAction with actionType := .submit, exchangeOrderId := none } live
  if 0 < counts.submitted ∨ 0 < counts.simulated then
    setReplaceTxState env replaceTxId .submitConfirmed none
  else if 0 < counts.rejected then
    setReplaceTxState env replaceTxId .failed (some "submit_rejected")
  pure counts

/-- A group whose transaction may go on. -/
def advanceReplace (group : ReplaceGroup) (replaceTxId : String) (live : Bool) :
    Exec Totals := do
  let w ← get
  if w.freeze.active then do
    setReplaceTxState env replaceTxId .blockedUnknown (some "freeze_unknown_orders")
    pure {}
  else do
    let canceled ← cancelAll env settings group.cancelActions live
    setReplaceTxState env replaceTxId .cancelSent none
    let reason ← confirmReplaceCancels env group
    match reason with
    | some reason => do
      setReplaceTxState env replaceTxId .blockedReconcile (some reason)
      pure { canceled := canceled }
    | none => do
      let counts ← submitReplacement env settings group replaceTxId live
      pure (Totals.plus { canceled := canceled } counts)

/-- A stored transaction is compared without the underscores of its symbol. -/
def metadataMismatch (tx : ReplaceTx) (group : ReplaceGroup) (newId : String) : Bool :=
  tx.symbol.toList.filter (· ≠ '_') ≠ group.symbol.toList.filter (· ≠ '_') ||
    tx.side ≠ group.side || !sameIds tx.oldClientOrderIds (oldIdsOf group) ||
    tx.newClientOrderId ≠ newId

def executeReplaceGroup (group : ReplaceGroup) (live : Bool) : Exec Totals := do
  let replaceTxId := replaceTxIdOf env group
  let newId := group.submitAction.clientOrderId.getD ""
  if newId = "" ∨ oldIdsOf group = [] then pure {}
  else do
    let w ← get
    match w.replaceTxs[replaceTxId]? with
    | none => do
      writeReplaceTxs env fun txs now =>
        upsertReplaceTx txs now replaceTxId group.symbol group.side (oldIdsOf group) newId .init
          none
      advanceReplace env settings group replaceTxId live
    | some tx =>
      if metadataMismatch tx group newId then do
        setReplaceTxState env replaceTxId tx.state (some "replace_tx_metadata_mismatch")
        pure {}
      else if tx.state.terminal then pure {}
      else advanceReplace env settings group replaceTxId live

end Replace

section Report

variable (env : Env) (settings : Settings)

def Settings.killSwitchActive (settings : Settings) : Bool :=
  settings.killSwitchEffective.getD settings.killSwitch

def allowedByGate (freezeAll : Bool) (action : LifecycleAction) : Bool :=
  action.actionType = .cancel && !freezeAll

/-- What a gate lets through: cancels, unless it freezes all. -/
def gateActions (freezeAll : Bool) (actions : List LifecycleAction × List ReplaceGroup) :
    List LifecycleAction × List ReplaceGroup :=
  (actions.1.filter (allowedByGate freezeAll),
    actions.2.filter fun group => ¬ freezeAll ∧ group.cancelActions ≠ [])

def executeRegular (live : Bool) (totals : Totals) (action : LifecycleAction) : Exec Totals :=
  match action.actionType with
  | .cancel => do
    let canceled ← executeCancelAction env settings action live
    pure { totals with canceled := totals.canceled + canceled }
  | .submit => do
    let counts ← executeSubmitAction env settings none action live
    pure (totals.plus counts)
  | .replace => pure totals

def Totals.add (a b : Totals) : Totals :=
  ⟨a.submitted + b.submitted, a.canceled + b.canceled, a.simulated + b.simulated,
    a.rejected + b.rejected, a.rejectedMinNotional + b.rejectedMinNotional⟩

def executeGroup (gated live : Bool) (totals : Totals) (group : ReplaceGroup) : Exec Totals :=
  if gated then do
    let canceled ← cancelAll env settings group.cancelActions live
    pure { totals with canceled := totals.canceled + canceled }
  else do
    let more ← executeReplaceGroup env settings group live
    pure (totals.add more)

/-- The actions left by the kill switch and by the freeze. -/
def gatedActions (freezeActive : Bool) (actions : List LifecycleAction) :
    List LifecycleAction × List ReplaceGroup :=
  let extracted := extractReplaceGroups actions
  let killed := if settings.killSwitchActive then
    gateActions settings.killSwitchFreezeAll extracted else extracted
  if freezeActive then gateActions settings.killSwitchFreezeAll killed else killed

def executeWithReport (actions : List LifecycleAction) : Exec Totals := do
  if settings.liveTrading ∧ ¬ settings.isLiveTradingEnabled then
    throw (.runtimeError "LIVE_TRADING requires LIVE_TRADING_ACK=I_UNDERSTAND")
  else do
    let live := settings.isLiveTradingEnabled && !settings.dryRun
    let w ← get
    let gated := settings.killSwitchActive || w.freeze.active
    let left := gatedActions settings w.freeze.active actions
    let totals ← left.1.foldlM (executeRegular env settings live) {}
    left.2.foldlM (executeGroup env settings gated live) totals

end Report

section Sample

/-- Armed live trading. -/
def sampleSettings : Settings where
  liveTrading := true
  liveTradingAck := true
  dryRun := false
  killSwitch := false
  minOrderNotionalTry := 0

def sampleRules : ExchangeRules := ⟨1, 1, 0, 0, 0⟩

/-- An exchange that answers every submission and every cancel alike and has no open
orders; the clock is a second further on every reading. -/
def sampleEnv (submitAnswer : Except Exc String) (cancelAnswer : Except Exc Bool) : Env where
  sha256 _ := "0123456789abcdef0123456789abcdef0123456789abcdef0123456789abcdef"
  now n := n * 1000000
  cooldown _ _ := .inactive
  rules _ _ := .found sampleRules
  submitLimitOrder _ _ := submitAnswer
  cancelOrder _ _ := cancelAnswer
  listOpenOrders _ _ := .ok []

def sampleAction (actionType : LifecycleActionType) (reason clientOrderId : String) :
    LifecycleAction where
  actionType := actionType
  symbol := "BTCTRY"
  side := "buy"
  price := 10
  qty := 1
  reason := reason
  clientOrderId := some clientOrderId

def sampleRow (id : ℕ) (clientOrderId : String) (status : OrderStatus) : OrderRow where
  id := id
  symbol := "BTCTRY"
  clientOrderId := some clientOrderId
  exchangeClientId := none
  exchangeOrderId := some ("ex-" ++ clientOrderId)
  side := "buy"
  price := 10
  qty := 1
  status := status
  mode := .live
  lastError := none
  lastErrorCode := none
  createdAt := 0
  updatedAt := 0

def sampleWorld (orders : List OrderRow) : World := ⟨orders, ∅, ⟨false, none⟩, 0, []⟩

end Sample

end Stage4Execute
