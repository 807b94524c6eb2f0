import Btcbot.Spending
import Btcbot.Stage3Frame

/-!
# The balance precheck over a batch

A live call reads one snapshot of the balances and checks every intent against it, whatever
the intents before it have taken. An order counts as submitted when the exchange creates it
at a place call of its intent, also when the call raises afterwards: the log of the service,
which only grows, has one entry for each.
-/
namespace Stage3Service

open PyData ExchangeErrors OrderSizing Stage3Store Stage3Intent Idempotency ExecutionWrapper Effects
open Spending (spent LaterCovered)

section Log

/-- Nothing is taken out of the log. -/
structure Grows (s t : Sys) : Prop where
  events : s.events <+: t.events

instance : IsPreorder Sys Grows where
  refl _ := ⟨List.prefix_rfl⟩
  trans _ _ _ h g := ⟨h.events.trans g.events⟩

variable (env : Env) (config : Config)

theorem grows_untouched {α : Type} {m : ExecM α} (h : Keeps Untouched m) : Keeps Grows m :=
  h.imp fun _ _ hst => ⟨hst.events.symm ▸ List.prefix_rfl⟩

theorem grows_emit (event : Event) : Keeps Grows (emit event) :=
  Keeps.modify fun _ => ⟨List.prefix_append _ _⟩

theorem grows_setRegistry (f : Sys → Dict UnknownOrderRecord) : Keeps Grows (setRegistry f) :=
  Keeps.modify fun _ => ⟨List.prefix_append _ _⟩

theorem grows_writeIdempotency (f : ℤ → IdempotencyTable → IdempotencyTable) :
    Keeps Grows (writeIdempotency env f) :=
  (grows_untouched (keeps_now env)).bind fun _ => Keeps.modify fun _ => ⟨List.prefix_rfl⟩

theorem grows_writeActions (f : List ActionRow → List ActionRow) :
    Keeps Grows (writeActions env f) :=
  (grows_untouched (keeps_point env)).bind fun _ => Keeps.modify fun _ => ⟨List.prefix_rfl⟩

theorem grows_reserveKey (k : RowKey) (args : ReserveArgs) :
    Keeps Grows (reserveKey env k args) := by
  refine (grows_untouched (keeps_now env)).bind fun t => Keeps.get.bind fun s => ?_
  cases reserveIdempotencyKey (toEpoch t) s.idempotency k args with
  | error conflict => exact Keeps.throw _
  | ok reserved => exact (Keeps.modify fun _ => ⟨List.prefix_rfl⟩).bind fun _ => Keeps.pure _

theorem grows_addAction (cycleId actionType payloadHash dedupeKey : String) :
    Keeps Grows (addAction env cycleId actionType payloadHash dedupeKey) :=
  (grows_untouched (keeps_now env)).bind fun _ => Keeps.get.bind fun _ =>
    (Keeps.modify fun _ => ⟨List.prefix_rfl⟩).bind fun _ => Keeps.pure _

theorem grows_submitLimitOrder (p : Placement) : Keeps Grows (submitLimitOrder env config p) := by
  have hcall (number : ℕ) : Keeps Grows (submitCall env config p number) := by
    have hplace : Keeps Grows (do
        let tick ← point env
        let s ← get
        let answer := env.placeOrder tick p.request
        emit (.place {
          key := p.key
          clientOrderId := p.clientOrderId
          attempt := number
          maxAttempts := max 1 config.submitRetryMaxAttempts
          unknownOrders := (listUnknownOrders s.orders).map StoredOrder.orderId
          registryUnknown := s.registry.keys
          answer := answer })
        liftExcept answer.result) :=
      (grows_untouched (keeps_point env)).bind fun _ => Keeps.get.bind fun _ =>
        (grows_emit _).bind fun _ => keeps_liftExcept _
    exact Keeps.ite ((Keeps.throw _).bind fun _ => hplace) hplace
  refine (grows_setRegistry _).bind fun _ => Keeps.get.bind fun s => ?_
  refine Keeps.ite ?_ (Keeps.throw _)
  refine (attempts_keeps .submit (grows_untouched ((ticks_sleep env).imp fun _ _ h => h.untouched))
    hcall _ _).bind fun result => ?_
  cases result with
  | uncertainResult exc => exact Keeps.pure _
  | value ack => exact (keeps_liftExcept _).bind fun _ => Keeps.pure _

theorem grows_reconcileSubmit (p : Placement) : Keeps Grows (reconcileSubmit env p) := by
  refine (keeps_attempt (grows_untouched (keeps_findSubmitted env p))).bind fun r => ?_
  cases r with
  | error exc => exact Keeps.pure _
  | ok outcome =>
    dsimp only
    split
    · exact (grows_emit _).bind fun _ => Keeps.pure _
    · exact Keeps.pure _

theorem grows_finalizePlace (p : Placement) (actionId : Option ℕ) (orderId : Option String)
    (status : IdempotencyStatus) : Keeps Grows (finalizePlace env p actionId orderId status) :=
  grows_writeIdempotency env fun _ table => finalizeIdempotencyKey table ("place_order", p.key)
    ⟨actionId, some p.clientOrderId, orderId, status⟩

theorem grows_markSubmitUnknown (p : Placement) (actionId : ℕ) (outcome : ReconcileOutcome) :
    Keeps Grows (markSubmitUnknown env p actionId outcome) :=
  (grows_writeActions env _).bind fun _ => (grows_finalizePlace env _ _ _ _).bind fun _ =>
    (grows_untouched (keeps_now env)).bind fun _ =>
      (grows_untouched (keeps_storeOrder env _)).bind fun _ => grows_setRegistry _

theorem grows_commitPlaced (p : Placement) (actionId : ℕ) (orderId : String) :
    Keeps Grows (commitPlaced env p actionId orderId) :=
  (grows_writeActions env _).bind fun _ => grows_finalizePlace env _ _ _ _

theorem grows_storePlaced (p : Placement) (actionId : ℕ) (orderId : String) :
    Keeps Grows (storePlaced env p actionId orderId) :=
  (grows_untouched (keeps_now env)).bind fun _ =>
    (grows_untouched (keeps_storeOrder env _)).bind fun _ =>
      grows_commitPlaced env p actionId orderId

theorem grows_settleUncertainError (p : Placement) (actionId : ℕ) :
    Keeps Grows (settleUncertainError env p actionId) := by
  refine (grows_reconcileSubmit env p).bind fun outcome => ?_
  split
  · refine (grows_untouched (keeps_now env)).bind fun _ => ?_
    refine (grows_untouched (keeps_now env)).bind fun _ => ?_
    refine (grows_untouched (keeps_storeOrder env _)).bind fun _ => ?_
    refine (grows_untouched (keeps_storeOrderStatus env _)).bind fun _ => ?_
    exact (grows_commitPlaced env p actionId _).bind fun _ => Keeps.pure _
  · exact (grows_markSubmitUnknown env p actionId outcome).bind fun _ => Keeps.pure _

theorem grows_settleUncertainResult (p : Placement) (actionId : ℕ) :
    Keeps Grows (settleUncertainResult env p actionId) := by
  refine (grows_reconcileSubmit env p).bind fun outcome => ?_
  split
  · exact (grows_storePlaced env p actionId _).bind fun _ => Keeps.pure _
  · exact (grows_markSubmitUnknown env p actionId outcome).bind fun _ => Keeps.pure _

theorem grows_rejectSubmit (p : Placement) (actionId : ℕ) (exc : Exc) :
    Keeps Grows (rejectSubmit env p actionId exc) :=
  (grows_untouched (keeps_now env)).bind fun _ => (grows_untouched (keeps_now env)).bind fun _ =>
    (grows_untouched (keeps_now env)).bind fun _ =>
      (grows_untouched (keeps_storeOrder env _)).bind fun _ =>
        (grows_finalizePlace env _ _ _ _).bind fun _ => grows_writeActions env _

theorem grows_submitAndSettle (acc : ExecuteSummary) (p : Placement) (actionId : ℕ) :
    Keeps Grows (submitAndSettle env config acc p actionId) := by
  refine (keeps_attempt (grows_submitLimitOrder env config p)).bind fun r => ?_
  split
  · exact Keeps.throw _
  · exact Keeps.ite
      ((grows_settleUncertainError env p actionId).bind fun _ => Keeps.pure _)
      ((grows_rejectSubmit env p actionId _).bind fun _ => Keeps.pure _)
  · exact (grows_settleUncertainResult env p actionId).bind fun _ => Keeps.pure _
  · exact (grows_storePlaced env p actionId _).bind fun _ => Keeps.pure _

theorem grows_placeReserved (acc : ExecuteSummary) (p : Placement) :
    Keeps Grows (placeReserved env config acc p) := by
  refine (grows_finalizePlace env p _ _ _).bind fun _ => ?_
  refine (grows_addAction env _ _ _ _).bind fun r => ?_
  cases r with
  | none =>
    refine Keeps.bind (Keeps.get.bind fun s => ?_) fun _ => Keeps.pure _
    cases getActionByDedupeKey s.actions _ with
    | none => exact (grows_writeIdempotency env _).bind fun _ => Keeps.pure _
    | some row =>
      exact (grows_emit _).bind fun _ => (grows_writeIdempotency env _).bind fun _ => Keeps.pure _
  | some actionId =>
    refine (grows_finalizePlace env p _ _ _).bind fun _ => ?_
    refine Keeps.ite ?_ (grows_submitAndSettle env config acc p actionId)
    exact (grows_writeActions env _).bind fun _ =>
      (grows_finalizePlace env p _ _ _).bind fun _ => Keeps.pure _

theorem grows_handleDuplicate (symbol key : String) (row : IdempotencyRow) :
    Keeps Grows (handleDuplicate env config symbol key row) := by
  refine (grows_untouched (keeps_now env)).bind fun t => ?_
  dsimp only
  split
  · exact Keeps.pure _
  refine Keeps.ite ?_ (Keeps.pure _)
  refine (grows_untouched (keeps_now env)).bind fun u => Keeps.ite (Keeps.pure _) ?_
  refine (keeps_attempt (grows_untouched (keeps_lookupStalePending env _ _))).bind fun r => ?_
  split
  · exact grows_writeIdempotency env _
  · exact (grows_emit _).bind fun _ => (grows_writeIdempotency env _).bind fun _ =>
      grows_writeIdempotency env _
  · exact (grows_writeIdempotency env _).bind fun _ => grows_writeIdempotency env _

theorem grows_placeIntent (acc : ExecuteSummary) (intent : OrderIntent) (raw : Option Intent)
    (sizing : OrderSizingResult) : Keeps Grows (placeIntent env config acc intent raw sizing) := by
  refine (grows_untouched (keeps_rulesForHash env config _)).bind fun rules => ?_
  refine (grows_reserveKey env _ _).bind fun reservation => ?_
  refine Keeps.ite (grows_placeReserved env config acc _) ?_
  exact (grows_handleDuplicate env config _ _ _).bind fun _ => Keeps.pure _

theorem grows_processIntent (balances : Option (Dict ℚ)) (acc : ExecuteSummary)
    (item : OrderIntent × Option Intent) :
    Keeps Grows (processIntent env config balances acc item) := by
  obtain ⟨intent, raw⟩ := item
  have hplace (sizing : OrderSizingResult) := grows_placeIntent env config acc intent raw sizing
  have hsize : Keeps Grows (do
      let sizing ← sizeIntent env config intent
      if sizing.status ≠ .ok then pure (acc.rejectedSizing config sizing.status)
      else if config.dryRun then placeIntent env config acc intent raw sizing
      else do
        let check ← liftExcept (checkBalancePrecondition config balances
          (normalizeSymbol intent.symbol) intent.side sizing.quantizedPrice
          sizing.quantizedQuantity)
        if check.sufficient then placeIntent env config acc intent raw sizing
        else pure { acc with
          intentsRejectedPrecheck := acc.intentsRejectedPrecheck + 1
          rejectedIntents := acc.rejectedIntents + 1 }) := by
    refine (grows_untouched (keeps_sizeIntent env config intent)).bind fun sizing => ?_
    refine Keeps.ite (Keeps.pure _) (Keeps.ite (hplace sizing) ?_)
    exact (keeps_liftExcept _).bind fun check => Keeps.ite (hplace sizing) (Keeps.pure _)
  refine Keeps.ite ?_ hsize
  exact (grows_untouched (keeps_ensureLiveSideEffectsAllowed config)).bind fun _ => hsize

end Log

/-- What an order takes from the snapshot: a BUY the quote currency that the precheck
requires, a SELL its quantity. -/
structure SubmittedOrder where
  side : OrderSide
  asset : String
  amount : ℚ
  deriving DecidableEq, Repr

def SubmittedOrder.purse (order : SubmittedOrder) : OrderSide × String := (order.side, order.asset)

/-- The precheck looks at no less than the order takes: not so for a SELL under a negative fee. -/
def SubmittedOrder.Prechecked (config : Config) (order : SubmittedOrder) : Prop :=
  order.side = .sell → 0 ≤ config.sellFeeInBaseBps

section Submitted

variable (env : Env) (config : Config)

/-- The quote currency that each unit of notional requires. -/
def requiredFactor : ℚ := 1 + config.estimatedFeeBps / 10000 + config.balanceSafetyBufferRatio

def orderTaken (intent : OrderIntent) (sizing : OrderSizingResult) : Option SubmittedOrder :=
  match deriveSymbolAssets config (normalizeSymbol intent.symbol), intent.side with
  | .error _, _ => none
  | .ok (_, quoteAsset), .buy =>
    some ⟨.buy, config.executionQuoteAssetOverride.getD quoteAsset,
      sizing.quantizedPrice * sizing.quantizedQuantity * requiredFactor config⟩
  | .ok (baseAsset, _), .sell => some ⟨.sell, baseAsset, sizing.quantizedQuantity⟩

/-- How many orders the exchange created between the two states. -/
def createdSince (s t : Sys) : ℕ :=
  (t.events.drop s.events.length).countP fun event => match event with
    | .place attempt => attempt.answer.creates
    | _ => false

variable (balances : Option (Dict ℚ))

/-- The orders of an intent: the exchange may create one at the first try and one at a retry. -/
def submittedAt (acc : ExecuteSummary) (item : OrderIntent × Option Intent) (s : Sys) :
    List SubmittedOrder :=
  match sizeIntent env config item.1 s with
  | .ok sizing _ =>
    (orderTaken config item.1 sizing).toList.flatMap
      (List.replicate (createdSince s (stateAfter (processIntent env config balances acc item) s)))
  | .error _ _ => []

/-- The orders that the loop over the intents submits, up to the intent that raises. -/
def submittedOrders : List (OrderIntent × Option Intent) → ExecuteSummary → Sys →
    List SubmittedOrder
  | [], _, _ => []
  | item :: items, acc, s =>
    submittedAt env config balances acc item s ++
      match processIntent env config balances acc item s with
      | .ok acc' t => submittedOrders items acc' t
      | .error _ _ => []

/-- Every order the loop submits on a purse that earlier ones have taken from fits what they
leave of the snapshot. -/
def LaterFits (free : OrderSide × String → ℚ) : List SubmittedOrder →
    List (OrderIntent × Option Intent) → ExecuteSummary → Sys → Prop
  | _, [], _, _ => True
  | earlier, item :: items, acc, s =>
    LaterCovered SubmittedOrder.purse SubmittedOrder.amount (SubmittedOrder.Prechecked config) free
      earlier (submittedAt env config balances acc item s) ∧
    match processIntent env config balances acc item s with
    | .ok acc' t =>
      LaterFits free (earlier ++ submittedAt env config balances acc item s) items acc' t
    | .error _ _ => True

/-- The checks made once a call, and the snapshot when they pass. -/
def startGuarded (intents : List (OrderIntent × Option Intent)) :
    ExecM (Option (Option (Dict ℚ) × List (OrderIntent × Option Intent))) := do
  let s ← get
  if s.safeMode || s.killSwitch then pure none
  else do
    let guarded ← submissionGuardedByRuntimeState env config
    if guarded then pure none
    else do
      let s ← get
      if s.registry.isEmpty then do
        let balances ← if config.dryRun then pure none
          else getCycleBalances env (intents.head?.map fun item => item.1.cycleId)
        pure (some (balances, intents))
      else throw (.submitBlockedDueToUnknown "submit blocked while unknown orders exist")

/-- The part of a call before the intents are looked at. -/
def startSubmission (raws : List RawIntent) (cycleId : Option String) :
    ExecM (Option (Option (Dict ℚ) × List (OrderIntent × Option Intent))) := do
  let intents ← liftExcept (raws.mapM (normalizeIntent config.text cycleId))
  refreshOnce env config intents
  pruneKeys env
  modify fun s => { s with lastExecuteSummary := some {} }
  syncUnknownRegistryFromStore false
  startGuarded env config intents

/-- The loop over the intents, when the call gets there. -/
def submitStarted : Option (Option (Dict ℚ) × List (OrderIntent × Option Intent)) → ExecM ℕ
  | none => pure 0
  | some (balances, intents) => do
    let summary ← intents.foldlM (processIntent env config balances) {}
    modify fun s => { s with lastExecuteSummary := some summary }
    pure summary.ordersSubmitted

theorem guardAndSubmit_eq (intents : List (OrderIntent × Option Intent)) :
    guardAndSubmit env config intents =
      startGuarded env config intents >>= submitStarted env config := by
  rw [guardAndSubmit, startGuarded, bind_assoc]
  refine bind_congr fun s => ?_
  split
  · rfl
  · rw [bind_assoc]
    refine bind_congr fun guarded => ?_
    split
    · rfl
    · rw [bind_assoc]
      refine bind_congr fun t => ?_
      split
      · rw [submitIntents]
        by_cases hdry : config.dryRun
        · simp only [hdry, if_true, pure_bind]
          rfl
        · simp only [hdry, if_false, Bool.false_eq_true, bind_assoc, pure_bind]
          rfl
      · rfl

/-- A call is its first part and the loop over the intents. -/
theorem executeIntents_eq (raws : List RawIntent) (cycleId : Option String) :
    executeIntents env config raws cycleId =
      startSubmission env config raws cycleId >>= submitStarted env config := by
  simp only [executeIntents, startSubmission, guardAndSubmit_eq, bind_assoc]

end Submitted

section Checked

variable {env : Env} {config : Config}

theorem createdSince_same {s t : Sys} (h : t.events = s.events) : createdSince s t = 0 := by
  rw [createdSince, h, List.drop_length]
  rfl

theorem stateAfter_bind {α β : Type} (m : ExecM α) (f : α → ExecM β) (s : Sys) :
    stateAfter (m >>= f) s = match m s with
      | .ok a t => stateAfter (f a) t
      | .error _ t => t := by
  simp only [stateAfter, bind, EStateM.bind]
  cases m s <;> rfl

theorem ensureLive_cases (s : Sys) : ensureLiveSideEffectsAllowed config s = .ok () s ∨
    ∃ exc, ensureLiveSideEffectsAllowed config s = .error exc s := by
  have hends : Ends (ensureLiveSideEffectsAllowed config) s (fun _ t => t = s)
      (fun _ t => t = s) := by
    unfold ensureLiveSideEffectsAllowed
    rw [ends_bind, ends_get]
    cases policyReasons config s.killSwitch with
    | nil => rfl
    | cons reason rest => rfl
  unfold Ends at hends
  cases hlive : ensureLiveSideEffectsAllowed config s with
  | ok value t =>
    rw [hlive] at hends
    cases hends
    exact .inl rfl
  | error exc t =>
    rw [hlive] at hends
    cases hends
    exact .inr ⟨exc, rfl⟩

theorem sizeIntent_events (intent : OrderIntent) (s : Sys) :
    (∀ sizing t, sizeIntent env config intent s = .ok sizing t → t.events = s.events) ∧
    ∀ exc t, sizeIntent env config intent s = .error exc t → t.events = s.events := by
  have hkeeps := keeps_sizeIntent env config intent s
  rw [Ends] at hkeeps
  constructor
  · intro sizing t h
    rw [h] at hkeeps
    exact hkeeps.events
  · intro exc t h
    rw [h] at hkeeps
    exact hkeeps.events

/-- An order is created only for an intent that was sized and passed the precheck. -/
theorem created_checked {balances : Option (Dict ℚ)} {acc : ExecuteSummary}
    {item : OrderIntent × Option Intent} {s : Sys} (hlive : config.dryRun = false)
    (h : 0 < createdSince s (stateAfter (processIntent env config balances acc item) s)) :
    ∃ sizing t check, sizeIntent env config item.1 s = .ok sizing t ∧ sizing.status = .ok ∧
      checkBalancePrecondition config balances (normalizeSymbol item.1.symbol) item.1.side
        sizing.quantizedPrice sizing.quantizedQuantity = .ok check ∧ check.sufficient = true := by
  have hsame {t : Sys} (hevents : t.events = s.events) (hcreated : 0 < createdSince s t) :
      False := by
    rw [createdSince_same hevents] at hcreated
    exact lt_irrefl 0 hcreated
  obtain ⟨intent, raw⟩ := item
  obtain ⟨hsized, hraised⟩ := @sizeIntent_events env config intent s
  simp only [processIntent, hlive, if_true] at h
  rw [stateAfter_bind] at h
  rcases @ensureLive_cases config s with hallowed | ⟨exc, hblocked⟩
  · rw [hallowed] at h
    dsimp only at h
    rw [stateAfter_bind] at h
    cases hsize : sizeIntent env config intent s with
    | error exc t =>
      rw [hsize] at h
      exact (hsame (hraised exc t hsize) h).elim
    | ok sizing t =>
      rw [hsize] at h
      dsimp only at h
      have hevents := hsized sizing t hsize
      split at h
      · exact (hsame hevents h).elim
      · next hstatus =>
        rw [if_neg Bool.false_ne_true, stateAfter_bind] at h
        cases hcheck : checkBalancePrecondition config balances (normalizeSymbol intent.symbol)
            intent.side sizing.quantizedPrice sizing.quantizedQuantity with
        | error exc =>
          rw [hcheck] at h
          exact (hsame hevents h).elim
        | ok check =>
          rw [hcheck] at h
          refine ⟨sizing, t, check, rfl, not_not.mp hstatus, hcheck, ?_⟩
          by_contra hinsufficient
          have hnot : check.sufficient = false := by simpa using hinsufficient
          change 0 < createdSince s (stateAfter (if check.sufficient = true then _ else _) t) at h
          rw [hnot] at h
          exact (hsame hevents h).elim
  · rw [hblocked] at h
    exact (hsame rfl h).elim

/-- A live call sizes every order it goes on with to a positive price and quantity. -/
theorem sizeIntent_positive {intent : OrderIntent} {s t : Sys} {sizing : OrderSizingResult}
    (hlive : config.dryRun = false) (h : sizeIntent env config intent s = .ok sizing t)
    (hok : sizing.status = .ok) : 0 < sizing.quantizedPrice ∧ 0 < sizing.quantizedQuantity := by
  simp only [sizeIntent, hlive, Bool.and_false, Bool.false_eq_true, if_false, bind,
    EStateM.bind] at h
  split at h
  · next rules u hrules =>
    cases hsized : sizeOrderFromNotional intent.notional intent.price rules
        config.fallbackMinNotionalTry config.allowMinNotionalUpgrade with
    | error exc =>
      rw [hsized] at h
      cases h
    | ok result =>
      rw [hsized] at h
      obtain ⟨rfl, -⟩ := EStateM.Result.ok.inj h
      exact sizeOrder_positive hsized hok
  · cases h

/-- What the precheck of an order tells about its amount. -/
def SubmittedOrder.Checked (config : Config) (balances : Dict ℚ) (order : SubmittedOrder) : Prop :=
  (order.Prechecked config → order.amount ≤ balances[order.asset]?.getD 0) ∧
  match order.side with
  | .buy => ∃ notional, 0 < notional ∧ order.amount = notional * requiredFactor config
  | .sell => 0 < order.amount

theorem checkAvailable_sufficient {asset : String} {required available : ℚ}
    (h : (checkAvailable asset required available).sufficient = true) : required ≤ available := by
  rw [checkAvailable] at h
  split at h
  · cases h
  · next hnot => exact not_lt.mp hnot

theorem submittedAt_checked {balances : Dict ℚ} {acc : ExecuteSummary}
    {item : OrderIntent × Option Intent} {s : Sys} {order : SubmittedOrder}
    (hlive : config.dryRun = false) (hbalances : balances.isEmpty = false)
    (h : order ∈ submittedAt env config (some balances) acc item s) :
    order.Checked config balances := by
  rw [submittedAt] at h
  split at h
  case h_2 => cases h
  next taken u htaken =>
  obtain ⟨same, horder, hin⟩ := List.mem_flatMap.mp h
  obtain ⟨hnonzero, rfl⟩ := List.mem_replicate.mp hin
  obtain ⟨sizing, t, check, hsize, hok, hcheck, hsufficient⟩ :=
    created_checked hlive (Nat.pos_of_ne_zero hnonzero)
  obtain ⟨rfl, rfl⟩ := EStateM.Result.ok.inj (htaken.symm.trans hsize)
  obtain ⟨hprice, hquantity⟩ := sizeIntent_positive hlive hsize hok
  rw [Option.mem_toList, orderTaken] at horder
  cases hassets : deriveSymbolAssets config (normalizeSymbol item.1.symbol) with
  | error exc =>
    rw [hassets] at horder
    cases horder
  | ok assets =>
    obtain ⟨baseAsset, quoteAsset⟩ := assets
    simp only [checkBalancePrecondition, hassets, bind, Except.bind, Option.filter, hbalances,
      Bool.not_false, if_true] at hcheck
    rw [hassets] at horder
    cases hside : item.1.side with
    | buy =>
      rw [hside] at horder hcheck
      obtain rfl := Option.some.inj horder
      obtain rfl := Except.ok.inj hcheck
      have hfits := checkAvailable_sufficient hsufficient
      refine ⟨fun _ => le_of_eq_of_le ?_ hfits, _, mul_pos hprice hquantity, rfl⟩
      rw [requiredFactor]
      ring
    | sell =>
      rw [hside] at horder hcheck
      obtain rfl := Option.some.inj horder
      obtain rfl := Except.ok.inj hcheck
      have hfits := checkAvailable_sufficient hsufficient
      refine ⟨fun hchecked => le_trans ?_ hfits, hquantity⟩
      have hfee : 0 ≤ config.sellFeeInBaseBps / 10000 :=
        div_nonneg (hchecked rfl) (by norm_num)
      exact le_add_of_nonneg_right (mul_nonneg hquantity.le hfee)

theorem submittedOrders_checked {balances : Dict ℚ} (hlive : config.dryRun = false)
    (hbalances : balances.isEmpty = false) (items : List (OrderIntent × Option Intent))
    (acc : ExecuteSummary) (s : Sys) :
    ∀ order ∈ submittedOrders env config (some balances) items acc s,
      order.Checked config balances := by
  induction items generalizing acc s with
  | nil => exact fun order horder => (List.not_mem_nil horder).elim
  | cons item items ih =>
    intro order horder
    rw [submittedOrders] at horder
    rcases List.mem_append.mp horder with hfirst | hrest
    · exact submittedAt_checked hlive hbalances hfirst
    · split at hrest
      · exact ih _ _ order hrest
      · cases hrest

theorem createdSince_trans {s t u : Sys} (hst : Grows s t) (htu : Grows t u) :
    createdSince s u = createdSince s t + createdSince t u := by
  obtain ⟨added, hadded⟩ := hst.events
  obtain ⟨more, hmore⟩ := htu.events
  simp only [createdSince, ← hmore, ← hadded, List.append_assoc, List.drop_left,
    List.drop_length_add_append, List.length_append, List.countP_append]

theorem grows_after {α : Type} {m : ExecM α} (h : Keeps Grows m) (s : Sys) :
    Grows s (stateAfter m s) := by
  have hends := h s
  unfold Ends at hends
  unfold stateAfter
  cases hm : m s with
  | ok a t => simpa [hm] using hends
  | error exc t => simpa [hm] using hends

/-- Every order the exchange creates for an intent is listed. -/
theorem submittedAt_length {balances : Option (Dict ℚ)} {acc : ExecuteSummary}
    {item : OrderIntent × Option Intent} {s : Sys} (hlive : config.dryRun = false) :
    (submittedAt env config balances acc item s).length =
      createdSince s (stateAfter (processIntent env config balances acc item) s) := by
  rcases Nat.eq_zero_or_pos
    (createdSince s (stateAfter (processIntent env config balances acc item) s)) with hnone | hsome
  · rw [submittedAt, hnone]
    split <;> simp
  · obtain ⟨sizing, t, check, hsize, -, hcheck, -⟩ := created_checked hlive hsome
    have htaken : ∃ order, orderTaken config item.1 sizing = some order := by
      rw [orderTaken]
      cases hassets : deriveSymbolAssets config (normalizeSymbol item.1.symbol) with
      | error exc => simp [checkBalancePrecondition, hassets, bind, Except.bind] at hcheck
      | ok assets => cases item.1.side <;> exact ⟨_, rfl⟩
    obtain ⟨order, horder⟩ := htaken
    rw [submittedAt, hsize]
    simp [horder]

theorem submittedOrders_length {balances : Option (Dict ℚ)} (hlive : config.dryRun = false)
    (items : List (OrderIntent × Option Intent)) (acc : ExecuteSummary) (s : Sys) :
    (submittedOrders env config balances items acc s).length =
      createdSince s (stateAfter (items.foldlM (processIntent env config balances) acc) s) := by
  induction items generalizing acc s with
  | nil => exact (createdSince_same rfl).symm
  | cons item items ih =>
    have hfirst := grows_after (grows_processIntent env config balances acc item) s
    rw [submittedOrders, List.length_append, submittedAt_length hlive, List.foldlM_cons,
      stateAfter_bind]
    unfold stateAfter at hfirst ⊢
    cases hprocess : processIntent env config balances acc item s with
    | error exc t => rfl
    | ok acc' t =>
      rw [hprocess] at hfirst
      have hrest := grows_after (Keeps.foldlM (fun acc item =>
        grows_processIntent env config balances acc item) items acc') t
      exact (congrArg _ (ih acc' t)).trans (createdSince_trans hfirst hrest).symm

/-- Orders are covered step by step along the loop exactly if they are along their list. -/
theorem laterFits_iff {balances : Option (Dict ℚ)} {free : OrderSide × String → ℚ}
    (earlier : List SubmittedOrder) (items : List (OrderIntent × Option Intent))
    (acc : ExecuteSummary) (s : Sys) :
    LaterFits env config balances free earlier items acc s ↔
      LaterCovered SubmittedOrder.purse SubmittedOrder.amount
        (SubmittedOrder.Prechecked config) free earlier
        (submittedOrders env config balances items acc s) := by
  induction items generalizing earlier acc s with
  | nil => simp only [LaterFits, submittedOrders, LaterCovered]
  | cons item items ih =>
    rw [LaterFits, submittedOrders, Spending.laterCovered_append]
    refine and_congr Iff.rfl ?_
    split
    · exact ih _ _ _
    · simp only [LaterCovered]

end Checked

section Calls

variable (env : Env) (config : Config)

/-- The balances that a call checks its intents against, when it gets to them. -/
def callSnapshot (raws : List RawIntent) (cycleId : Option String) (s : Sys) : Option (Dict ℚ) :=
  match startSubmission env config raws cycleId s with
  | .ok (some (balances, _)) _ => balances
  | _ => none

def callOrders (raws : List RawIntent) (cycleId : Option String) (s : Sys) :
    List SubmittedOrder :=
  match startSubmission env config raws cycleId s with
  | .ok (some (balances, intents)) t => submittedOrders env config balances intents {} t
  | _ => []

/-- The orders of a call are as many as the exchange creates in it once it has begun. -/
theorem callOrders_length (hlive : config.dryRun = false) (raws : List RawIntent)
    (cycleId : Option String) (s : Sys) :
    (callOrders env config raws cycleId s).length =
      createdSince (stateAfter (startSubmission env config raws cycleId) s)
        (stateAfter (executeIntents env config raws cycleId) s) := by
  rw [executeIntents_eq, stateAfter_bind, callOrders, stateAfter]
  cases hstart : startSubmission env config raws cycleId s with
  | error exc t => exact (createdSince_same rfl).symm
  | ok started t =>
    cases started with
    | none => exact (createdSince_same rfl).symm
    | some started =>
      obtain ⟨balances, intents⟩ := started
      have hloop := @submittedOrders_length env config balances hlive intents {} t
      refine hloop.trans ?_
      simp only [submitStarted, stateAfter_bind]
      rw [stateAfter]
      cases intents.foldlM (processIntent env config balances) {} t with
      | error exc u => rfl
      | ok summary u => rfl

def snapshotFree (balances : Dict ℚ) (purse : OrderSide × String) : ℚ :=
  balances[purse.2]?.getD 0

/-- The orders that a call submits after the first of a side and asset fit what the earlier ones
leave of the snapshot. -/
def CallFits (balances : Dict ℚ) (raws : List RawIntent) (cycleId : Option String) (s : Sys) :
    Prop :=
  match startSubmission env config raws cycleId s with
  | .ok (some (cycleBalances, intents)) t =>
    LaterFits env config cycleBalances (snapshotFree balances) [] intents {} t
  | _ => True

/-- What the BUY orders require of a quote currency, and what the SELL orders sell of a base
asset, is free in the snapshot. -/
def SnapshotCovers (balances : Dict ℚ) (orders : List SubmittedOrder) : Prop :=
  ∀ order ∈ orders,
    spent SubmittedOrder.purse SubmittedOrder.amount order.purse orders ≤
      snapshotFree balances order.purse

theorem snapshotCovers_iff {config : Config} {balances : Dict ℚ} {orders : List SubmittedOrder}
    (hchecked : ∀ order ∈ orders, order.Checked config balances) :
    SnapshotCovers balances orders ↔
      LaterCovered SubmittedOrder.purse SubmittedOrder.amount
        (SubmittedOrder.Prechecked config) (snapshotFree balances) [] orders := by
  refine Spending.covered_iff (fun order horder => (hchecked order horder).1) ?_
  rintro ⟨side, asset⟩
  have hside {order : SubmittedOrder} (h : order.purse = (side, asset)) : order.side = side :=
    (Prod.mk.inj h).1
  cases side with
  | sell =>
    left
    intro order horder hkey
    obtain ⟨-, hcheck⟩ := hchecked order horder
    rw [hside hkey] at hcheck
    exact hcheck.le
  | buy =>
    have hbuy (order : SubmittedOrder) (horder : order ∈ orders)
        (hkey : order.purse = (.buy, asset)) :
        ∃ notional, 0 < notional ∧ order.amount = notional * requiredFactor config := by
      obtain ⟨-, hcheck⟩ := hchecked order horder
      rwa [hside hkey] at hcheck
    -- the factor has one sign for all orders, also under settings that make it negative
    rcases le_total 0 (requiredFactor config) with hfactor | hfactor
    · left
      intro order horder hkey
      obtain ⟨notional, hnotional, hamount⟩ := hbuy order horder hkey
      rw [hamount]
      exact mul_nonneg hnotional.le hfactor
    · right
      intro order horder hkey
      obtain ⟨notional, hnotional, hamount⟩ := hbuy order horder hkey
      refine ⟨?_, fun hsell => by rw [hside hkey] at hsell; cases hsell⟩
      rw [hamount]
      exact mul_nonpos_of_nonneg_of_nonpos hnotional.le hfactor

/-- The snapshot covers a live call exactly if the orders after the first of a side and asset fit
what the earlier ones leave. -/
theorem snapshot_covers_iff (raws : List RawIntent) (cycleId : Option String) (s : Sys)
    (balances : Dict ℚ) (hlive : config.dryRun = false)
    (hsnapshot : callSnapshot env config raws cycleId s = some balances)
    (hbalances : balances.isEmpty = false) :
    SnapshotCovers balances (callOrders env config raws cycleId s) ↔
      CallFits env config balances raws cycleId s := by
  rw [callSnapshot] at hsnapshot
  rw [callOrders, CallFits]
  split
  · next cycleBalances intents t hstart =>
    rw [hstart] at hsnapshot
    dsimp only at hsnapshot
    subst hsnapshot
    rw [laterFits_iff]
    exact snapshotCovers_iff (submittedOrders_checked hlive hbalances intents {} t)
  · next hnone =>
    cases hstart : startSubmission env config raws cycleId s with
    | error exc t =>
      rw [hstart] at hsnapshot
      cases hsnapshot
    | ok started t =>
      cases started with
      | none =>
        rw [hstart] at hsnapshot
        cases hsnapshot
      | some started => exact (hnone _ _ _ hstart).elim

theorem snapshot_covers_sample :
    SnapshotCovers {("TRY", 1000)}
        (callOrders quietEnv sampleConfig [.orderIntent sampleIntent] none {}) ↔
      CallFits quietEnv sampleConfig {("TRY", 1000)} [.orderIntent sampleIntent] none {} :=
  snapshot_covers_iff quietEnv sampleConfig [.orderIntent sampleIntent] none {} {("TRY", 1000)}
    (by decide +kernel) (by decide +kernel) (by decide +kernel)

def tightEnv : Env := { quietEnv with getBalances := fun _ => .ok [("TRY", 150)] }

def nextIntent : OrderIntent := { sampleIntent with price := 90, notional := 90 }

/-- Each BUY fits the snapshot alone, and the two together require more. -/
theorem buys_overdraw_snapshot :
    sampleConfig.dryRun = false ∧
    callSnapshot tightEnv sampleConfig
      [.orderIntent sampleIntent, .orderIntent nextIntent] none {} = some {("TRY", 150)} ∧
    ¬ SnapshotCovers {("TRY", 150)} (callOrders tightEnv sampleConfig
      [.orderIntent sampleIntent, .orderIntent nextIntent] none {}) := by
  have horders : callOrders tightEnv sampleConfig
      [.orderIntent sampleIntent, .orderIntent nextIntent] none {} =
      [⟨.buy, "TRY", 2003 / 20⟩, ⟨.buy, "TRY", 18027 / 200⟩] := by decide +kernel
  refine ⟨rfl, by decide +kernel, ?_⟩
  rw [horders]
  intro hcovers
  have htotal := hcovers ⟨.buy, "TRY", 2003 / 20⟩ List.mem_cons_self
  revert htotal
  decide +kernel

end Calls

end Stage3Service
