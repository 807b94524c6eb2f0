import Btcbot.RiskPolicyService
import Btcbot.CycleGate
import Btcbot.Stage7Once

/-!
# What the risk filter lets a stage 7 cycle order

The intents of a cycle pass the risk filter before they reach the order service, which also
takes up the open orders of the cycles before. An order of the store is that of an intent,
and the filter of its cycle has accepted an intent of its client order id: the order itself
where the ids are apart. Of two intents of one id the last reaches the order service, though
the filter may have accepted the first.
-/
namespace Stage7Filter

open PyData OmsService Stage7Cycle OrderBounds SubmitKeys
open Degrade (Mode)
open RiskCooldown (CycleRiskOutput)
open RiskPolicyService
open Stage4Execute (LifecycleAction)
open Ledger (LedgerEvent)
open LedgerStore (LedgerRow insertOrIgnore storedEvent insertOrIgnore_cases)

section Filter

def toRiskAction (intent : OrderIntent) : LifecycleAction where
  actionType := .submit
  symbol := normalizeSymbol intent.symbol
  side := intent.side
  price := intent.priceTry.value
  qty := intent.qty.value
  reason := intent.reason
  clientOrderId := some intent.clientOrderId

/-- What the report of a cycle says of an intent that is turned down. -/
structure SkippedAction where
  symbol : String
  side : String
  qty : String
  status : String
  reason : String
  clientOrderId : String
  deriving DecidableEq, Repr

def intentRiskActions (orderIntents : List OrderIntent) : List LifecycleAction :=
  (orderIntents.filter fun intent => !intent.skipped).map toRiskAction

def allowedIntentIds (allowed : List LifecycleAction) : List String :=
  (allowed.filterMap LifecycleAction.clientOrderId).filter (· ≠ "")

/-- The reason the first action of an id was turned down for. -/
def blockedReason (decisions : List RiskPolicyDecision) (clientOrderId : String) : String :=
  ((decisions.find? fun decision =>
    decision.action.clientOrderId = some clientOrderId && !decision.accepted).map
      fun decision => decision.reason.text).getD "risk_blocked"

def filterOrderIntentsByRisk (positionsBySymbol : Dict ℚ) (cycleRisk : CycleRiskOutput)
    (orderIntents : List OrderIntent) : List OrderIntent × List SkippedAction :=
  let (allowed, decisions) :=
    filterActions positionsBySymbol cycleRisk (intentRiskActions orderIntents)
  let allowedIds := allowedIntentIds allowed
  (orderIntents.map fun intent =>
    if intent.skipped || intent.clientOrderId ∈ allowedIds then intent
    else { intent with
      skipped := true, skipReason := some (blockedReason decisions intent.clientOrderId) },
    (orderIntents.filter fun intent =>
      !(intent.skipped || intent.clientOrderId ∈ allowedIds)).map fun intent =>
        ⟨normalizeSymbol intent.symbol, intent.side, intent.qty.text, "skipped",
          blockedReason decisions intent.clientOrderId, intent.clientOrderId⟩)

end Filter

section Cycles

/-- What a cycle meets, with the intents as they are built and what the risk service and the
rules service say. -/
structure PlannedCycle where
  cycleId : String
  nowUtc : DateTime
  markPrices : List (String × ℚ)
  settings : OmsService.Settings
  stage7FeesBps : ℚ
  reconcileLimiter : Limiter
  processLimiter : Limiter
  built : List OrderIntent
  positionsBySymbol : Dict ℚ
  cycleRisk : CycleRiskOutput
  baseRiskMode : Mode
  invalidMetadataPolicy : String
  rulesUnavailable : List (String × String)
  stop : Option StopPoint := none

/-- The stricter of the two modes; where the settings say so, a symbol without rules lets the
cycle observe only. -/
def finalRiskMode (planned : PlannedCycle) : Mode :=
  if planned.invalidMetadataPolicy = "observe_only_cycle" ∧ planned.rulesUnavailable ≠ [] then
    .observeOnly
  else CycleGate.combineModes (CycleGate.combineModes planned.baseRiskMode none)
    (some planned.cycleRisk.mode)

def PlannedCycle.toCycle (planned : PlannedCycle) : Cycle where
  cycleId := planned.cycleId
  nowUtc := planned.nowUtc
  markPrices := planned.markPrices
  settings := planned.settings
  stage7FeesBps := planned.stage7FeesBps
  reconcileLimiter := planned.reconcileLimiter
  processLimiter := planned.processLimiter
  orderIntents :=
    (filterOrderIntentsByRisk planned.positionsBySymbol planned.cycleRisk planned.built).1
  observeOnly := finalRiskMode planned = .observeOnly
  stop := planned.stop

def stepPlanned (digest : String → String) (texts : Texts) (store : Stage7Store)
    (planned : PlannedCycle) : Stage7Store :=
  stepCycle digest texts store planned.toCycle

end Cycles

section Accepted

variable {positionsBySymbol : Dict ℚ} {cycleRisk : CycleRiskOutput}

/-- What the filter has found of a submit that it accepts. -/
structure Within (positionsBySymbol : Dict ℚ) (cycleRisk : CycleRiskOutput)
    (action : LifecycleAction) : Prop where
  submits : cycleRisk.allowSubmit = true
  reduceOnly : cycleRisk.mode = .reduceRiskOnly →
    isReduce (symbolPos positionsBySymbol action.symbol) action = true
  notional : action.price * action.qty ≤ cycleRisk.maxOrderNotionalTry
  exposure : |symbolPos positionsBySymbol action.symbol + signedQty action| * action.price ≤
    cycleRisk.maxSymbolExposureTry

theorem judge_within {submitCount : ℤ} {action : LifecycleAction}
    (hsubmit : action.actionType = .submit)
    (h : (judge positionsBySymbol cycleRisk submitCount action).2 = .accepted) :
    Within positionsBySymbol cycleRisk action := by
  simp only [judge, hsubmit] at h
  split at h
  · cases h
  · next hallow =>
    split at h
    · cases h
    · next hreduce =>
      split at h
      · cases h
      · split at h
        · cases h
        · next hnotional =>
          split at h
          · cases h
          · next hexposure =>
            refine ⟨by simpa using hallow, fun hmode => by simpa [hmode] using hreduce,
              not_lt.mp hnotional, ?_⟩
            simpa [exceedsExposure] using hexposure

theorem filterFrom_judged {submitCount : ℤ} {actions : List LifecycleAction}
    {action : LifecycleAction}
    (h : action ∈ (filterFrom positionsBySymbol cycleRisk submitCount actions).1) :
    action ∈ actions ∧
      ∃ count, (judge positionsBySymbol cycleRisk count action).2 = .accepted := by
  induction actions generalizing submitCount with
  | nil => cases h
  | cons first actions ih =>
    rw [filterFrom] at h
    dsimp only at h
    split at h
    · next haccepted =>
      rcases List.mem_cons.mp h with rfl | h
      · exact ⟨List.mem_cons_self, submitCount, haccepted⟩
      · obtain ⟨hin, hjudged⟩ := ih h
        exact ⟨List.mem_cons_of_mem first hin, hjudged⟩
    · obtain ⟨hin, hjudged⟩ := ih h
      exact ⟨List.mem_cons_of_mem first hin, hjudged⟩

/-- An intent that the filter leaves was built, and one of its client order id was accepted. -/
theorem filtered_within {built : List OrderIntent} {intent : OrderIntent}
    (hin : intent ∈ (filterOrderIntentsByRisk positionsBySymbol cycleRisk built).1)
    (hskipped : intent.skipped = false) :
    intent ∈ built ∧ intent.clientOrderId ∈ allowedIntentIds
      (filterActions positionsBySymbol cycleRisk (intentRiskActions built)).1 := by
  obtain ⟨source, hsource, heq⟩ := List.mem_map.mp hin
  split at heq
  · next hkept =>
    subst heq
    refine ⟨hsource, ?_⟩
    simpa [hskipped, filterActions] using hkept
  · subst heq
    cases hskipped

theorem allowed_within {built : List OrderIntent} {clientOrderId : String}
    (h : clientOrderId ∈ allowedIntentIds
      (filterActions positionsBySymbol cycleRisk (intentRiskActions built)).1) :
    ∃ intent ∈ built, intent.skipped = false ∧ intent.clientOrderId = clientOrderId ∧
      Within positionsBySymbol cycleRisk (toRiskAction intent) := by
  obtain ⟨action, haction, hid⟩ := List.mem_filterMap.mp (List.mem_filter.mp h).1
  obtain ⟨hactions, count, hjudged⟩ := filterFrom_judged haction
  obtain ⟨intent, hintent, rfl⟩ := List.mem_map.mp hactions
  obtain ⟨hbuilt, hskipped⟩ := List.mem_filter.mp hintent
  exact ⟨intent, hbuilt, by simpa using hskipped, Option.some.inj hid, judge_within rfl hjudged⟩

end Accepted

section Terms

variable {texts : Texts} {env : CallEnv} {cancelRequests : List String}

/-- An order without what its events change. -/
def terms (order : Stage7Order) : Stage7Order :=
  { order with
    orderId := "", filledQty := 0, avgFillPriceTry := none, status := .planned
    lastUpdate := ⟨0, true⟩ }

theorem terms_clientOrderId {a b : Stage7Order} (h : terms a = terms b) :
    a.clientOrderId = b.clientOrderId := by
  have hid := congrArg Stage7Order.clientOrderId h
  exact hid

theorem transition_terms (nowUtc : DateTime) (walk : Walk) (eventType : EventType)
    (payload : Payload) (fill : Option FillStep) (remember : Bool) :
    terms (walk.transition texts nowUtc eventType payload fill remember).order =
      terms walk.order := by
  rcases walk.transition_cases texts nowUtc eventType payload fill remember with he | ⟨-, he⟩
  · rw [he]
  · rw [he]
    rfl

theorem appendRetries_terms (nowUtc : DateTime) (walk : Walk) (attempts : List RetryAttempt) :
    terms (appendRetries texts nowUtc walk attempts).order = terms walk.order := by
  induction attempts generalizing walk with
  | nil => rfl
  | cons attempt attempts ih => exact ih _

theorem executeWalk_terms {intent : OrderIntent} {walk next : Walk}
    (h : executeWalk texts env intent walk = .ok next) : terms next.order = terms walk.order := by
  unfold executeWalk at h
  dsimp only at h
  obtain ⟨rejected, -, h⟩ := Runs.bind_ok h
  cases rejected with
  | true =>
    simp only [if_true, Except.ok.injEq] at h
    rw [← h, transition_terms, transition_terms, transition_terms]
  | false =>
    obtain ⟨slices, -, h⟩ := Runs.bind_ok h
    obtain rfl := Except.ok.inj h
    rw [transition_terms]
    split
    · rw [transition_terms, transition_terms, transition_terms]
    · rw [transition_terms, transition_terms]

/-- An intent adds no order, or one with the terms it starts from. -/
theorem processIntent_terms (batch : Batch) (intent : OrderIntent) :
    (processIntent texts env cancelRequests batch intent).appliedOrders = batch.appliedOrders ∨
      intent.skipped = false ∧ ∃ order,
        (processIntent texts env cancelRequests batch intent).appliedOrders =
          batch.appliedOrders ++ [order] ∧
        terms order = terms (startWalk texts env batch.store intent).order := by
  have hadds {draws : ℕ} {walk : Walk} (hskipped : intent.skipped = false)
      (h : terms walk.order = terms (startWalk texts env batch.store intent).order) :
      ({ batch with draws := draws }.finish walk).appliedOrders = batch.appliedOrders ∨
        intent.skipped = false ∧ ∃ order,
          ({ batch with draws := draws }.finish walk).appliedOrders =
            batch.appliedOrders ++ [order] ∧
          terms order = terms (startWalk texts env batch.store intent).order :=
    .inr ⟨hskipped, walk.order, rfl, h⟩
  unfold processIntent
  dsimp only
  split
  · exact .inl rfl
  · next hopen =>
    have hskipped : intent.skipped = false := by
      cases hskip : intent.skipped <;> simp_all
    split
    · exact hadds hskipped (transition_terms _ _ _ _ _ _)
    · split
      · exact hadds hskipped (transition_terms _ _ _ _ _ _)
      · split
        · exact hadds hskipped rfl
        · split
          · exact hadds hskipped rfl
          · unfold registerAndSubmit tryRegisterIdempotencyKey
            dsimp only
            cases hkey : batch.store.stage7IdempotencyKeys[submitKey intent.clientOrderId]? with
            | some existing =>
              dsimp only
              by_cases hhash : existing ≠ texts.intentHash intent
              · rw [if_pos hhash]
                exact hadds hskipped (transition_terms _ _ _ _ _ _)
              · rw [if_neg hhash]
                exact hadds hskipped rfl
            | none =>
              unfold submitOrder
              dsimp only
              cases hresult : (submitAdapter env.settings
                  (batch.failures[intent.clientOrderId]?.getD [])).1 with
              | raised error => exact .inl rfl
              | gaveUp attempts =>
                exact .inr ⟨hskipped, _, rfl, appendRetries_terms _ _ attempts⟩
              | accepted attempts =>
                dsimp only
                cases hwalk : executeWalk texts env intent (appendRetries texts env.nowUtc
                    (startWalk texts env batch.store intent) attempts) with
                | error error => exact .inl rfl
                | ok walk =>
                  exact .inr ⟨hskipped, walk.order, rfl,
                    (executeWalk_terms hwalk).trans (appendRetries_terms _ _ attempts)⟩

end Terms

section Stores

variable {texts : Texts} {env : CallEnv} {cancelRequests : List String} {start : OmsService.Store}

/-- An order has the terms of the one stored under its client order id or, where none is, of
an intent. -/
def Stems (texts : Texts) (env : CallEnv) (start : OmsService.Store)
    (intents : List OrderIntent) (order : Stage7Order) : Prop :=
  (∃ old, start.stage7Orders[order.clientOrderId]? = some old ∧ terms order = terms old) ∨
  (start.stage7Orders[order.clientOrderId]? = none ∧ ∃ intent ∈ intents,
    intent.skipped = false ∧ terms order = terms (newOrder texts env intent))

theorem Stems.mono {intents more : List OrderIntent} {order : Stage7Order}
    (h : Stems texts env start intents order) (hsub : ∀ intent ∈ intents, intent ∈ more) :
    Stems texts env start more order := by
  refine h.imp_right fun ⟨hnone, intent, hin, hrest⟩ => ?_
  exact ⟨hnone, intent, hsub intent hin, hrest⟩

theorem stems_startWalk (hkeyed : Keyed start) {intent : OrderIntent} {order : Stage7Order}
    (hskipped : intent.skipped = false)
    (h : terms order = terms (startWalk texts env start intent).order) :
    Stems texts env start [intent] order := by
  have hid := terms_clientOrderId h
  rcases @startWalk_cases texts env start intent with ⟨hnone, hnew⟩ | ⟨old, hold, horder⟩
  · rw [hnew] at h hid
    exact .inr ⟨(congrArg (start.stage7Orders[·]?) hid).trans hnone, intent,
      List.mem_singleton_self _, hskipped, h⟩
  · rw [horder] at h hid
    have hkey := hkeyed intent.clientOrderId old hold
    exact .inl ⟨old, (congrArg (start.stage7Orders[·]?) (hid.trans hkey)).trans hold, h⟩

/-- The orders of a batch stem from the store it starts from and from its intents. -/
theorem stems_run (hsane : Sane start) (intents : List OrderIntent) :
    ∀ order ∈ (Runs.run (processIntent texts env cancelRequests) (startBatch env start)
      intents).appliedOrders, Stems texts env start intents order := by
  refine (Runs.run_induct (I := fun taken batch => Results start batch ∧
    ∀ order ∈ batch.appliedOrders, Stems texts env start taken order) ?_ (startBatch env start)
    intents ⟨results_start env, List.forall_mem_nil _⟩).2
  rintro taken intent batch ⟨hresults, hstems⟩
  refine ⟨results_processIntent hsane hresults, fun order hin => ?_⟩
  have hold (hin : order ∈ batch.appliedOrders) : Stems texts env start (taken ++ [intent]) order :=
    (hstems order hin).mono fun _ => List.mem_append_left _
  rcases @processIntent_terms texts env cancelRequests batch intent with
    hsame | ⟨hskipped, added, hgrown, hterms⟩
  · rw [hsame] at hin
    exact hold hin
  · rw [hgrown] at hin
    rcases List.mem_append.mp hin with hin | hin
    · exact hold hin
    · obtain rfl := List.mem_singleton.mp hin
      have hkeyed : Keyed batch.store := fun clientOrderId stored hstored =>
        hsane.keyed clientOrderId stored (hresults.orders ▸ hstored)
      have hstart := stems_startWalk hkeyed hskipped hterms
      unfold Stems at hstart
      rw [hresults.orders] at hstart
      exact Stems.mono hstart fun _ => List.mem_append_right _

/-- What a call leaves under a client order id stems from what was there. -/
theorem stems_stepCall (hsane : Sane start) (call : OmsCall) {clientOrderId : String}
    {new : Stage7Order}
    (h : (stepCall texts start call).stage7Orders[clientOrderId]? = some new) :
    (∃ old, start.stage7Orders[clientOrderId]? = some old ∧ terms new = terms old) ∨
    (start.stage7Orders[clientOrderId]? = none ∧ ∃ intent ∈ call.intents texts start,
      intent.skipped = false ∧ terms new = terms (newOrder texts call.env intent)) := by
  have hresults := @results_run texts start (startBatch call.env start) call.env
    call.cancelRequests hsane ((call.intents texts start).insertionSort IntentBefore)
    (results_start call.env)
  rcases commit_orders hresults clientOrderId with hsame | ⟨order, hin, hid, orderId, hstored⟩
  · exact .inl ⟨new, hsame.symm.trans h, rfl⟩
  · obtain rfl : { order with orderId := orderId } = new :=
      Option.some.inj (hstored.symm.trans h)
    have hstems := stems_run hsane _ order hin
    unfold Stems at hstems
    rw [hid] at hstems
    refine hstems.imp_right fun ⟨hnone, intent, hintent, hrest⟩ => ?_
    exact ⟨hnone, intent, (List.mem_insertionSort _).mp hintent, hrest⟩

/-- The open orders that are taken up again are stored already. -/
theorem stems_reconcileCall (hsane : Sane start) (cycle : Cycle) {clientOrderId : String}
    {new : Stage7Order}
    (h : (stepCall texts start (reconcileCall cycle)).stage7Orders[clientOrderId]? = some new) :
    ∃ old, start.stage7Orders[clientOrderId]? = some old ∧ terms new = terms old := by
  rcases stems_stepCall hsane (reconcileCall cycle) h with
    hold | ⟨hnone, intent, hin, hskipped, hterms⟩
  · exact hold
  · have hkey := (sane_stepCall hsane (reconcileCall cycle)).keyed clientOrderId new h
    have hid : new.clientOrderId = intent.clientOrderId := terms_clientOrderId hterms
    have hasked : clientOrderId ∈ asked ((reconcileCall cycle).intents texts start) := by
      rw [← hkey, hid]
      exact List.mem_map_of_mem (List.mem_filter.mpr ⟨hin, by rw [hskipped]; rfl⟩)
    exact absurd hnone (asked_reconcile hsane hasked).1

/-- A call that stops before its transaction leaves the orders as they are. -/
theorem interrupt_orders (hsane : Sane start) (call : OmsCall) (intents : ℕ) :
    Sane (interruptCall texts start call intents) ∧
      (interruptCall texts start call intents).stage7Orders = start.stage7Orders := by
  have hresults := @results_run texts start (startBatch call.env start) call.env
    call.cancelRequests hsane (((call.intents texts start).insertionSort IntentBefore).take intents)
    (results_start call.env)
  exact ⟨hresults.sane hsane, hresults.orders⟩

/-- What a cycle leaves: the orders it found, and those of its intents. -/
structure Leaves (texts : Texts) (cycle : Cycle) (start after : OmsService.Store) : Prop where
  sane : Sane after
  keeps : ∀ (clientOrderId : String) (old : Stage7Order),
    start.stage7Orders[clientOrderId]? = some old →
    ∃ new, after.stage7Orders[clientOrderId]? = some new
  stems : ∀ (clientOrderId : String) (new : Stage7Order),
    after.stage7Orders[clientOrderId]? = some new →
    (∃ old, start.stage7Orders[clientOrderId]? = some old ∧ terms new = terms old) ∨
    (start.stage7Orders[clientOrderId]? = none ∧ ∃ intent ∈ pendingIntents cycle,
      terms new = terms (newOrder texts (callEnv cycle cycle.processLimiter) intent))

theorem Leaves.of_same {cycle : Cycle} {after : OmsService.Store} (hsane : Sane after)
    (h : after.stage7Orders = start.stage7Orders) : Leaves texts cycle start after where
  sane := hsane
  keeps _ old hold := ⟨old, h ▸ hold⟩
  stems _ new hnew := .inl ⟨new, h ▸ hnew, rfl⟩

theorem leaves_reconcileCall (hsane : Sane start) (cycle : Cycle) :
    Leaves texts cycle start (stepCall texts start (reconcileCall cycle)) where
  sane := sane_stepCall hsane (reconcileCall cycle)
  keeps clientOrderId old hold := by
    obtain ⟨new, hnew, -⟩ := @moves_stepCall texts start hsane (reconcileCall cycle) _ old hold
    exact ⟨new, hnew⟩
  stems clientOrderId new hnew := .inl (stems_reconcileCall hsane cycle hnew)

theorem leaves_bothCalls (hsane : Sane start) (cycle : Cycle) :
    Leaves texts cycle start
      (stepCall texts (stepCall texts start (reconcileCall cycle)) (processCall cycle)) := by
  have hfirst := @leaves_reconcileCall texts start hsane cycle
  refine ⟨sane_stepCall hfirst.sane _, fun clientOrderId old hold => ?_,
    fun clientOrderId new hnew => ?_⟩
  · obtain ⟨mid, hmid⟩ := hfirst.keeps clientOrderId old hold
    obtain ⟨new, hnew, -⟩ := moves_stepCall hfirst.sane (processCall cycle) hmid
    exact ⟨new, hnew⟩
  · rcases stems_stepCall hfirst.sane (processCall cycle) hnew with
      ⟨mid, hmid, hterms⟩ | ⟨hnone, intent, hintent, -, hterms⟩
    · obtain ⟨old, hold, hbefore⟩ := stems_reconcileCall hsane cycle hmid
      exact .inl ⟨old, hold, hterms.trans hbefore⟩
    · refine .inr ⟨?_, intent, hintent, hterms⟩
      cases hstart : start.stage7Orders[clientOrderId]? with
      | none => rfl
      | some old =>
        obtain ⟨mid, hmid⟩ := hfirst.keeps clientOrderId old hstart
        cases hnone.symm.trans hmid

theorem leaves_reconcile (hsane : Sane start) (cycle : Cycle) :
    Leaves texts cycle start (reconcile texts cycle start).2 := by
  have hends := reconcile_ends texts cycle start
  have hfirst := @leaves_reconcileCall texts start hsane cycle
  have hboth := @leaves_bothCalls texts start hsane cycle
  generalize reconcile texts cycle start = ended at hends
  cases hends with
  | inReconcile intents hstop =>
    obtain ⟨hafter, hsame⟩ := @interrupt_orders texts start hsane (reconcileCall cycle) intents
    exact .of_same hafter hsame
  | reconcileRaises error hanswer => exact hfirst
  | afterReconcile answer hreconciled hstop => exact hfirst
  | inProcess answer hreconciled intents hstop =>
    obtain ⟨hafter, hsame⟩ :=
      @interrupt_orders texts _ hfirst.sane (processCall cycle) intents
    exact ⟨hafter, hsame ▸ hfirst.keeps, hsame ▸ hfirst.stems⟩
  | processRaises answer hreconciled hstop error hprocessed => exact hboth
  | processed answer answer' hreconciled hstop hprocessed => exact hboth

end Stores

section Runs

variable {digest : String → String} {texts : Texts} {store : Stage7Store}

/-- A row of the ledger is of a stored order. -/
def RowsOfOrders (store : Stage7Store) : Prop :=
  ∀ row ∈ store.ledgerEvents, ∃ clientOrderId order,
    row.event.clientOrderId = some clientOrderId ∧
      store.oms.stage7Orders[clientOrderId]? = some order

theorem mem_insertOrIgnore {rows : List LedgerRow} {event : LedgerEvent} {row : LedgerRow}
    (h : row ∈ (insertOrIgnore rows event).1) : row ∈ rows ∨ row.event = storedEvent event := by
  rcases insertOrIgnore_cases rows event with he | ⟨he, -⟩
  · rw [he] at h
    exact .inl h
  · rw [he] at h
    rcases List.mem_append.mp h with h | h
    · exact .inl h
    · rw [List.mem_singleton.mp h]
      exact .inr rfl

theorem mem_book {cycle : Cycle} {rows : List LedgerRow} {order : Stage7Order} {row : LedgerRow}
    (h : row ∈ book digest cycle rows order) :
    row ∈ rows ∨ order.status = .filled ∧ row.event.clientOrderId = some order.clientOrderId := by
  by_cases hpriced : Priced order
  · obtain ⟨price, hbook⟩ := @book_priced digest cycle rows order hpriced
    rw [hbook] at h
    rcases mem_insertOrIgnore h with h | h
    · rcases mem_insertOrIgnore h with h | h
      · exact .inl h
      · exact .inr ⟨hpriced.status, h ▸ rfl⟩
    · exact .inr ⟨hpriced.status, h ▸ rfl⟩
  · rw [book_unpriced hpriced] at h
    exact .inl h

theorem mem_books {cycle : Cycle} {orders : List Stage7Order} {rows : List LedgerRow}
    {row : LedgerRow} (h : row ∈ orders.foldl (book digest cycle) rows) :
    row ∈ rows ∨ ∃ order ∈ orders, order.status = .filled ∧
      row.event.clientOrderId = some order.clientOrderId := by
  induction orders generalizing rows with
  | nil => exact .inl h
  | cons order orders ih =>
    rcases ih h with h | ⟨later, hin, hrest⟩
    · exact (mem_book h).imp_right fun hrest => ⟨order, List.mem_cons_self, hrest⟩
    · exact .inr ⟨later, List.mem_cons_of_mem order hin, hrest⟩

/-- What a cycle that observes only leaves is what it found. -/
theorem leaves_stepCycle (hsane : Sane store.oms) (cycle : Cycle) :
    stepCycle digest texts store cycle = store ∨
      cycle.observeOnly = false ∧
        Leaves texts cycle store.oms (stepCycle digest texts store cycle).oms := by
  rcases stepCycle_cases digest texts store cycle with
    ⟨-, hsame⟩ | ⟨hactive, -, hstep⟩ | ⟨hactive, -, orders, -, hstep⟩
  · exact .inl hsame
  · rw [hstep]
    exact .inr ⟨hactive, leaves_reconcile hsane cycle⟩
  · rw [hstep]
    exact .inr ⟨hactive, leaves_reconcile hsane cycle⟩

theorem rows_stepCycle (hsane : Sane store.oms) (hrows : RowsOfOrders store) (cycle : Cycle) :
    RowsOfOrders (stepCycle digest texts store cycle) := by
  have hleaves := @leaves_reconcile texts store.oms hsane cycle
  have hold {row : LedgerRow} (hin : row ∈ store.ledgerEvents) : ∃ clientOrderId order,
      row.event.clientOrderId = some clientOrderId ∧
        (reconcile texts cycle store.oms).2.stage7Orders[clientOrderId]? = some order := by
    obtain ⟨clientOrderId, old, hid, hstored⟩ := hrows row hin
    obtain ⟨new, hnew⟩ := hleaves.keeps clientOrderId old hstored
    exact ⟨clientOrderId, new, hid, hnew⟩
  rcases stepCycle_cases digest texts store cycle with
    ⟨-, hsame⟩ | ⟨-, -, hstep⟩ | ⟨-, -, orders, horders, hstep⟩
  · rw [hsame]
    exact hrows
  · rw [hstep]
    exact fun row hin => hold hin
  · have hcommitted := reconcile_committed hsane horders
    rw [hstep]
    intro row hin
    rcases mem_books hin with hin | ⟨order, horder, hfilled, hid⟩
    · exact hold hin
    · obtain ⟨new, hnew, -⟩ :=
        hcommitted.filled order ((List.mem_insertionSort _).mp horder) hfilled
      exact ⟨order.clientOrderId, new, hid, hnew⟩

/-- The cycle was free to order, it had built the order's intent, and its filter accepted an
intent of that client order id. -/
structure OrderedBy (texts : Texts) (planned : PlannedCycle) (order : Stage7Order) : Prop where
  mode : finalRiskMode planned ≠ .observeOnly
  built : ∃ intent ∈ planned.built, intent.skipped = false ∧
    terms order = terms (newOrder texts (callEnv planned.toCycle planned.processLimiter) intent)
  accepted : ∃ intent ∈ planned.built, intent.skipped = false ∧
    intent.clientOrderId = order.clientOrderId ∧
    Within planned.positionsBySymbol planned.cycleRisk (toRiskAction intent)

theorem OrderedBy.of_terms {planned : PlannedCycle} {old new : Stage7Order}
    (h : OrderedBy texts planned old) (hterms : terms new = terms old) :
    OrderedBy texts planned new := by
  obtain ⟨intent, hbuilt, hskipped, hold⟩ := h.built
  refine ⟨h.mode, ⟨intent, hbuilt, hskipped, hterms.trans hold⟩, ?_⟩
  rw [terms_clientOrderId hterms]
  exact h.accepted

/-- An order that a cycle adds was let through by its filter. -/
theorem ordered_new (hsane : Sane store.oms) (planned : PlannedCycle) {clientOrderId : String}
    {new : Stage7Order}
    (h : (stepPlanned digest texts store planned).oms.stage7Orders[clientOrderId]? = some new) :
    (∃ old, store.oms.stage7Orders[clientOrderId]? = some old ∧ terms new = terms old) ∨
      (store.oms.stage7Orders[clientOrderId]? = none ∧ OrderedBy texts planned new ∧
        clientOrderId ∈ allowedIntentIds (filterActions planned.positionsBySymbol
          planned.cycleRisk (intentRiskActions planned.built)).1) := by
  unfold stepPlanned at h
  rcases @leaves_stepCycle digest texts store hsane planned.toCycle with
    hsame | ⟨hactive, hleaves⟩
  · rw [hsame] at h
    exact .inl ⟨new, h, rfl⟩
  · refine (hleaves.stems clientOrderId new h).imp_right fun ⟨hnone, intent, hin, hterms⟩ => ?_
    obtain ⟨hfiltered, hskipped⟩ := mem_pendingIntents hin
    obtain ⟨hbuilt, hallowed⟩ := filtered_within hfiltered hskipped
    have hid : new.clientOrderId = intent.clientOrderId := terms_clientOrderId hterms
    have hmode : finalRiskMode planned ≠ .observeOnly := by
      simpa [PlannedCycle.toCycle] using hactive
    refine ⟨hnone, ⟨hmode, ⟨intent, hbuilt, hskipped, hterms⟩, hid ▸ allowed_within hallowed⟩, ?_⟩
    rw [← hleaves.sane.keyed clientOrderId new h, hid]
    exact hallowed

theorem sane_stepPlanned (hsane : Sane store.oms) (planned : PlannedCycle) :
    Sane (stepPlanned digest texts store planned).oms := by
  unfold stepPlanned
  rcases @leaves_stepCycle digest texts store hsane planned.toCycle with hsame | ⟨-, hleaves⟩
  · rw [hsame]
    exact hsane
  · exact hleaves.sane

/-- What holds of the store after the cycles of a run. -/
structure Accepted (texts : Texts) (taken : List PlannedCycle) (store : Stage7Store) : Prop where
  sane : Sane store.oms
  rows : RowsOfOrders store
  accepted : ∀ (clientOrderId : String) (order : Stage7Order),
    store.oms.stage7Orders[clientOrderId]? = some order →
    ∃ planned ∈ taken, OrderedBy texts planned order

theorem accepted_empty : Accepted texts [] {} := by
  refine ⟨sane_empty, List.forall_mem_nil _, fun clientOrderId order h => ?_⟩
  simp at h

theorem accepted_step {taken : List PlannedCycle} (planned : PlannedCycle)
    (h : Accepted texts taken store) :
    Accepted texts (taken ++ [planned]) (stepPlanned digest texts store planned) := by
  refine ⟨sane_stepPlanned h.sane planned, rows_stepCycle h.sane h.rows planned.toCycle,
    fun clientOrderId new hnew => ?_⟩
  rcases ordered_new h.sane planned hnew with ⟨old, hold, hterms⟩ | ⟨-, hordered, -⟩
  · obtain ⟨earlier, hin, hearlier⟩ := h.accepted clientOrderId old hold
    exact ⟨earlier, List.mem_append_left _ hin, hearlier.of_terms hterms⟩
  · exact ⟨planned, List.mem_append_right _ List.mem_cons_self, hordered⟩

theorem run_accepted (cycles : List PlannedCycle) :
    Accepted texts cycles (Runs.run (stepPlanned digest texts) {} cycles) :=
  Runs.run_induct (I := Accepted texts) (fun _ planned _ h => accepted_step planned h) {} cycles
    accepted_empty

/-- After every run each stored order is one that a cycle's filter let through, and each row
of the ledger is of a stored order. -/
theorem orders_were_accepted (digest : String → String) (texts : Texts)
    (cycles : List PlannedCycle) :
    let store := Runs.run (stepPlanned digest texts) {} cycles
    (∀ (clientOrderId : String) (order : Stage7Order),
      store.oms.stage7Orders[clientOrderId]? = some order →
      ∃ planned ∈ cycles, OrderedBy texts planned order) ∧
    ∀ row ∈ store.ledgerEvents, ∃ clientOrderId order,
      row.event.clientOrderId = some clientOrderId ∧
        store.oms.stage7Orders[clientOrderId]? = some order :=
  ⟨(run_accepted cycles).accepted, (run_accepted cycles).rows⟩

/-- A cycle with one intent, within the caps. -/
def samplePlanned : PlannedCycle where
  cycleId := "cycle"
  nowUtc := ⟨0, true⟩
  markPrices := []
  settings := ⟨0, 0, 1, fun _ => 0⟩
  stage7FeesBps := 10
  reconcileLimiter := ⟨fun _ => true, fun _ => 0⟩
  processLimiter := ⟨fun _ => true, fun _ => 0⟩
  built := [sampleIntent]
  positionsBySymbol := ∅
  cycleRisk := capsOf .normal
  baseRiskMode := .normal
  invalidMetadataPolicy := "observe_only_cycle"
  rulesUnavailable := []

theorem samplePlanned_stored : ∃ order,
    (stepPlanned id sampleTexts {} samplePlanned).oms.stage7Orders["c"]? = some order := by
  have hstored : (stepPlanned id sampleTexts {} samplePlanned).oms.stage7Orders["c"]?.isSome := by
    decide +kernel
  exact Option.isSome_iff_exists.mp hstored

theorem samplePlanned_accepted :
    ∃ order, (stepPlanned id sampleTexts {} samplePlanned).oms.stage7Orders["c"]? = some order ∧
      ∃ planned ∈ [samplePlanned], OrderedBy sampleTexts planned order := by
  obtain ⟨order, horder⟩ := samplePlanned_stored
  exact ⟨order, horder,
    (orders_were_accepted id sampleTexts [samplePlanned]).1 "c" order horder⟩

/-- The submit that an order stands for. -/
def submitAction (order : Stage7Order) : LifecycleAction where
  actionType := .submit
  symbol := order.symbol
  side := order.side
  price := order.priceTry.value
  qty := order.qty.value
  reason := ""

/-- The intents that are not skipped have a client order id each. -/
def IdsApart (built : List OrderIntent) : Prop :=
  ((built.filter fun intent => !intent.skipped).map OrderIntent.clientOrderId).Nodup

/-- Where the client order ids are apart, the intent that was accepted is the order's own. -/
theorem OrderedBy.within {planned : PlannedCycle} {order : Stage7Order}
    (h : OrderedBy texts planned order) (hapart : IdsApart planned.built) :
    Within planned.positionsBySymbol planned.cycleRisk (submitAction order) := by
  obtain ⟨intent, hbuilt, hskipped, hterms⟩ := h.built
  obtain ⟨accepted, haccepted, hkept, hid, hwithin⟩ := h.accepted
  have hown : intent.clientOrderId = order.clientOrderId := (terms_clientOrderId hterms).symm
  obtain rfl : accepted = intent := List.inj_on_of_nodup_map hapart
    (List.mem_filter.mpr ⟨haccepted, by simpa using hkept⟩)
    (List.mem_filter.mpr ⟨hbuilt, by simpa using hskipped⟩) (hid.trans hown.symm)
  have hsymbol : order.symbol = normalizeSymbol accepted.symbol :=
    congrArg Stage7Order.symbol hterms
  have hside : order.side = accepted.side := congrArg Stage7Order.side hterms
  have hprice : order.priceTry = accepted.priceTry := congrArg Stage7Order.priceTry hterms
  have hqty : order.qty = accepted.qty := congrArg Stage7Order.qty hterms
  rw [submitAction, hsymbol, hside, hprice, hqty]
  exact ⟨hwithin.submits, hwithin.reduceOnly, hwithin.notional, hwithin.exposure⟩

/-- In every run whose cycles build client order ids apart, each stored order is itself within
the caps of a cycle that was free to order. -/
theorem orders_within_caps (digest : String → String) (texts : Texts)
    (cycles : List PlannedCycle) (hapart : ∀ planned ∈ cycles, IdsApart planned.built) :
    ∀ (clientOrderId : String) (order : Stage7Order),
      (Runs.run (stepPlanned digest texts) {} cycles).oms.stage7Orders[clientOrderId]? =
        some order →
      ∃ planned ∈ cycles, finalRiskMode planned ≠ .observeOnly ∧
        Within planned.positionsBySymbol planned.cycleRisk (submitAction order) := by
  intro clientOrderId order horder
  obtain ⟨planned, hin, hordered⟩ := (run_accepted cycles).accepted clientOrderId order horder
  exact ⟨planned, hin, hordered.mode, hordered.within (hapart planned hin)⟩

theorem samplePlanned_within :
    ∃ order, (stepPlanned id sampleTexts {} samplePlanned).oms.stage7Orders["c"]? = some order ∧
      ∃ planned ∈ [samplePlanned], finalRiskMode planned ≠ .observeOnly ∧
        Within planned.positionsBySymbol planned.cycleRisk (submitAction order) := by
  obtain ⟨order, horder⟩ := samplePlanned_stored
  refine ⟨order, horder,
    orders_within_caps id sampleTexts [samplePlanned] (fun planned hin => ?_) "c" order horder⟩
  obtain rfl := List.mem_singleton.mp hin
  exact List.nodup_singleton _

theorem accepted_submits (positionsBySymbol : Dict ℚ) (cycleRisk : CycleRiskOutput)
    (built : List OrderIntent) :
    submits (filterActions positionsBySymbol cycleRisk (intentRiskActions built)).1 =
      (filterActions positionsBySymbol cycleRisk (intentRiskActions built)).1 := by
  refine List.filter_eq_self.mpr fun action hin => ?_
  obtain ⟨intent, -, rfl⟩ := List.mem_map.mp (filterFrom_judged hin).1
  rfl

/-- A filter allows no more client order ids than orders. -/
theorem allowed_length {cycleRisk : CycleRiskOutput} (hcap : 0 ≤ cycleRisk.maxOrdersPerCycle)
    (positionsBySymbol : Dict ℚ) (built : List OrderIntent) :
    ((allowedIntentIds (filterActions positionsBySymbol cycleRisk
      (intentRiskActions built)).1).length : ℤ) ≤ cycleRisk.maxOrdersPerCycle := by
  have hcount := accepted_count positionsBySymbol cycleRisk 0 (intentRiskActions built) hcap
  rw [zero_add] at hcount
  unfold allowedIntentIds
  calc _ ≤ (((filterActions positionsBySymbol cycleRisk (intentRiskActions built)).1.filterMap
          LifecycleAction.clientOrderId).length : ℤ) :=
        Int.ofNat_le.mpr (List.length_filter_le _ _)
    _ ≤ ((filterActions positionsBySymbol cycleRisk (intentRiskActions built)).1.length : ℤ) :=
        Int.ofNat_le.mpr (List.length_filterMap_le _ _)
    _ = ((submits (filterActions positionsBySymbol cycleRisk
          (intentRiskActions built)).1).length : ℤ) := by rw [accepted_submits]
    _ ≤ cycleRisk.maxOrdersPerCycle := hcount

/-- In every run, a cycle adds at most as many orders as its risk decision allows it, and none
where it observes only or may not submit. -/
theorem new_orders_capped (digest : String → String) (texts : Texts) (cycles : List PlannedCycle)
    (planned : PlannedCycle) (hcap : 0 ≤ planned.cycleRisk.maxOrdersPerCycle) :
    let before := Runs.run (stepPlanned digest texts) {} cycles
    let after := stepPlanned digest texts before planned
    ∀ added : List String, added.Nodup →
      (∀ clientOrderId ∈ added, before.oms.stage7Orders[clientOrderId]? = none ∧
        after.oms.stage7Orders[clientOrderId]? ≠ none) →
      (added.length : ℤ) ≤ planned.cycleRisk.maxOrdersPerCycle ∧
        (added ≠ [] → finalRiskMode planned ≠ .observeOnly ∧
          planned.cycleRisk.allowSubmit = true) := by
  intro before after added hnodup hadded
  have hsane : Sane before.oms := (@run_accepted digest texts cycles).sane
  have hnew : ∀ clientOrderId ∈ added, ∃ order, OrderedBy texts planned order ∧
      clientOrderId ∈ allowedIntentIds (filterActions planned.positionsBySymbol
        planned.cycleRisk (intentRiskActions planned.built)).1 := by
    intro clientOrderId hin
    obtain ⟨hnone, hsome⟩ := hadded clientOrderId hin
    obtain ⟨order, horder⟩ := Option.ne_none_iff_exists'.mp hsome
    rcases ordered_new hsane planned horder with ⟨old, hold, -⟩ | ⟨-, hordered, hallowed⟩
    · cases hnone.symm.trans hold
    · exact ⟨order, hordered, hallowed⟩
  constructor
  · have hsub := hnodup.subperm fun clientOrderId hin => (hnew clientOrderId hin).choose_spec.2
    exact (Int.ofNat_le.mpr hsub.length_le).trans (allowed_length hcap _ _)
  · intro hne
    obtain ⟨clientOrderId, hin⟩ := List.exists_mem_of_ne_nil added hne
    obtain ⟨order, hordered, -⟩ := hnew clientOrderId hin
    obtain ⟨intent, -, -, -, hwithin⟩ := hordered.accepted
    exact ⟨hordered.mode, hwithin.submits⟩

theorem samplePlanned_capped : (["c"].length : ℤ) ≤ samplePlanned.cycleRisk.maxOrdersPerCycle := by
  refine (new_orders_capped id sampleTexts [] samplePlanned (by decide) ["c"]
    (by decide) fun clientOrderId hin => ?_).1
  obtain rfl := List.mem_singleton.mp hin
  refine ⟨by simp [Runs.run], ?_⟩
  exact Option.ne_none_iff_exists'.mpr samplePlanned_stored

end Runs

end Stage7Filter
