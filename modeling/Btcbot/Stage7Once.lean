import Btcbot.EventLog
import Btcbot.Stage7Booking

/-!
# Filled orders over many cycles

A cycle that comes to its ledger append books what it filled. One that stops before it, or
raises, must have filled nothing: no later cycle loads a filled order. Nor may a later
cycle, whose fill ids are its own, be asked for an order that another has booked.
-/
namespace Stage7Cycle

open PyData OmsService SubmitKeys OrderBounds EventLog Ledger LedgerStore

section Intents

variable {cycle : Cycle} {store : OmsService.Store} {texts : Texts}

/-- An intent at the port waits under its client order id. -/
theorem consume_waits {intents : List OrderIntent} {clientOrderId : String} {intent : OrderIntent}
    (h : (consume intents)[clientOrderId]? = some intent) :
    intent.clientOrderId = clientOrderId ∧ intent ∈ intents ∧ intent.skipped = false := by
  unfold consume at h
  generalize hrest : (intents.filter fun intent => !intent.skipped) = rest at h
  have hin : ∀ intent ∈ rest, intent ∈ intents ∧ intent.skipped = false := by
    intro other hother
    rw [← hrest] at hother
    simpa using List.mem_filter.mp hother
  clear hrest
  induction rest using List.reverseRecOn with
  | nil => simp at h
  | append_singleton rest last ih =>
    rw [List.foldl_append, List.foldl_cons, List.foldl_nil, Dict.insert_get] at h
    split at h
    · next hsame =>
      obtain rfl := Option.some.inj h
      exact ⟨hsame, hin last (List.mem_append_right _ List.mem_cons_self)⟩
    · exact ih h fun other hother => hin other (List.mem_append_left _ hother)

theorem mem_pendingIntents {intent : OrderIntent} (h : intent ∈ pendingIntents cycle) :
    intent ∈ cycle.orderIntents ∧ intent.skipped = false := by
  obtain ⟨entry, hentry, rfl⟩ := List.mem_map.mp (List.mem_filter.mp h).1
  exact (consume_waits ((Dict.mem_toList _ entry).mp hentry)).2

theorem process_distinct (cycle : Cycle) : Distinct (processCall cycle) := by
  have hall := Dict.values_nodup (consume cycle.orderIntents) OrderIntent.clientOrderId
    fun clientOrderId intent h => (consume_waits h).1
  exact hall.sublist (List.filter_sublist.map _)

theorem asked_nodup (hsane : Sane store) {call : OmsCall} (h : Distinct call) :
    (asked (call.intents texts store)).Nodup :=
  (distinct_intents hsane.keyed h).sublist (List.filter_sublist.map _)

/-- The reconcile asks for open orders. -/
theorem asked_reconcile (hsane : Sane store) {clientOrderId : String}
    (h : clientOrderId ∈ asked ((reconcileCall cycle).intents texts store)) :
    store.stage7Orders[clientOrderId]? ≠ none ∧ ¬ FilledIn store clientOrderId := by
  obtain ⟨intent, hintent, rfl⟩ := List.mem_map.mp h
  obtain ⟨order, hloaded, rfl⟩ := List.mem_map.mp (List.mem_filter.mp hintent).1
  unfold loadNonTerminalOrders at hloaded
  rw [List.mem_insertionSort, List.mem_filter] at hloaded
  obtain ⟨entry, hentry, rfl⟩ := List.mem_map.mp hloaded.1
  have horder := (Dict.mem_toList _ entry).mp hentry
  have hid : entry.2.clientOrderId = entry.1 := hsane.keyed entry.1 entry.2 horder
  have hstored : store.stage7Orders[(reconcileIntent texts
      (callEnv cycle cycle.reconcileLimiter) entry.2).clientOrderId]? = some entry.2 :=
    (congrArg (fun key : String => store.stage7Orders[key]?) hid).trans horder
  refine ⟨by rw [hstored]; exact Option.some_ne_none _, fun ⟨other, hother, hstatus⟩ => ?_⟩
  rw [hstored] at hother
  cases hother
  rw [hstatus] at hloaded
  exact absurd hloaded.2 (by decide)

theorem asked_process {clientOrderId : String}
    (h : clientOrderId ∈ asked ((processCall cycle).intents texts store)) :
    clientOrderId ∈ asked cycle.orderIntents := by
  obtain ⟨intent, hintent, rfl⟩ := List.mem_map.mp h
  obtain ⟨hin, hskipped⟩ := mem_pendingIntents (List.mem_filter.mp hintent).1
  exact List.mem_map_of_mem (List.mem_filter.mpr ⟨hin, by rw [hskipped]; rfl⟩)

end Intents

section Phase

variable {texts : Texts} {store : OmsService.Store} {cycle : Cycle}

/-- How the two calls of a cycle end. -/
inductive Ends (texts : Texts) (store : OmsService.Store) (cycle : Cycle) :
    Option (List Stage7Order) × OmsService.Store → Prop
  | inReconcile (intents : ℕ) (stop : cycle.stop = some (.inReconcile intents)) :
    Ends texts store cycle (none, interruptCall texts store (reconcileCall cycle) intents)
  | reconcileRaises (error : OmsError)
      (answer : (answerCall texts store (reconcileCall cycle)).1 = .error error) :
    Ends texts store cycle (none, stepCall texts store (reconcileCall cycle))
  | afterReconcile (answer : List Stage7Order × List OrderEvent)
      (reconciled : (answerCall texts store (reconcileCall cycle)).1 = .ok answer)
      (stop : cycle.stop = some .afterReconcile) :
    Ends texts store cycle (none, stepCall texts store (reconcileCall cycle))
  | inProcess (answer : List Stage7Order × List OrderEvent)
      (reconciled : (answerCall texts store (reconcileCall cycle)).1 = .ok answer)
      (intents : ℕ) (stop : cycle.stop = some (.inProcess intents)) :
    Ends texts store cycle
      (none, interruptCall texts (stepCall texts store (reconcileCall cycle)) (processCall cycle)
        intents)
  | processRaises (answer : List Stage7Order × List OrderEvent)
      (reconciled : (answerCall texts store (reconcileCall cycle)).1 = .ok answer)
      (stop : cycle.stop = none ∨ cycle.stop = some .beforeAppend) (error : OmsError)
      (processed : (answerCall texts (stepCall texts store (reconcileCall cycle))
        (processCall cycle)).1 = .error error) :
    Ends texts store cycle
      (none, stepCall texts (stepCall texts store (reconcileCall cycle)) (processCall cycle))
  | processed (answer answer' : List Stage7Order × List OrderEvent)
      (reconciled : (answerCall texts store (reconcileCall cycle)).1 = .ok answer)
      (stop : cycle.stop = none ∨ cycle.stop = some .beforeAppend)
      (processed : (answerCall texts (stepCall texts store (reconcileCall cycle))
        (processCall cycle)).1 = .ok answer') :
    Ends texts store cycle (some (answer.1 ++ answer'.1),
      stepCall texts (stepCall texts store (reconcileCall cycle)) (processCall cycle))

/-- Past the reconcile, with no stop before the process call. -/
theorem process_ends {answer : List Stage7Order × List OrderEvent}
    (hreconciled : (answerCall texts store (reconcileCall cycle)).1 = .ok answer)
    (hstop : cycle.stop = none ∨ cycle.stop = some .beforeAppend) :
    Ends texts store cycle
      (match answerCall texts (stepCall texts store (reconcileCall cycle)) (processCall cycle) with
        | (.error _, store) => (none, store)
        | (.ok (orders, _), store) => (some (answer.1 ++ orders), store)) := by
  cases hprocess : (answerCall texts (stepCall texts store (reconcileCall cycle))
      (processCall cycle)).1 with
  | error error =>
    rw [← Prod.mk.eta (p := answerCall texts (stepCall texts store (reconcileCall cycle))
      (processCall cycle)), hprocess]
    exact .processRaises answer hreconciled hstop error hprocess
  | ok answer' =>
    rw [← Prod.mk.eta (p := answerCall texts (stepCall texts store (reconcileCall cycle))
      (processCall cycle)), hprocess]
    exact .processed answer answer' hreconciled hstop hprocess

theorem reconcile_ends (texts : Texts) (cycle : Cycle) (store : OmsService.Store) :
    Ends texts store cycle (reconcile texts cycle store) := by
  unfold reconcile
  split
  · next intents hstop => exact .inReconcile intents hstop
  · next hstop =>
    cases hreconcile : (answerCall texts store (reconcileCall cycle)).1 with
    | error error =>
      rw [← Prod.mk.eta (p := answerCall texts store (reconcileCall cycle)), hreconcile]
      exact .reconcileRaises error hreconcile
    | ok answer =>
      rw [← Prod.mk.eta (p := answerCall texts store (reconcileCall cycle)), hreconcile]
      dsimp only
      split
      · next hafter => exact .afterReconcile answer hreconcile hafter
      · next intents hprocess => exact .inProcess answer hreconcile intents hprocess
      · next hafter hprocess =>
        refine process_ends hreconcile ?_
        cases hs : cycle.stop with
        | none => exact .inl rfl
        | some point =>
          right
          cases point with
          | inReconcile intents => exact absurd hs (hstop intents)
          | afterReconcile => exact absurd hs hafter
          | inProcess intents => exact absurd hs (hprocess intents)
          | beforeAppend => rfl

/-- A call fills nothing that it commits. -/
def CommitsNoFill (texts : Texts) (store : OmsService.Store) (call : OmsCall) : Prop :=
  ∀ answer, (answerCall texts store call).1 = .ok answer → FillsNone texts store call

/-- The calls that a cycle makes before it stops fill nothing. -/
def FillsNothing (texts : Texts) (store : OmsService.Store) (cycle : Cycle) : Prop :=
  match cycle.stop with
  | some (.inReconcile _) => True
  | some .afterReconcile | some (.inProcess _) => CommitsNoFill texts store (reconcileCall cycle)
  | _ =>
    CommitsNoFill texts store (reconcileCall cycle) ∧
      ∀ answer, (answerCall texts store (reconcileCall cycle)).1 = .ok answer →
        CommitsNoFill texts (stepCall texts store (reconcileCall cycle)) (processCall cycle)

/-- The client order ids that the calls of a cycle ask for. -/
def names (texts : Texts) (store : OmsService.Store) (cycle : Cycle) : List String :=
  asked ((reconcileCall cycle).intents texts store) ++ asked cycle.orderIntents

theorem widen {a b : OmsService.Store} {names others : List String}
    {orders : List Stage7Order} (h : Committed a names orders b)
    (hsub : ∀ clientOrderId ∈ names, clientOrderId ∈ others) : Committed a others orders b :=
  { h with
    stored := fun clientOrderId new hnew => (h.stored clientOrderId new hnew).imp_right (hsub _)
    named := fun order hin => hsub _ (h.named order hin) }

theorem interrupt_same (hsane : Sane store) (call : OmsCall) (intents : ℕ)
    (names : List String) : Committed store names [] (interruptCall texts store call intents) := by
  have hresults := @results_run texts store (startBatch call.env store) call.env
    call.cancelRequests hsane (((call.intents texts store).insertionSort IntentBefore).take intents)
    (results_start call.env)
  exact Committed.of_same (hresults.sane hsane) hresults.orders names

/-- Both calls commit what they return. -/
theorem reconcile_committed (hsane : Sane store) {orders : List Stage7Order}
    (h : (reconcile texts cycle store).1 = some orders) :
    Committed store (names texts store cycle) orders (reconcile texts cycle store).2 := by
  have hends := reconcile_ends texts cycle store
  generalize reconcile texts cycle store = ended at h hends
  cases hends with
  | processed answer answer' hreconciled hstop hprocessed =>
    obtain rfl := Option.some.inj h
    have hfirst := answer_committed hsane
      (@asked_nodup store texts hsane (reconcileCall cycle) trivial) hreconciled
    have hsecond := answer_committed hfirst.sane
      (asked_nodup hfirst.sane (process_distinct cycle)) hprocessed
    exact widen (hfirst.trans hsecond) fun clientOrderId hin =>
      List.mem_append.mpr ((List.mem_append.mp hin).imp_right asked_process)
  | inReconcile intents hstop => cases h
  | reconcileRaises error hanswer => cases h
  | afterReconcile answer hreconciled hstop => cases h
  | inProcess answer hreconciled intents hstop => cases h
  | processRaises answer hreconciled hstop error hprocessed => cases h

/-- Calls that fill nothing leave no order filled that was not. -/
theorem reconcile_unfilled (hsane : Sane store) (h : FillsNothing texts store cycle) :
    Committed store (names texts store cycle) [] (reconcile texts cycle store).2 := by
  have hends := reconcile_ends texts cycle store
  generalize reconcile texts cycle store = ended at hends
  have hfirst (hfills : CommitsNoFill texts store (reconcileCall cycle)) :=
    answer_unfilled hsane hfills
  have hnames : ∀ clientOrderId ∈ asked ((reconcileCall cycle).intents texts store),
      clientOrderId ∈ names texts store cycle := fun _ hin => List.mem_append_left _ hin
  have hlate (hstop : cycle.stop = none ∨ cycle.stop = some .beforeAppend)
      {answer : List Stage7Order × List OrderEvent}
      (hreconciled : (answerCall texts store (reconcileCall cycle)).1 = .ok answer) :
      Committed store (names texts store cycle) [] (stepCall texts
        (stepCall texts store (reconcileCall cycle)) (processCall cycle)) := by
    have hboth : CommitsNoFill texts store (reconcileCall cycle) ∧
        ∀ answer, (answerCall texts store (reconcileCall cycle)).1 = .ok answer →
          CommitsNoFill texts (stepCall texts store (reconcileCall cycle)) (processCall cycle) := by
      unfold FillsNothing at h
      rcases hstop with hstop | hstop
      · rw [hstop] at h
        exact h
      · rw [hstop] at h
        exact h
    have hsecond := answer_unfilled (hfirst hboth.1).sane (hboth.2 answer hreconciled)
    exact widen ((hfirst hboth.1).trans hsecond) fun clientOrderId hin =>
      List.mem_append.mpr ((List.mem_append.mp hin).imp_right asked_process)
  cases hends with
  | inReconcile intents hstop => exact interrupt_same hsane _ intents _
  | reconcileRaises error hanswer => exact answer_raised hsane hanswer _
  | afterReconcile answer hreconciled hstop =>
    unfold FillsNothing at h
    rw [hstop] at h
    exact widen (hfirst h) hnames
  | inProcess answer hreconciled intents hstop =>
    unfold FillsNothing at h
    rw [hstop] at h
    have hsecond := @interrupt_same texts _ (hfirst h).sane (processCall cycle) intents []
    exact widen ((hfirst h).trans hsecond) fun clientOrderId hin =>
      hnames clientOrderId (List.append_nil (asked _) ▸ hin)
  | processRaises answer hreconciled hstop error hprocessed => exact hlate hstop hreconciled
  | processed answer answer' hreconciled hstop hprocessed => exact hlate hstop hreconciled

end Phase

section Runs

variable {digest : String → String} {texts : Texts} {store : Stage7Store} {cycle : Cycle}

/-- The ledger holds the pair of each filled order, and no row of another. -/
structure Booked (digest : String → String) (store : Stage7Store) : Prop where
  sane : Sane store.oms
  unbarred : ∀ (clientOrderId : String) (order : Stage7Order),
    store.oms.stage7Orders[clientOrderId]? = some order → Unbarred clientOrderId
  marked : AllMarked digest store.ledgerEvents
  filled : ∀ clientOrderId, FilledIn store.oms clientOrderId →
    ∃ fillId, entries store.ledgerEvents clientOrderId = pair fillId
  unfilled : ∀ clientOrderId, ¬ FilledIn store.oms clientOrderId →
    entries store.ledgerEvents clientOrderId = []

/-- A cycle that books what it fills, and fills nothing otherwise; and that is asked for a
filled order only under the id it is booked under. -/
structure Sound (digest : String → String) (texts : Texts) (store : Stage7Store)
    (cycle : Cycle) : Prop where
  cycleId : Unbarred cycle.cycleId
  clientOrderIds : ∀ clientOrderId ∈ asked cycle.orderIntents, Unbarred clientOrderId
  reached : (runOneCycle digest texts store cycle).2 = false →
    FillsNothing texts store.oms cycle
  sameId : cycle.observeOnly = false → (runOneCycle digest texts store cycle).2 = true →
    ∀ clientOrderId ∈ asked cycle.orderIntents, ∀ order,
      store.oms.stage7Orders[clientOrderId]? = some order → order.status = .filled →
      ∃ row ∈ store.ledgerEvents,
        row.event.eventId = "fill:" ++ fillIdOf digest cycle.cycleId order

theorem booked_empty : Booked digest {} := by
  refine ⟨sane_empty, fun clientOrderId order h => ?_, List.forall_mem_nil _,
    fun clientOrderId ⟨order, h, _⟩ => ?_, fun _ _ => rfl⟩
  · simp at h
  · simp at h

/-- What one cycle does: no more than what its calls commit, and the ledger append if it
comes to it. -/
theorem stepCycle_cases (digest : String → String) (texts : Texts) (store : Stage7Store)
    (cycle : Cycle) :
    (cycle.observeOnly = true ∧ stepCycle digest texts store cycle = store) ∨
    (cycle.observeOnly = false ∧ (runOneCycle digest texts store cycle).2 = false ∧
      stepCycle digest texts store cycle =
        { store with oms := (reconcile texts cycle store.oms).2 }) ∨
    (cycle.observeOnly = false ∧ (runOneCycle digest texts store cycle).2 = true ∧
      ∃ orders, (reconcile texts cycle store.oms).1 = some orders ∧
        stepCycle digest texts store cycle =
          { oms := (reconcile texts cycle store.oms).2
            ledgerEvents := (orders.insertionSort OrderBefore).foldl (book digest cycle)
              store.ledgerEvents }) := by
  unfold stepCycle runOneCycle
  cases hobserve : cycle.observeOnly with
  | true =>
    left
    refine ⟨rfl, ?_⟩
    simp only [if_true]
    split
    · rfl
    · rfl
  | false =>
    right
    simp only [Bool.false_eq_true, if_false, true_and]
    cases hresult : (reconcile texts cycle store.oms).1 with
    | none => exact .inl ⟨rfl, rfl⟩
    | some orders =>
      dsimp only
      by_cases hstop : cycle.stop = some .beforeAppend
      · rw [if_pos hstop]
        exact .inl ⟨rfl, rfl⟩
      · rw [if_neg hstop]
        refine .inr ⟨rfl, orders, rfl, ?_⟩
        unfold appendLedgerEvents materializeAll
        exact congrArg _ (insertAll_materialize _ _)

theorem unbarred_committed (h : Booked digest store) (hsound : Sound digest texts store cycle)
    {orders : List Stage7Order} {after : OmsService.Store}
    (hcommitted : Committed store.oms (names texts store.oms cycle) orders after) :
    (∀ (clientOrderId : String) (order : Stage7Order),
      after.stage7Orders[clientOrderId]? = some order → Unbarred clientOrderId) ∧
    ∀ order ∈ orders, Unbarred order.clientOrderId := by
  have hstored {clientOrderId : String}
      (hsome : store.oms.stage7Orders[clientOrderId]? ≠ none) : Unbarred clientOrderId := by
    obtain ⟨order, horder⟩ := Option.ne_none_iff_exists'.mp hsome
    exact h.unbarred clientOrderId order horder
  have hnames : ∀ clientOrderId ∈ names texts store.oms cycle, Unbarred clientOrderId := by
    intro clientOrderId hin
    rcases List.mem_append.mp hin with hin | hin
    · exact hstored (asked_reconcile h.sane hin).1
    · exact hsound.clientOrderIds clientOrderId hin
  exact ⟨fun clientOrderId order horder =>
    (hcommitted.stored clientOrderId order horder).elim hstored (hnames clientOrderId),
    fun order hin => hnames _ (hcommitted.named order hin)⟩

theorem fillId_terms {a b : Stage7Order} (hid : a.clientOrderId = b.clientOrderId)
    (hterms : SameTerms a b) (cycleId : String) :
    fillIdOf digest cycleId a = fillIdOf digest cycleId b := by
  unfold fillIdOf
  rw [hid, hterms.symbol, hterms.side]

/-- A row under the fill id of an order is its own row, and of its own pair. -/
theorem pair_of_row (hdigest : Function.Injective digest) {rows : List LedgerRow}
    (hrows : AllMarked digest rows) {clientOrderId fillId other : String}
    (hnamed : Named digest clientOrderId other) (hpair : entries rows clientOrderId = pair fillId)
    {row : LedgerRow} (hrow : row ∈ rows) (hid : row.event.eventId = "fill:" ++ other) :
    other = fillId := by
  obtain ⟨owner, own, howner, hrowId, hkind⟩ := hrows row hrow
  have hown : own = other ∧ row.event.type = .fill := by
    rcases hkind with ⟨htype, hevent, -⟩ | ⟨-, hevent, -⟩
    · exact ⟨String.append_right_inj "fill:" |>.mp (hevent.symm.trans hid), htype⟩
    · exact absurd (hid.symm.trans hevent) (fill_ne_fee_id other own)
  obtain ⟨rfl, htype⟩ := hown
  have hentry := mem_entries hrow (hrowId.trans (congrArg some (howner.inj hdigest hnamed)))
  rw [hpair, htype, hid] at hentry
  rcases List.mem_cons.mp hentry with hsame | hfee
  · exact String.append_right_inj "fill:" |>.mp (Prod.mk.inj hsame).2
  · cases (Prod.mk.inj (List.mem_singleton.mp hfee)).1

/-- A cycle that comes to its append books each order that it leaves filled. -/
theorem books_filled (hdigest : Function.Injective digest) (h : Booked digest store)
    (hsound : Sound digest texts store cycle) (hobserve : cycle.observeOnly = false)
    (hreached : (runOneCycle digest texts store cycle).2 = true) {orders : List Stage7Order}
    {after : OmsService.Store}
    (hcommitted : Committed store.oms (names texts store.oms cycle) orders after)
    {clientOrderId : String} (hfilled : FilledIn after clientOrderId) :
    ∃ fillId, entries ((orders.insertionSort OrderBefore).foldl (book digest cycle)
      store.ledgerEvents) clientOrderId = pair fillId := by
  obtain ⟨hstored, hreturned⟩ := unbarred_committed h hsound hcommitted
  obtain ⟨new, hnew, hstatus⟩ := hfilled
  have hnewId := hcommitted.sane.keyed clientOrderId new hnew
  have hunbarred : Unbarred new.clientOrderId := hnewId ▸ hstored clientOrderId new hnew
  -- every order that comes back filled under this id has the fill id of the stored one
  have hsame : ∀ order ∈ orders.insertionSort OrderBefore, order.clientOrderId = clientOrderId →
      Priced order → fillIdOf digest cycle.cycleId order = fillIdOf digest cycle.cycleId new := by
    intro order hin hid hpriced
    rw [List.mem_insertionSort] at hin
    obtain ⟨stored, hother, -, hterms⟩ := hcommitted.filled order hin hpriced.status
    rw [hid, hnew] at hother
    cases hother
    exact fillId_terms (hid.trans hnewId.symm) hterms cycle.cycleId
  by_cases hold : FilledIn store.oms clientOrderId
  · obtain ⟨fillId, hpair⟩ := h.filled clientOrderId hold
    refine ⟨fillId, books_again hpair fun order hin hid hpriced => ?_⟩
    rw [hsame order hin hid hpriced]
    -- a filled order is not open, so it came back because an intent asked for it
    have hasked : clientOrderId ∈ asked cycle.orderIntents := by
      have hname := hcommitted.named order ((List.mem_insertionSort _).mp hin)
      rcases List.mem_append.mp hname with hopen | hasked
      · exact absurd (hid ▸ hold) (asked_reconcile h.sane hopen).2
      · exact hid ▸ hasked
    obtain ⟨old, hold, hfilledOld⟩ := hold
    obtain ⟨row, hrow, hrowId⟩ :=
      hsound.sameId hobserve hreached clientOrderId hasked old hold hfilledOld
    obtain ⟨kept, hkept, -, hterms⟩ := hcommitted.keeps clientOrderId old hold
    rw [hnew] at hkept
    cases hkept
    have hids : old.clientOrderId = new.clientOrderId :=
      (h.sane.keyed clientOrderId old hold).trans hnewId.symm
    rw [fillId_terms hids hterms] at hrowId
    exact pair_of_row hdigest h.marked (hnewId ▸ fillId_named hsound.cycleId hunbarred) hpair hrow
      hrowId
  · refine ⟨fillIdOf digest cycle.cycleId new, books_first hdigest h.marked hsound.cycleId
      (fun order hin => hreturned order ((List.mem_insertionSort _).mp hin))
      (h.unfilled clientOrderId hold) ?_ hsame⟩
    rcases hcommitted.told clientOrderId ⟨new, hnew, hstatus⟩ with hstart | ⟨order, hin, hfilled⟩
    · exact absurd hstart hold
    · exact ⟨order, (List.mem_insertionSort _).mpr hin, hfilled⟩

theorem booked_step (hdigest : Function.Injective digest) (h : Booked digest store)
    (hsound : Sound digest texts store cycle) :
    Booked digest (stepCycle digest texts store cycle) := by
  rcases stepCycle_cases digest texts store cycle with
    ⟨-, hsame⟩ | ⟨-, hstopped, hstep⟩ | ⟨hobserve, hreached, orders, hresult, hstep⟩
  · rw [hsame]
    exact h
  · rw [hstep]
    have hcommitted := reconcile_unfilled h.sane (hsound.reached hstopped)
    have hback {clientOrderId : String}
        (hfilled : FilledIn (reconcile texts cycle store.oms).2 clientOrderId) :
        FilledIn store.oms clientOrderId := by
      rcases hcommitted.told clientOrderId hfilled with hold | ⟨order, hin, -⟩
      · exact hold
      · cases hin
    exact ⟨hcommitted.sane, (unbarred_committed h hsound hcommitted).1, h.marked,
      fun clientOrderId hfilled => h.filled clientOrderId (hback hfilled),
      fun clientOrderId hunfilled => h.unfilled clientOrderId fun hold =>
        hunfilled (hcommitted.filledIn hold)⟩
  · rw [hstep]
    have hcommitted := reconcile_committed h.sane hresult
    obtain ⟨hstored, hreturned⟩ := unbarred_committed h hsound hcommitted
    refine ⟨hcommitted.sane, hstored, ?_, fun clientOrderId hfilled =>
      books_filled hdigest h hsound hobserve hreached hcommitted hfilled,
      fun clientOrderId hunfilled => ?_⟩
    · exact books_marked h.marked hsound.cycleId fun order hin =>
        hreturned order ((List.mem_insertionSort _).mp hin)
    · refine (books_other fun order hin hown => hunfilled ?_).trans
        (h.unfilled clientOrderId fun hold => hunfilled (hcommitted.filledIn hold))
      obtain ⟨new, hnew, hstatus, -⟩ := hcommitted.filled order
        ((List.mem_insertionSort _).mp hin) hown.2.status
      exact ⟨new, hown.1 ▸ hnew, hstatus⟩

/-- The ledger events of a type booked for a client order id. -/
def eventsFor (store : Stage7Store) (type : LedgerEventType) (clientOrderId : String) :
    List LedgerEvent :=
  (store.ledgerEvents.map LedgerRow.event).filter fun event =>
    event.type = type ∧ event.clientOrderId = some clientOrderId

theorem length_eventsFor (store : Stage7Store) (type : LedgerEventType) (clientOrderId : String) :
    (eventsFor store type clientOrderId).length =
      ((entries store.ledgerEvents clientOrderId).filter (·.1 = type)).length := by
  unfold eventsFor entries
  rw [List.filter_map, List.filter_map, List.length_map, List.length_map, List.filter_filter]
  refine congrArg List.length (List.filter_congr fun row _ => ?_)
  simp [Bool.decide_and]

/-- In every run whose cycles are sound, each filled order has one fill event and one fee
event at every point. -/
theorem filled_order_booked_once (digest : String → String) (texts : Texts)
    (hdigest : Function.Injective digest) (cycles : List Cycle)
    (hsound : Runs.Meets (stepCycle digest texts) (Sound digest texts) {} cycles) :
    ∀ before after, cycles = before ++ after →
      let store := Runs.run (stepCycle digest texts) {} before
      ∀ (clientOrderId : String) (order : Stage7Order),
        store.oms.stage7Orders[clientOrderId]? = some order → order.status = .filled →
        (eventsFor store .fill clientOrderId).length = 1 ∧
          (eventsFor store .fee clientOrderId).length ≤ 1 := by
  intro before after hsplit store clientOrderId order horder hfilled
  have hbefore := (Runs.Meets.append before after (hsplit ▸ hsound)).1
  have hbooked : Booked digest store := Runs.run_meets
    (fun store cycle hstore hcycle => booked_step hdigest hstore hcycle) {} before booked_empty
    hbefore
  obtain ⟨fillId, hpair⟩ := hbooked.filled clientOrderId ⟨order, horder, hfilled⟩
  rw [length_eventsFor, length_eventsFor, hpair]
  exact ⟨rfl, le_refl 1⟩

/-- A cycle with one intent, which is filled. -/
def sampleCycle : Cycle where
  cycleId := "cycle"
  nowUtc := ⟨0, true⟩
  markPrices := []
  settings := ⟨0, 0, 1, fun _ => 0⟩
  stage7FeesBps := 10
  reconcileLimiter := ⟨fun _ => true, fun _ => 0⟩
  processLimiter := ⟨fun _ => true, fun _ => 0⟩
  orderIntents := [sampleIntent]

theorem filled_order_booked_once_sample :
    (eventsFor (Runs.run (stepCycle id sampleTexts) {} [sampleCycle]) .fill "c").length = 1 ∧
      (eventsFor (Runs.run (stepCycle id sampleTexts) {} [sampleCycle]) .fee "c").length ≤ 1 := by
  have hstored : (Runs.run (stepCycle id sampleTexts) {}
      [sampleCycle]).oms.stage7Orders["c"]?.map Stage7Order.status = some .filled := by
    decide +kernel
  obtain ⟨order, horder, hstatus⟩ := Option.map_eq_some_iff.mp hstored
  refine filled_order_booked_once id sampleTexts Function.injective_id [sampleCycle]
    ⟨⟨by decide +kernel, by decide +kernel, fun hstopped => ?_, ?_⟩, trivial⟩ [sampleCycle] [] rfl
    "c" order horder hstatus
  · exact absurd hstopped (by decide +kernel)
  · intro _ _ clientOrderId _ order horder
    simp at horder

/-- The cycle stops between its order transactions and its ledger append. -/
def stoppedCycle : Cycle := { sampleCycle with stop := some .beforeAppend }

/-- A later cycle without intents. -/
def laterCycle : Cycle := { sampleCycle with cycleId := "later", orderIntents := [] }

theorem stopped_cycle_never_booked :
    ¬ ∀ (cycles : List Cycle) (last : Cycle),
      (runOneCycle id sampleTexts (Runs.run (stepCycle id sampleTexts) {} cycles) last).2 = true →
      let store := Runs.run (stepCycle id sampleTexts) {} (cycles ++ [last])
      ∀ (clientOrderId : String) (order : Stage7Order),
        store.oms.stage7Orders[clientOrderId]? = some order → order.status = .filled →
        (eventsFor store .fill clientOrderId).length = 1 ∧
          (eventsFor store .fee clientOrderId).length ≤ 1 := by
  intro hall
  have hstored : (Runs.run (stepCycle id sampleTexts) {}
      ([stoppedCycle] ++ [laterCycle])).oms.stage7Orders["c"]?.map Stage7Order.status =
        some .filled := by decide +kernel
  obtain ⟨order, horder, hstatus⟩ := Option.map_eq_some_iff.mp hstored
  obtain ⟨hfill, -⟩ := hall [stoppedCycle] laterCycle (by decide +kernel) "c" order horder hstatus
  exact absurd hfill (by decide +kernel)

end Runs

end Stage7Cycle
