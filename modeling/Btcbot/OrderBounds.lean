import Btcbot.SubmitKeys

/-!
# Stored orders over many calls

A call stores the results of its batch one after the other, though each intent starts from
the order stored before the call. So a row moves along the table as long as no intent of
the batch has moved the order of a later one. Its filled quantity stays within its quantity
as long as the intents it is submitted for ask for the quantity stored.
-/
namespace OrderBounds

open PyData OmsService SubmitKeys

section Rows

/-- What an upsert leaves under a client order id: what was there, or the last result for
it under the order id that was there. -/
theorem upsert_cases {orders stored : Dict Stage7Order} {applied : List Stage7Order}
    (hupsert : upsertStage7Orders orders applied = some stored) (clientOrderId : String) :
    stored[clientOrderId]? = orders[clientOrderId]? ∨
      ∃ order ∈ applied, order.clientOrderId = clientOrderId ∧
        ∃ orderId, stored[clientOrderId]? = some { order with orderId := orderId } := by
  induction applied generalizing orders with
  | nil =>
    cases hupsert
    exact .inl rfl
  | cons first applied ih =>
    obtain ⟨orderId, hrest⟩ := upsert_first hupsert
    rcases ih hrest with hsame | ⟨order, hin, hid, hstored⟩
    · by_cases hkey : first.clientOrderId = clientOrderId
      · refine .inr ⟨first, List.mem_cons_self, hkey, orderId, ?_⟩
        rw [hsame, Dict.insert_get, if_pos hkey]
      · left
        rw [hsame, Dict.insert_get, if_neg hkey]
    · exact .inr ⟨order, List.mem_cons_of_mem first hin, hid, hstored⟩

end Rows

section Intents

variable (texts : Texts) (env : CallEnv) (cancelRequests : List String)

/-- What a reachable store keeps of the orders whose key is new. -/
structure Sane (store : Store) : Prop where
  keyed : Keyed store
  idle : ∀ clientOrderId, Unregistered clientOrderId store →
    ∀ order, store.stage7Orders[clientOrderId]? = some order → Idle order
  fresh : ∀ clientOrderId, Unregistered clientOrderId store →
    ∀ event ∈ store.stage7OrderEvents, event.clientOrderId = clientOrderId →
      event.eventType ∉ executionTypes

def AllBounded (orders : Dict Stage7Order) : Prop :=
  ∀ (clientOrderId : String) (order : Stage7Order),
    orders[clientOrderId]? = some order → Bounded order

/-- The ways an intent ends its order unfilled: by its own terms, by a cancel, by the key of
another intent or by the simulator. -/
inductive Ends (batch : Batch) (intent : OrderIntent) : EventType → Prop where
  | invalid (h : invalidIntent intent) : Ends batch intent .rejected
  | canceled (hvalid : ¬ invalidIntent intent) (h : intent.clientOrderId ∈ cancelRequests) :
    Ends batch intent .canceled
  | conflict {hash : String} (hvalid : ¬ invalidIntent intent)
    (hnotCanceled : intent.clientOrderId ∉ cancelRequests)
    (hadmitted : env.limiter.admits batch.draws = true)
    (hkey : batch.store.stage7IdempotencyKeys[submitKey intent.clientOrderId]? = some hash)
    (hhash : hash ≠ texts.intentHash intent) : Ends batch intent .rejected
  | simulated (hsubmittable : Submittable texts env cancelRequests batch intent)
    (hreject : shouldReject texts env.settings intent = .ok true) : Ends batch intent .rejected

/-- An earlier result of the batch for the order of an intent left it as it is stored, or ended
it as the intent does. -/
structure Current (batch : Batch) (intent : OrderIntent) (earlier : Stage7Order) : Prop where
  status : earlier.status = (startWalk texts env batch.store intent).order.status ∨
    ∃ eventType, Ends texts env cancelRequests batch intent eventType ∧
      eventType ∉ (startWalk texts env batch.store intent).seen ∧
      EventType.leads (startWalk texts env batch.store intent).order.status eventType =
        earlier.status ∧
      earlier.status ∈
        allowedTransitions (startWalk texts env batch.store intent).order.status
  filledQty : earlier.filledQty = (startWalk texts env batch.store intent).order.filledQty
  avgFillPriceTry : earlier.avgFillPriceTry =
    (startWalk texts env batch.store intent).order.avgFillPriceTry

/-- What an intent asks for agrees with what its batch and the store have of its order: the
quantity of a new order is not negative, that of a stored one, if it is submitted and filled, is
the stored one, and the order is as it is stored when it comes up again. -/
structure Agrees (batch : Batch) (intent : OrderIntent) : Prop where
  new : batch.error = none → intent.skipped = false →
    batch.store.stage7Orders[intent.clientOrderId]? = none → 0 ≤ intent.qty.value
  stored : batch.error = none → intent.skipped = false →
    ∀ order, batch.store.stage7Orders[intent.clientOrderId]? = some order →
      Submittable texts env cancelRequests batch intent →
      shouldReject texts env.settings intent = .ok false →
      intent.qty.value = order.qty.value
  current : batch.error = none → intent.skipped = false →
    ∀ earlier ∈ batch.appliedOrders, earlier.clientOrderId = intent.clientOrderId →
      Current texts env cancelRequests batch intent earlier

/-- What the results of a batch say of the orders it began with. -/
structure Results (start : Store) (batch : Batch) : Prop where
  orders : batch.store.stage7Orders = start.stage7Orders
  events : batch.store.stage7OrderEvents = start.stage7OrderEvents
  keys : ∀ clientOrderId, Unregistered clientOrderId batch.store →
    Unregistered clientOrderId start
  moves : ∀ order ∈ batch.appliedOrders,
    Moves batch.eventsToAppend start.stage7Orders[order.clientOrderId]? order
  idle : ∀ order ∈ batch.appliedOrders, Unregistered order.clientOrderId batch.store →
    Idle order
  fresh : ∀ clientOrderId, Unregistered clientOrderId batch.store →
    ∀ event ∈ batch.eventsToAppend, event.clientOrderId = clientOrderId →
      event.eventType ∉ executionTypes

variable {texts env cancelRequests} {start : Store} {batch : Batch} {intent : OrderIntent}

/-- The order an intent starts from is the stored one or a new one. -/
theorem startWalk_cases (store : Store) (intent : OrderIntent) :
    (store.stage7Orders[intent.clientOrderId]? = none ∧
        (startWalk texts env store intent).order = newOrder texts env intent) ∨
      ∃ old, store.stage7Orders[intent.clientOrderId]? = some old ∧
        (startWalk texts env store intent).order = old := by
  unfold startWalk getStage7OrderByClientId
  cases horder : store.stage7Orders[intent.clientOrderId]? with
  | none => exact .inl ⟨rfl, rfl⟩
  | some old => exact .inr ⟨old, rfl, rfl⟩

theorem Results.follows (h : Results start batch) : ∀ order ∈ batch.appliedOrders, ∀ old,
    start.stage7Orders[order.clientOrderId]? = some old → Follows old order :=
  fun order hin => (h.moves order hin).settled

theorem newOrder_idle (intent : OrderIntent) : Idle (newOrder texts env intent) :=
  ⟨rfl, .inl rfl⟩

theorem appendRetries_status (walk : Walk) (attempts : List RetryAttempt) :
    (appendRetries texts env.nowUtc walk attempts).order.status = walk.order.status := by
  induction attempts generalizing walk with
  | nil => rfl
  | cons attempt attempts ih => exact ih _

theorem appendRetries_avgFillPrice (walk : Walk) (attempts : List RetryAttempt) :
    (appendRetries texts env.nowUtc walk attempts).order.avgFillPriceTry =
      walk.order.avgFillPriceTry := by
  induction attempts generalizing walk with
  | nil => rfl
  | cons attempt attempts ih => exact ih _

/-- An order whose key is new starts idle. -/
theorem start_idle (hresults : Results start batch) (hsane : Sane start)
    (hkey : Unregistered intent.clientOrderId batch.store) :
    Idle (startWalk texts env batch.store intent).order := by
  rcases @startWalk_cases texts env batch.store intent with
    ⟨-, hnew⟩ | ⟨old, hold, horder⟩
  · rw [hnew]
    exact newOrder_idle intent
  · rw [horder]
    rw [hresults.orders] at hold
    exact hsane.idle _ (hresults.keys _ hkey) old hold

/-- An order whose key is new has no event of a submit. -/
theorem start_fresh (hresults : Results start batch) (hsane : Sane start)
    (hkey : Unregistered intent.clientOrderId batch.store) :
    ∀ eventType ∈ executionTypes, eventType ∉ (startWalk texts env batch.store intent).seen := by
  intro eventType htype hseen
  obtain ⟨event, hevent, rfl⟩ := List.mem_map.mp hseen
  unfold getStage7OrderEventsByClientId at hevent
  rw [List.mem_insertionSort, List.mem_filter, hresults.events] at hevent
  exact hsane.fresh _ (hresults.keys _ hkey) event hevent.1 (by simpa using hevent.2) htype

/-- A submit that goes through executes an order that was planned and untouched. -/
theorem executed_fresh {walk : Walk} {attempts : List RetryAttempt}
    (hresults : Results start batch) (hsane : Sane start)
    (hsubmittable : Submittable texts env cancelRequests batch intent)
    (hwalk : executeWalk texts env intent (appendRetries texts env.nowUtc
      (startWalk texts env batch.store intent) attempts) = .ok walk) :
    (startWalk texts env batch.store intent).order.status = .planned ∧
      ∃ rejected, shouldReject texts env.settings intent = .ok rejected ∧
        Executed intent rejected (appendRetries texts env.nowUtc
          (startWalk texts env batch.store intent) attempts) walk := by
  have hidle := @start_idle texts env start batch intent hresults hsane hsubmittable.unregistered
  have hplanned := hidle.planned hsubmittable.isOpen
  have hretries := Plain.appendRetries texts env.nowUtc (startWalk texts env batch.store intent)
    attempts
  refine ⟨hplanned, executeWalk_fresh texts ?_ ?_ ?_ hwalk⟩
  · rw [appendRetries_status, hplanned]
  · rw [hretries.filledQty, hidle.filledQty]
  · rw [hretries.seen]
    exact start_fresh hresults hsane hsubmittable.unregistered

variable (texts env) in
/-- The order that an intent leaves. -/
structure Result (batch after : Batch) (intent : OrderIntent) (order : Stage7Order) : Prop where
  clientOrderId : order.clientOrderId = intent.clientOrderId
  moves : Moves after.eventsToAppend (some (startWalk texts env batch.store intent).order) order
  idle : Unregistered intent.clientOrderId after.store → Idle order

/-- The way of a walk among the events of its batch. -/
theorem spelled_moves {walk : Walk} {after : Batch}
    (h : Spelled (startWalk texts env batch.store intent) walk)
    (hfollows : Follows (startWalk texts env batch.store intent).order walk.order)
    (hevents : after.eventsToAppend = batch.eventsToAppend ++ walk.events) :
    Moves after.eventsToAppend (some (startWalk texts env batch.store intent).order)
      walk.order := by
  obtain ⟨added, hadded, hown, hspells⟩ := h.spelled
  refine ⟨⟨added, ?_, fun event hin => (hown event hin).trans h.clientOrderId.symm, hspells⟩,
    fun old hrow => Option.some.inj hrow ▸ hfollows⟩
  rw [hevents, hadded, ← List.append_assoc]
  exact List.sublist_append_right _ _

theorem plain_result {walk : Walk} {after : Batch} (hresults : Results start batch)
    (hsane : Sane start)
    (hkeys : Unregistered intent.clientOrderId after.store →
      Unregistered intent.clientOrderId batch.store)
    (h : Plain (startWalk texts env batch.store intent) walk)
    (hevents : after.eventsToAppend = batch.eventsToAppend ++ walk.events) :
    Result texts env batch after intent walk.order where
  clientOrderId := h.clientOrderId.trans (startWalk_clientOrderId texts env
    (fun clientOrderId order horder => hsane.keyed clientOrderId order (hresults.orders ▸ horder))
    intent)
  moves := spelled_moves h.toSpelled h.follows hevents
  idle := fun hkey => h.idle (start_idle hresults hsane (hkeys hkey))

theorem executed_result {walk : Walk} {after : Batch} {attempts : List RetryAttempt}
    (hresults : Results start batch) (hsane : Sane start)
    (hsubmittable : Submittable texts env cancelRequests batch intent)
    (hwalk : executeWalk texts env intent (appendRetries texts env.nowUtc
      (startWalk texts env batch.store intent) attempts) = .ok walk)
    (hstore : after.store = registerKey texts batch.store intent)
    (hevents : after.eventsToAppend = batch.eventsToAppend ++ walk.events) :
    Result texts env batch after intent walk.order := by
  obtain ⟨hplanned, -⟩ := executed_fresh hresults hsane hsubmittable hwalk
  have hspelled := (Plain.appendRetries texts env.nowUtc
    (startWalk texts env batch.store intent) attempts).toSpelled.trans
    (executeWalk_spelled texts hwalk)
  refine ⟨?_, spelled_moves hspelled (Follows.of_planned hplanned) hevents, fun hkey => ?_⟩
  · exact hspelled.clientOrderId.trans
      (startWalk_clientOrderId texts env (fun clientOrderId order horder =>
        hsane.keyed clientOrderId order (hresults.orders ▸ horder)) intent)
  · unfold Unregistered at hkey
    rw [hstore, registerKey, Dict.insert_get, if_pos rfl] at hkey
    cases hkey

/-- Seen from the store, a result moves the row of its order. -/
theorem Result.stored {after : Batch} {order : Stage7Order} (hresults : Results start batch)
    (h : Result texts env batch after intent order) :
    Moves after.eventsToAppend start.stage7Orders[intent.clientOrderId]? order := by
  have hmoves := h.moves
  rcases @startWalk_cases texts env batch.store intent with ⟨hnone, hnew⟩ | ⟨old, hold, horder⟩
  · rw [← hresults.orders, hnone]
    exact hmoves.of_new (by rw [hnew]; rfl)
  · rw [← hresults.orders, hold, ← horder]
    exact hmoves

/-- A batch whose results grow by one order. -/
theorem Results.grow {after : Batch} {order : Stage7Order} (h : Results start batch)
    (hhandled : Handled texts env intent batch after)
    (happlied : after.appliedOrders = batch.appliedOrders ++ [order])
    (hevents : List.Sublist batch.eventsToAppend after.eventsToAppend)
    (horder : Result texts env batch after intent order)
    (hfresh : ∀ clientOrderId, Unregistered clientOrderId after.store →
      ∀ event ∈ after.eventsToAppend, event.clientOrderId = clientOrderId →
        event.eventType ∉ executionTypes) : Results start after where
  orders := hhandled.orders.trans h.orders
  events := hhandled.events.trans h.events
  keys := fun clientOrderId hkey => h.keys _ (hhandled.unregistered hkey)
  moves := fun applied hin => by
    rw [happlied] at hin
    rcases List.mem_append.mp hin with hin | hin
    · exact (h.moves applied hin).mono hevents
    · rw [List.mem_singleton.mp hin, horder.clientOrderId]
      exact horder.stored h
  idle := fun applied hin hkey => by
    rw [happlied] at hin
    rcases List.mem_append.mp hin with hin | hin
    · exact h.idle applied hin (hhandled.unregistered hkey)
    · rw [List.mem_singleton.mp hin] at hkey ⊢
      exact horder.idle (horder.clientOrderId ▸ hkey)
  fresh := hfresh

/-- No event of a submit is added for an order whose key is still new. -/
theorem fresh_handled {after : Batch} (h : Results start batch)
    (hhandled : Handled texts env intent batch after) (clientOrderId : String)
    (hkey : Unregistered clientOrderId after.store) :
    ∀ event ∈ after.eventsToAppend, event.clientOrderId = clientOrderId →
      event.eventType ∉ executionTypes := by
  intro event hevent hid
  have hold := h.fresh clientOrderId (hhandled.unregistered hkey)
  rcases hhandled.cases with ⟨-, hquiet⟩ | ⟨-, hkeys, hown, -⟩
  · rcases hquiet event hevent with hin | ⟨-, htype⟩
    · exact hold event hin hid
    · exact htype
  · rcases hown event hevent with hin | hsame
    · exact hold event hin hid
    · unfold Unregistered at hkey
      rw [hkeys, ← hid, hsame, Dict.insert_get, if_pos rfl] at hkey
      cases hkey

/-- An intent adds one result of its own, or none. -/
theorem processIntent_result (hsane : Sane start) (h : Results start batch) :
    let after := processIntent texts env cancelRequests batch intent
    (after.appliedOrders = batch.appliedOrders ∧ after.eventsToAppend = batch.eventsToAppend) ∨
      ∃ order, after.appliedOrders = batch.appliedOrders ++ [order] ∧
        List.Sublist batch.eventsToAppend after.eventsToAppend ∧
        Result texts env batch after intent order := by
  intro after
  have hkeyed : Keyed batch.store := fun clientOrderId order horder =>
    hsane.keyed clientOrderId order (h.orders ▸ horder)
  have hhandled := @processIntent_handled texts env cancelRequests batch intent hkeyed
  cases @processIntent_outcome texts env cancelRequests batch intent with
  | nothing _ happlied hevents => exact .inl ⟨happlied, hevents⟩
  | plain walk hplain _ happlied hevents =>
    refine .inr ⟨walk.order, happlied, ?_,
      plain_result h hsane hhandled.unregistered hplain hevents⟩
    exact hevents ▸ List.sublist_append_left _ _
  | executed walk attempts hsubmittable hwalk hstore happlied hevents =>
    refine .inr ⟨walk.order, happlied, ?_,
      executed_result h hsane hsubmittable hwalk hstore hevents⟩
    exact hevents ▸ List.sublist_append_left _ _

theorem results_processIntent (hsane : Sane start) (h : Results start batch) :
    Results start (processIntent texts env cancelRequests batch intent) := by
  have hkeyed : Keyed batch.store := fun clientOrderId order horder =>
    hsane.keyed clientOrderId order (h.orders ▸ horder)
  have hhandled := @processIntent_handled texts env cancelRequests batch intent hkeyed
  have hfresh := fresh_handled h hhandled
  rcases @processIntent_result texts env cancelRequests start batch intent hsane h with
    ⟨happlied, hevents⟩ | ⟨order, happlied, hevents, horder⟩
  · refine ⟨hhandled.orders.trans h.orders, hhandled.events.trans h.events,
      fun clientOrderId hkey => h.keys _ (hhandled.unregistered hkey), ?_, ?_, hfresh⟩
    · rw [happlied, hevents]
      exact h.moves
    · rw [happlied]
      exact fun order hin hkey => h.idle order hin (hhandled.unregistered hkey)
  · exact h.grow hhandled happlied hevents horder hfresh

/-- An intent that agrees starts from a bounded order. -/
theorem start_bounded (h : Results start batch) (hstored : AllBounded start.stage7Orders)
    (hagrees : Agrees texts env cancelRequests batch intent) (herror : batch.error = none)
    (hskipped : intent.skipped = false) :
    Bounded (startWalk texts env batch.store intent).order := by
  rcases @startWalk_cases texts env batch.store intent with ⟨hnone, hnew⟩ | ⟨old, hold, horder⟩
  · rw [hnew]
    exact (newOrder_idle intent).bounded (hagrees.new herror hskipped hnone)
  · rw [horder]
    exact hstored _ old (h.orders ▸ hold)

/-- Filled or rejected, an executed intent that agrees leaves a bounded order. -/
theorem executed_bounded {walk : Walk} {attempts : List RetryAttempt}
    (h : Results start batch) (hsane : Sane start)
    (hagrees : Agrees texts env cancelRequests batch intent) (herror : batch.error = none)
    (hskipped : intent.skipped = false)
    (hstart : Bounded (startWalk texts env batch.store intent).order)
    (hsubmittable : Submittable texts env cancelRequests batch intent)
    (hwalk : executeWalk texts env intent (appendRetries texts env.nowUtc
      (startWalk texts env batch.store intent) attempts) = .ok walk) : Bounded walk.order := by
  obtain ⟨-, rejected, hreject, hexecuted⟩ := executed_fresh h hsane hsubmittable hwalk
  have hsame : walk.order.qty = (startWalk texts env batch.store intent).order.qty :=
    hexecuted.qty.trans (Plain.appendRetries texts env.nowUtc
      (startWalk texts env batch.store intent) attempts).qty
  have hqty : 0 ≤ walk.order.qty.value := by
    rw [hsame]
    exact hstart.nonneg.trans hstart.le_qty
  cases rejected with
  | true =>
    obtain ⟨hfilled, hstatus⟩ := hexecuted.unfilled rfl
    refine ⟨hfilled.ge, hfilled.trans_le hqty, fun hf => ?_⟩
    rcases hstatus with hs | hs <;> rw [hs] at hf <;> cases hf
  | false =>
    obtain ⟨-, hfilled⟩ := hexecuted.filled rfl
    have hagree : intent.qty.value =
        (startWalk texts env batch.store intent).order.qty.value := by
      rcases @startWalk_cases texts env batch.store intent with ⟨-, hnew⟩ | ⟨old, hold, horder⟩
      · rw [hnew]
        rfl
      · rw [horder]
        exact hagrees.stored herror hskipped old hold hsubmittable hreject
    have hcomplete : walk.order.filledQty = walk.order.qty.value := by
      rw [hfilled, hagree, hsame]
    exact ⟨hcomplete ▸ hqty, hcomplete.le, fun _ => hcomplete⟩

/-- The quantities of a batch's results, when its intents ask for them. -/
theorem bounded_processIntent (hsane : Sane start) (h : Results start batch)
    (hstored : AllBounded start.stage7Orders)
    (hagrees : Agrees texts env cancelRequests batch intent)
    (hbounded : ∀ order ∈ batch.appliedOrders, Bounded order) :
    ∀ order ∈ (processIntent texts env cancelRequests batch intent).appliedOrders,
      Bounded order := by
  have hadd {after : Batch} {order : Stage7Order}
      (happlied : after.appliedOrders = batch.appliedOrders ++ [order]) (hnew : Bounded order) :
      ∀ order ∈ after.appliedOrders, Bounded order := by
    intro result hin
    rw [happlied] at hin
    rcases List.mem_append.mp hin with hin | hin
    · exact hbounded result hin
    · exact List.mem_singleton.mp hin ▸ hnew
  by_cases hidle : (batch.error.isSome || intent.skipped) = true
  · have hsame : processIntent texts env cancelRequests batch intent = batch := by
      unfold processIntent
      rw [if_pos hidle]
    rw [hsame]
    exact hbounded
  · have hrunning : batch.error = none ∧ intent.skipped = false := by
      cases herror : batch.error <;> simp_all
    have hstart := start_bounded h hstored hagrees hrunning.1 hrunning.2
    cases @processIntent_outcome texts env cancelRequests batch intent with
    | nothing _ happlied _ =>
      rw [happlied]
      exact hbounded
    | plain walk hplain _ happlied _ => exact hadd happlied (hplain.bounded hstart)
    | executed walk attempts hsubmittable hwalk _ happlied _ =>
      exact hadd happlied
        (executed_bounded h hsane hagrees hrunning.1 hrunning.2 hstart hsubmittable hwalk)

/-- An intent that ends its order adds it with the status that its event leads to. -/
theorem ends_result {eventType : EventType} (hsane : Sane start) (h : Results start batch)
    (herror : batch.error = none) (hskipped : intent.skipped = false)
    (hends : Ends texts env cancelRequests batch intent eventType)
    (hnew : eventType ∉ (startWalk texts env batch.store intent).seen)
    (hallowed : EventType.leads (startWalk texts env batch.store intent).order.status eventType ∈
      allowedTransitions (startWalk texts env batch.store intent).order.status) :
    ∃ order, (processIntent texts env cancelRequests batch intent).appliedOrders =
        batch.appliedOrders ++ [order] ∧
      order.status =
        EventType.leads (startWalk texts env batch.store intent).order.status eventType ∧
      order.filledQty = (startWalk texts env batch.store intent).order.filledQty ∧
      order.avgFillPriceTry = (startWalk texts env batch.store intent).order.avgFillPriceTry := by
  have hrunning : ¬ (batch.error.isSome || intent.skipped) = true := by simp [herror, hskipped]
  unfold processIntent
  rw [if_neg hrunning]
  dsimp only
  cases hends with
  | invalid hinvalid =>
    rw [if_pos hinvalid]
    refine ⟨_, rfl, ?_⟩
    rw [@Walk.transition_taken texts env.nowUtc _ _ none hnew hallowed]
    exact ⟨rfl, add_zero _, rfl⟩
  | canceled hvalid hcanceled =>
    rw [if_neg hvalid, if_pos hcanceled]
    refine ⟨_, rfl, ?_⟩
    rw [@Walk.transition_taken texts env.nowUtc _ _ none hnew hallowed]
    exact ⟨rfl, add_zero _, rfl⟩
  | conflict hvalid hnotCanceled hadmitted hkey hhash =>
    have hopen : ¬ (startWalk texts env batch.store intent).order.status.terminal = true :=
      fun ht => by simp [allowedTransitions_of_terminal ht] at hallowed
    rw [if_neg hvalid, if_neg hnotCanceled, if_neg hopen, if_neg (by simp [hadmitted])]
    unfold registerAndSubmit tryRegisterIdempotencyKey
    dsimp only
    rw [hkey]
    dsimp only
    rw [if_pos hhash]
    refine ⟨_, rfl, ?_⟩
    rw [@Walk.transition_taken texts env.nowUtc (appendEvent texts env.nowUtc
      (startWalk texts env batch.store intent) .idempotencyConflict
      (.key (submitKey intent.clientOrderId) none)) .rejected none hnew hallowed]
    exact ⟨rfl, add_zero _, rfl⟩
  | simulated hsubmittable hreject =>
    obtain ⟨hvalid, hnotCanceled, hopen, hadmitted, hkey, attempts, haccepted⟩ := hsubmittable
    rw [if_neg hvalid, if_neg hnotCanceled, if_neg (by simp [hopen]), if_neg (by simp [hadmitted])]
    unfold registerAndSubmit tryRegisterIdempotencyKey submitOrder
    dsimp only
    rw [hkey]
    dsimp only
    rw [haccepted]
    dsimp only
    cases hwalk : executeWalk texts env intent (appendRetries texts env.nowUtc
        (startWalk texts env batch.store intent) attempts) with
    | error error =>
      unfold executeWalk at hwalk
      rw [hreject] at hwalk
      cases hwalk
    | ok walk =>
      have hretries := Plain.appendRetries texts env.nowUtc
        (startWalk texts env batch.store intent) attempts
      have hplanned := (start_idle h hsane hkey).planned hopen
      obtain ⟨hstatus, hfilled, havg⟩ := executeWalk_rejected texts
        (by rw [appendRetries_status, hplanned])
        (by rw [hretries.seen]; exact start_fresh h hsane hkey)
        (by rw [hretries.seen]; exact hnew) hreject hwalk
      exact ⟨walk.order, rfl, hstatus, hfilled.trans hretries.filledQty,
        havg.trans (appendRetries_avgFillPrice _ attempts)⟩

/-- Each result of a batch moves the row that the results before it leave in the store. -/
def Written (start : Store) (batch : Batch) : Prop :=
  ∀ earlier order later, batch.appliedOrders = earlier ++ order :: later →
    ∀ orders, upsertStage7Orders start.stage7Orders earlier = some orders →
      Moves batch.eventsToAppend orders[order.clientOrderId]? order

/-- A result moves the row that the batch has left, where its intent agrees. -/
theorem result_written {order : Stage7Order} {orders : Dict Stage7Order} (hsane : Sane start)
    (h : Results start batch) (herror : batch.error = none) (hskipped : intent.skipped = false)
    (hagrees : Agrees texts env cancelRequests batch intent)
    (happlied : (processIntent texts env cancelRequests batch intent).appliedOrders =
      batch.appliedOrders ++ [order])
    (horder : Result texts env batch (processIntent texts env cancelRequests batch intent) intent
      order)
    (horders : upsertStage7Orders start.stage7Orders batch.appliedOrders = some orders) :
    Moves (processIntent texts env cancelRequests batch intent).eventsToAppend
      orders[order.clientOrderId]? order := by
  rcases upsert_cases horders order.clientOrderId with hsame | ⟨earlier, hin, hid, orderId, hrow⟩
  · rw [hsame, horder.clientOrderId]
    exact horder.stored h
  · have hcurrent := hagrees.current herror hskipped earlier hin
      (hid.trans horder.clientOrderId)
    rw [hrow]
    rcases hcurrent.status with hstatus | ⟨eventType, hends, hnew, hleads, hallowed⟩
    · exact horder.moves.of_agrees hstatus hcurrent.filledQty hcurrent.avgFillPriceTry
    · obtain ⟨ended, hended, hstatus, hfilled, havg⟩ :=
        ends_result hsane h herror hskipped hends hnew (hleads ▸ hallowed)
      obtain rfl : order = ended := by
        simpa using happlied.symm.trans hended
      exact Moves.of_same _ (hstatus.trans hleads) (hfilled.trans hcurrent.filledQty.symm)
        (havg.trans hcurrent.avgFillPriceTry.symm)

theorem written_processIntent (hsane : Sane start) (h : Results start batch)
    (hagrees : Agrees texts env cancelRequests batch intent) (hwritten : Written start batch) :
    Written start (processIntent texts env cancelRequests batch intent) := by
  by_cases hidle : (batch.error.isSome || intent.skipped) = true
  · have hsame : processIntent texts env cancelRequests batch intent = batch := by
      unfold processIntent
      rw [if_pos hidle]
    rw [hsame]
    exact hwritten
  · have hrunning : batch.error = none ∧ intent.skipped = false := by
      cases herror : batch.error <;> simp_all
    intro earlier order later hsplit orders horders
    rcases @processIntent_result texts env cancelRequests start batch intent hsane h with
      ⟨happlied, hevents⟩ | ⟨result, happlied, hevents, hresult⟩
    · rw [hevents]
      exact hwritten earlier order later (happlied ▸ hsplit) orders horders
    · rw [happlied] at hsplit
      rcases List.eq_nil_or_concat' later with rfl | ⟨later, last, rfl⟩
      · obtain ⟨rfl, hlast⟩ := List.append_inj' hsplit rfl
        obtain rfl := (List.cons.inj hlast).1
        exact result_written hsane h hrunning.1 hrunning.2 hagrees happlied hresult horders
      · have hinner : batch.appliedOrders = earlier ++ order :: later := by
          rw [← List.cons_append, ← List.append_assoc] at hsplit
          exact (List.append_inj' hsplit rfl).1
        exact (hwritten earlier order later hinner orders horders).mono hevents

end Intents

section Stores

variable {texts : Texts} {start : Store} {batch : Batch}

/-- What a commit leaves under a client order id. -/
theorem commit_orders (h : Results start batch) (clientOrderId : String) :
    (commitBatch batch).2.stage7Orders[clientOrderId]? = start.stage7Orders[clientOrderId]? ∨
      ∃ order ∈ batch.appliedOrders, order.clientOrderId = clientOrderId ∧
        ∃ orderId, (commitBatch batch).2.stage7Orders[clientOrderId]? =
          some { order with orderId := orderId } := by
  unfold commitBatch
  split
  · exact .inl (by rw [h.orders])
  · split
    · exact .inl (by rw [h.orders])
    · next hupsert =>
      rcases upsert_cases hupsert clientOrderId with hsame | hstored
      · exact .inl (hsame.trans (by rw [h.orders]))
      · exact .inr hstored

theorem sane_commit (hsane : Sane start) (h : Results start batch) :
    Sane (commitBatch batch).2 := by
  have hkeyed : Keyed batch.store := fun clientOrderId order horder =>
    hsane.keyed clientOrderId order (h.orders ▸ horder)
  obtain ⟨hkeyed', hkeys, hevents⟩ := commitBatch_cases batch hkeyed
  have hunregistered (clientOrderId : String)
      (hkey : Unregistered clientOrderId (commitBatch batch).2) :
      Unregistered clientOrderId batch.store := by
    unfold Unregistered at hkey ⊢
    rw [← hkeys]
    exact hkey
  refine ⟨hkeyed', fun clientOrderId hkey order horder => ?_, fun clientOrderId hkey event hin hid =>
    ?_⟩
  · have hkey' := hunregistered clientOrderId hkey
    rcases commit_orders h clientOrderId with hsame | ⟨result, hin, hid, orderId, hstored⟩
    · exact hsane.idle clientOrderId (h.keys _ hkey') order (hsame ▸ horder)
    · rw [hstored] at horder
      cases horder
      have hidle := h.idle result hin (hid ▸ hkey')
      exact ⟨hidle.filledQty, hidle.status⟩
  · have hkey' := hunregistered clientOrderId hkey
    rcases hevents event hin with hold | hnew
    · exact hsane.fresh clientOrderId (h.keys _ hkey') event (h.events ▸ hold) hid
    · exact h.fresh clientOrderId hkey' event hnew hid

/-- A stored row is moved to the row that a commit leaves. -/
theorem moves_commit (h : Results start batch) {clientOrderId : String} {old : Stage7Order}
    (hold : start.stage7Orders[clientOrderId]? = some old) :
    ∃ new, (commitBatch batch).2.stage7Orders[clientOrderId]? = some new ∧
      Moves batch.eventsToAppend (some old) new := by
  rcases commit_orders h clientOrderId with hsame | ⟨result, hin, hid, orderId, hstored⟩
  · exact ⟨old, hsame.trans hold, Moves.of_same _ rfl rfl rfl⟩
  · have hmoves := h.moves result hin
    rw [hid, hold] at hmoves
    exact ⟨_, hstored, hmoves.path, fun old hrow => ⟨(hmoves.settled old hrow).settled⟩⟩

/-- Bounded results make bounded rows. -/
theorem bounded_upsert {orders stored : Dict Stage7Order} {applied : List Stage7Order}
    (hupsert : upsertStage7Orders orders applied = some stored) (horders : AllBounded orders)
    (happlied : ∀ order ∈ applied, Bounded order) : AllBounded stored := by
  intro clientOrderId order horder
  rcases upsert_cases hupsert clientOrderId with hsame | ⟨result, hin, -, orderId, hresult⟩
  · exact horders clientOrderId order (hsame ▸ horder)
  · rw [hresult] at horder
    cases horder
    have hb := happlied result hin
    exact ⟨hb.nonneg, hb.le_qty, hb.filled⟩

/-- The rows before and after one of them is written, with the events of the call. -/
structure Writes (events : List OrderEvent) (old new : Dict Stage7Order) : Prop where
  moves : ∀ (clientOrderId : String) (row : Stage7Order), new[clientOrderId]? = some row →
    Moves events old[clientOrderId]? row
  kept : ∀ clientOrderId : String, old[clientOrderId]? ≠ none → new[clientOrderId]? ≠ none
  bounded : AllBounded new

/-- The write of one order changes its row only. -/
theorem writes_upsert {events : List OrderEvent} {old new : Dict Stage7Order}
    {order : Stage7Order} (hupsert : upsertStage7Order old order = some new)
    (hmoves : Moves events old[order.clientOrderId]? order) (hbounded : AllBounded new) :
    Writes events old new := by
  obtain ⟨orderId, hnew⟩ := upsertStage7Order_insert hupsert
  refine ⟨fun clientOrderId row hrow => ?_, fun clientOrderId hold => ?_, hbounded⟩
  · rw [hnew, Dict.insert_get] at hrow
    split at hrow
    · next hsame =>
      subst hsame
      cases hrow
      exact ⟨hmoves.path, fun old hold => ⟨(hmoves.settled old hold).settled⟩⟩
    · rw [hrow]
      exact Moves.of_same _ rfl rfl rfl
  · rw [hnew, Dict.insert_get]
    split
    · exact Option.some_ne_none _
    · exact hold

variable (texts) in
/-- The batch of a call at its end. -/
def callBatch (store : Store) (call : OmsCall) : Batch :=
  runBatch texts call.env call.cancelRequests store (call.intents texts store)

variable (texts) in
/-- What a call does to the stored orders: each of its writes moves one row, every row stays
bounded, and the rows are those of the last write, or as before where nothing is committed. -/
structure Moved (store : Store) (call : OmsCall) : Prop where
  writes : ∀ earlier order later,
    (callBatch texts store call).appliedOrders = earlier ++ order :: later →
    ∀ old new, upsertStage7Orders store.stage7Orders earlier = some old →
      upsertStage7Order old order = some new →
      Writes (callBatch texts store call).eventsToAppend old new
  stored : (stepCall texts store call).stage7Orders = store.stage7Orders ∨
    upsertStage7Orders store.stage7Orders (callBatch texts store call).appliedOrders =
      some (stepCall texts store call).stage7Orders
  committed : ∀ (clientOrderId : String) (old : Stage7Order),
    store.stage7Orders[clientOrderId]? = some old →
    ∃ new, (stepCall texts store call).stage7Orders[clientOrderId]? = some new ∧
      Moves (callBatch texts store call).eventsToAppend (some old) new

theorem results_start (env : CallEnv) : Results start (startBatch env start) :=
  ⟨rfl, rfl, fun _ h => h, List.forall_mem_nil _, List.forall_mem_nil _,
    fun _ _ => List.forall_mem_nil _⟩

theorem results_run {env : CallEnv} {cancelRequests : List String} (hsane : Sane start)
    (intents : List OrderIntent) (h : Results start batch) :
    Results start (Runs.run (processIntent texts env cancelRequests) batch intents) :=
  Runs.run_keeps (fun _ _ h => results_processIntent hsane h) batch intents h

variable (texts) in
/-- Every intent of a call agrees with what its batch and the store have of its order. -/
def CallAgrees (store : Store) (call : OmsCall) : Prop :=
  Runs.Meets (processIntent texts call.env call.cancelRequests)
    (Agrees texts call.env call.cancelRequests) (startBatch call.env store)
    ((call.intents texts store).insertionSort IntentBefore)

theorem sane_stepCall (hsane : Sane start) (call : OmsCall) :
    Sane (stepCall texts start call) :=
  sane_commit hsane (results_run hsane _ (results_start call.env))

theorem moves_stepCall (hsane : Sane start) (call : OmsCall) {clientOrderId : String}
    {old : Stage7Order} (hold : start.stage7Orders[clientOrderId]? = some old) :
    ∃ new, (stepCall texts start call).stage7Orders[clientOrderId]? = some new ∧
      Moves (callBatch texts start call).eventsToAppend (some old) new :=
  moves_commit (results_run hsane _ (results_start call.env)) hold

theorem stored_stepCall (hsane : Sane start) (call : OmsCall) :
    (stepCall texts start call).stage7Orders = start.stage7Orders ∨
      upsertStage7Orders start.stage7Orders (callBatch texts start call).appliedOrders =
        some (stepCall texts start call).stage7Orders := by
  have hresults : Results start (callBatch texts start call) :=
    results_run hsane _ (results_start call.env)
  have hcommit : stepCall texts start call = (commitBatch (callBatch texts start call)).2 := rfl
  rw [hcommit, ← hresults.orders]
  unfold commitBatch
  split
  · exact .inl rfl
  · split
    · exact .inl rfl
    · next hupsert => exact .inr hupsert

/-- A call whose intents agree moves every row it writes, and keeps all rows bounded. -/
theorem moved_stepCall (hsane : Sane start) (hstored : AllBounded start.stage7Orders)
    (call : OmsCall) (hagrees : CallAgrees texts start call) :
    Moved texts start call ∧ AllBounded (stepCall texts start call).stage7Orders := by
  have hrun : (Results start (callBatch texts start call) ∧
      Written start (callBatch texts start call)) ∧
      ∀ order ∈ (callBatch texts start call).appliedOrders, Bounded order :=
    Runs.run_meets
      (I := fun batch => (Results start batch ∧ Written start batch) ∧
        ∀ order ∈ batch.appliedOrders, Bounded order)
      (fun batch intent hbatch hintent => ⟨⟨results_processIntent hsane hbatch.1.1,
        written_processIntent hsane hbatch.1.1 hintent hbatch.1.2⟩,
        bounded_processIntent hsane hbatch.1.1 hstored hintent hbatch.2⟩)
      (startBatch call.env start) _
      ⟨⟨results_start call.env, fun earlier order later hsplit => by cases earlier <;> cases hsplit⟩,
        List.forall_mem_nil _⟩ hagrees
  obtain ⟨⟨hresults, hwritten⟩, hbounded⟩ := hrun
  have hafter := @stored_stepCall texts start hsane call
  refine ⟨⟨fun earlier order later hsplit old new hold hnew => ?_, hafter,
    fun clientOrderId old hold => moves_stepCall hsane call hold⟩, ?_⟩
  · refine writes_upsert hnew (hwritten earlier order later hsplit old hold) ?_
    rw [hsplit] at hbounded
    have hsingle : upsertStage7Orders old [order] = some new := by
      simpa [upsertStage7Orders] using hnew
    refine bounded_upsert hsingle (bounded_upsert hold hstored fun other hin =>
      hbounded other (List.mem_append_left _ hin)) fun other hin => ?_
    exact hbounded other (List.mem_append_right _ (List.mem_singleton.mp hin ▸ List.mem_cons_self))
  · rcases hafter with hsame | hupsert
    · rw [hsame]
      exact hstored
    · exact bounded_upsert hupsert hstored hbounded

theorem sane_empty : Sane {} := by
  refine ⟨fun clientOrderId order h => ?_, fun clientOrderId _ order h => ?_,
    fun _ _ => List.forall_mem_nil _⟩
  · simp at h
  · simp at h

/-- Along every run whose intents agree with what is stored of their orders, every write of a
row moves it along the table as the events of the call spell it, leaves a terminal one as it
is, and keeps it bounded. -/
theorem orders_move_and_bounded (texts : Texts) (calls : List OmsCall)
    (hagrees : Runs.Meets (stepCall texts) (CallAgrees texts) {} calls) :
    ∀ before call after, calls = before ++ call :: after →
      AllBounded (Runs.run (stepCall texts) {} before).stage7Orders ∧
        Moved texts (Runs.run (stepCall texts) {} before) call ∧
        AllBounded (Runs.run (stepCall texts) {} (before ++ [call])).stage7Orders := by
  intro before call after hsplit
  obtain ⟨hbefore, hcall, -⟩ := Runs.Meets.append before (call :: after) (hsplit ▸ hagrees)
  have hrun := Runs.run_meets (I := fun store => Sane store ∧ AllBounded store.stage7Orders)
    (fun store call hstore hcall => ⟨sane_stepCall hstore.1 call,
      (moved_stepCall hstore.1 hstore.2 call hcall).2⟩) {} before
    ⟨sane_empty, fun clientOrderId order h => by simp at h⟩ hbefore
  obtain ⟨hmoved, hbounded⟩ := moved_stepCall hrun.1 hrun.2 call hcall
  have hend : Runs.run (stepCall texts) {} (before ++ [call]) =
      stepCall texts (Runs.run (stepCall texts) {} before) call := List.foldl_append
  rw [hend]
  exact ⟨hrun.2, hmoved, hbounded⟩

theorem orders_move_and_bounded_accepted :
    AllBounded (Runs.run (stepCall sampleTexts) {} []).stage7Orders ∧
      Moved sampleTexts (Runs.run (stepCall sampleTexts) {} []) (sampleCall []) ∧
      AllBounded (Runs.run (stepCall sampleTexts) {} [sampleCall []]).stage7Orders := by
  refine orders_move_and_bounded sampleTexts [sampleCall []] ⟨⟨⟨?_, ?_, ?_⟩, trivial⟩, trivial⟩
    [] (sampleCall []) [] rfl
  · exact fun _ _ _ => by decide +kernel
  · intro _ _ order horder
    have hnone : (∅ : Dict Stage7Order)["c"]? = some order := horder
    simp at hnone
  · exact fun _ _ _ hin => by cases hin

/-- The sample intent for two units, where the order stored is for one. -/
def doubledIntent : OrderIntent := { sampleIntent with qty := ⟨2, "2"⟩ }

def throttledCall : OmsCall :=
  .processIntents { sampleCallEnv [] with limiter := ⟨fun _ => false, fun _ => 0⟩ } [sampleIntent] []

def doubledCall : OmsCall := .processIntents (sampleCallEnv []) [doubledIntent] []

def repeatedCall : OmsCall := .processIntents (sampleCallEnv []) [sampleIntent, sampleIntent] []

/-- An order stored when its intent was throttled is overfilled by a later intent, and the
second of two intents in a batch writes the order the first one filled back to planned. -/
theorem throttled_then_overfilled :
    (∃ order, (Runs.run (stepCall sampleTexts) {} [throttledCall, doubledCall]).stage7Orders[
        "c"]? = some order ∧ order.status = .filled ∧ order.filledQty = 2 ∧ order.qty.value = 1 ∧
      ¬ Bounded order) ∧
    (((upsertStage7Orders ∅ ((callBatch sampleTexts {} repeatedCall).appliedOrders.take 1)).bind
        fun orders => orders["c"]?.map fun row => (row.status, row.filledQty)) =
          some (.filled, 1) ∧
      ((stepCall sampleTexts {} repeatedCall).stage7Orders["c"]?.map
        fun row => (row.status, row.filledQty)) = some (.planned, 0) ∧
      ¬ Moved sampleTexts {} repeatedCall) := by
  have hstored : (Runs.run (stepCall sampleTexts) {} [throttledCall, doubledCall]).stage7Orders[
      "c"]?.map (fun order => (order.status, order.filledQty, order.qty.value)) =
      some (.filled, 2, 1) := by decide +kernel
  obtain ⟨order, horder, hfields⟩ := Option.map_eq_some_iff.mp hstored
  simp only [Prod.mk.injEq] at hfields
  obtain ⟨hstatus, hfilled, hqty⟩ := hfields
  have hfirst : ((upsertStage7Orders ∅
      ((callBatch sampleTexts {} repeatedCall).appliedOrders.take 1)).bind
        fun orders => orders["c"]?.map fun row => (row.status, row.filledQty)) =
          some (.filled, 1) := by decide +kernel
  refine ⟨⟨order, horder, hstatus, hfilled, hqty, fun hbounded => ?_⟩, hfirst,
    by decide +kernel, fun hmoved => ?_⟩
  · have hle := hbounded.le_qty
    rw [hfilled, hqty] at hle
    norm_num at hle
  · have hresults : (callBatch sampleTexts {} repeatedCall).appliedOrders.map
        (fun order => (order.clientOrderId, order.status)) =
          [("c", .filled), ("c", .planned)] := by decide +kernel
    obtain ⟨filled, later, happlied, -, hlater⟩ := List.map_eq_cons_iff.mp hresults
    obtain ⟨planned, none, rfl, hplanned, -⟩ := List.map_eq_cons_iff.mp hlater
    obtain ⟨hid, hplanned⟩ := Prod.mk.inj hplanned
    rw [happlied] at hfirst
    obtain ⟨old, hold, hrow⟩ := Option.bind_eq_some_iff.mp hfirst
    obtain ⟨row, hrow, hterminal⟩ := Option.map_eq_some_iff.mp hrow
    have hwrite : upsertStage7Order old planned =
        some (old.insert planned.clientOrderId { planned with orderId := row.orderId }) := by
      unfold upsertStage7Order
      rw [hid, hrow]
    have hmoves := (hmoved.writes [filled] planned none happlied old _ hold hwrite).moves
      planned.clientOrderId _ (by rw [Dict.insert_get, if_pos rfl])
    rw [hid] at hmoves
    have hsame := ((hmoves.settled row hrow).settled (by
      rw [(Prod.mk.inj hterminal).1]
      rfl)).1
    rw [(Prod.mk.inj hterminal).1] at hsame
    cases hplanned.symm.trans hsame

end Stores

end OrderBounds
