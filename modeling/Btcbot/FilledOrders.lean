import Btcbot.OrderBounds

/-!
# Filled orders

An order is filled by one submit, at a price and for a quantity, and stays filled. What a
call returns as filled is what it leaves filled in the store.
-/
namespace OrderBounds

open PyData OmsService SubmitKeys

section Intents

variable (texts : Texts) (env : CallEnv) (cancelRequests : List String)

/-- An intent is submitted, accepted and not rejected. -/
structure Fills (batch : Batch) (intent : OrderIntent) : Prop where
  running : batch.error = none
  notSkipped : intent.skipped = false
  submittable : Submittable texts env cancelRequests batch intent
  notRejected : shouldReject texts env.settings intent = .ok false

/-- A filled order with a price and a quantity. -/
structure Priced (order : Stage7Order) : Prop where
  status : order.status = .filled
  filledQty : 0 < order.filledQty
  price : order.avgFillPriceTry.isSome = true

def FilledIn (store : Store) (clientOrderId : String) : Prop :=
  ∃ order, store.stage7Orders[clientOrderId]? = some order ∧ order.status = .filled

/-- What an intent returns. -/
structure Returned (start : Store) (batch : Batch) (intent : OrderIntent)
    (order : Stage7Order) : Prop where
  notSkipped : intent.skipped = false
  clientOrderId : order.clientOrderId = intent.clientOrderId
  terms : ∀ old, start.stage7Orders[intent.clientOrderId]? = some old → SameTerms old order
  filled : order.status = .filled → FilledIn start intent.clientOrderId ∨
    (Fills texts env cancelRequests batch intent ∧ Priced order)

variable {texts env cancelRequests} {start : Store} {batch : Batch} {intent : OrderIntent}

theorem plain_returned {walk : Walk} (hresults : Results start batch) (hsane : Sane start)
    (hskipped : intent.skipped = false)
    (h : Plain (startWalk texts env batch.store intent) walk) :
    Returned texts env cancelRequests start batch intent walk.order where
  notSkipped := hskipped
  clientOrderId := h.clientOrderId.trans (startWalk_clientOrderId texts env
    (fun clientOrderId order horder => hsane.keyed clientOrderId order (hresults.orders ▸ horder))
    intent)
  terms := fun old hold => by
    rcases @startWalk_cases texts env batch.store intent with ⟨hnone, -⟩ | ⟨old', hold', horder⟩
    · rw [hresults.orders, hold] at hnone
      cases hnone
    · rw [hresults.orders, hold] at hold'
      cases hold'
      exact horder ▸ h.terms
  filled := fun hfilled => by
    left
    have hstart : (startWalk texts env batch.store intent).order.status = .filled := by
      rcases h.status with hs | hs | hs
      · exact hs ▸ hfilled
      · rw [hs] at hfilled
        cases hfilled
      · rw [hs] at hfilled
        cases hfilled
    rcases @startWalk_cases texts env batch.store intent with ⟨-, hnew⟩ | ⟨old, hold, horder⟩
    · rw [hnew] at hstart
      cases hstart
    · exact ⟨old, hresults.orders ▸ hold, horder ▸ hstart⟩

theorem executed_returned {walk : Walk} {attempts : List RetryAttempt}
    (hresults : Results start batch) (hsane : Sane start) (herror : batch.error = none)
    (hskipped : intent.skipped = false)
    (hsubmittable : Submittable texts env cancelRequests batch intent)
    (hwalk : executeWalk texts env intent (appendRetries texts env.nowUtc
      (startWalk texts env batch.store intent) attempts) = .ok walk) :
    Returned texts env cancelRequests start batch intent walk.order := by
  obtain ⟨-, rejected, hreject, hexecuted⟩ := executed_fresh hresults hsane hsubmittable hwalk
  have hretries := Plain.appendRetries texts env.nowUtc (startWalk texts env batch.store intent)
    attempts
  have hplain := @plain_returned texts env cancelRequests start batch intent _ hresults hsane
    hskipped hretries
  refine ⟨hskipped, hexecuted.clientOrderId.trans hplain.clientOrderId,
    fun old hold => (hplain.terms old hold).trans hexecuted.terms, fun hfilled => .inr ?_⟩
  cases rejected with
  | true =>
    obtain ⟨-, hs | hs⟩ := hexecuted.unfilled rfl
    · rw [hs] at hfilled
      cases hfilled
    · rw [hs] at hfilled
      cases hfilled
  | false =>
    have hqty : 0 < intent.qty.value := by
      by_contra hle
      exact hsubmittable.valid (.inl (not_lt.mp hle))
    refine ⟨⟨herror, hskipped, hsubmittable, hreject⟩, hfilled, ?_, hexecuted.priced rfl hqty⟩
    rw [(hexecuted.filled rfl).2]
    exact hqty

/-- An intent returns one order of its own, or none. -/
theorem processIntent_returned (hresults : Results start batch) (hsane : Sane start) :
    let after := processIntent texts env cancelRequests batch intent
    after.appliedOrders = batch.appliedOrders ∨
      ∃ order, after.appliedOrders = batch.appliedOrders ++ [order] ∧
        Returned texts env cancelRequests start batch intent order := by
  intro after
  by_cases hidle : (batch.error.isSome || intent.skipped) = true
  · left
    show (processIntent texts env cancelRequests batch intent).appliedOrders = _
    unfold processIntent
    rw [if_pos hidle]
  · have hrunning : batch.error = none ∧ intent.skipped = false := by
      cases herror : batch.error <;> simp_all
    cases @processIntent_outcome texts env cancelRequests batch intent with
    | nothing _ happlied _ => exact .inl happlied
    | plain walk hplain _ happlied _ =>
      exact .inr ⟨walk.order, happlied, plain_returned hresults hsane hrunning.2 hplain⟩
    | executed walk attempts hsubmittable hwalk _ happlied _ =>
      exact .inr ⟨walk.order, happlied,
        executed_returned hresults hsane hrunning.1 hrunning.2 hsubmittable hwalk⟩

end Intents

section Batches

variable {texts : Texts} {env : CallEnv} {cancelRequests : List String} {start : Store}

/-- The client order ids of the intents that are not skipped. -/
def asked (intents : List OrderIntent) : List String :=
  (intents.filter fun intent => !intent.skipped).map OrderIntent.clientOrderId

/-- The orders that a batch returns for the intents it has taken. -/
structure Answered (start : Store) (taken : List OrderIntent) (batch : Batch) : Prop where
  results : Results start batch
  named : (batch.appliedOrders.map Stage7Order.clientOrderId).Sublist (asked taken)
  terms : ∀ order ∈ batch.appliedOrders, ∀ old,
    start.stage7Orders[order.clientOrderId]? = some old → SameTerms old order
  filled : ∀ order ∈ batch.appliedOrders, order.status = .filled →
    FilledIn start order.clientOrderId ∨ Priced order

theorem Answered.processIntent {taken : List OrderIntent} {batch : Batch} (hsane : Sane start)
    (h : Answered start taken batch) (intent : OrderIntent) :
    Answered start (taken ++ [intent]) (processIntent texts env cancelRequests batch intent) := by
  have hasked : asked (taken ++ [intent]) = asked taken ++ asked [intent] := by
    unfold asked
    rw [List.filter_append, List.map_append]
  have hresults := @results_processIntent texts env cancelRequests start batch intent hsane h.results
  rcases @processIntent_returned texts env cancelRequests start batch intent h.results hsane with
    hsame | ⟨order, hgrown, hreturned⟩
  · refine ⟨hresults, ?_, ?_, ?_⟩
    · rw [hsame, hasked]
      exact h.named.trans (List.sublist_append_left _ _)
    · rw [hsame]
      exact h.terms
    · rw [hsame]
      exact h.filled
  · have hin {applied : Stage7Order}
        (happlied : applied ∈ (OmsService.processIntent texts env cancelRequests batch
          intent).appliedOrders) : applied ∈ batch.appliedOrders ∨ applied = order := by
      rw [hgrown] at happlied
      exact (List.mem_append.mp happlied).imp_right List.mem_singleton.mp
    refine ⟨hresults, ?_, fun applied happlied old hold => ?_, fun applied happlied hfilled => ?_⟩
    · rw [hgrown, hasked, List.map_append]
      refine h.named.append ?_
      simp [asked, hreturned.notSkipped, hreturned.clientOrderId]
    · rcases hin happlied with hbefore | rfl
      · exact h.terms applied hbefore old hold
      · exact hreturned.terms old (hreturned.clientOrderId ▸ hold)
    · rcases hin happlied with hbefore | rfl
      · exact h.filled applied hbefore hfilled
      · rw [hreturned.clientOrderId]
        exact (hreturned.filled hfilled).imp_right And.right

theorem answered_run (hsane : Sane start) (intents : List OrderIntent) :
    Answered start intents (Runs.run (processIntent texts env cancelRequests)
      (startBatch env start) intents) := by
  induction intents using List.reverseRecOn with
  | nil => exact ⟨results_start env, List.Sublist.refl _, List.forall_mem_nil _,
      List.forall_mem_nil _⟩
  | append_singleton intents intent ih =>
    have hend : Runs.run (processIntent texts env cancelRequests) (startBatch env start)
        (intents ++ [intent]) = processIntent texts env cancelRequests
          (Runs.run (processIntent texts env cancelRequests) (startBatch env start) intents)
          intent := List.foldl_append
    rw [hend]
    exact ih.processIntent hsane intent

/-- Where no intent fills, what comes back filled was filled before. -/
theorem unfilled_run (hsane : Sane start) (intents : List OrderIntent)
    (h : Runs.Meets (processIntent texts env cancelRequests)
      (fun batch intent => ¬ Fills texts env cancelRequests batch intent) (startBatch env start)
      intents) :
    ∀ order ∈ (Runs.run (processIntent texts env cancelRequests) (startBatch env start)
      intents).appliedOrders, order.status = .filled → FilledIn start order.clientOrderId := by
  have hrun := Runs.run_meets
    (I := fun batch => Results start batch ∧ ∀ order ∈ batch.appliedOrders,
      order.status = .filled → FilledIn start order.clientOrderId)
    (fun batch intent hbatch hintent => ?_)
    (startBatch env start) intents ⟨results_start env, List.forall_mem_nil _⟩ h
  · exact hrun.2
  · refine ⟨results_processIntent hsane hbatch.1, fun order hin hfilled => ?_⟩
    rcases @processIntent_returned texts env cancelRequests start batch intent hbatch.1 hsane with
      hsame | ⟨new, hgrown, hreturned⟩
    · rw [hsame] at hin
      exact hbatch.2 order hin hfilled
    · rw [hgrown] at hin
      rcases List.mem_append.mp hin with hin | hin
      · exact hbatch.2 order hin hfilled
      · obtain rfl := List.mem_singleton.mp hin
        rcases hreturned.filled hfilled with hold | hfills
        · rw [hreturned.clientOrderId]
          exact hold
        · exact absurd hfills.1 hintent

/-- A batch whose transaction is not committed leaves a sane store. -/
theorem Results.sane {batch : Batch} (hsane : Sane start) (h : Results start batch) :
    Sane batch.store where
  keyed := fun clientOrderId order horder =>
    hsane.keyed clientOrderId order (h.orders ▸ horder)
  idle := fun clientOrderId hkey order horder =>
    hsane.idle clientOrderId (h.keys _ hkey) order (h.orders ▸ horder)
  fresh := fun clientOrderId hkey event hevent =>
    hsane.fresh clientOrderId (h.keys _ hkey) event (h.events ▸ hevent)

end Batches

section Calls

/-- What a transaction stores of a filled order, under the order id that was there. -/
theorem upsert_stored {orders stored : Dict Stage7Order} {applied : List Stage7Order}
    (hupsert : upsertStage7Orders orders applied = some stored)
    (hnodup : (applied.map Stage7Order.clientOrderId).Nodup) :
    ∀ order ∈ applied, ∃ orderId,
      stored[order.clientOrderId]? = some { order with orderId := orderId } := by
  induction applied generalizing orders with
  | nil => exact List.forall_mem_nil _
  | cons first applied ih =>
    obtain ⟨hfirst, hrest⟩ := List.nodup_cons.mp hnodup
    obtain ⟨orderId, hstored⟩ := upsert_first hupsert
    intro order hin
    rcases List.mem_cons.mp hin with rfl | hin
    · rcases upsert_cases hstored order.clientOrderId with hsame | ⟨other, hother, hid, -⟩
      · exact ⟨orderId, by rw [hsame, Dict.insert_get, if_pos rfl]⟩
      · exact absurd (hid ▸ List.mem_map_of_mem hother) hfirst
    · exact ih hstored hrest order hin

/-- The orders that come back from a store to a later one, under some client order ids. -/
structure Committed (start : Store) (names : List String) (orders : List Stage7Order)
    (after : Store) : Prop where
  sane : Sane after
  keeps : ∀ (clientOrderId : String) (old : Stage7Order),
    start.stage7Orders[clientOrderId]? = some old →
    ∃ new, after.stage7Orders[clientOrderId]? = some new ∧ Follows old new ∧ SameTerms old new
  stored : ∀ (clientOrderId : String) (new : Stage7Order),
    after.stage7Orders[clientOrderId]? = some new →
    start.stage7Orders[clientOrderId]? ≠ none ∨ clientOrderId ∈ names
  named : ∀ order ∈ orders, order.clientOrderId ∈ names
  filled : ∀ order ∈ orders, order.status = .filled →
    ∃ new, after.stage7Orders[order.clientOrderId]? = some new ∧ new.status = .filled ∧
      SameTerms order new
  told : ∀ clientOrderId, FilledIn after clientOrderId → FilledIn start clientOrderId ∨
    ∃ order ∈ orders, order.clientOrderId = clientOrderId ∧ Priced order

theorem Committed.trans {a b c : Store} {names others : List String}
    {orders more : List Stage7Order} (h : Committed a names orders b)
    (h' : Committed b others more c) : Committed a (names ++ others) (orders ++ more) c where
  sane := h'.sane
  keeps := fun clientOrderId old hold => by
    obtain ⟨mid, hmid, hfollows, hterms⟩ := h.keeps clientOrderId old hold
    obtain ⟨new, hnew, hfollows', hterms'⟩ := h'.keeps clientOrderId mid hmid
    exact ⟨new, hnew, hfollows.trans hfollows', hterms.trans hterms'⟩
  stored := fun clientOrderId new hnew => by
    rcases h'.stored clientOrderId new hnew with hmid | hin
    · obtain ⟨mid, hmid⟩ := Option.ne_none_iff_exists'.mp hmid
      exact (h.stored clientOrderId mid hmid).imp_right (List.mem_append_left _)
    · exact .inr (List.mem_append_right _ hin)
  named := fun order hin => (List.mem_append.mp hin).elim
    (fun hin => List.mem_append_left _ (h.named order hin))
    fun hin => List.mem_append_right _ (h'.named order hin)
  filled := fun order hin hfilled => by
    rcases List.mem_append.mp hin with hin | hin
    · obtain ⟨mid, hmid, hstatus, hterms⟩ := h.filled order hin hfilled
      obtain ⟨new, hnew, hfollows, hterms'⟩ := h'.keeps order.clientOrderId mid hmid
      have hsame := (hfollows.settled (by rw [hstatus]; rfl)).1
      exact ⟨new, hnew, hsame.trans hstatus, hterms.trans hterms'⟩
    · exact h'.filled order hin hfilled
  told := fun clientOrderId hfilled => by
    rcases h'.told clientOrderId hfilled with hmid | ⟨order, hin, hid, hpriced⟩
    · rcases h.told clientOrderId hmid with hold | ⟨order, hin, hid, hpriced⟩
      · exact .inl hold
      · exact .inr ⟨order, List.mem_append_left _ hin, hid, hpriced⟩
    · exact .inr ⟨order, List.mem_append_right _ hin, hid, hpriced⟩

/-- A filled order stays filled. -/
theorem Committed.filledIn {a b : Store} {names : List String} {orders : List Stage7Order}
    (h : Committed a names orders b) {clientOrderId : String} (hold : FilledIn a clientOrderId) :
    FilledIn b clientOrderId := by
  obtain ⟨old, hold, hstatus⟩ := hold
  obtain ⟨new, hnew, hfollows, -⟩ := h.keeps clientOrderId old hold
  exact ⟨new, hnew, ((hfollows.settled (by rw [hstatus]; rfl)).1).trans hstatus⟩

/-- Where no order changes, none comes back. -/
theorem Committed.of_same {a b : Store} (hsane : Sane b) (hsame : b.stage7Orders = a.stage7Orders)
    (names : List String) : Committed a names [] b where
  sane := hsane
  keeps := fun _ old hold =>
    ⟨old, hsame ▸ hold, Follows.of_same rfl rfl rfl, SameTerms.refl old⟩
  stored := fun _ new hnew => .inl (by rw [← hsame, hnew]; exact Option.some_ne_none new)
  named := List.forall_mem_nil _
  filled := List.forall_mem_nil _
  told := fun _ ⟨new, hnew, hstatus⟩ => .inl ⟨new, hsame ▸ hnew, hstatus⟩

variable {texts : Texts} {start : Store} {call : OmsCall}

/-- A transaction that goes through stores the orders of the batch. -/
theorem commitBatch_ok {batch : Batch} {orders : List Stage7Order} {events : List OrderEvent}
    (h : (commitBatch batch).1 = .ok (orders, events)) :
    orders = batch.appliedOrders ∧
      upsertStage7Orders batch.store.stage7Orders batch.appliedOrders =
        some (commitBatch batch).2.stage7Orders := by
  unfold commitBatch at h ⊢
  cases herror : batch.error with
  | some error =>
    rw [herror] at h
    cases h
  | none =>
    rw [herror] at h
    cases hupsert : upsertStage7Orders batch.store.stage7Orders batch.appliedOrders with
    | none =>
      rw [hupsert] at h
      cases h
    | some stored =>
      rw [hupsert] at h
      cases h
      exact ⟨rfl, rfl⟩

theorem commitBatch_error {batch : Batch} {error : OmsError}
    (h : (commitBatch batch).1 = .error error) : (commitBatch batch).2 = batch.store := by
  unfold commitBatch at h ⊢
  cases herror : batch.error with
  | some error => rfl
  | none =>
    rw [herror] at h
    cases hupsert : upsertStage7Orders batch.store.stage7Orders batch.appliedOrders with
    | none => rfl
    | some stored =>
      rw [hupsert] at h
      cases h

/-- The intents of a call in the order they are taken. -/
def taken (texts : Texts) (start : Store) (call : OmsCall) : List OrderIntent :=
  (call.intents texts start).insertionSort IntentBefore

theorem asked_taken : (asked (taken texts start call)).Perm (asked (call.intents texts start)) :=
  ((List.perm_insertionSort IntentBefore _).filter _).map _

theorem callBatch_answered (hsane : Sane start) :
    Answered start (taken texts start call) (callBatch texts start call) :=
  answered_run hsane (taken texts start call)

theorem keeps_commit {intents : List OrderIntent} {batch : Batch}
    (h : Answered start intents batch) {clientOrderId : String} {old : Stage7Order}
    (hold : start.stage7Orders[clientOrderId]? = some old) :
    ∃ new, (commitBatch batch).2.stage7Orders[clientOrderId]? = some new ∧ Follows old new ∧
      SameTerms old new := by
  rcases commit_orders h.results clientOrderId with hsame | ⟨result, hin, hid, orderId, hstored⟩
  · exact ⟨old, hsame.trans hold, Follows.of_same rfl rfl rfl, SameTerms.refl old⟩
  · have hfollows := h.results.follows result hin old (hid ▸ hold)
    have hterms := h.terms result hin old (hid ▸ hold)
    exact ⟨_, hstored, ⟨hfollows.settled⟩, ⟨hterms.symbol, hterms.side⟩⟩

/-- What is filled after a commit was filled before, or came back filled. -/
theorem told_commit {intents : List OrderIntent} {batch : Batch}
    (h : Answered start intents batch) {clientOrderId : String}
    (hfilled : FilledIn (commitBatch batch).2 clientOrderId) :
    FilledIn start clientOrderId ∨
      ∃ order ∈ batch.appliedOrders, order.clientOrderId = clientOrderId ∧
        order.status = .filled ∧ Priced order := by
  obtain ⟨new, hnew, hstatus⟩ := hfilled
  rcases commit_orders h.results clientOrderId with hsame | ⟨result, hin, hid, orderId, hstored⟩
  · exact .inl ⟨new, hsame ▸ hnew, hstatus⟩
  · rw [hstored] at hnew
    cases hnew
    rcases h.filled result hin hstatus with hold | hpriced
    · exact .inl (hid ▸ hold)
    · exact .inr ⟨result, hin, hid, hstatus, hpriced⟩

/-- What a commit stores anew was asked for. -/
theorem stored_commit {batch : Batch} (h : Answered start (taken texts start call) batch)
    {clientOrderId : String} {new : Stage7Order}
    (hnew : (commitBatch batch).2.stage7Orders[clientOrderId]? = some new) :
    start.stage7Orders[clientOrderId]? ≠ none ∨
      clientOrderId ∈ asked (call.intents texts start) := by
  rcases commit_orders h.results clientOrderId with hsame | ⟨result, hin, hid, -⟩
  · left
    rw [← hsame, hnew]
    exact Option.some_ne_none new
  · right
    exact hid ▸ asked_taken.mem_iff.mp (h.named.subset (List.mem_map_of_mem hin))

/-- A call that returns commits what it returns, an order for each intent at most. -/
theorem answer_committed (hsane : Sane start)
    (hnodup : (asked (call.intents texts start)).Nodup) {orders : List Stage7Order}
    {events : List OrderEvent} (h : (answerCall texts start call).1 = .ok (orders, events)) :
    Committed start (asked (call.intents texts start)) orders (answerCall texts start call).2 := by
  have hanswered := @callBatch_answered texts start call hsane
  have hbatch : answerCall texts start call = commitBatch (callBatch texts start call) := rfl
  rw [hbatch] at h ⊢
  obtain ⟨rfl, hupsert⟩ := commitBatch_ok h
  have hids := hanswered.named.nodup (asked_taken.nodup_iff.mpr hnodup)
  refine ⟨sane_commit hsane hanswered.results, fun clientOrderId old hold =>
    keeps_commit hanswered hold, fun clientOrderId new hnew => stored_commit hanswered hnew,
    fun order hin => ?_, fun order hin hfilled => ?_, fun clientOrderId hfilled => ?_⟩
  · exact asked_taken.mem_iff.mp (hanswered.named.subset (List.mem_map_of_mem hin))
  · obtain ⟨orderId, hstored⟩ := upsert_stored hupsert hids order hin
    exact ⟨_, hstored, hfilled, rfl, rfl⟩
  · rcases told_commit hanswered hfilled with hold | ⟨order, hin, hid, -, hpriced⟩
    · exact .inl hold
    · exact .inr ⟨order, hin, hid, hpriced⟩

/-- No intent of a call fills. -/
def FillsNone (texts : Texts) (start : Store) (call : OmsCall) : Prop :=
  Runs.Meets (processIntent texts call.env call.cancelRequests)
    (fun batch intent => ¬ Fills texts call.env call.cancelRequests batch intent)
    (startBatch call.env start) (taken texts start call)

/-- A call that raises leaves the orders. -/
theorem answer_raised (hsane : Sane start) {error : OmsError}
    (h : (answerCall texts start call).1 = .error error) (names : List String) :
    Committed start names [] (answerCall texts start call).2 := by
  have hanswered := @callBatch_answered texts start call hsane
  have hbatch : answerCall texts start call = commitBatch (callBatch texts start call) := rfl
  rw [hbatch] at h ⊢
  rw [commitBatch_error h]
  exact Committed.of_same (hanswered.results.sane hsane) hanswered.results.orders names

/-- A call where no intent fills, if it commits at all, leaves no order filled that was not. -/
theorem answer_unfilled (hsane : Sane start)
    (h : ∀ answer, (answerCall texts start call).1 = .ok answer → FillsNone texts start call) :
    Committed start (asked (call.intents texts start)) [] (answerCall texts start call).2 := by
  cases hresult : (answerCall texts start call).1 with
  | error error => exact answer_raised hsane hresult _
  | ok answer =>
    have hanswered := @callBatch_answered texts start call hsane
    refine ⟨sane_commit hsane hanswered.results, fun clientOrderId old hold =>
      keeps_commit hanswered hold, fun clientOrderId new hnew => stored_commit hanswered hnew,
      List.forall_mem_nil _, List.forall_mem_nil _, fun clientOrderId hfilled => .inl ?_⟩
    rcases told_commit hanswered hfilled with hold | ⟨order, hin, hid, hstatus, -⟩
    · exact hold
    · exact hid ▸ unfilled_run hsane (taken texts start call) (h answer hresult) order hin hstatus

end Calls

end OrderBounds
