import Btcbot.OrderMoves

/-!
# Submit keys and acknowledgements

A submit key is registered before the submit, and no call takes it back. A submit that
fails leaves its key registered and its order without an acknowledgement, in this call
and in every later one.
-/
namespace SubmitKeys

open PyData OmsService

section Intents

/-- The stored orders are found under their own client order ids. -/
def Keyed (store : Store) : Prop :=
  ∀ (clientOrderId : String) (order : Stage7Order),
    store.stage7Orders[clientOrderId]? = some order → order.clientOrderId = clientOrderId

variable (texts : Texts) (env : CallEnv) (cancelRequests : List String)

theorem startWalk_clientOrderId {store : Store} (h : Keyed store) (intent : OrderIntent) :
    (startWalk texts env store intent).order.clientOrderId = intent.clientOrderId := by
  unfold startWalk getStage7OrderByClientId
  cases horder : store.stage7Orders[intent.clientOrderId]? with
  | none => rfl
  | some order => exact h intent.clientOrderId order horder

/-- What an intent adds are events of its order, none of them of a submit. -/
def QuietEvents (intent : OrderIntent) (before after : Batch) : Prop :=
  ∀ event ∈ after.eventsToAppend, event ∈ before.eventsToAppend ∨
    (event.clientOrderId = intent.clientOrderId ∧ event.eventType ∉ executionTypes)

def OwnEvents (intent : OrderIntent) (before after : Batch) : Prop :=
  ∀ event ∈ after.eventsToAppend, event ∈ before.eventsToAppend ∨
    event.clientOrderId = intent.clientOrderId

/-- The submit of an intent is accepted by the adapter. -/
def Accepted (batch : Batch) (intent : OrderIntent) : Prop :=
  ∃ attempts, (submitAdapter env.settings (batch.failures[intent.clientOrderId]?.getD [])).1 =
    .accepted attempts

/-- What an intent does to the keys and the events: it registers none and submits nothing,
or it registers its own. -/
structure Handled (intent : OrderIntent) (before after : Batch) : Prop where
  orders : after.store.stage7Orders = before.store.stage7Orders
  events : after.store.stage7OrderEvents = before.store.stage7OrderEvents
  cases : (after.store.stage7IdempotencyKeys = before.store.stage7IdempotencyKeys ∧
      QuietEvents intent before after) ∨
    (before.store.stage7IdempotencyKeys[submitKey intent.clientOrderId]? = none ∧
      after.store.stage7IdempotencyKeys = before.store.stage7IdempotencyKeys.insert
        (submitKey intent.clientOrderId) (texts.intentHash intent) ∧
      OwnEvents intent before after ∧
      (¬ Accepted env before intent → QuietEvents intent before after))

variable {texts env} {batch : Batch} {intent : OrderIntent}

variable (texts) in
/-- A store with the key of an intent registered. -/
def registerKey (store : Store) (intent : OrderIntent) : Store :=
  { store with
    stage7IdempotencyKeys := store.stage7IdempotencyKeys.insert (submitKey intent.clientOrderId)
      (texts.intentHash intent) }

variable (texts env) in
/-- An intent that is submitted and accepted: it is valid, not canceled and admitted, its
order is open and its key new. -/
structure Submittable (batch : Batch) (intent : OrderIntent) : Prop where
  valid : ¬ invalidIntent intent
  notCanceled : intent.clientOrderId ∉ cancelRequests
  isOpen : (startWalk texts env batch.store intent).order.status.terminal = false
  admitted : env.limiter.admits batch.draws = true
  unregistered : batch.store.stage7IdempotencyKeys[submitKey intent.clientOrderId]? = none
  accepted : Accepted env batch intent

variable (texts env) in
/-- What becomes of an intent, each way it may go. -/
inductive Outcome (before : Batch) (intent : OrderIntent) (after : Batch) : Prop where
  | nothing (store : after.store = before.store ∨
      before.store.stage7IdempotencyKeys[submitKey intent.clientOrderId]? = none ∧
        after.store = registerKey texts before.store intent)
      (orders : after.appliedOrders = before.appliedOrders)
      (events : after.eventsToAppend = before.eventsToAppend)
  | plain (walk : Walk) (isPlain : Plain (startWalk texts env before.store intent) walk)
      (store : after.store = before.store ∨
        before.store.stage7IdempotencyKeys[submitKey intent.clientOrderId]? = none ∧
          after.store = registerKey texts before.store intent)
      (orders : after.appliedOrders = before.appliedOrders ++ [walk.order])
      (events : after.eventsToAppend = before.eventsToAppend ++ walk.events)
  | executed (walk : Walk) (attempts : List RetryAttempt)
      (submittable : Submittable texts env cancelRequests before intent)
      (isExecuted : executeWalk texts env intent (appendRetries texts env.nowUtc
        (startWalk texts env before.store intent) attempts) = .ok walk)
      (store : after.store = registerKey texts before.store intent)
      (orders : after.appliedOrders = before.appliedOrders ++ [walk.order])
      (events : after.eventsToAppend = before.eventsToAppend ++ walk.events)

theorem processIntent_outcome :
    Outcome texts env cancelRequests batch intent
      (processIntent texts env cancelRequests batch intent) := by
  have hplain {draws : ℕ} {walk : Walk} (h : Plain (startWalk texts env batch.store intent) walk) :
      Outcome texts env cancelRequests batch intent
        ({ batch with draws := draws }.finish walk) := .plain walk h (.inl rfl) rfl rfl
  unfold processIntent
  dsimp only
  split
  · exact .nothing (.inl rfl) rfl rfl
  · split
    · exact hplain (Plain.transition texts env.nowUtc _ (.inl rfl) _)
    · next hvalid =>
      split
      · exact hplain (Plain.transition texts env.nowUtc _ (.inr rfl) _)
      · next hnotCanceled =>
        split
        · exact hplain (Plain.appendEvent texts env.nowUtc _ (by decide) _)
        · next hopen =>
          split
          · exact hplain (Plain.appendEvent texts env.nowUtc _ (by decide) _)
          · next hadmitted =>
            unfold registerAndSubmit tryRegisterIdempotencyKey
            dsimp only
            cases hkey : batch.store.stage7IdempotencyKeys[submitKey intent.clientOrderId]? with
            | some existing =>
              dsimp only
              by_cases hhash : existing ≠ texts.intentHash intent
              · rw [if_pos hhash]
                exact hplain ((Plain.appendEvent texts env.nowUtc _ (by decide) _).trans
                  (Plain.transition texts env.nowUtc _ (.inl rfl) _))
              · rw [if_neg hhash]
                exact hplain (Plain.appendEvent texts env.nowUtc _ (by decide) _)
            | none =>
              unfold submitOrder
              dsimp only
              cases hresult : (submitAdapter env.settings
                  (batch.failures[intent.clientOrderId]?.getD [])).1 with
              | raised error => exact .nothing (.inr ⟨hkey, rfl⟩) rfl rfl
              | gaveUp attempts =>
                exact .plain _ ((Plain.appendRetries texts env.nowUtc _ attempts).trans
                  (Plain.appendEvent texts env.nowUtc _
                    (show EventType.retryGiveup ∈ quietTypes by decide) _))
                  (.inr ⟨hkey, rfl⟩) rfl rfl
              | accepted attempts =>
                dsimp only
                cases hwalk : executeWalk texts env intent (appendRetries texts env.nowUtc
                    (startWalk texts env batch.store intent) attempts) with
                | error error => exact .nothing (.inr ⟨hkey, rfl⟩) rfl rfl
                | ok walk =>
                  exact .executed walk attempts ⟨hvalid, hnotCanceled,
                    (Bool.not_eq_true _).mp hopen, by simpa using hadmitted, hkey,
                    attempts, hresult⟩ hwalk rfl rfl rfl

/-- The events of a plain walk are quiet. -/
theorem quiet_plain {after : Batch} {walk : Walk} (hkeyed : Keyed batch.store)
    (h : Plain (startWalk texts env batch.store intent) walk)
    (hevents : after.eventsToAppend = batch.eventsToAppend ++ walk.events) :
    QuietEvents intent batch after := by
  intro event hevent
  rw [hevents] at hevent
  refine (List.mem_append.mp hevent).imp_right fun hin => ?_
  rcases h.events event hin with hstart | ⟨hid, htype⟩
  · cases hstart
  · exact ⟨hid.trans (startWalk_clientOrderId texts env hkeyed intent), htype⟩

theorem processIntent_handled (hkeyed : Keyed batch.store) :
    Handled texts env intent batch (processIntent texts env cancelRequests batch intent) := by
  have hcases {after : Batch} (hstore : after.store = batch.store ∨
      batch.store.stage7IdempotencyKeys[submitKey intent.clientOrderId]? = none ∧
        after.store = registerKey texts batch.store intent)
      (hquiet : QuietEvents intent batch after) : Handled texts env intent batch after := by
    rcases hstore with hstore | ⟨hkey, hstore⟩
    · exact ⟨by rw [hstore], by rw [hstore], .inl ⟨by rw [hstore], hquiet⟩⟩
    · refine ⟨by rw [hstore]; rfl, by rw [hstore]; rfl, .inr ⟨hkey, by rw [hstore]; rfl, ?_,
        fun _ => hquiet⟩⟩
      exact fun event hevent => (hquiet event hevent).imp_right And.left
  cases @processIntent_outcome texts env cancelRequests batch intent with
  | nothing hstore _ hevents =>
    exact hcases hstore fun event hevent => .inl (hevents ▸ hevent)
  | plain walk hplain hstore _ hevents =>
    exact hcases hstore (quiet_plain hkeyed hplain hevents)
  | executed walk attempts hsubmittable hwalk hstore _ hevents =>
    refine ⟨by rw [hstore]; rfl, by rw [hstore]; rfl, .inr ⟨hsubmittable.unregistered,
      by rw [hstore]; rfl, fun event hevent => ?_, fun h => absurd hsubmittable.accepted h⟩⟩
    rw [hevents] at hevent
    refine (List.mem_append.mp hevent).imp_right fun hin => ?_
    have hid := startWalk_clientOrderId texts env hkeyed intent
    have hretries := Plain.appendRetries texts env.nowUtc (startWalk texts env batch.store intent)
      attempts
    rcases (executeWalk_spelled texts hwalk).own event hin with hretry | hsame
    · rcases hretries.events event hretry with hstart | ⟨hsame, -⟩
      · cases hstart
      · exact hsame.trans hid
    · exact (hsame.trans hretries.clientOrderId).trans hid

end Intents

section Batches

variable (texts : Texts) (env : CallEnv) (cancelRequests : List String) (clientOrderId : String)

/-- No acknowledgement of the order among the events. -/
def NoAck (events : List OrderEvent) : Prop :=
  ∀ event ∈ events, event.clientOrderId = clientOrderId → event.eventType ≠ .acked

theorem noAck_nil : NoAck clientOrderId [] := List.forall_mem_nil _

def Unacked (batch : Batch) : Prop :=
  NoAck clientOrderId batch.store.stage7OrderEvents ∧ NoAck clientOrderId batch.eventsToAppend

/-- The submit key of the order is registered with the hash of an intent. -/
def Registered (hash : String) (store : Store) : Prop :=
  store.stage7IdempotencyKeys[submitKey clientOrderId]? = some hash

def Unregistered (store : Store) : Prop :=
  store.stage7IdempotencyKeys[submitKey clientOrderId]? = none

variable {texts env cancelRequests clientOrderId} {before after : Batch} {intent : OrderIntent}

/-- A registered key stays as it is. -/
theorem Handled.registered (h : Handled texts env intent before after) {hash : String}
    (hkey : Registered clientOrderId hash before.store) :
    Registered clientOrderId hash after.store := by
  unfold Registered at hkey ⊢
  rcases h.cases with ⟨hkeys, -⟩ | ⟨hnone, hkeys, -⟩
  · rw [hkeys, hkey]
  · rw [hkeys, Dict.insert_get, if_neg, hkey]
    intro hsame
    rw [hsame, hkey] at hnone
    cases hnone

theorem Handled.unregistered (h : Handled texts env intent before after)
    (hkey : Unregistered clientOrderId after.store) :
    Unregistered clientOrderId before.store := by
  unfold Unregistered at hkey ⊢
  cases hbefore : before.store.stage7IdempotencyKeys[submitKey clientOrderId]? with
  | none => rfl
  | some hash =>
    rw [h.registered hbefore] at hkey
    cases hkey

/-- An acknowledgement comes only with a key registered just then, its submit accepted. -/
theorem Handled.unacked (h : Handled texts env intent before after)
    (hun : Unacked clientOrderId before)
    (hnot : ¬ Unregistered clientOrderId before.store ∨ Unregistered clientOrderId after.store ∨
      ¬ Accepted env before intent) : Unacked clientOrderId after := by
  have hquiet (hq : QuietEvents intent before after) : Unacked clientOrderId after := by
    refine ⟨h.events ▸ hun.1, fun event hevent hid => ?_⟩
    rcases hq event hevent with hold | ⟨-, htype⟩
    · exact hun.2 event hold hid
    · intro hacked
      exact htype (hacked ▸ by decide)
  rcases h.cases with ⟨-, hq⟩ | ⟨hnone, hkeys, hown, hq⟩
  · exact hquiet hq
  · by_cases hother : intent.clientOrderId = clientOrderId
    · rcases hnot with hkey | hkey | hrefused
      · exact absurd (hother ▸ hnone) hkey
      · unfold Unregistered at hkey
        rw [hkeys, hother, Dict.insert_get, if_pos rfl] at hkey
        cases hkey
      · exact hquiet (hq hrefused)
    · refine ⟨h.events ▸ hun.1, fun event hevent hid => ?_⟩
      rcases hown event hevent with hold | hsame
      · exact hun.2 event hold hid
      · exact absurd (hsame.symm.trans hid) hother

/-- What a batch keeps while it runs: an unregistered order has no acknowledgement. -/
structure Sound (clientOrderId : String) (batch : Batch) : Prop where
  keyed : Keyed batch.store
  unacked : Unregistered clientOrderId batch.store → Unacked clientOrderId batch

/-- And an order whose submit failed keeps its key and gets no acknowledgement. -/
structure Lost (clientOrderId hash : String) (batch : Batch) : Prop where
  keyed : Keyed batch.store
  registered : Registered clientOrderId hash batch.store
  unacked : Unacked clientOrderId batch

theorem keyed_processIntent (h : Keyed before.store) :
    Keyed (processIntent texts env cancelRequests before intent).store := by
  unfold Keyed
  rw [(@processIntent_handled texts env cancelRequests before intent h).orders]
  exact h

theorem sound_processIntent (h : Sound clientOrderId before) :
    Sound clientOrderId (processIntent texts env cancelRequests before intent) := by
  have hhandled := @processIntent_handled texts env cancelRequests before intent h.keyed
  refine ⟨keyed_processIntent h.keyed, fun hkey => ?_⟩
  exact hhandled.unacked (h.unacked (hhandled.unregistered hkey)) (.inr (.inl hkey))

theorem lost_processIntent {hash : String} (h : Lost clientOrderId hash before) :
    Lost clientOrderId hash (processIntent texts env cancelRequests before intent) := by
  have hhandled := @processIntent_handled texts env cancelRequests before intent h.keyed
  refine ⟨keyed_processIntent h.keyed, hhandled.registered h.registered, ?_⟩
  refine hhandled.unacked h.unacked (.inl fun hnone => ?_)
  have hkey := h.registered
  unfold Registered at hkey
  unfold Unregistered at hnone
  rw [hkey] at hnone
  cases hnone

theorem sound_run (intents : List OrderIntent) (h : Sound clientOrderId before) :
    Sound clientOrderId (Runs.run (processIntent texts env cancelRequests) before intents) :=
  Runs.run_keeps (fun _ _ h => sound_processIntent h) before intents h

theorem lost_run {hash : String} (intents : List OrderIntent)
    (h : Lost clientOrderId hash before) :
    Lost clientOrderId hash (Runs.run (processIntent texts env cancelRequests) before intents) :=
  Runs.run_keeps (fun _ _ h => lost_processIntent h) before intents h

variable (texts env cancelRequests) in
/-- An intent is submitted for the first time, and the adapter does not accept it: it gives
up, or raises. -/
structure AttemptFails (batch : Batch) (intent : OrderIntent) : Prop where
  running : batch.error = none
  notSkipped : intent.skipped = false
  valid : ¬ invalidIntent intent
  notCanceled : intent.clientOrderId ∉ cancelRequests
  isOpen : (startWalk texts env batch.store intent).order.status.terminal = false
  admitted : env.limiter.admits batch.draws = true
  unregistered : Unregistered intent.clientOrderId batch.store
  refused : ¬ Accepted env batch intent

/-- A failed submit has registered its key. -/
theorem AttemptFails.registers (h : AttemptFails texts env cancelRequests before intent) :
    Registered intent.clientOrderId (texts.intentHash intent)
      (processIntent texts env cancelRequests before intent).store := by
  have hkey := h.unregistered
  unfold Unregistered at hkey
  unfold processIntent registerAndSubmit tryRegisterIdempotencyKey
  simp only [h.running, h.notSkipped, h.isOpen, h.admitted, h.notCanceled, h.valid, hkey,
    Option.isSome_none, Bool.or_self, Bool.false_eq_true, if_false, Bool.not_true]
  unfold submitOrder Registered
  dsimp only
  cases (submitAdapter env.settings (before.failures[intent.clientOrderId]?.getD [])).1 with
  | raised error => simp
  | gaveUp attempts => simp [Batch.finish]
  | accepted attempts =>
    dsimp only
    cases executeWalk texts env intent (appendRetries texts env.nowUtc
      (startWalk texts env before.store intent) attempts) <;> simp [Batch.finish]

theorem AttemptFails.lost (h : AttemptFails texts env cancelRequests before intent)
    (hsound : Sound intent.clientOrderId before) :
    Lost intent.clientOrderId (texts.intentHash intent)
      (processIntent texts env cancelRequests before intent) := by
  have hhandled := @processIntent_handled texts env cancelRequests before intent hsound.keyed
  exact ⟨keyed_processIntent hsound.keyed, h.registers,
    hhandled.unacked (hsound.unacked h.unregistered) (.inr (.inr h.refused))⟩

end Batches

section Stores

variable (texts : Texts) (clientOrderId : String)

/-- What every reachable store keeps. -/
structure SoundStore (store : Store) : Prop where
  keyed : Keyed store
  unacked : Unregistered clientOrderId store → NoAck clientOrderId store.stage7OrderEvents

/-- An order whose key is registered and that was never acknowledged. -/
structure LostStore (hash : String) (store : Store) : Prop where
  keyed : Keyed store
  registered : Registered clientOrderId hash store
  unacked : NoAck clientOrderId store.stage7OrderEvents

variable {texts clientOrderId}

theorem mem_appendStage7OrderEvents {events added : List OrderEvent} {event : OrderEvent}
    (h : event ∈ appendStage7OrderEvents events added) : event ∈ events ∨ event ∈ added := by
  unfold appendStage7OrderEvents at h
  induction added generalizing events with
  | nil => exact .inl h
  | cons first added ih =>
    rcases ih h with hin | hin
    · unfold appendStage7OrderEvent at hin
      split at hin
      · exact .inl hin
      · rcases List.mem_append.mp hin with hold | hnew
        · exact .inl hold
        · exact .inr (List.mem_singleton.mp hnew ▸ List.mem_cons_self)
    · exact .inr (List.mem_cons_of_mem first hin)

/-- An order is put under its client order id, with the order id that was there. -/
theorem upsertStage7Order_insert {orders next : Dict Stage7Order} {order : Stage7Order}
    (h : upsertStage7Order orders order = some next) :
    ∃ orderId, next = orders.insert order.clientOrderId { order with orderId := orderId } := by
  unfold upsertStage7Order at h
  split at h
  · cases h
    exact ⟨_, rfl⟩
  · split at h
    · cases h
    · cases h
      exact ⟨order.orderId, rfl⟩

theorem upsert_first {orders stored : Dict Stage7Order} {first : Stage7Order}
    {applied : List Stage7Order}
    (hupsert : upsertStage7Orders orders (first :: applied) = some stored) :
    ∃ orderId, upsertStage7Orders
      (orders.insert first.clientOrderId { first with orderId := orderId }) applied =
        some stored := by
  unfold upsertStage7Orders at hupsert ⊢
  rw [List.foldlM_cons, Option.bind_eq_bind, Option.bind_eq_some_iff] at hupsert
  obtain ⟨next, hnext, hrest⟩ := hupsert
  obtain ⟨orderId, rfl⟩ := upsertStage7Order_insert hnext
  exact ⟨orderId, hrest⟩

theorem keyed_upsert {orders stored : Dict Stage7Order} {applied : List Stage7Order}
    (h : ∀ (clientOrderId : String) (order : Stage7Order), orders[clientOrderId]? = some order →
      order.clientOrderId = clientOrderId)
    (hupsert : upsertStage7Orders orders applied = some stored) :
    ∀ (clientOrderId : String) (order : Stage7Order), stored[clientOrderId]? = some order →
      order.clientOrderId = clientOrderId := by
  induction applied generalizing orders with
  | nil =>
    cases hupsert
    exact h
  | cons first applied ih =>
    obtain ⟨orderId, hrest⟩ := upsert_first hupsert
    refine ih (fun clientOrderId order horder => ?_) hrest
    rw [Dict.insert_get] at horder
    split at horder
    · next hsame =>
      cases horder
      exact hsame
    · exact h clientOrderId order horder

/-- A commit adds the events of the batch, or none, and touches no key. -/
theorem commitBatch_cases (batch : Batch) (h : Keyed batch.store) :
    Keyed (commitBatch batch).2 ∧
      (commitBatch batch).2.stage7IdempotencyKeys = batch.store.stage7IdempotencyKeys ∧
      ∀ event ∈ (commitBatch batch).2.stage7OrderEvents,
        event ∈ batch.store.stage7OrderEvents ∨ event ∈ batch.eventsToAppend := by
  unfold commitBatch
  split
  · exact ⟨h, rfl, fun _ hevent => .inl hevent⟩
  · split
    · exact ⟨h, rfl, fun _ hevent => .inl hevent⟩
    · next hupsert =>
      exact ⟨keyed_upsert h hupsert, rfl, fun _ hevent => mem_appendStage7OrderEvents hevent⟩

theorem noAck_commit {batch : Batch} (hkeyed : Keyed batch.store)
    (h : Unacked clientOrderId batch) :
    NoAck clientOrderId (commitBatch batch).2.stage7OrderEvents := by
  intro event hevent
  rcases (commitBatch_cases batch hkeyed).2.2 event hevent with hold | hnew
  · exact h.1 event hold
  · exact h.2 event hnew

/-- The batch a call starts with. -/
def startBatch (env : CallEnv) (store : Store) : Batch :=
  ⟨store, env.transientFailures, 0, [], [], none⟩

theorem lost_commit {batch : Batch} {hash : String} (h : Lost clientOrderId hash batch) :
    LostStore clientOrderId hash (commitBatch batch).2 := by
  obtain ⟨hkeyed, hkeys, -⟩ := commitBatch_cases batch h.keyed
  refine ⟨hkeyed, ?_, noAck_commit h.keyed h.unacked⟩
  unfold Registered
  rw [hkeys]
  exact h.registered

theorem sound_stepCall {store : Store} (h : SoundStore clientOrderId store) (call : OmsCall) :
    SoundStore clientOrderId (stepCall texts store call) := by
  have hstart : Sound clientOrderId (startBatch call.env store) :=
    ⟨h.keyed, fun hkey => ⟨h.unacked hkey, noAck_nil _⟩⟩
  have hend := @sound_run texts call.env call.cancelRequests clientOrderId _
    ((call.intents texts store).insertionSort IntentBefore) hstart
  obtain ⟨hkeyed, hkeys, -⟩ := commitBatch_cases _ hend.keyed
  refine ⟨hkeyed, fun hkey => noAck_commit hend.keyed (hend.unacked ?_)⟩
  unfold Unregistered at hkey ⊢
  rw [← hkeys]
  exact hkey

theorem lost_stepCall {store : Store} {hash : String} (h : LostStore clientOrderId hash store)
    (call : OmsCall) : LostStore clientOrderId hash (stepCall texts store call) := by
  have hstart : Lost clientOrderId hash (startBatch call.env store) :=
    ⟨h.keyed, h.registered, h.unacked, noAck_nil _⟩
  exact lost_commit (@lost_run texts call.env call.cancelRequests clientOrderId _ hash
    ((call.intents texts store).insertionSort IntentBefore) hstart)

theorem sound_runCalls (calls : List OmsCall) :
    SoundStore clientOrderId (Runs.run (stepCall texts) {} calls) := by
  refine Runs.run_keeps (I := SoundStore clientOrderId) (fun _ call h => sound_stepCall h call) {}
    calls ⟨fun clientOrderId order h => ?_, fun _ => noAck_nil _⟩
  simp at h

theorem lost_runCalls {store : Store} {hash : String} (calls : List OmsCall)
    (h : LostStore clientOrderId hash store) :
    LostStore clientOrderId hash (Runs.run (stepCall texts) store calls) :=
  Runs.run_keeps (I := LostStore clientOrderId hash) (fun _ call h => lost_stepCall h call) store
    calls h

/-- The batch of a call when it comes to the intent after the first ones. -/
def batchBefore (texts : Texts) (store : Store) (call : OmsCall) (first : List OrderIntent) :
    Batch :=
  Runs.run (processIntent texts call.env call.cancelRequests) (startBatch call.env store) first

/-- A submit that fails, in any run, leaves its key registered and its order without an
acknowledgement, after whatever calls: the key is never held by an acknowledged order, and
the same intent is answered as a duplicate, another as a conflict. -/
theorem failed_submit_lost (texts : Texts) (before later : List OmsCall) (call : OmsCall)
    (first rest : List OrderIntent) (intent : OrderIntent)
    (hintents : (call.intents texts (Runs.run (stepCall texts) {} before)).insertionSort
      IntentBefore = first ++ intent :: rest)
    (hfails : AttemptFails texts call.env call.cancelRequests
      (batchBefore texts (Runs.run (stepCall texts) {} before) call first) intent) :
    let store := Runs.run (stepCall texts) {} (before ++ call :: later)
    LostStore intent.clientOrderId (texts.intentHash intent) store ∧
      ¬ (store.stage7IdempotencyKeys[submitKey intent.clientOrderId]? ≠ none →
        ∃ event ∈ store.stage7OrderEvents,
          event.clientOrderId = intent.clientOrderId ∧ event.eventType = .acked) ∧
      ∀ again : OrderIntent, again.clientOrderId = intent.clientOrderId →
        tryRegisterIdempotencyKey store (submitKey again.clientOrderId) (texts.intentHash again) =
          if texts.intentHash again = texts.intentHash intent then .duplicate else .conflict := by
  intro store
  have hsound := @sound_runCalls texts intent.clientOrderId before
  have hbefore : Sound intent.clientOrderId
      (batchBefore texts (Runs.run (stepCall texts) {} before) call first) :=
    sound_run first ⟨hsound.keyed, fun hkey => ⟨hsound.unacked hkey, noAck_nil _⟩⟩
  have hcall : LostStore intent.clientOrderId (texts.intentHash intent)
      (stepCall texts (Runs.run (stepCall texts) {} before) call) := by
    have hend := @lost_run texts call.env call.cancelRequests intent.clientOrderId _
      (texts.intentHash intent) rest (hfails.lost hbefore)
    have hbatch : runBatch texts call.env call.cancelRequests
        (Runs.run (stepCall texts) {} before)
        (call.intents texts (Runs.run (stepCall texts) {} before)) =
      Runs.run (processIntent texts call.env call.cancelRequests)
        (processIntent texts call.env call.cancelRequests
          (batchBefore texts (Runs.run (stepCall texts) {} before) call first) intent) rest := by
      unfold runBatch
      rw [hintents]
      exact List.foldl_append
    have hcommitted := lost_commit hend
    rw [← hbatch] at hcommitted
    exact hcommitted
  have hlost : LostStore intent.clientOrderId (texts.intentHash intent) store := by
    have hstore : store = Runs.run (stepCall texts)
        (stepCall texts (Runs.run (stepCall texts) {} before) call) later := List.foldl_append
    rw [hstore]
    exact lost_runCalls later hcall
  have hkey := hlost.registered
  unfold Registered at hkey
  refine ⟨hlost, fun hacked => ?_, fun again hsame => ?_⟩
  · obtain ⟨event, hevent, hid, htype⟩ := hacked (by rw [hkey]; exact Option.some_ne_none _)
    exact hlost.unacked event hevent hid htype
  · unfold tryRegisterIdempotencyKey
    rw [hsame, hkey]
    by_cases hhash : texts.intentHash again = texts.intentHash intent
    · simp [hhash]
    · simp [hhash, Ne.symm hhash]

section Sample

def sampleTexts : Texts where
  shortHash text := text
  intentHash intent := intent.clientOrderId ++ ":" ++ intent.reason
  hexValue _ := some 0
  productText _ _ := "10"

def sampleCallEnv (tokens : List String) : CallEnv where
  cycleId := "cycle"
  nowUtc := ⟨0, true⟩
  markPricesTry := []
  transientFailures := (∅ : Dict (List String)).insert "c" tokens
  settings := ⟨0, 0, 1, fun _ => 0⟩
  limiter := ⟨fun _ => true, fun _ => 0⟩

def sampleIntent : OrderIntent where
  cycleId := "cycle"
  symbol := "BTCTRY"
  side := "BUY"
  orderType := "LIMIT"
  priceTry := ⟨10, "10"⟩
  qty := ⟨1, "1"⟩
  notionalTry := ⟨10, "10"⟩
  clientOrderId := "c"
  reason := "entry"
  constraintsApplied := []

/-- The intent processed with an adapter that raises what its tokens say. -/
def sampleCall (tokens : List String) : OmsCall :=
  .processIntents (sampleCallEnv tokens) [sampleIntent] []

theorem failed_submit_lost_timeout :
    let store := Runs.run (stepCall sampleTexts) {} ([] ++ sampleCall ["TIMEOUT"] :: [])
    LostStore "c" "c:entry" store ∧
      ¬ (store.stage7IdempotencyKeys[submitKey "c"]? ≠ none →
        ∃ event ∈ store.stage7OrderEvents,
          event.clientOrderId = "c" ∧ event.eventType = .acked) ∧
      ∀ again : OrderIntent, again.clientOrderId = "c" →
        tryRegisterIdempotencyKey store (submitKey again.clientOrderId)
            (sampleTexts.intentHash again) =
          if sampleTexts.intentHash again = "c:entry" then .duplicate else .conflict := by
  refine failed_submit_lost sampleTexts [] [] (sampleCall ["TIMEOUT"]) [] [] sampleIntent rfl ?_
  refine ⟨rfl, rfl, by simp [invalidIntent, sampleIntent], nofun, ?_, rfl, ?_, ?_⟩
  · decide +kernel
  · show (∅ : Dict String)[submitKey "c"]? = none
    simp
  · rintro ⟨attempts, haccepted⟩
    have hgaveUp : (match (submitAdapter (sampleCallEnv ["TIMEOUT"]).settings ["TIMEOUT"]).1 with
      | .gaveUp _ => true
      | _ => false) = true := by decide +kernel
    have htokens : ((batchBefore sampleTexts {} (sampleCall ["TIMEOUT"]) []).failures[
      sampleIntent.clientOrderId]?.getD []) = ["TIMEOUT"] := by decide +kernel
    have haccepted' : (submitAdapter (sampleCallEnv ["TIMEOUT"]).settings ["TIMEOUT"]).1 =
        .accepted attempts := htokens ▸ haccepted
    rw [haccepted'] at hgaveUp
    cases hgaveUp

/-- After a timeout the same intent is ignored as a duplicate, the adapter accepting, and
nothing was ever acknowledged. -/
theorem timed_out_intent_ignored :
    (answerCall sampleTexts (stepCall sampleTexts {} (sampleCall ["TIMEOUT"]))
        (sampleCall [])).1.toOption.map (fun answer => answer.2.map OrderEvent.eventType) =
      some [.duplicateIgnored] ∧
    (stepCall sampleTexts {} (sampleCall ["TIMEOUT"])).stage7IdempotencyKeys[submitKey "c"]? =
      some "c:entry" ∧
    (stepCall sampleTexts (stepCall sampleTexts {} (sampleCall ["TIMEOUT"]))
        (sampleCall [])).stage7OrderEvents.map OrderEvent.eventType =
      [.retryGiveup, .duplicateIgnored] := by
  decide +kernel

end Sample

end Stores

end SubmitKeys
