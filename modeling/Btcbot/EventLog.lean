import Btcbot.DecimalText
import Btcbot.OrderBounds

/-!
# The event log of the stage 7 orders

The events of an order, replayed through the table from planned, give the order in
the store. An event's id holds its place among the events of its order, so no event of
a batch meets its own id in the log.
-/
namespace EventLog

open PyData OmsService SubmitKeys

section Log

/-- The status that an event leads to, if it changes the order. -/
def eventTarget : EventType → Option OrderStatus
  | .submitRequested => some .submitted
  | .acked => some .acked
  | .rejected => some .rejected
  | .canceled => some .canceled
  | .partialFill => some .partiallyFilled
  | .filled => some .filled
  | _ => none

theorem eventTarget_inj {a b : EventType} {status : OrderStatus}
    (ha : eventTarget a = some status) (hb : eventTarget b = some status) : a = b := by
  cases a <;> cases ha <;> cases b <;> first | rfl | cases hb

theorem eventTarget_ne_planned (a : EventType) : eventTarget a ≠ some .planned := by
  cases a <;> decide

/-- What the events of an order say of it. -/
structure Standing where
  status : OrderStatus
  filledQty : ℚ
  deriving DecidableEq, Repr

def standing (order : Stage7Order) : Standing := ⟨order.status, order.filledQty⟩

/-- A partial fill tells its own quantity, a fill the total. -/
def filledAfter (filledQty : ℚ) : EventType → Payload → ℚ
  | .partialFill, .fill qty _ => filledQty + qty
  | .filled, .fill total _ => total
  | _, _ => filledQty

def replayEvent (s : Standing) (event : OrderEvent) : Option Standing :=
  match eventTarget event.eventType with
  | none => some s
  | some target =>
    if target ∈ allowedTransitions s.status then
      some ⟨target, filledAfter s.filledQty event.eventType event.payload⟩
    else none

def replay (events : List OrderEvent) : Option Standing :=
  events.foldlM replayEvent ⟨.planned, 0⟩

def eventsOf (events : List OrderEvent) (clientOrderId : String) : List OrderEvent :=
  events.filter (·.clientOrderId = clientOrderId)

/-- The types of the events that change the order. -/
def changes (events : List OrderEvent) : List EventType :=
  (events.map OrderEvent.eventType).filter fun eventType => (eventTarget eventType).isSome

variable (texts : Texts) (clientOrderId : String)

/-- The ids of the events hold their places, counted on from a number. -/
def Numbered : ℕ → List OrderEvent → Prop
  | _, [] => True
  | n, event :: events =>
    event.eventId = makeEventId texts clientOrderId (n + 1) event.eventType ∧
      Numbered (n + 1) events

/-- The events of an order, numbered, each change made once, and leading to its standing. -/
structure Tells (events : List OrderEvent) (s : Standing) : Prop where
  numbered : Numbered texts clientOrderId 0 events
  once : (changes events).Nodup
  replayed : replay events = some s

variable {texts clientOrderId}

theorem eventsOf_append (events added : List OrderEvent) :
    eventsOf (events ++ added) clientOrderId =
      eventsOf events clientOrderId ++ eventsOf added clientOrderId :=
  List.filter_append ..

theorem eventsOf_own {events : List OrderEvent}
    (h : ∀ event ∈ events, event.clientOrderId = clientOrderId) :
    eventsOf events clientOrderId = events :=
  List.filter_eq_self.mpr fun event hevent => by simpa using h event hevent

theorem eventsOf_other {events : List OrderEvent} {other : String}
    (h : ∀ event ∈ events, event.clientOrderId = other) (hne : clientOrderId ≠ other) :
    eventsOf events clientOrderId = [] :=
  List.filter_eq_nil_iff.mpr fun event hevent => by simpa [h event hevent] using hne.symm

theorem mem_changes {events : List OrderEvent} {eventType : EventType} :
    eventType ∈ changes events ↔
      eventType ∈ events.map OrderEvent.eventType ∧ (eventTarget eventType).isSome :=
  List.mem_filter

theorem changes_append (events : List OrderEvent) (event : OrderEvent) :
    changes (events ++ [event]) =
      changes events ++ if (eventTarget event.eventType).isSome then [event.eventType] else [] := by
  unfold changes
  rw [List.map_append, List.filter_append, List.map_singleton, List.filter_singleton]
  cases (eventTarget event.eventType).isSome <;> rfl

theorem numbered_append (n : ℕ) (events added : List OrderEvent) :
    Numbered texts clientOrderId n (events ++ added) ↔
      Numbered texts clientOrderId n events ∧
        Numbered texts clientOrderId (n + events.length) added := by
  induction events generalizing n with
  | nil => simp [Numbered]
  | cons event events ih =>
    rw [List.cons_append, Numbered, Numbered, ih, and_assoc, List.length_cons]
    rw [show n + 1 + events.length = n + (events.length + 1) by omega]

/-- A numbered event holds a number that the log has reached. -/
theorem Numbered.mem {n : ℕ} {events : List OrderEvent}
    (h : Numbered texts clientOrderId n events) {event : OrderEvent} (hevent : event ∈ events) :
    ∃ place, place < n + events.length ∧
      event.eventId = makeEventId texts clientOrderId (place + 1) event.eventType := by
  induction events generalizing n with
  | nil => cases hevent
  | cons first events ih =>
    obtain ⟨hfirst, hrest⟩ := h
    rcases List.mem_cons.mp hevent with rfl | hin
    · exact ⟨n, by simp, hfirst⟩
    · obtain ⟨place, hlt, hid⟩ := ih hrest hin
      refine ⟨place, ?_, hid⟩
      rw [List.length_cons]
      omega

theorem replay_append (events : List OrderEvent) (event : OrderEvent) :
    replay (events ++ [event]) = (replay events).bind fun s => replayEvent s event := by
  unfold replay
  rw [List.foldlM_append]
  cases events.foldlM replayEvent ⟨.planned, 0⟩ with
  | none => rfl
  | some s => simp

/-- An order that is no longer planned has had the event of its status. -/
theorem replay_status {events : List OrderEvent} {s : Standing} (h : replay events = some s) :
    s.status = .planned ∨ ∃ eventType ∈ changes events, eventTarget eventType = some s.status := by
  induction events using List.reverseRecOn generalizing s with
  | nil =>
    obtain rfl := Option.some.inj h
    exact .inl rfl
  | append_singleton events event ih =>
    rw [replay_append, Option.bind_eq_some_iff] at h
    obtain ⟨old, hold, hnew⟩ := h
    rw [changes_append]
    unfold replayEvent at hnew
    cases htarget : eventTarget event.eventType with
    | none =>
      rw [htarget] at hnew
      obtain rfl := Option.some.inj hnew
      rcases ih hold with hplanned | ⟨eventType, hin, hstatus⟩
      · exact .inl hplanned
      · exact .inr ⟨eventType, List.mem_append_left _ hin, hstatus⟩
    | some target =>
      rw [htarget] at hnew
      dsimp only at hnew
      split at hnew
      · obtain rfl := Option.some.inj hnew
        exact .inr ⟨event.eventType, by simp, htarget⟩
      · cases hnew

end Log

section Walks

variable {texts : Texts} {clientOrderId : String} {old : List OrderEvent}
  {walk : Walk}

variable (texts clientOrderId) in
/-- The old events of an order and the walk's own tell the walk's order. -/
structure Tracks (old : List OrderEvent) (walk : Walk) : Prop where
  order : walk.order.clientOrderId = clientOrderId
  seq : walk.seq = (old ++ walk.events).length
  own : ∀ event ∈ walk.events, event.clientOrderId = clientOrderId
  tells : Tells texts clientOrderId (old ++ walk.events) (standing walk.order)

/-- The walk knows of every change it has had. -/
def Remembers (old : List OrderEvent) (walk : Walk) : Prop :=
  ∀ eventType ∈ changes (old ++ walk.events), eventType ∈ walk.seen

/-- An event at the next place, after which the order stands as it says. -/
theorem Tells.append {events : List OrderEvent} {s next : Standing}
    (h : Tells texts clientOrderId events s) {event : OrderEvent}
    (hid : event.eventId = makeEventId texts clientOrderId (events.length + 1) event.eventType)
    (hnew : (eventTarget event.eventType).isSome → event.eventType ∉ changes events)
    (hnext : replayEvent s event = some next) :
    Tells texts clientOrderId (events ++ [event]) next where
  numbered := (numbered_append ..).mpr ⟨h.numbered, by rw [zero_add]; exact hid, trivial⟩
  once := by
    rw [changes_append]
    split
    · next hchanges =>
      exact h.once.append (List.nodup_singleton _) (List.disjoint_singleton.mpr (hnew hchanges))
    · rw [List.append_nil]
      exact h.once
  replayed := by
    rw [replay_append, h.replayed]
    exact hnext

theorem Tracks.appendEvent (h : Tracks texts clientOrderId old walk) (nowUtc : DateTime)
    {eventType : EventType} (htype : eventTarget eventType = none) (payload : Payload) :
    Tracks texts clientOrderId old (appendEvent texts nowUtc walk eventType payload) := by
  unfold OmsService.appendEvent
  refine ⟨h.order, ?_, fun event hevent => ?_, ?_⟩
  · simp [h.seq, Nat.add_assoc]
  · rcases List.mem_append.mp hevent with hin | hin
    · exact h.own event hin
    · exact List.mem_singleton.mp hin ▸ h.order
  · rw [← List.append_assoc]
    refine h.tells.append ?_ ?_ ?_
    · rw [← h.seq, ← h.order]
      rfl
    · intro hsome
      simp [makeEvent, htype] at hsome
    · simp [replayEvent, makeEvent, htype, standing]

theorem Remembers.appendEvent (h : Remembers old walk) (nowUtc : DateTime)
    {eventType : EventType} (htype : eventTarget eventType = none) (payload : Payload) :
    Remembers old (appendEvent texts nowUtc walk eventType payload) := by
  intro seen hseen
  apply h seen
  unfold OmsService.appendEvent at hseen
  dsimp only at hseen
  rw [← List.append_assoc, changes_append] at hseen
  simpa [makeEvent, htype] using hseen

theorem appendRetries_tracks (h : Tracks texts clientOrderId old walk) (hseen : Remembers old walk)
    (nowUtc : DateTime) (attempts : List RetryAttempt) :
    Tracks texts clientOrderId old (appendRetries texts nowUtc walk attempts) ∧
      Remembers old (appendRetries texts nowUtc walk attempts) := by
  induction attempts generalizing walk with
  | nil => exact ⟨h, hseen⟩
  | cons attempt attempts ih => exact ih (h.appendEvent nowUtc rfl _) (hseen.appendEvent nowUtc rfl _)

/-- A transition to the status of its event, with the quantity that its payload tells. -/
structure Fits (walk : Walk) (eventType : EventType) (payload : Payload)
    (fill : Option FillStep) : Prop where
  target : eventTarget eventType = some (nextStatus walk.order eventType fill)
  filledQty : filledAfter walk.order.filledQty eventType payload =
    walk.order.filledQty + (fill.map FillStep.qty).getD 0

/-- An event that an order has not had moves it along the table only. -/
theorem next_allowed {events : List OrderEvent} {s : Standing}
    (h : Tells texts clientOrderId events s) {eventType : EventType}
    (hnew : eventType ∉ changes events) {status : OrderStatus}
    (htarget : eventTarget eventType = some status)
    (hnext : status = s.status ∨ status ∈ allowedTransitions s.status) :
    status ∈ allowedTransitions s.status := by
  rcases hnext with rfl | hallowed
  · exfalso
    rcases replay_status h.replayed with hplanned | ⟨had, hin, hstatus⟩
    · apply eventTarget_ne_planned eventType
      rw [htarget]
      exact congrArg some hplanned
    · exact hnew (eventTarget_inj htarget hstatus ▸ hin)
  · exact hallowed

theorem Tracks.transition (h : Tracks texts clientOrderId old walk) (hseen : Remembers old walk)
    (nowUtc : DateTime) {eventType : EventType} {payload : Payload} {fill : Option FillStep}
    (hfits : Fits walk eventType payload fill) (remember : Bool) :
    Tracks texts clientOrderId old (walk.transition texts nowUtc eventType payload fill remember) ∧
      (remember = true →
        Remembers old (walk.transition texts nowUtc eventType payload fill remember)) := by
  by_cases hhad : eventType ∈ walk.seen
  · have hsame : walk.transition texts nowUtc eventType payload fill remember = walk := by
      simp [Walk.transition, transitionOnce, hhad]
    rw [hsame]
    exact ⟨h, fun _ => hseen⟩
  · have hnew : eventType ∉ changes (old ++ walk.events) := fun hin => hhad (hseen _ hin)
    rcases walk.transition_cases texts nowUtc eventType payload fill remember with
      hsame | ⟨hnext, hmoved⟩
    · rw [hsame]
      exact ⟨h, fun _ => hseen⟩
    · have hallowed : nextStatus walk.order eventType fill ∈ allowedTransitions walk.order.status :=
        next_allowed h.tells hnew hfits.target hnext
      rw [hmoved]
      unfold Walk.moved
      refine ⟨⟨h.order, ?_, fun event hevent => ?_, ?_⟩, fun hremember seen hin => ?_⟩
      · simp [h.seq, Nat.add_assoc]
      · rcases List.mem_append.mp hevent with hin | hin
        · exact h.own event hin
        · exact List.mem_singleton.mp hin ▸ h.order
      · rw [← List.append_assoc]
        refine h.tells.append ?_ (fun _ => hnew) ?_
        · rw [← h.seq, ← h.order]
          rfl
        · have htarget := hfits.target
          have hqty := hfits.filledQty
          simp [replayEvent, makeEvent, standing, nextOrder, htarget, hallowed, hqty]
      · dsimp only at hin ⊢
        rw [if_pos hremember]
        rw [← List.append_assoc, changes_append] at hin
        rcases List.mem_append.mp hin with hin | hin
        · exact List.mem_append_left _ (hseen seen hin)
        · apply List.mem_append_right
          split at hin
          · exact hin
          · cases hin

/-- The way of an accepted submit. -/
theorem executeWalk_tracks {env : CallEnv} {intent : OrderIntent} {next : Walk}
    (h : Tracks texts clientOrderId old walk) (hseen : Remembers old walk)
    (hwalk : executeWalk texts env intent walk = .ok next) : Tracks texts clientOrderId old next := by
  unfold executeWalk at hwalk
  dsimp only at hwalk
  have hfits : Fits walk .submitRequested (.order walk.order.symbol walk.order.side) none :=
    ⟨rfl, (add_zero _).symm⟩
  obtain ⟨hrequested, hseen⟩ := h.transition hseen env.nowUtc hfits true
  replace hseen := hseen rfl
  generalize walk.transition texts env.nowUtc .submitRequested
    (.order walk.order.symbol walk.order.side) none true = requested at hwalk hrequested hseen
  replace hfits : Fits requested .acked (.order requested.order.symbol requested.order.side)
    none := ⟨rfl, (add_zero _).symm⟩
  obtain ⟨hacked, hseen⟩ := hrequested.transition hseen env.nowUtc hfits true
  replace hseen := hseen rfl
  generalize requested.transition texts env.nowUtc .acked
    (.order requested.order.symbol requested.order.side) none true = acked at hwalk hacked hseen
  cases hreject : shouldReject texts env.settings intent with
  | error error =>
    rw [hreject] at hwalk
    cases hwalk
  | ok rejected =>
    rw [hreject] at hwalk
    simp only [bind, Except.bind] at hwalk
    cases rejected with
    | true =>
      simp only [if_true, Except.ok.injEq] at hwalk
      subst hwalk
      exact (hacked.transition hseen env.nowUtc ⟨rfl, (add_zero _).symm⟩ false).1
    | false =>
      cases hslices : fillSlices texts env.settings env.markPricesTry intent with
      | error error =>
        rw [hslices] at hwalk
        cases hwalk
      | ok slices =>
        rw [hslices] at hwalk
        simp only [Bool.false_eq_true, if_false, Except.ok.injEq] at hwalk
        subst hwalk
        have hpartly : ∀ partly : Walk, Tracks texts clientOrderId old partly → Remembers old partly →
            ∀ total price, Tracks texts clientOrderId old (partly.transition texts env.nowUtc .filled
              (.fill total price) (some ⟨total - partly.order.filledQty, price, .filled⟩)
              false) := fun partly htracks hremembers total price =>
          (htracks.transition hremembers env.nowUtc ⟨rfl, (add_sub_cancel _ _).symm⟩ false).1
        split
        · next first _ _ =>
          have hpartial : Fits acked .partialFill (.fill first.1 first.2)
            (some ⟨first.1, first.2, .partiallyFilled⟩) := ⟨rfl, rfl⟩
          have hfirst := hacked.transition hseen env.nowUtc hpartial true
          exact hpartly _ hfirst.1 (hfirst.2 rfl) _ _
        · exact hpartly acked hacked hseen _ _

end Walks

section Intents

variable {texts : Texts} {env : CallEnv} {cancelRequests : List String} {store start : Store}
  {batch : Batch} {intent : OrderIntent}

variable (texts) in
/-- The events of an order tell its standing; of no order there are none. -/
def Told (clientOrderId : String) (events : List OrderEvent) : Option Standing → Prop
  | some s => Tells texts clientOrderId events s
  | none => events = []

variable (texts) in
/-- The log of a store tells its orders. -/
structure Logged (store : Store) : Prop where
  keyed : Keyed store
  told : ∀ clientOrderId, Told texts clientOrderId
    (eventsOf store.stage7OrderEvents clientOrderId)
    (store.stage7Orders[clientOrderId]?.map standing)

theorem tells_nil (clientOrderId : String) : Tells texts clientOrderId [] ⟨.planned, 0⟩ :=
  ⟨trivial, List.nodup_nil, rfl⟩

theorem start_tracks (h : Logged texts store) (env : CallEnv) (intent : OrderIntent) :
    Tracks texts intent.clientOrderId (eventsOf store.stage7OrderEvents intent.clientOrderId)
        (startWalk texts env store intent) ∧
      Remembers (eventsOf store.stage7OrderEvents intent.clientOrderId)
        (startWalk texts env store intent) := by
  have htold := h.told intent.clientOrderId
  have hperm : (getStage7OrderEventsByClientId store intent.clientOrderId).Perm
      (eventsOf store.stage7OrderEvents intent.clientOrderId) := List.perm_insertionSort _ _
  refine ⟨⟨startWalk_clientOrderId texts env h.keyed intent, ?_, List.forall_mem_nil _, ?_⟩,
    fun eventType hin => ?_⟩
  · rw [show (startWalk texts env store intent).events = [] from rfl, List.append_nil]
    exact hperm.length_eq
  · rw [show (startWalk texts env store intent).events = [] from rfl, List.append_nil]
    rcases @OrderBounds.startWalk_cases texts env store intent with ⟨hnone, hnew⟩ | ⟨order, horder, hsame⟩
    · rw [hnone] at htold
      rw [hnew, show eventsOf store.stage7OrderEvents intent.clientOrderId = [] from htold]
      exact tells_nil intent.clientOrderId
    · rw [horder] at htold
      rw [hsame]
      exact htold
  · rw [show (startWalk texts env store intent).events = [] from rfl, List.append_nil] at hin
    exact (hperm.map OrderEvent.eventType).mem_iff.mpr (mem_changes.mp hin).1

variable (texts) in
/-- An intent leaves the orders and events of the batch, or adds those of a walk. -/
inductive Added (old : List OrderEvent) (before : Batch) (intent : OrderIntent)
    (after : Batch) : Prop where
  | nothing (orders : after.appliedOrders = before.appliedOrders)
      (events : after.eventsToAppend = before.eventsToAppend)
  | walked (walk : Walk) (tracks : Tracks texts intent.clientOrderId old walk)
      (orders : after.appliedOrders = before.appliedOrders ++ [walk.order])
      (events : after.eventsToAppend = before.eventsToAppend ++ walk.events)

theorem processIntent_added (h : Logged texts batch.store) :
    Added texts (eventsOf batch.store.stage7OrderEvents intent.clientOrderId) batch
      intent (processIntent texts env cancelRequests batch intent) := by
  obtain ⟨hstart, hseen⟩ := start_tracks h env intent
  unfold processIntent
  dsimp only
  split
  · exact .nothing rfl rfl
  · split
    · exact .walked _ (hstart.transition hseen env.nowUtc ⟨rfl, (add_zero _).symm⟩ false).1 rfl rfl
    · split
      · exact .walked _ (hstart.transition hseen env.nowUtc ⟨rfl, (add_zero _).symm⟩ false).1 rfl rfl
      · split
        · exact .walked _ (hstart.appendEvent env.nowUtc rfl _) rfl rfl
        · split
          · exact .walked _ (hstart.appendEvent env.nowUtc rfl _) rfl rfl
          · unfold registerAndSubmit tryRegisterIdempotencyKey
            dsimp only
            cases batch.store.stage7IdempotencyKeys[submitKey intent.clientOrderId]? with
            | some existing =>
              dsimp only
              by_cases hhash : existing ≠ texts.intentHash intent
              · rw [if_pos hhash]
                exact .walked _ ((hstart.appendEvent env.nowUtc rfl _).transition 
                  (hseen.appendEvent env.nowUtc rfl _) env.nowUtc ⟨rfl, (add_zero _).symm⟩
                  false).1 rfl rfl
              · rw [if_neg hhash]
                exact .walked _ (hstart.appendEvent env.nowUtc rfl _) rfl rfl
            | none =>
              unfold submitOrder
              dsimp only
              cases (submitAdapter env.settings
                  (batch.failures[intent.clientOrderId]?.getD [])).1 with
              | raised error => exact .nothing rfl rfl
              | gaveUp attempts =>
                obtain ⟨hretried, -⟩ := appendRetries_tracks hstart hseen env.nowUtc attempts
                exact .walked _ (hretried.appendEvent env.nowUtc rfl _) rfl rfl
              | accepted attempts =>
                dsimp only
                obtain ⟨hretried, hretriedSeen⟩ := appendRetries_tracks hstart hseen
                  env.nowUtc attempts
                cases hwalk : executeWalk texts env intent (appendRetries texts env.nowUtc
                    (startWalk texts env batch.store intent) attempts) with
                | error error => exact .nothing rfl rfl
                | ok walk =>
                  exact .walked walk (executeWalk_tracks hretried hretriedSeen hwalk) rfl rfl

/-- The orders as the batch's results will leave them, up to their order ids. -/
def pendingOrders (start : Store) (batch : Batch) : Dict Stage7Order :=
  batch.appliedOrders.foldl (fun orders order => orders.insert order.clientOrderId order)
    start.stage7Orders

variable (texts) in
/-- The log with the batch's events tells the orders with the batch's results, and the
intents still waiting have no event among them. -/
structure Pending (start : Store) (waiting : List OrderIntent) (batch : Batch) : Prop where
  orders : batch.store.stage7Orders = start.stage7Orders
  events : batch.store.stage7OrderEvents = start.stage7OrderEvents
  told : ∀ clientOrderId, Told texts clientOrderId
    (eventsOf (start.stage7OrderEvents ++ batch.eventsToAppend) clientOrderId)
    ((pendingOrders start batch)[clientOrderId]?.map standing)
  untouched : ∀ intent ∈ waiting, eventsOf batch.eventsToAppend intent.clientOrderId = []

theorem Pending.processIntent {waiting : List OrderIntent} (hstart : Logged texts start)
    (h : Pending texts start (intent :: waiting) batch)
    (hdistinct : ((intent :: waiting).map OrderIntent.clientOrderId).Nodup) :
    Pending texts start waiting (processIntent texts env cancelRequests batch intent) := by
  have hlogged : Logged texts batch.store := by
    refine ⟨fun clientOrderId order horder => ?_, fun clientOrderId => ?_⟩
    · exact hstart.keyed clientOrderId order (h.orders ▸ horder)
    · rw [h.orders, h.events]
      exact hstart.told clientOrderId
  have hhandled := @processIntent_handled texts env cancelRequests batch intent hlogged.keyed
  refine ⟨hhandled.orders.trans h.orders, hhandled.events.trans h.events,
    fun clientOrderId => ?_, fun other hother => ?_⟩
  · cases @processIntent_added texts env cancelRequests batch intent hlogged with
    | nothing horders hevents =>
      unfold pendingOrders
      rw [horders, hevents]
      exact h.told clientOrderId
    | walked walk htracks horders hevents =>
      have hpending : pendingOrders start (OmsService.processIntent texts env cancelRequests batch
          intent) = (pendingOrders start batch).insert walk.order.clientOrderId walk.order := by
        unfold pendingOrders
        rw [horders, List.foldl_append]
        rfl
      rw [hpending, hevents, Dict.insert_get, htracks.order, ← List.append_assoc, eventsOf_append]
      by_cases hsame : intent.clientOrderId = clientOrderId
      · subst hsame
        rw [if_pos rfl, eventsOf_own htracks.own, eventsOf_append,
          h.untouched intent List.mem_cons_self, List.append_nil, ← h.events]
        exact htracks.tells
      · rw [if_neg hsame, eventsOf_other htracks.own (Ne.symm hsame), List.append_nil]
        exact h.told clientOrderId
  · have hold := h.untouched other (List.mem_cons_of_mem intent hother)
    cases @processIntent_added texts env cancelRequests batch intent hlogged with
    | nothing _ hevents => rw [hevents, hold]
    | walked walk htracks _ hevents =>
      have hne : other.clientOrderId ≠ intent.clientOrderId := by
        intro hsame
        apply (List.nodup_cons.mp hdistinct).1
        rw [← hsame]
        exact List.mem_map_of_mem hother
      rw [hevents, eventsOf_append, hold, eventsOf_other htracks.own hne, List.append_nil]

theorem Pending.run {waiting : List OrderIntent} (hstart : Logged texts start)
    (h : Pending texts start waiting batch)
    (hdistinct : (waiting.map OrderIntent.clientOrderId).Nodup) :
    Pending texts start []
      (Runs.run (OmsService.processIntent texts env cancelRequests) batch waiting) := by
  induction waiting generalizing batch with
  | nil => exact h
  | cons intent waiting ih =>
    exact ih (h.processIntent hstart hdistinct) (List.nodup_cons.mp hdistinct).2

end Intents

section Stores

variable {texts : Texts} {start : Store} {batch : Batch}

theorem Told.numbered {clientOrderId : String} {events : List OrderEvent} {s : Option Standing}
    (h : Told texts clientOrderId events s) : Numbered texts clientOrderId 0 events := by
  cases s with
  | none =>
    rw [show events = [] from h]
    trivial
  | some s => exact Tells.numbered h

variable (texts) in
/-- Different events have different ids. -/
def DistinctIds : Prop :=
  ∀ (a b : String) (m n : ℕ) (s t : EventType),
    makeEventId texts a m s = makeEventId texts b n t → a = b ∧ m = n ∧ s = t

theorem value_inj {a b : EventType} (h : a.value = b.value) : a = b := by
  cases a <;> cases b <;> first | rfl | exact absurd h (by decide)

/-- A digest without collisions gives different events different ids: neither the digits
of a number nor the name of a type holds a colon. -/
theorem distinctIds_of_injective (h : Function.Injective texts.shortHash) : DistinctIds texts := by
  intro a b m n s t hids
  have htext := h (String.append_right_inj "s7e:" |>.mp hids)
  have hvalue (eventType : EventType) : ':' ∉ eventType.value.toList := by
    cases eventType <;> decide
  have hdigits (n : ℕ) : ':' ∉ (toString n).toList := by
    intro hin
    rw [show (toString n).toList = Nat.toDigits 10 n by simp [toString, Nat.repr]] at hin
    exact absurd (Nat.isDigit_of_mem_toDigits (by decide) (by decide) hin) (by decide)
  have hsplit : (a.toList ++ ':' :: (toString m).toList) ++ ':' :: s.value.toList =
      (b.toList ++ ':' :: (toString n).toList) ++ ':' :: t.value.toList := by
    simpa using congrArg String.toList htext
  obtain ⟨hplace, htype⟩ := split_last (hvalue s) (hvalue t) hsplit
  obtain ⟨hclient, hnumber⟩ := split_last (hdigits m) (hdigits n) hplace
  exact ⟨String.toList_inj.mp hclient,
    DecimalText.toString_injective (String.toList_inj.mp hnumber),
    value_inj (String.toList_inj.mp htype)⟩

/-- Numbered events are all inserted. -/
theorem append_all (hids : DistinctIds texts) {events added : List OrderEvent}
    (h : ∀ clientOrderId,
      Numbered texts clientOrderId 0 (eventsOf (events ++ added) clientOrderId)) :
    appendStage7OrderEvents events added = events ++ added := by
  unfold appendStage7OrderEvents
  induction added generalizing events with
  | nil => exact (List.append_nil events).symm
  | cons event added ih =>
    have hfresh : (events.any fun stored => stored.eventId == event.eventId) = false := by
      rw [List.any_eq_false]
      intro stored hstored hsame
      have hown := h event.clientOrderId
      have hother := h stored.clientOrderId
      rw [eventsOf_append, numbered_append] at hown hother
      have hin : stored ∈ eventsOf events stored.clientOrderId :=
        List.mem_filter.mpr ⟨hstored, by simp⟩
      obtain ⟨place, hlt, hid⟩ := hother.1.mem hin
      have hnext := hown.2
      unfold eventsOf at hnext
      rw [List.filter_cons_of_pos (by simp)] at hnext
      rw [beq_iff_eq, hid, hnext.1] at hsame
      obtain ⟨hclient, hplace, -⟩ := hids _ _ _ _ _ _ hsame
      rw [hclient] at hlt
      unfold eventsOf at hlt
      omega
    have hone : appendStage7OrderEvent events event = events ++ [event] := by
      unfold appendStage7OrderEvent
      rw [hfresh]
      rfl
    rw [List.foldl_cons, hone, ih, List.append_assoc]
    · rfl
    · intro clientOrderId
      rw [List.append_assoc]
      exact h clientOrderId

/-- The upsert keeps the standings of the results, the last of an order standing. -/
theorem upsert_standing {orders stored : Dict Stage7Order} {applied : List Stage7Order}
    (hupsert : upsertStage7Orders orders applied = some stored) (others : Dict Stage7Order)
    (hsame : ∀ clientOrderId : String,
      orders[clientOrderId]?.map standing = others[clientOrderId]?.map standing) :
    ∀ clientOrderId : String, stored[clientOrderId]?.map standing =
      (applied.foldl (fun orders order => orders.insert order.clientOrderId order)
        others)[clientOrderId]?.map standing := by
  induction applied generalizing orders others with
  | nil =>
    cases hupsert
    exact hsame
  | cons first applied ih =>
    obtain ⟨orderId, hrest⟩ := upsert_first hupsert
    refine ih hrest (others.insert first.clientOrderId first) fun clientOrderId => ?_
    rw [Dict.insert_get, Dict.insert_get]
    split
    · rfl
    · exact hsame clientOrderId

theorem Pending.commit (hids : DistinctIds texts) (hstart : Logged texts start)
    (h : Pending texts start [] batch) :
    Logged texts (commitBatch batch).2 ∧
      ∀ orders events, (commitBatch batch).1 = .ok (orders, events) →
        (commitBatch batch).2.stage7OrderEvents = start.stage7OrderEvents ++ events := by
  have hkeyed : Keyed batch.store := fun clientOrderId order horder =>
    hstart.keyed clientOrderId order (h.orders ▸ horder)
  have hsame : Logged texts batch.store := by
    refine ⟨hkeyed, fun clientOrderId => ?_⟩
    rw [h.orders, h.events]
    exact hstart.told clientOrderId
  have hall : appendStage7OrderEvents start.stage7OrderEvents batch.eventsToAppend =
      start.stage7OrderEvents ++ batch.eventsToAppend :=
    append_all hids fun clientOrderId => (h.told clientOrderId).numbered
  have hcommitted := (commitBatch_cases batch hkeyed).1
  unfold commitBatch at hcommitted ⊢
  split
  · exact ⟨hsame, fun _ _ hanswer => by cases hanswer⟩
  · split
    · exact ⟨hsame, fun _ _ hanswer => by cases hanswer⟩
    · next herror _ stored hupsert =>
      simp only [herror, hupsert] at hcommitted
      refine ⟨⟨hcommitted, fun clientOrderId => ?_⟩, fun orders events hanswer => ?_⟩
      · have hstanding := upsert_standing hupsert start.stage7Orders
          (fun clientOrderId => by rw [h.orders]) clientOrderId
        show Told texts clientOrderId (eventsOf (appendStage7OrderEvents
          batch.store.stage7OrderEvents batch.eventsToAppend) clientOrderId)
          (stored[clientOrderId]?.map standing)
        rw [hstanding, h.events, hall]
        exact h.told clientOrderId
      · cases hanswer
        show appendStage7OrderEvents batch.store.stage7OrderEvents batch.eventsToAppend = _
        rw [h.events, hall]

/-- No client order id comes twice among the intents of a call. -/
def Distinct : OmsCall → Prop
  | .processIntents _ intents _ => (intents.map OrderIntent.clientOrderId).Nodup
  | .reconcileOpenOrders _ => True

/-- The open orders are loaded once each. -/
theorem distinct_intents (hkeyed : Keyed start) {call : OmsCall} (h : Distinct call) :
    ((call.intents texts start).map OrderIntent.clientOrderId).Nodup := by
  cases call with
  | processIntents env intents cancelRequests => exact h
  | reconcileOpenOrders env =>
    have hids : ((start.stage7Orders.toList.map Prod.snd).map
        Stage7Order.clientOrderId).Nodup := Dict.values_nodup _ _ hkeyed
    show (((loadNonTerminalOrders start).map (reconcileIntent texts env)).map
      OrderIntent.clientOrderId).Nodup
    rw [List.map_map]
    unfold loadNonTerminalOrders
    have hloaded := (List.perm_insertionSort LoadedBefore
      ((start.stage7Orders.toList.map Prod.snd).filter fun order => !order.status.terminal)).map
      Stage7Order.clientOrderId
    exact hloaded.nodup_iff.mpr (hids.sublist (List.filter_sublist.map _))

theorem logged_answer (hids : DistinctIds texts) (hstart : Logged texts start) {call : OmsCall}
    (h : Distinct call) :
    Logged texts (answerCall texts start call).2 ∧
      ∀ orders events, (answerCall texts start call).1 = .ok (orders, events) →
        (answerCall texts start call).2.stage7OrderEvents = start.stage7OrderEvents ++ events := by
  have hperm := List.perm_insertionSort IntentBefore (call.intents texts start)
  have hdistinct := (hperm.map OrderIntent.clientOrderId).nodup_iff.mpr
    (distinct_intents hstart.keyed h)
  have hbegin : Pending texts start ((call.intents texts start).insertionSort IntentBefore)
      (startBatch call.env start) := by
    refine ⟨rfl, rfl, fun clientOrderId => ?_, fun _ _ => rfl⟩
    rw [show (startBatch call.env start).eventsToAppend = [] from rfl, List.append_nil]
    exact hstart.told clientOrderId
  exact (hbegin.run hstart hdistinct).commit hids hstart

theorem logged_empty : Logged texts {} := by
  refine ⟨fun clientOrderId order h => by simp at h, fun clientOrderId => ?_⟩
  simp [Told, eventsOf]

theorem logged_run (hids : DistinctIds texts) (calls : List OmsCall)
    (hdistinct : ∀ call ∈ calls, Distinct call) :
    Logged texts (Runs.run (stepCall texts) {} calls) := by
  induction calls using List.reverseRecOn with
  | nil => exact logged_empty
  | append_singleton calls call ih =>
    have hend : Runs.run (stepCall texts) {} (calls ++ [call]) =
        stepCall texts (Runs.run (stepCall texts) {} calls) call := List.foldl_append
    rw [hend]
    refine (logged_answer hids (ih fun other hin => ?_) ?_).1
    · exact hdistinct other (List.mem_append_left _ hin)
    · exact hdistinct call (List.mem_append_right _ List.mem_cons_self)

/-- Along every run whose batches repeat no client order id, each call's events are all
inserted; and each order's events are numbered, make each change once and replay, through the
table from planned, to the order stored. -/
theorem log_refines_orders (texts : Texts) (hids : DistinctIds texts) (calls : List OmsCall)
    (hdistinct : ∀ call ∈ calls, Distinct call) :
    (∀ before call after orders events, calls = before ++ call :: after →
      (answerCall texts (Runs.run (stepCall texts) {} before) call).1 = .ok (orders, events) →
      (Runs.run (stepCall texts) {} (before ++ [call])).stage7OrderEvents =
        (Runs.run (stepCall texts) {} before).stage7OrderEvents ++ events) ∧
    ∀ clientOrderId : String,
      let store := Runs.run (stepCall texts) {} calls
      let events := eventsOf store.stage7OrderEvents clientOrderId
      Numbered texts clientOrderId 0 events ∧ (changes events).Nodup ∧
        (∀ order, store.stage7Orders[clientOrderId]? = some order →
          replay events = some ⟨order.status, order.filledQty⟩) ∧
        (store.stage7Orders[clientOrderId]? = none → events = []) := by
  refine ⟨fun before call after orders events hsplit hanswer => ?_, fun clientOrderId => ?_⟩
  · have hbefore := logged_run hids before fun other hin =>
      hdistinct other (hsplit ▸ List.mem_append_left _ hin)
    have hcall := hdistinct call (hsplit ▸ List.mem_append_right before List.mem_cons_self)
    have hend : Runs.run (stepCall texts) {} (before ++ [call]) =
        (answerCall texts (Runs.run (stepCall texts) {} before) call).2 := List.foldl_append
    rw [hend]
    exact (logged_answer hids hbefore hcall).2 orders events hanswer
  · have htold := (logged_run hids calls hdistinct).told clientOrderId
    refine ⟨htold.numbered, ?_, fun order horder => ?_, fun hnone => ?_⟩
    · cases horder : (Runs.run (stepCall texts) {} calls).stage7Orders[clientOrderId]? with
      | none =>
        rw [horder] at htold
        rw [show eventsOf _ clientOrderId = [] from htold]
        exact List.nodup_nil
      | some order =>
        rw [horder] at htold
        exact Tells.once htold
    · rw [horder] at htold
      exact Tells.replayed htold
    · rw [hnone] at htold
      exact htold

theorem log_refines_orders_accepted :
    (∀ before call after orders events, [sampleCall []] = before ++ call :: after →
      (answerCall sampleTexts (Runs.run (stepCall sampleTexts) {} before) call).1 =
        .ok (orders, events) →
      (Runs.run (stepCall sampleTexts) {} (before ++ [call])).stage7OrderEvents =
        (Runs.run (stepCall sampleTexts) {} before).stage7OrderEvents ++ events) ∧
    ∀ clientOrderId : String,
      let store := Runs.run (stepCall sampleTexts) {} [sampleCall []]
      let events := eventsOf store.stage7OrderEvents clientOrderId
      Numbered sampleTexts clientOrderId 0 events ∧ (changes events).Nodup ∧
        (∀ order, store.stage7Orders[clientOrderId]? = some order →
          replay events = some ⟨order.status, order.filledQty⟩) ∧
        (store.stage7Orders[clientOrderId]? = none → events = []) := by
  refine log_refines_orders sampleTexts (distinctIds_of_injective fun _ _ h => h) [sampleCall []] ?_
  intro call hcall
  rw [List.mem_singleton.mp hcall]
  exact List.nodup_singleton _

end Stores

end EventLog
