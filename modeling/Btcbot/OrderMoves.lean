import Btcbot.OmsService
import Mathlib.Tactic.Linarith

/-!
# Moves of a stored order

A transition moves an order along the table and adds an event, or does neither, so the
events an intent adds spell the way of its order. Fills belong to an order whose key was
just registered, and such an order is planned with nothing filled.
-/
namespace OmsService

open PyData

section Orders

/-- The status an event leaves its order in. -/
def EventType.leads (status : OrderStatus) : EventType → OrderStatus
  | .submitRequested => .submitted
  | .acked => .acked
  | .rejected => .rejected
  | .canceled => .canceled
  | .partialFill => .partiallyFilled
  | .filled => .filled
  | _ => status

/-- The events lead from one status to another, each by a transition of the table or none. -/
inductive Spells : OrderStatus → List EventType → OrderStatus → Prop where
  | nil (status : OrderStatus) : Spells status [] status
  | cons {status last : OrderStatus} {eventType : EventType} {rest : List EventType}
    (hallowed : EventType.leads status eventType = status ∨
      EventType.leads status eventType ∈ allowedTransitions status)
    (hrest : Spells (EventType.leads status eventType) rest last) :
    Spells status (eventType :: rest) last

theorem Spells.append {a b c : OrderStatus} {eventTypes more : List EventType}
    (h : Spells a eventTypes b) (h' : Spells b more c) : Spells a (eventTypes ++ more) c := by
  induction h with
  | nil => exact h'
  | cons hallowed _ ih => exact .cons hallowed (ih h')

theorem allowedTransitions_of_terminal {status : OrderStatus} (h : status.terminal = true) :
    allowedTransitions status = [] := by
  cases status <;> first | rfl | cases h

/-- A terminal order is left as it is. -/
structure Follows (old new : Stage7Order) : Prop where
  settled : old.status.terminal = true → new.status = old.status ∧
    new.filledQty = old.filledQty ∧ new.avgFillPriceTry = old.avgFillPriceTry

theorem Follows.of_same {old new : Stage7Order} (hstatus : new.status = old.status)
    (hfilled : new.filledQty = old.filledQty)
    (havg : new.avgFillPriceTry = old.avgFillPriceTry) : Follows old new :=
  ⟨fun _ => ⟨hstatus, hfilled, havg⟩⟩

theorem Follows.of_planned {old new : Stage7Order} (h : old.status = .planned) :
    Follows old new :=
  ⟨fun ht => by rw [h] at ht; cases ht⟩

theorem Follows.trans {a b c : Stage7Order} (h : Follows a b) (h' : Follows b c) :
    Follows a c := by
  refine ⟨fun ht => ?_⟩
  obtain ⟨hstatus, hfilled, havg⟩ := h.settled ht
  obtain ⟨hstatus', hfilled', havg'⟩ := h'.settled (hstatus ▸ ht)
  exact ⟨hstatus'.trans hstatus, hfilled'.trans hfilled, havg'.trans havg⟩

/-- A write of a row: events of its order spell the way there, for a new row from planned on,
and a terminal row is left as it is. -/
structure Moves (events : List OrderEvent) (row : Option Stage7Order) (new : Stage7Order) :
    Prop where
  path : ∃ added : List OrderEvent, List.Sublist added events ∧
    (∀ event ∈ added, event.clientOrderId = new.clientOrderId) ∧
    Spells (row.elim .planned Stage7Order.status) (added.map OrderEvent.eventType) new.status
  settled : ∀ old, row = some old → Follows old new

theorem Moves.of_same (events : List OrderEvent) {old new : Stage7Order}
    (hstatus : new.status = old.status) (hfilled : new.filledQty = old.filledQty)
    (havg : new.avgFillPriceTry = old.avgFillPriceTry) : Moves events (some old) new where
  path := ⟨[], List.nil_sublist _, List.forall_mem_nil _, hstatus ▸ .nil _⟩
  settled := fun _ hrow => Option.some.inj hrow ▸ Follows.of_same hstatus hfilled havg

theorem Moves.mono {events more : List OrderEvent} {row : Option Stage7Order}
    {new : Stage7Order} (h : Moves events row new) (hmore : List.Sublist events more) :
    Moves more row new := by
  obtain ⟨added, hsublist, hpath⟩ := h.path
  exact ⟨⟨added, hsublist.trans hmore, hpath⟩, h.settled⟩

/-- A planned order that is not stored. -/
theorem Moves.of_new {events : List OrderEvent} {old new : Stage7Order}
    (hplanned : old.status = .planned) (h : Moves events (some old) new) :
    Moves events none new := by
  obtain ⟨added, hsublist, hown, hspells⟩ := h.path
  exact ⟨⟨added, hsublist, hown, by simpa [hplanned] using hspells⟩, nofun⟩

/-- A row that agrees with the order a move starts from. -/
theorem Moves.of_agrees {events : List OrderEvent} {row old new : Stage7Order}
    (hstatus : row.status = old.status) (hfilled : row.filledQty = old.filledQty)
    (havg : row.avgFillPriceTry = old.avgFillPriceTry) (h : Moves events (some old) new) :
    Moves events (some row) new := by
  obtain ⟨added, hsublist, hown, hspells⟩ := h.path
  refine ⟨⟨added, hsublist, hown, by simpa [hstatus] using hspells⟩, fun other hrow => ?_⟩
  obtain rfl := Option.some.inj hrow
  exact (Follows.of_same hstatus.symm hfilled.symm havg.symm).trans (h.settled old rfl)

/-- The filled quantity stays within the order and completes a filled one. -/
structure Bounded (order : Stage7Order) : Prop where
  nonneg : 0 ≤ order.filledQty
  le_qty : order.filledQty ≤ order.qty.value
  filled : order.status = .filled → order.filledQty = order.qty.value

/-- An order no submit has touched. -/
structure Idle (order : Stage7Order) : Prop where
  filledQty : order.filledQty = 0
  status : order.status = .planned ∨ order.status = .canceled ∨ order.status = .rejected

theorem Idle.bounded {order : Stage7Order} (h : Idle order) (hqty : 0 ≤ order.qty.value) :
    Bounded order where
  nonneg := h.filledQty.ge
  le_qty := h.filledQty.trans_le hqty
  filled := fun hf => by
    rcases h.status with hs | hs | hs <;> rw [hs] at hf <;> cases hf

theorem Idle.planned {order : Stage7Order} (h : Idle order)
    (hopen : order.status.terminal = false) : order.status = .planned := by
  rcases h.status with hs | hs | hs
  · exact hs
  · rw [hs] at hopen
    cases hopen
  · rw [hs] at hopen
    cases hopen

end Orders

section Walks

variable (texts : Texts) (nowUtc : DateTime)

/-- The walk after a transition that is taken. -/
def Walk.moved (walk : Walk) (eventType : EventType) (payload : Payload)
    (fill : Option FillStep) (remember : Bool) : Walk where
  order := nextOrder nowUtc walk.order eventType fill
  seen := if remember then walk.seen ++ [eventType] else walk.seen
  seq := walk.seq + 1
  events := walk.events ++ [makeEvent texts nowUtc walk.order (walk.seq + 1) eventType payload]

theorem Walk.transition_cases (walk : Walk) (eventType : EventType) (payload : Payload)
    (fill : Option FillStep) (remember : Bool) :
    walk.transition texts nowUtc eventType payload fill remember = walk ∨
      ((nextStatus walk.order eventType fill = walk.order.status ∨
          nextStatus walk.order eventType fill ∈ allowedTransitions walk.order.status) ∧
        walk.transition texts nowUtc eventType payload fill remember =
          walk.moved texts nowUtc eventType payload fill remember) := by
  by_cases hseen : eventType ∈ walk.seen
  · left
    simp [Walk.transition, transitionOnce, hseen]
  · by_cases hallowed : nextStatus walk.order eventType fill ≠ walk.order.status ∧
        nextStatus walk.order eventType fill ∉ allowedTransitions walk.order.status
    · left
      simp [Walk.transition, transitionOnce, hseen, hallowed]
    · right
      refine ⟨?_, ?_⟩
      · by_contra hno
        exact hallowed ⟨fun h => hno (.inl h), fun h => hno (.inr h)⟩
      · simp [Walk.transition, transitionOnce, Walk.moved, hseen, hallowed]

/-- A transition of the table to an event the order has not had is taken. -/
theorem Walk.transition_taken {walk : Walk} {eventType : EventType} {fill : Option FillStep}
    (hseen : eventType ∉ walk.seen)
    (hallowed : nextStatus walk.order eventType fill ∈ allowedTransitions walk.order.status)
    (payload : Payload) (remember : Bool) :
    walk.transition texts nowUtc eventType payload fill remember =
      walk.moved texts nowUtc eventType payload fill remember := by
  simp [Walk.transition, transitionOnce, Walk.moved, hseen, hallowed]

/-- What an order is for. -/
structure SameTerms (old new : Stage7Order) : Prop where
  symbol : new.symbol = old.symbol
  side : new.side = old.side

theorem SameTerms.refl (order : Stage7Order) : SameTerms order order := ⟨rfl, rfl⟩

theorem SameTerms.trans {a b c : Stage7Order} (h : SameTerms a b) (h' : SameTerms b c) :
    SameTerms a c :=
  ⟨h'.symbol.trans h.symbol, h'.side.trans h.side⟩

/-- The events a walk adds are of its order, and they spell its way. -/
structure Spelled (start walk : Walk) : Prop where
  clientOrderId : walk.order.clientOrderId = start.order.clientOrderId
  spelled : ∃ added, walk.events = start.events ++ added ∧
    (∀ event ∈ added, event.clientOrderId = start.order.clientOrderId) ∧
    Spells start.order.status (added.map OrderEvent.eventType) walk.order.status

theorem Spelled.refl (walk : Walk) : Spelled walk walk where
  clientOrderId := rfl
  spelled := ⟨[], (List.append_nil _).symm, List.forall_mem_nil _, .nil _⟩

theorem Spelled.trans {a b c : Walk} (h : Spelled a b) (h' : Spelled b c) : Spelled a c := by
  obtain ⟨added, hevents, hown, hspells⟩ := h.spelled
  obtain ⟨more, hevents', hown', hspells'⟩ := h'.spelled
  refine ⟨h'.clientOrderId.trans h.clientOrderId, added ++ more, ?_, fun event hin => ?_, ?_⟩
  · rw [hevents', hevents, List.append_assoc]
  · exact (List.mem_append.mp hin).elim (hown event)
      fun hin => (hown' event hin).trans h.clientOrderId
  · rw [List.map_append]
    exact hspells.append hspells'

/-- Every added event is of the order. -/
theorem Spelled.own {start walk : Walk} (h : Spelled start walk) :
    ∀ event ∈ walk.events, event ∈ start.events ∨
      event.clientOrderId = start.order.clientOrderId := by
  obtain ⟨added, hevents, hown, -⟩ := h.spelled
  intro event hin
  rw [hevents] at hin
  exact (List.mem_append.mp hin).imp_right (hown event)

/-- A transition spells itself where its event leads to the status it sets. -/
theorem Spelled.transition (walk : Walk) (eventType : EventType) (payload : Payload)
    (fill : Option FillStep) (remember : Bool)
    (hleads : nextStatus walk.order eventType fill =
      EventType.leads walk.order.status eventType) :
    Spelled walk (walk.transition texts nowUtc eventType payload fill remember) := by
  rcases walk.transition_cases texts nowUtc eventType payload fill remember with
    he | ⟨hallowed, he⟩
  · rw [he]
    exact Spelled.refl walk
  · rw [he]
    rw [hleads] at hallowed
    refine ⟨rfl, [makeEvent texts nowUtc walk.order (walk.seq + 1) eventType payload], rfl,
      fun event hin => List.mem_singleton.mp hin ▸ rfl, .cons hallowed ?_⟩
    show Spells (EventType.leads walk.order.status eventType) []
      (nextStatus walk.order eventType fill)
    rw [hleads]
    exact .nil _

/-- The events of an order that was submitted. -/
def executionTypes : List EventType := [.submitRequested, .acked, .partialFill, .filled]

/-- The events that leave an order as it is. -/
def quietTypes : List EventType :=
  [.duplicateIgnored, .throttled, .idempotencyConflict, .retryScheduled, .retryGiveup]

theorem leads_of_quiet {eventType : EventType} (h : eventType ∈ quietTypes)
    (status : OrderStatus) : EventType.leads status eventType = status := by
  cases eventType <;> first | rfl | exact absurd h (by decide)

theorem notExecution_of_quiet {eventType : EventType} (h : eventType ∈ quietTypes) :
    eventType ∉ executionTypes := by
  cases eventType <;> first | decide | exact absurd h (by decide)

/-- A walk that submits nothing. -/
structure Plain (start walk : Walk) : Prop extends Spelled start walk where
  qty : walk.order.qty = start.order.qty
  filledQty : walk.order.filledQty = start.order.filledQty
  seen : walk.seen = start.seen
  status : walk.order.status = start.order.status ∨ walk.order.status = .canceled ∨
    walk.order.status = .rejected
  follows : Follows start.order walk.order
  terms : SameTerms start.order walk.order
  events : ∀ event ∈ walk.events, event ∈ start.events ∨
    (event.clientOrderId = start.order.clientOrderId ∧ event.eventType ∉ executionTypes)

theorem Plain.refl (walk : Walk) : Plain walk walk where
  toSpelled := Spelled.refl walk
  qty := rfl
  filledQty := rfl
  seen := rfl
  status := .inl rfl
  follows := Follows.of_same rfl rfl rfl
  terms := SameTerms.refl walk.order
  events := fun _ h => .inl h

theorem Plain.trans {a b c : Walk} (h : Plain a b) (h' : Plain b c) : Plain a c where
  toSpelled := h.toSpelled.trans h'.toSpelled
  qty := h'.qty.trans h.qty
  filledQty := h'.filledQty.trans h.filledQty
  seen := h'.seen.trans h.seen
  status := h'.status.elim (fun hs => hs ▸ h.status) .inr
  follows := h.follows.trans h'.follows
  terms := h.terms.trans h'.terms
  events := fun event hevent => (h'.events event hevent).elim (h.events event)
    fun he => .inr ⟨he.1.trans h.clientOrderId, he.2⟩

theorem Plain.appendEvent (walk : Walk) {eventType : EventType} (h : eventType ∈ quietTypes)
    (payload : Payload) : Plain walk (appendEvent texts nowUtc walk eventType payload) where
  clientOrderId := rfl
  spelled := by
    refine ⟨[makeEvent texts nowUtc walk.order (walk.seq + 1) eventType payload], rfl,
      fun event hin => List.mem_singleton.mp hin ▸ rfl, .cons (.inl (leads_of_quiet h _)) ?_⟩
    show Spells (EventType.leads walk.order.status eventType) [] walk.order.status
    rw [leads_of_quiet h]
    exact .nil _
  qty := rfl
  filledQty := rfl
  seen := rfl
  status := .inl rfl
  follows := Follows.of_same rfl rfl rfl
  terms := ⟨rfl, rfl⟩
  events := fun event hevent => (List.mem_append.mp hevent).imp_right fun he => by
    rw [List.mem_singleton.mp he]
    exact ⟨rfl, notExecution_of_quiet h⟩

theorem Plain.appendRetries (walk : Walk) (attempts : List RetryAttempt) :
    Plain walk (appendRetries texts nowUtc walk attempts) := by
  induction attempts generalizing walk with
  | nil => exact Plain.refl walk
  | cons attempt attempts ih =>
    exact (Plain.appendEvent texts nowUtc walk (by decide) (.retry attempt)).trans (ih _)

/-- A rejection or a cancellation, taken or not. -/
theorem Plain.transition (walk : Walk) {eventType : EventType}
    (h : eventType = .rejected ∨ eventType = .canceled) (payload : Payload) :
    Plain walk (walk.transition texts nowUtc eventType payload none false) := by
  have htype : eventType ∉ executionTypes := by rcases h with rfl | rfl <;> decide
  have hspelled := Spelled.transition texts nowUtc walk eventType payload none false
    (by rcases h with rfl | rfl <;> rfl)
  rcases walk.transition_cases texts nowUtc eventType payload none false with he | ⟨hallowed, he⟩
  · rw [he]
    exact Plain.refl walk
  · rw [he] at hspelled ⊢
    have hsettled : walk.order.status.terminal = true →
        nextStatus walk.order eventType none = walk.order.status := by
      intro ht
      rcases hallowed with hs | hs
      · exact hs
      · rw [allowedTransitions_of_terminal ht] at hs
        cases hs
    refine ⟨hspelled, rfl, add_zero _, rfl, .inr ?_,
      ⟨fun ht => ⟨hsettled ht, add_zero _, rfl⟩⟩,
      ⟨rfl, rfl⟩, fun event hevent => (List.mem_append.mp hevent).imp_right fun hm => ?_⟩
    · rcases h with rfl | rfl
      · exact .inr rfl
      · exact .inl rfl
    · rw [List.mem_singleton.mp hm]
      exact ⟨rfl, htype⟩

theorem Plain.idle {start walk : Walk} (h : Plain start walk) (hidle : Idle start.order) :
    Idle walk.order where
  filledQty := h.filledQty.trans hidle.filledQty
  status := h.status.elim (fun hs => hs ▸ hidle.status) .inr

theorem Plain.bounded {start walk : Walk} (h : Plain start walk) (hb : Bounded start.order) :
    Bounded walk.order where
  nonneg := h.filledQty ▸ hb.nonneg
  le_qty := by
    rw [h.filledQty, h.qty]
    exact hb.le_qty
  filled := fun hf => by
    rw [h.filledQty, h.qty]
    rcases h.status with hs | hs | hs
    · exact hb.filled (hs ▸ hf)
    · rw [hs] at hf
      cases hf
    · rw [hs] at hf
      cases hf

/-- A fill in two parts adds up to the intent, as a fill in one part does. -/
theorem fillSlices_cases {settings : Settings} {marks : List (String × ℚ)} {intent : OrderIntent}
    {slices : List (ℚ × ℚ)} (h : fillSlices texts settings marks intent = .ok slices) :
    (∃ first second price, slices = [(first, price), (second, price)] ∧
      first + second = intent.qty.value ∧ 0 < first) ∨
      ∃ price, slices = [(intent.qty.value, price)] := by
  unfold fillSlices at h
  obtain ⟨candidate, -, h⟩ := Runs.bind_ok h
  dsimp only at h
  split at h
  · next hsplit => exact .inl ⟨_, _, _, (Except.ok.inj h).symm, by ring, hsplit.2.2.1⟩
  · exact .inr ⟨_, (Except.ok.inj h).symm⟩

/-- What becomes of an order whose submit was accepted. -/
structure Executed (intent : OrderIntent) (rejected : Bool) (start walk : Walk) : Prop where
  clientOrderId : walk.order.clientOrderId = start.order.clientOrderId
  qty : walk.order.qty = start.order.qty
  unfilled : rejected = true →
    walk.order.filledQty = 0 ∧ (walk.order.status = .acked ∨ walk.order.status = .rejected)
  filled : rejected = false →
    walk.order.status = .filled ∧ walk.order.filledQty = intent.qty.value
  priced : rejected = false → 0 < intent.qty.value → walk.order.avgFillPriceTry.isSome = true
  terms : SameTerms start.order walk.order
  events : ∀ event ∈ walk.events, event ∈ start.events ∨
    event.clientOrderId = start.order.clientOrderId

/-- A point of the way of an accepted order: its status, what is filled, and the
events it has not had yet. -/
structure OnWay (start : Walk) (status : OrderStatus) (filledQty : ℚ) (fresh : List EventType)
    (walk : Walk) : Prop where
  clientOrderId : walk.order.clientOrderId = start.order.clientOrderId
  qty : walk.order.qty = start.order.qty
  status : walk.order.status = status
  filledQty : walk.order.filledQty = filledQty
  terms : SameTerms start.order walk.order
  fresh : ∀ eventType ∈ fresh, eventType ∉ walk.seen
  events : ∀ event ∈ walk.events, event ∈ start.events ∨
    event.clientOrderId = start.order.clientOrderId

theorem OnWay.transition {start walk : Walk} {status : OrderStatus} {filledQty : ℚ}
    {eventType : EventType} {fresh : List EventType}
    (h : OnWay start status filledQty (eventType :: fresh) walk) (next : OrderStatus)
    (total : ℚ) (fill : Option FillStep) (hnext : nextStatus walk.order eventType fill = next)
    (hallowed : next ∈ allowedTransitions status) (hnew : eventType ∉ fresh)
    (htotal : filledQty + (fill.map FillStep.qty).getD 0 = total) (payload : Payload)
    (remember : Bool) :
    OnWay start next total fresh
      (walk.transition texts nowUtc eventType payload fill remember) := by
  rw [Walk.transition_taken texts nowUtc (h.fresh eventType List.mem_cons_self)
    (by rw [hnext, h.status]; exact hallowed)]
  refine ⟨h.clientOrderId, h.qty, hnext, htotal ▸ congrArg (· + _) h.filledQty,
    ⟨h.terms.symbol, h.terms.side⟩, fun t ht hmem => ?_, fun event hevent => ?_⟩
  · have hold := h.fresh t (List.mem_cons_of_mem eventType ht)
    unfold Walk.moved at hmem
    dsimp only at hmem
    split at hmem
    · rcases List.mem_append.mp hmem with hmem | hmem
      · exact hold hmem
      · exact hnew (List.mem_singleton.mp hmem ▸ ht)
    · exact hold hmem
  · rcases List.mem_append.mp hevent with hevent | hevent
    · exact h.events event hevent
    · rw [List.mem_singleton.mp hevent]
      exact .inr h.clientOrderId

theorem OnWay.skip {start walk : Walk} {status : OrderStatus} {filledQty : ℚ}
    {eventType : EventType} {fresh : List EventType}
    (h : OnWay start status filledQty (eventType :: fresh) walk) :
    OnWay start status filledQty fresh walk :=
  { h with fresh := fun t ht => h.fresh t (List.mem_cons_of_mem eventType ht) }

theorem avgFillPrice_isSome {order : Stage7Order} {fill : FillStep}
    (h : order.avgFillPriceTry.isSome = true ∨ 0 < fill.qty ∧ 0 < order.filledQty + fill.qty) :
    (avgFillPrice order fill).isSome = true := by
  unfold avgFillPrice
  dsimp only
  split
  · rfl
  · next hnone =>
    rcases h with h | h
    · exact h
    · exact absurd h hnone

/-- A fill of some quantity leaves a price, and no fill takes it away. -/
theorem OnWay.priced {start walk : Walk} {status : OrderStatus} {filledQty : ℚ}
    {eventType : EventType} {fresh : List EventType}
    (h : OnWay start status filledQty (eventType :: fresh) walk) {fill : FillStep}
    (next : OrderStatus) (hnext : fill.targetStatus = next)
    (hallowed : next ∈ allowedTransitions status)
    (hfill : walk.order.avgFillPriceTry.isSome = true ∨
      0 < fill.qty ∧ 0 < walk.order.filledQty + fill.qty) (payload : Payload) (remember : Bool) :
    (walk.transition texts nowUtc eventType payload (some fill)
      remember).order.avgFillPriceTry.isSome = true := by
  rw [Walk.transition_taken texts nowUtc (h.fresh eventType List.mem_cons_self)
    (by rw [h.status, nextStatus, hnext]; exact hallowed)]
  exact avgFillPrice_isSome hfill

/-- A rejection an order may have had already. -/
theorem OnWay.reject {start walk : Walk} {filledQty : ℚ} {fresh : List EventType}
    (h : OnWay start .acked filledQty fresh walk) (payload : Payload) :
    let next := walk.transition texts nowUtc .rejected payload none false
    OnWay start .acked filledQty fresh next ∨ OnWay start .rejected filledQty [] next := by
  rcases walk.transition_cases texts nowUtc .rejected payload none false with he | ⟨-, he⟩
  · left
    rw [he]
    exact h
  · right
    rw [he]
    refine ⟨h.clientOrderId, h.qty, rfl, (add_zero _).trans h.filledQty,
      ⟨h.terms.symbol, h.terms.side⟩, fun _ ht => ?_, fun event hevent => ?_⟩
    · cases ht
    · rcases List.mem_append.mp hevent with hevent | hevent
      · exact h.events event hevent
      · rw [List.mem_singleton.mp hevent]
        exact .inr h.clientOrderId

/-- An order that was never submitted goes from planned to its end. -/
theorem executeWalk_fresh {env : CallEnv} {intent : OrderIntent} {walk next : Walk}
    (hplanned : walk.order.status = .planned) (hfilled : walk.order.filledQty = 0)
    (hseen : ∀ eventType ∈ executionTypes, eventType ∉ walk.seen)
    (h : executeWalk texts env intent walk = .ok next) :
    ∃ rejected, shouldReject texts env.settings intent = .ok rejected ∧
      Executed intent rejected walk next := by
  have hstart : OnWay walk .planned 0 executionTypes walk :=
    ⟨rfl, rfl, hplanned, hfilled, SameTerms.refl walk.order, hseen, fun _ he => .inl he⟩
  have hrequested := hstart.transition texts env.nowUtc .submitted 0 none rfl
    (by decide) (by decide) (add_zero 0) (.order walk.order.symbol walk.order.side) true
  unfold executeWalk at h
  generalize walk.transition texts env.nowUtc .submitRequested
    (.order walk.order.symbol walk.order.side) none true = requested at h hrequested
  have hacked := hrequested.transition texts env.nowUtc .acked 0 none rfl
    (by decide) (by decide) (add_zero 0) (.order requested.order.symbol requested.order.side) true
  dsimp only at h
  generalize requested.transition texts env.nowUtc .acked
    (.order requested.order.symbol requested.order.side) none true = acked at h hacked
  cases hreject : shouldReject texts env.settings intent with
  | error error =>
    rw [hreject] at h
    cases h
  | ok rejected =>
    refine ⟨rejected, rfl, ?_⟩
    rw [hreject] at h
    simp only [bind, Except.bind] at h
    cases rejected with
    | true =>
      simp only [if_true, Except.ok.injEq] at h
      subst h
      rcases hacked.reject texts env.nowUtc (.reason "sim_reject" none) with hend | hend
      · exact ⟨hend.clientOrderId, hend.qty,
          fun _ => ⟨hend.filledQty, .inl hend.status⟩, nofun, nofun, hend.terms, hend.events⟩
      · exact ⟨hend.clientOrderId, hend.qty,
          fun _ => ⟨hend.filledQty, .inr hend.status⟩, nofun, nofun, hend.terms, hend.events⟩
    | false =>
      cases hslices : fillSlices texts env.settings env.markPricesTry intent with
      | error error =>
        rw [hslices] at h
        cases h
      | ok slices =>
        rw [hslices] at h
        simp only [Bool.false_eq_true, if_false, Except.ok.injEq] at h
        subst h
        rcases fillSlices_cases texts hslices with
          ⟨first, second, price, rfl, hsum, hfirst⟩ | ⟨price, rfl⟩
        · have hpartly := hacked.transition texts env.nowUtc .partiallyFilled first
            (some ⟨first, price, .partiallyFilled⟩) rfl (by decide) (by decide) (zero_add first)
            (.fill first price) true
          have hprice := @OnWay.priced texts env.nowUtc _ _ _ _ _ _ hacked
            ⟨first, price, .partiallyFilled⟩ .partiallyFilled rfl (by decide)
            (.inr ⟨hfirst, by rw [hacked.filledQty, zero_add]; exact hfirst⟩)
            (.fill first price) true
          dsimp only
          generalize acked.transition texts env.nowUtc .partialFill (.fill first price)
            (some ⟨first, price, .partiallyFilled⟩) true = partly at hpartly hprice ⊢
          have hend := hpartly.transition texts env.nowUtc .filled intent.qty.value
            (some ⟨first + (second + 0) - partly.order.filledQty, price, .filled⟩) rfl (by decide)
            (by decide) (by rw [hpartly.filledQty, ← hsum, Option.map_some, Option.getD_some]; ring)
            (.fill (first + (second + 0)) price) false
          exact ⟨hend.clientOrderId, hend.qty, nofun, fun _ => ⟨hend.status, hend.filledQty⟩,
            fun _ _ => hpartly.priced texts env.nowUtc .filled rfl (by decide) (.inl hprice) _ _,
            hend.terms, hend.events⟩
        · have hend := hacked.skip.transition texts env.nowUtc .filled intent.qty.value
            (some ⟨intent.qty.value + 0 - acked.order.filledQty, price, .filled⟩) rfl (by decide)
            (by decide) (by rw [hacked.filledQty, Option.map_some, Option.getD_some]; ring)
            (.fill (intent.qty.value + 0) price) false
          refine ⟨hend.clientOrderId, hend.qty, nofun, fun _ => ⟨hend.status, hend.filledQty⟩,
            fun _ hqty => ?_, hend.terms, hend.events⟩
          refine hacked.skip.priced texts env.nowUtc .filled rfl (by decide) (.inr ?_) _ _
          simpa [hacked.filledQty] using hqty

/-- An accepted submit spells its way, whatever the order had before. -/
theorem executeWalk_spelled {env : CallEnv} {intent : OrderIntent} {walk next : Walk}
    (h : executeWalk texts env intent walk = .ok next) : Spelled walk next := by
  unfold executeWalk at h
  dsimp only at h
  have hrequested := Spelled.transition texts env.nowUtc walk .submitRequested
    (.order walk.order.symbol walk.order.side) none true rfl
  generalize walk.transition texts env.nowUtc .submitRequested
    (.order walk.order.symbol walk.order.side) none true = requested at h hrequested
  have hacked := hrequested.trans (Spelled.transition texts env.nowUtc requested .acked
    (.order requested.order.symbol requested.order.side) none true rfl)
  generalize requested.transition texts env.nowUtc .acked
    (.order requested.order.symbol requested.order.side) none true = acked at h hacked
  obtain ⟨rejected, -, h⟩ := Runs.bind_ok h
  cases rejected with
  | true =>
    simp only [if_true, Except.ok.injEq] at h
    exact h ▸ hacked.trans (Spelled.transition texts env.nowUtc acked .rejected _ none false rfl)
  | false =>
    obtain ⟨slices, -, h⟩ := Runs.bind_ok h
    obtain rfl := Except.ok.inj h
    refine Spelled.trans ?_ (Spelled.transition texts env.nowUtc _ .filled _ _ false rfl)
    split
    · exact hacked.trans (Spelled.transition texts env.nowUtc acked .partialFill _ _ true rfl)
    · exact hacked

/-- A rejection by the simulator, where the order has had none, leaves nothing filled. -/
theorem executeWalk_rejected {env : CallEnv} {intent : OrderIntent} {walk next : Walk}
    (hplanned : walk.order.status = .planned)
    (hseen : ∀ eventType ∈ executionTypes, eventType ∉ walk.seen) (hnew : .rejected ∉ walk.seen)
    (hreject : shouldReject texts env.settings intent = .ok true)
    (h : executeWalk texts env intent walk = .ok next) :
    next.order.status = .rejected ∧ next.order.filledQty = walk.order.filledQty ∧
      next.order.avgFillPriceTry = walk.order.avgFillPriceTry := by
  have hrequested := @Walk.transition_taken texts env.nowUtc walk .submitRequested none
    (hseen _ (by decide)) (by
      show OrderStatus.submitted ∈ allowedTransitions walk.order.status
      rw [hplanned]
      decide) (.order walk.order.symbol walk.order.side) true
  unfold executeWalk at h
  rw [hrequested] at h
  dsimp only at h
  generalize hmoved : walk.moved texts env.nowUtc .submitRequested
    (.order walk.order.symbol walk.order.side) none true = requested at h
  have hstatus : requested.order.status = .submitted := by rw [← hmoved]; rfl
  have hseen' : requested.seen = walk.seen ++ [.submitRequested] := by rw [← hmoved]; rfl
  have hacked := @Walk.transition_taken texts env.nowUtc requested .acked none
    (by rw [hseen']; simpa using hseen .acked (by decide)) (by
      show OrderStatus.acked ∈ allowedTransitions requested.order.status
      rw [hstatus]
      decide) (.order requested.order.symbol requested.order.side) true
  rw [hacked, hreject] at h
  simp only [bind, Except.bind, if_true, Except.ok.injEq] at h
  generalize hmoved' : requested.moved texts env.nowUtc .acked
    (.order requested.order.symbol requested.order.side) none true = acked at h
  have hstatus' : acked.order.status = .acked := by rw [← hmoved']; rfl
  have hseen'' : acked.seen = requested.seen ++ [.acked] := by rw [← hmoved']; rfl
  have hrejected := @Walk.transition_taken texts env.nowUtc acked .rejected none
    (by rw [hseen'', hseen']; simpa using hnew) (by
      show OrderStatus.rejected ∈ allowedTransitions acked.order.status
      rw [hstatus']
      decide) (.reason "sim_reject" none) false
  rw [← h, hrejected, ← hmoved', ← hmoved]
  simp [Walk.moved, nextOrder, nextStatus, targetStatusOf]

end Walks

end OmsService
