import Btcbot.Redelivery
import Mathlib.Algebra.BigOperators.Group.List.Basic
import Mathlib.Algebra.Order.Ring.Rat
import Mathlib.Data.Finset.Insert
import Mathlib.Data.List.Sort
import Mathlib.Data.Prod.Lex
import Mathlib.Data.String.Basic
import Mathlib.Tactic.Ring

/-!
# Merging open orders with user stream events

Open orders, fills and terminal updates are filed by the order id, or by the client order
id where there is none. The first fill of each fill id counts, the latest update of each
key closes the order of that key. Times are microseconds.
-/
namespace ReconcilerMerge

open KeyedTable Redelivery

section Data

/-- The two ids an order or an event may carry. -/
structure OrderIds where
  orderId : Option String
  clientOrderId : Option String
  deriving DecidableEq, Repr

structure OpenOrderView where
  orderId : String
  clientOrderId : Option String
  symbol : String
  status : String
  quantity : ℚ
  remainingQuantity : ℚ
  updatedAt : Option ℤ
  deriving DecidableEq, Repr

structure FillEvent where
  fillId : String
  orderId : Option String
  clientOrderId : Option String
  symbol : String
  price : ℚ
  quantity : ℚ
  channel : ℤ
  ts : ℤ
  deriving DecidableEq, Repr

structure OrderTerminalUpdate where
  orderId : Option String
  clientOrderId : Option String
  symbol : Option String
  status : String
  reason : String
  channel : ℤ
  ts : ℤ
  deriving DecidableEq, Repr

structure Diagnostics where
  wsEventsSeen : ℕ
  wsFillNew : ℕ
  wsTerminalNew : ℕ
  restOpenOrdersCount : ℕ
  openOrdersAfterMerge : ℕ
  deriving DecidableEq, Repr

structure ReconcileResult where
  openOrders : List OpenOrderView
  fills : List FillEvent
  terminalUpdates : List OrderTerminalUpdate
  diagnostics : Diagnostics
  deriving DecidableEq, Repr

structure OrderExecutionAggregate where
  filledQty : ℚ := 0
  lastFillTs : Option ℤ := none
  lastEventTs : Option ℤ := none
  deriving DecidableEq, Repr

structure ReconcileState where
  seenFillIds : Finset String := ∅
  fills : List (String × FillEvent) := []
  terminalUpdates : List (String × OrderTerminalUpdate) := []
  aggregatesByOrderKey : List (String × OrderExecutionAggregate) := []
  deriving DecidableEq

end Data

section Merge

/-- An id that is there and not empty. -/
def truthy (id : Option String) : Option String := id.filter (· ≠ "")

def orderKey (ids : OrderIds) : String :=
  match truthy ids.orderId with
  | some orderId => "oid:" ++ orderId
  | none =>
    match truthy ids.clientOrderId with
    | some clientOrderId => "cid:" ++ clientOrderId
    | none => "unknown"

def OpenOrderView.ids (order : OpenOrderView) : OrderIds :=
  ⟨some order.orderId, order.clientOrderId⟩

def FillEvent.ids (fill : FillEvent) : OrderIds := ⟨fill.orderId, fill.clientOrderId⟩

def OrderTerminalUpdate.ids (terminal : OrderTerminalUpdate) : OrderIds :=
  ⟨terminal.orderId, terminal.clientOrderId⟩

/-- A state in the making, with what was counted on the way. -/
structure Progress where
  state : ReconcileState
  wsEventsSeen : ℕ := 0
  wsFillNew : ℕ := 0
  wsTerminalNew : ℕ := 0

def takeFill (progress : Progress) (fill : FillEvent) : Progress :=
  let state := progress.state
  if fill.fillId ∈ state.seenFillIds then
    { progress with wsEventsSeen := progress.wsEventsSeen + 1 }
  else
    let key := orderKey fill.ids
    let aggregate := (get? state.aggregatesByOrderKey key).getD {}
    { progress with
      wsEventsSeen := progress.wsEventsSeen + 1
      wsFillNew := progress.wsFillNew + 1
      state :=
        { state with
          seenFillIds := insert fill.fillId state.seenFillIds
          fills := setItem state.fills fill.fillId fill
          aggregatesByOrderKey := setItem state.aggregatesByOrderKey key
            ⟨aggregate.filledQty + fill.quantity, some fill.ts, some fill.ts⟩ } }

def takeTerminal (progress : Progress) (terminal : OrderTerminalUpdate) : Progress :=
  let state := progress.state
  let key := orderKey terminal.ids
  let replaces := match get? state.terminalUpdates key with
    | none => true
    | some prior => decide (prior.ts ≤ terminal.ts)
  let aggregate := (get? state.aggregatesByOrderKey key).getD {}
  { progress with
    wsEventsSeen := progress.wsEventsSeen + 1
    wsTerminalNew := progress.wsTerminalNew + if replaces then 1 else 0
    state :=
      { state with
        terminalUpdates :=
          if replaces then setItem state.terminalUpdates key terminal else state.terminalUpdates
        aggregatesByOrderKey := setItem state.aggregatesByOrderKey key
          { aggregate with lastEventTs := some terminal.ts } } }

def closing (terminal : OrderTerminalUpdate) : Bool :=
  terminal.status.toUpper ∈ ["CANCELED", "FILLED"]

/-- The open orders by key; of two with one key the later one stays. -/
def openByKey (restOpenOrders : List OpenOrderView) : List (String × OpenOrderView) :=
  ofEntries (restOpenOrders.map fun order => (orderKey order.ids, order))

def popClosed (terminalUpdates : List (String × OrderTerminalUpdate))
    (orders : List (String × OpenOrderView)) : List (String × OpenOrderView) :=
  terminalUpdates.foldl
    (fun orders entry => if closing entry.2 then orders.filter (·.1 ≠ entry.1) else orders) orders

def openOrderKey (order : OpenOrderView) := toLex (order.symbol, order.orderId)

def fillKey (fill : FillEvent) := toLex (fill.ts, fill.fillId)

def terminalKey (terminal : OrderTerminalUpdate) :=
  toLex (terminal.ts, toLex (terminal.status, terminal.orderId.getD ""))

def sorted {α κ : Type} [LinearOrder κ] (key : α → κ) (l : List α) : List α :=
  l.insertionSort fun a b => key a ≤ key b

/-- The aggregates are values: the state merged into stays as it was. The source adds the fills to
the aggregates in place, which the earlier state still holds. -/
def merge (previous : ReconcileState) (restOpenOrders : List OpenOrderView)
    (wsFills : List FillEvent) (wsTerminalUpdates : List OrderTerminalUpdate) :
    ReconcileState × ReconcileResult :=
  let progress := wsTerminalUpdates.foldl takeTerminal (wsFills.foldl takeFill ⟨previous, 0, 0, 0⟩)
  let state := progress.state
  let orders := popClosed state.terminalUpdates (openByKey restOpenOrders)
  (state,
    { openOrders := sorted openOrderKey (orders.map Prod.snd)
      fills := sorted fillKey (state.fills.map Prod.snd)
      terminalUpdates := sorted terminalKey (state.terminalUpdates.map Prod.snd)
      diagnostics :=
        { wsEventsSeen := progress.wsEventsSeen
          wsFillNew := progress.wsFillNew
          wsTerminalNew := progress.wsTerminalNew
          restOpenOrdersCount := restOpenOrders.length
          openOrdersAfterMerge := orders.length } })

end Merge

section Stream

/-- One event of the user stream. -/
inductive StreamEvent where
  | fill (event : FillEvent)
  | terminal (event : OrderTerminalUpdate)
  deriving DecidableEq, Repr

def StreamEvent.fill? : StreamEvent → Option FillEvent
  | .fill event => some event
  | .terminal _ => none

def StreamEvent.terminal? : StreamEvent → Option OrderTerminalUpdate
  | .fill _ => none
  | .terminal event => some event

def fillsOf (events : List StreamEvent) : List FillEvent := events.filterMap StreamEvent.fill?

def updatesOf (events : List StreamEvent) : List OrderTerminalUpdate :=
  events.filterMap StreamEvent.terminal?

def mergeEvents (previous : ReconcileState) (rest : List OpenOrderView)
    (events : List StreamEvent) : ReconcileState × ReconcileResult :=
  merge previous rest (fillsOf events) (updatesOf events)

/-- One merge after the other, each with the state of the one before. -/
def mergeChunks (previous : ReconcileState) (rest : List OpenOrderView) :
    List StreamEvent → List (List StreamEvent) → ReconcileState × ReconcileResult
  | chunk, [] => mergeEvents previous rest chunk
  | chunk, next :: chunks => mergeChunks (mergeEvents previous rest chunk).1 rest next chunks

end Stream

section Recorded

/-- The first fill of each fill id. -/
abbrev distinctFills (fills : List FillEvent) : List FillEvent := firsts FillEvent.fillId fills

abbrev latestUpdates (updates : List OrderTerminalUpdate) : List (String × OrderTerminalUpdate) :=
  latest (fun terminal => orderKey terminal.ids) OrderTerminalUpdate.ts updates

def filledQty (state : ReconcileState) (key : String) : ℚ :=
  ((get? state.aggregatesByOrderKey key).getD {}).filledQty

/-- What comes of the fills that meet a condition. -/
def quantityOf (p : FillEvent → Prop) [DecidablePred p] (fills : List FillEvent) : ℚ :=
  ((fills.filter fun fill => p fill).map FillEvent.quantity).sum

/-- What a state holds after the fills and the updates taken so far. -/
structure Recorded (state : ReconcileState) (fills : List FillEvent)
    (updates : List OrderTerminalUpdate) : Prop where
  seen : ∀ id, id ∈ state.seenFillIds ↔ id ∈ fills.map FillEvent.fillId
  table : state.fills = (distinctFills fills).map fun fill => (fill.fillId, fill)
  filled : ∀ key, filledQty state key =
    quantityOf (fun fill => orderKey fill.ids = key) (distinctFills fills)
  updates : state.terminalUpdates = latestUpdates updates

theorem recorded_empty : Recorded {} [] [] where
  seen _ := by simp
  table := rfl
  filled _ := rfl
  updates := rfl

theorem quantityOf_concat (p : FillEvent → Prop) [DecidablePred p] (fills : List FillEvent)
    (fill : FillEvent) :
    quantityOf p (fills ++ [fill]) = quantityOf p fills + if p fill then fill.quantity else 0 := by
  unfold quantityOf
  rw [List.filter_append, List.map_append, List.sum_append]
  by_cases h : p fill <;> simp [h]

variable {progress : Progress} {fills : List FillEvent} {updates : List OrderTerminalUpdate}

theorem recorded_takeFill (h : Recorded progress.state fills updates) (fill : FillEvent) :
    Recorded (takeFill progress fill).state (fills ++ [fill]) updates := by
  unfold takeFill
  dsimp only
  split
  · next hseen =>
    have hknown := (h.seen _).mp hseen
    have hfirsts : distinctFills (fills ++ [fill]) = distinctFills fills := by
      rw [distinctFills, firsts_concat, takeFirst, if_pos ((mem_keys_firsts _ _ _).mpr hknown)]
    refine ⟨fun id => ?_, ?_, ?_, h.updates⟩
    · rw [h.seen, List.map_append, List.mem_append, List.map_singleton, List.mem_singleton]
      exact (or_iff_left_of_imp fun hid => hid ▸ hknown).symm
    · rw [hfirsts]
      exact h.table
    · rw [hfirsts]
      exact h.filled
  · next hseen =>
    have hnew : fill.fillId ∉ (distinctFills fills).map FillEvent.fillId := fun hin =>
      hseen ((h.seen _).mpr ((mem_keys_firsts _ _ _).mp hin))
    have hfirsts : distinctFills (fills ++ [fill]) = distinctFills fills ++ [fill] := by
      rw [distinctFills, firsts_concat, takeFirst, if_neg hnew]
    refine ⟨fun id => ?_, ?_, fun key => ?_, h.updates⟩
    · rw [Finset.mem_insert, h.seen, List.map_append, List.mem_append, List.map_singleton,
        List.mem_singleton, or_comm]
    · have hkeys : fill.fillId ∉ keys progress.state.fills := by
        rw [h.table, keys, List.map_map]
        exact hnew
      rw [hfirsts, List.map_append, ← h.table]
      exact setItem_new hkeys fill
    · rw [hfirsts, quantityOf_concat, ← h.filled]
      unfold filledQty
      rw [get?_setItem]
      split
      · next hkey => rw [hkey]; rfl
      · exact (add_zero _).symm

theorem filledQty_takeTerminal (progress : Progress) (terminal : OrderTerminalUpdate)
    (key : String) :
    filledQty (takeTerminal progress terminal).state key = filledQty progress.state key := by
  unfold filledQty takeTerminal
  dsimp only
  rw [get?_setItem]
  split
  · next hkey => rw [hkey]; rfl
  · rfl

theorem recorded_takeTerminal (h : Recorded progress.state fills updates)
    (terminal : OrderTerminalUpdate) :
    Recorded (takeTerminal progress terminal).state fills (updates ++ [terminal]) := by
  refine ⟨h.seen, h.table, fun key => ?_, ?_⟩
  · rw [filledQty_takeTerminal, h.filled]
  · rw [latestUpdates, latest_concat, ← latestUpdates, ← h.updates, takeLatest, takeTerminal]
    dsimp only
    cases get? progress.state.terminalUpdates (orderKey terminal.ids) with
    | none => rfl
    | some prior => by_cases hle : prior.ts ≤ terminal.ts <;> simp [hle]

theorem recorded_merge {previous : ReconcileState} (h : Recorded previous fills updates)
    (rest : List OpenOrderView) (wsFills : List FillEvent)
    (wsTerminalUpdates : List OrderTerminalUpdate) :
    Recorded (merge previous rest wsFills wsTerminalUpdates).1 (fills ++ wsFills)
      (updates ++ wsTerminalUpdates) := by
  have hfills : ∀ more : List FillEvent,
      Recorded (more.foldl takeFill ⟨previous, 0, 0, 0⟩).state (fills ++ more) updates := by
    intro more
    induction more using List.reverseRecOn with
    | nil => rwa [List.append_nil]
    | append_singleton more fill ih =>
      rw [List.foldl_append, ← List.append_assoc]
      exact recorded_takeFill ih fill
  unfold merge
  induction wsTerminalUpdates using List.reverseRecOn with
  | nil =>
    rw [List.append_nil]
    exact hfills wsFills
  | append_singleton more terminal ih =>
    rw [← List.append_assoc]
    dsimp only at ih ⊢
    rw [List.foldl_append]
    exact recorded_takeTerminal ih terminal

/-- However the events are split, the last state holds all of them. -/
theorem recorded_mergeChunks {previous : ReconcileState} (h : Recorded previous fills updates)
    (rest : List OpenOrderView) (chunk : List StreamEvent) (chunks : List (List StreamEvent)) :
    Recorded (mergeChunks previous rest chunk chunks).1
      (fills ++ fillsOf (chunk :: chunks).flatten)
      (updates ++ updatesOf (chunk :: chunks).flatten) := by
  induction chunks generalizing previous fills updates chunk with
  | nil =>
    rw [List.flatten_singleton]
    exact recorded_merge h rest _ _
  | cons next chunks ih =>
    have hrest := ih (recorded_merge h rest (fillsOf chunk) (updatesOf chunk)) next
    unfold fillsOf updatesOf at hrest ⊢
    rw [List.flatten_cons, List.filterMap_append, List.filterMap_append, ← List.append_assoc,
      ← List.append_assoc]
    exact hrest

end Recorded

section Law

/-- Whether an event is of an order: by the order id where both have one, else by the client
order id. -/
def names (event order : OrderIds) : Bool :=
  match truthy event.orderId, truthy order.orderId with
  | some id, some id' => id = id'
  | _, _ =>
    (truthy event.clientOrderId).isSome && truthy event.clientOrderId = truthy order.clientOrderId

def HasId (order : OrderIds) : Prop :=
  truthy order.orderId ≠ none ∨ truthy order.clientOrderId ≠ none

instance (order : OrderIds) : Decidable (HasId order) := inferInstanceAs (Decidable (_ ∨ _))

theorem orderKey_cases (ids : OrderIds) :
    (∃ id, truthy ids.orderId = some id ∧ orderKey ids = "oid:" ++ id) ∨
      (truthy ids.orderId = none ∧ ∃ id, truthy ids.clientOrderId = some id ∧
        orderKey ids = "cid:" ++ id) ∨
      (truthy ids.orderId = none ∧ truthy ids.clientOrderId = none ∧ orderKey ids = "unknown") := by
  unfold orderKey
  cases truthy ids.orderId with
  | some id => exact .inl ⟨id, rfl, rfl⟩
  | none =>
    cases truthy ids.clientOrderId with
    | some id => exact .inr (.inl ⟨rfl, id, rfl, rfl⟩)
    | none => exact .inr (.inr ⟨rfl, rfl, rfl⟩)

/-- Events under the key of an order are of that order. -/
theorem names_of_orderKey {event order : OrderIds} (hid : HasId order)
    (h : orderKey event = orderKey order) : names event order = true := by
  have hmark {a b : String} (hab : a.toList.head? ≠ b.toList.head?) : a ≠ b := by
    rintro rfl
    exact hab rfl
  have hhead (front id : String) (hfront : front.toList ≠ []) :
      (front ++ id).toList.head? = front.toList.head? := by
    rw [String.toList_append, List.head?_append_of_ne_nil _ hfront]
  have hoid := fun id => hhead "oid:" id (by decide)
  have hcid := fun id => hhead "cid:" id (by decide)
  rcases orderKey_cases order with ⟨id, horder, hkey⟩ | ⟨horder, id, hclient, hkey⟩ | hnone
  · rcases orderKey_cases event with ⟨id', hevent, hkey'⟩ | ⟨-, id', -, hkey'⟩ | ⟨-, -, hkey'⟩
    · rw [hkey, hkey', String.append_right_inj] at h
      simp [names, horder, hevent, h]
    · exact absurd (hkey'.symm.trans (h.trans hkey)) (hmark (by rw [hoid, hcid]; decide))
    · exact absurd (hkey'.symm.trans (h.trans hkey)) (hmark (by rw [hoid]; decide))
  · rcases orderKey_cases event with
      ⟨id', -, hkey'⟩ | ⟨hevent, id', hclient', hkey'⟩ | ⟨-, -, hkey'⟩
    · exact absurd (hkey'.symm.trans (h.trans hkey)) (hmark (by rw [hoid, hcid]; decide))
    · rw [hkey, hkey', String.append_right_inj] at h
      simp [names, hevent, hclient, hclient', h]
    · exact absurd (hkey'.symm.trans (h.trans hkey)) (hmark (by rw [hcid]; decide))
  · rcases hid with hid | hid
    · exact absurd hnone.1 hid
    · exact absurd hnone.2.1 hid

/-- The ids of the orders that the open orders and the events tell of. -/
def ordersSeen (rest : List OpenOrderView) (events : List StreamEvent) : List OrderIds :=
  rest.map OpenOrderView.ids ++ (fillsOf events).map FillEvent.ids ++
    (updatesOf events).map OrderTerminalUpdate.ids

structure MergeLaw (rest : List OpenOrderView) (events : List StreamEvent) : Prop where
  split : ∀ chunk chunks, Repeats events (chunk :: chunks).flatten →
    (mergeChunks {} rest chunk chunks).2.openOrders = (mergeEvents {} rest events).2.openOrders ∧
    (mergeChunks {} rest chunk chunks).2.fills = (mergeEvents {} rest events).2.fills
  filled : ∀ order ∈ ordersSeen rest events, HasId order →
    filledQty (mergeEvents {} rest events).1 (orderKey order) =
      quantityOf (fun fill => names fill.ids order = true) (distinctFills (fillsOf events))
  closed : ∀ order ∈ (mergeEvents {} rest events).2.openOrders, ∀ update ∈ updatesOf events,
    closing update = true → names update.ids order.ids = false

/-- The fills of an order under another key than its own come to nothing, and a listed order that
an update closes has a closing update last under its own key. -/
structure FiledTogether (rest : List OpenOrderView) (events : List StreamEvent) : Prop where
  fills : ∀ order ∈ ordersSeen rest events, HasId order →
    quantityOf (fun fill => names fill.ids order = true ∧ orderKey fill.ids ≠ orderKey order)
      (distinctFills (fillsOf events)) = 0
  updates : ∀ entry ∈ openByKey rest, ∀ update ∈ updatesOf events,
    closing update = true → names update.ids entry.2.ids = true →
    ∃ last ∈ updatesOf events, orderKey last.ids = entry.1 ∧ closing last = true ∧
      ∀ other ∈ updatesOf events, orderKey other.ids = entry.1 → other.ts ≤ last.ts

theorem quantityOf_split {p q : FillEvent → Prop} [DecidablePred p] [DecidablePred q]
    (h : ∀ fill, q fill → p fill) (fills : List FillEvent) :
    quantityOf p fills = quantityOf q fills + quantityOf (fun fill => p fill ∧ ¬ q fill) fills := by
  induction fills using List.reverseRecOn with
  | nil => simp [quantityOf]
  | append_singleton fills fill ih =>
    rw [quantityOf_concat, quantityOf_concat, quantityOf_concat, ih]
    by_cases hq : q fill
    · simp only [h fill hq, hq, if_true, not_true, and_false, if_false]
      ring
    · simp only [hq, if_false, not_false_iff, and_true]
      ring

theorem mem_popClosed (updates : List (String × OrderTerminalUpdate))
    (orders : List (String × OpenOrderView)) (entry : String × OpenOrderView) :
    entry ∈ popClosed updates orders ↔
      entry ∈ orders ∧ ∀ update ∈ updates, closing update.2 = true → entry.1 ≠ update.1 := by
  unfold popClosed
  induction updates generalizing orders with
  | nil => simp
  | cons update updates ih =>
    rw [List.foldl_cons, ih, List.forall_mem_cons]
    by_cases hclosing : closing update.2 = true
    · simp only [hclosing, if_true, List.mem_filter, decide_eq_true_eq, true_imp_iff, and_assoc]
    · simp [hclosing]

variable {rest : List OpenOrderView} {events : List StreamEvent}

theorem recorded_mergeEvents (rest : List OpenOrderView) (events : List StreamEvent) :
    Recorded (mergeEvents {} rest events).1 (fillsOf events) (updatesOf events) :=
  recorded_merge recorded_empty rest _ _

/-- The orders of a result are the listed ones that no last update closes. -/
theorem mem_openOrders (order : OpenOrderView) :
    order ∈ (mergeEvents {} rest events).2.openOrders ↔ ∃ entry ∈ openByKey rest,
      entry.2 = order ∧ ∀ update, get? (latestUpdates (updatesOf events)) entry.1 = some update →
        closing update = false := by
  have hupdates := (recorded_mergeEvents rest events).updates
  unfold mergeEvents merge at hupdates ⊢
  dsimp only at hupdates ⊢
  rw [hupdates, sorted, List.mem_insertionSort, List.mem_map]
  simp only [mem_popClosed, and_assoc]
  refine exists_congr fun entry => and_congr_right fun _ => ?_
  rw [and_comm]
  refine and_congr_right fun _ => ⟨fun h update hlast => ?_, fun h update hin hclosing heq => ?_⟩
  · by_contra hclosing
    exact h (entry.1, update) ((mem_latest_iff _ _).mpr hlast) (by simpa using hclosing) rfl
  · have hlast := (mem_latest_iff _ _).mp hin
    rw [← heq] at hlast
    rw [h _ hlast] at hclosing
    cases hclosing

/-- A result is that of the last state, however it was reached. -/
theorem mergeChunks_result (previous : ReconcileState) (rest : List OpenOrderView)
    (chunk : List StreamEvent) (chunks : List (List StreamEvent)) :
    let last := mergeChunks previous rest chunk chunks
    last.2.openOrders = sorted openOrderKey
        ((popClosed last.1.terminalUpdates (openByKey rest)).map Prod.snd) ∧
      last.2.fills = sorted fillKey (last.1.fills.map Prod.snd) := by
  induction chunks generalizing previous chunk with
  | nil => exact ⟨rfl, rfl⟩
  | cons next chunks ih => exact ih _ next

/-- Neither the split nor a repeat shows in open orders and fills. -/
theorem split_insensitive
    (hdistinct : ∀ u ∈ updatesOf events, ∀ v ∈ updatesOf events,
      orderKey u.ids = orderKey v.ids → u.ts = v.ts → u = v)
    {chunk : List StreamEvent} {chunks : List (List StreamEvent)}
    (h : Repeats events (chunk :: chunks).flatten) :
    (mergeChunks {} rest chunk chunks).2.openOrders = (mergeEvents {} rest events).2.openOrders ∧
      (mergeChunks {} rest chunk chunks).2.fills = (mergeEvents {} rest events).2.fills := by
  have hsplit := recorded_mergeChunks recorded_empty rest chunk chunks
  have honce := recorded_mergeChunks recorded_empty rest events []
  rw [List.nil_append, List.nil_append] at hsplit honce
  rw [List.flatten_singleton] at honce
  have hfills : distinctFills (fillsOf (chunk :: chunks).flatten) =
      distinctFills (fillsOf events) :=
    (h.filterMap StreamEvent.fill?).firsts_eq _
  have hupdates : latestUpdates (updatesOf (chunk :: chunks).flatten) =
      latestUpdates (updatesOf events) :=
    (h.filterMap StreamEvent.terminal?).latest_eq _ _ hdistinct
  have hlast := mergeChunks_result {} rest chunk chunks
  have hresult := mergeChunks_result {} rest events []
  dsimp only at hlast hresult
  rw [hsplit.table, hsplit.updates, hfills, hupdates] at hlast
  rw [honce.table, honce.updates] at hresult
  exact ⟨hlast.1.trans hresult.1.symm, hlast.2.trans hresult.2.symm⟩

/-- An order under one key is filled by all its fills exactly if those under another key come to
nothing. -/
theorem filled_iff {order : OrderIds} (hid : HasId order) :
    filledQty (mergeEvents {} rest events).1 (orderKey order) =
        quantityOf (fun fill => names fill.ids order = true) (distinctFills (fillsOf events)) ↔
      quantityOf (fun fill => names fill.ids order = true ∧ orderKey fill.ids ≠ orderKey order)
        (distinctFills (fillsOf events)) = 0 := by
  have hnamed (fill : FillEvent) (hkey : orderKey fill.ids = orderKey order) :=
    names_of_orderKey hid hkey
  have hsplit := quantityOf_split hnamed (distinctFills (fillsOf events))
  rw [(recorded_mergeEvents rest events).filled, hsplit]
  exact left_eq_add

/-- The merge is right about every order exactly where the events of each are filed together. -/
theorem merge_law_iff (rest : List OpenOrderView) (events : List StreamEvent)
    (hdistinct : ∀ u ∈ updatesOf events, ∀ v ∈ updatesOf events,
      orderKey u.ids = orderKey v.ids → u.ts = v.ts → u = v) :
    MergeLaw rest events ↔ FiledTogether rest events := by
  constructor
  · intro law
    refine ⟨fun order hseen hid => (filled_iff hid).mp (law.filled order hseen hid), ?_⟩
    intro entry hentry update hupdate hclosing hnames
    by_contra hnone
    push Not at hnone
    have hopen : entry.2 ∈ (mergeEvents {} rest events).2.openOrders := by
      refine (mem_openOrders _).mpr ⟨entry, hentry, rfl, fun last hlast => ?_⟩
      obtain ⟨hin, hkey, hlatest⟩ := latest_some _ _ hlast
      by_contra hlastClosing
      obtain ⟨other, hother, hotherKey, hlater⟩ := hnone last hin hkey (by simpa using hlastClosing)
      exact hlater.not_ge (hlatest other hother hotherKey)
    rw [law.closed _ hopen update hupdate hclosing] at hnames
    cases hnames
  · intro filed
    refine ⟨fun chunk chunks h => split_insensitive hdistinct h,
      fun order hseen hid => (filled_iff hid).mpr (filed.fills order hseen hid), ?_⟩
    intro order hopen update hupdate hclosing
    obtain ⟨entry, hentry, rfl, hlast⟩ := (mem_openOrders order).mp hopen
    by_contra hnames
    obtain ⟨last, hin, hkey, hlastClosing, hlatest⟩ :=
      filed.updates entry hentry update hupdate hclosing (by simpa using hnames)
    obtain ⟨found, hfound⟩ :=
      latest_of_mem (fun update => orderKey update.ids) OrderTerminalUpdate.ts hin
    obtain ⟨hfoundIn, hfoundKey, hfoundLatest⟩ := latest_some _ _ hfound
    have hsame := hdistinct last hin found hfoundIn hfoundKey.symm
      (le_antisymm (hfoundLatest last hin rfl) (hlatest found hfoundIn (hfoundKey.trans hkey)))
    rw [hkey, ← hsame] at hfound
    rw [hlast last hfound] at hlastClosing
    cases hlastClosing

def listedOrder : OpenOrderView := ⟨"1", some "first", "BTCTRY", "OPEN", 1, 1, none⟩

def cancelBy (orderId clientOrderId : Option String) : StreamEvent :=
  .terminal ⟨orderId, clientOrderId, some "BTCTRY", "CANCELED", "channel452", 452, 5⟩

def halfFill : StreamEvent :=
  .fill ⟨"fill-1", some "1", some "first", "BTCTRY", 100, 1 / 2, 423, 4⟩

theorem cancel_by_order_id_kept : MergeLaw [listedOrder] [halfFill, cancelBy (some "1") none] := by
  refine (merge_law_iff _ _ (by decide +kernel)).mpr ⟨?_, ?_⟩
  · decide +kernel
  · decide +kernel

/-- A cancellation by the client order id leaves the order open. -/
theorem cancel_by_client_id_lost :
    (mergeEvents {} [listedOrder] [cancelBy none (some "first")]).2.openOrders = [listedOrder] ∧
      ¬ MergeLaw [listedOrder] [cancelBy none (some "first")] := by
  have hopen : (mergeEvents {} [listedOrder] [cancelBy none (some "first")]).2.openOrders =
      [listedOrder] := by decide +kernel
  refine ⟨hopen, fun law => ?_⟩
  have hclosed := law.closed listedOrder (by rw [hopen]; exact List.mem_singleton_self _)
  revert hclosed
  decide +kernel

end Law

end ReconcilerMerge
