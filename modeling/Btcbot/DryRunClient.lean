import Btcbot.DecimalText
import Btcbot.Grid
import Btcbot.Runs
import Btcbot.Stage3Intent

/-!
# The dry run exchange client

Orders are kept in a list of the open ones; an order that is cancelled, or filled as
soon as it is placed, leaves the list. The id of a new order is made of the length of
the list, so that it is new as long as no order has left, and a second order's soon
after one has.
-/
namespace DryRunClient

open Grid PyData
open Stage3Store (Order OrderSide)
open Stage3Intent (OrderSnapshot)

structure TradeFill where
  fillId : Option String
  orderId : String
  symbol : String
  side : OrderSide
  price : ℚ
  qty : ℚ
  fee : ℚ
  feeCurrency : String
  ts : DateTime
  deriving DecidableEq, Repr

inductive ClientError where
  | missingOrderbook (symbol : String)
  | unsupportedSide (side : String)
  | orderNotFound (orderId : String)
  deriving DecidableEq, Repr

/-- The quotes the client was made with, the numbers its generator draws and the time. -/
structure Market where
  orderbooks : Dict (ℚ × ℚ)
  draws : ℕ → ℚ
  clock : ℕ → DateTime

structure Client where
  openOrders : List Order := []
  fills : List TradeFill := []
  drawn : ℕ := 0
  readings : ℕ := 0
  /-- Every order of the run, in the order they were placed. -/
  placed : List Order := []

section Code

variable (market : Market)

def getOrderbook (symbol : String) : Except ClientError (ℚ × ℚ) :=
  match market.orderbooks[symbol]? with
  | none => .error (.missingOrderbook symbol)
  | some quote => .ok quote

def snapshotOf (order : Order) : OrderSnapshot where
  orderId := order.orderId
  clientOrderId := order.clientOrderId
  pairSymbol := normalizeSymbol order.symbol
  side := some order.side
  price := order.price
  quantity := order.quantity
  status := .open
  timestamp := trunc ((order.createdAt.micros : ℚ) / 1000)
  updateTime := some (trunc ((order.updatedAt.micros : ℚ) / 1000))
  statusRaw := none

def getOrder (orderId : String) (c : Client) : Except ClientError OrderSnapshot :=
  match c.openOrders.find? fun order => order.orderId = orderId with
  | some order => .ok (snapshotOf order)
  | none => .error (.orderNotFound orderId)

/-- Whether an open order has the id; the first that has is taken out. -/
def cancelOrder (orderId : String) (c : Client) : Bool × Client :=
  (c.openOrders.any fun order => order.orderId = orderId,
    { c with openOrders := c.openOrders.eraseP fun order => order.orderId = orderId })

def cancelOrderByClientOrderId (clientOrderId : String) (c : Client) : Bool × Client :=
  match c.openOrders.find? fun order => order.clientOrderId = some clientOrderId with
  | some order => cancelOrder order.orderId c
  | none => (false, c)

def fillOf (order : Order) (ts : DateTime) : TradeFill where
  fillId := some ("fill-" ++ order.orderId)
  orderId := order.orderId
  symbol := order.symbol
  side := order.side
  price := order.price
  qty := order.quantity
  fee := order.price * order.quantity * (1 / 10 ^ 3)
  feeCurrency := "TRY"
  ts := ts

def fill (order : Order) (c : Client) : Client :=
  (cancelOrder order.orderId { c with
    fills := c.fills ++ [fillOf order (market.clock c.readings)]
    readings := c.readings + 1 }).2

def maybeFill (order : Order) (c : Client) : Except ClientError Unit × Client :=
  match getOrderbook market order.symbol with
  | .error e => (.error e, c)
  | .ok (bid, ask) =>
    let mark := (bid + ask) / 2
    let shouldFill := (order.side = .buy ∧ mark ≤ order.price) ∨
      (order.side = .sell ∧ order.price ≤ mark)
    if shouldFill then (.ok (), fill market order c)
    else
      let draw := market.draws c.drawn
      let c := { c with drawn := c.drawn + 1 }
      if 1 / 5 < draw then (.ok (), c) else (.ok (), fill market order c)

/-- The order a client makes next. -/
def newOrder (symbol : String) (side : OrderSide) (price quantity : ℚ)
    (clientOrderId : Option String) (c : Client) : Order where
  orderId := "dry-" ++ toString (c.openOrders.length + 1)
  clientOrderId := clientOrderId
  symbol := normalizeSymbol symbol
  side := side
  price := price
  quantity := quantity
  status := .open
  createdAt := market.clock c.readings
  updatedAt := market.clock (c.readings + 1)

def placeLimitOrder (symbol : String) (side : OrderSide) (price quantity : ℚ)
    (clientOrderId : Option String) (c : Client) : Except ClientError Order × Client :=
  let order := newOrder market symbol side price quantity clientOrderId c
  let (filled, c) := maybeFill market order { c with
    openOrders := c.openOrders ++ [order]
    readings := c.readings + 2
    placed := c.placed ++ [order] }
  (filled.map fun _ => order, c)

def sideOf (side : String) : Except ClientError OrderSide :=
  if side.toLower = "buy" then .ok .buy
  else if side.toLower = "sell" then .ok .sell
  else .error (.unsupportedSide side.toLower)

/-- With the exchange order id of the acknowledgement. -/
def submitLimitOrder (symbol side : String) (price qty : ℚ) (clientOrderId : String) (c : Client) :
    Except ClientError String × Client :=
  match sideOf side with
  | .error e => (.error e, c)
  | .ok side =>
    let (placed, c) := placeLimitOrder market symbol side price qty (some clientOrderId) c
    (placed.map Order.orderId, c)

inductive Call where
  | placeLimitOrder (symbol : String) (side : OrderSide) (price quantity : ℚ)
      (clientOrderId : Option String)
  | submitLimitOrder (symbol side : String) (price qty : ℚ) (clientOrderId : String)
  | cancelOrder (orderId : String)
  | cancelOrderByClientOrderId (clientOrderId : String)

def step (c : Client) : Call → Client
  | .placeLimitOrder symbol side price quantity clientOrderId =>
    (placeLimitOrder market symbol side price quantity clientOrderId c).2
  | .submitLimitOrder symbol side price qty clientOrderId =>
    (submitLimitOrder market symbol side price qty clientOrderId c).2
  | .cancelOrder orderId => (cancelOrder orderId c).2
  | .cancelOrderByClientOrderId clientOrderId => (cancelOrderByClientOrderId clientOrderId c).2

end Code

section Steps

variable {market : Market}

/-- What a call that places an order makes of the client. -/
structure Places (c next : Client) (order : Order) : Prop where
  orderId : order.orderId = "dry-" ++ toString (c.openOrders.length + 1)
  placed : next.placed = c.placed ++ [order]
  openOrders : next.openOrders.Sublist (c.openOrders ++ [order])
  fills : next.fills = c.fills ∨ ∃ ts, next.fills = c.fills ++ [fillOf order ts]

theorem placeLimitOrder_places (symbol : String) (side : OrderSide) (price quantity : ℚ)
    (clientOrderId : Option String) (c : Client) :
    Places c (placeLimitOrder market symbol side price quantity clientOrderId c).2
      (newOrder market symbol side price quantity clientOrderId c) := by
  have hfilled (drawn : ℕ) : Places c
      (fill market (newOrder market symbol side price quantity clientOrderId c) { c with
        openOrders := c.openOrders ++ [newOrder market symbol side price quantity clientOrderId c]
        drawn := drawn
        readings := c.readings + 2
        placed := c.placed ++ [newOrder market symbol side price quantity clientOrderId c] })
      (newOrder market symbol side price quantity clientOrderId c) :=
    ⟨rfl, rfl, List.eraseP_sublist, .inr ⟨_, rfl⟩⟩
  unfold placeLimitOrder maybeFill
  dsimp only
  split
  · exact ⟨rfl, rfl, List.Sublist.refl _, .inl rfl⟩
  · split
    · exact hfilled c.drawn
    · split
      · exact ⟨rfl, rfl, List.Sublist.refl _, .inl rfl⟩
      · exact hfilled (c.drawn + 1)

/-- The call places an order. -/
def Call.places : Call → Bool
  | .placeLimitOrder .. => true
  | .submitLimitOrder _ side .. => (sideOf side).toBool
  | _ => false

/-- A call places one order, or takes some out of the list at most. -/
theorem step_cases (c : Client) (call : Call) :
    (call.places = true ∧ ∃ order, Places c (step market c call) order) ∨
    (call.places = false ∧ (step market c call).placed = c.placed ∧
      (step market c call).fills = c.fills ∧
      (step market c call).openOrders.Sublist c.openOrders) := by
  cases call with
  | placeLimitOrder symbol side price quantity clientOrderId =>
    exact .inl ⟨rfl, _, placeLimitOrder_places symbol side price quantity clientOrderId c⟩
  | submitLimitOrder symbol side price qty clientOrderId =>
    dsimp only [step, submitLimitOrder, Call.places]
    cases sideOf side with
    | error e => exact .inr ⟨rfl, rfl, rfl, List.Sublist.refl _⟩
    | ok side =>
      exact .inl ⟨rfl, _, placeLimitOrder_places symbol side price qty (some clientOrderId) c⟩
  | cancelOrder orderId => exact .inr ⟨rfl, rfl, rfl, List.eraseP_sublist⟩
  | cancelOrderByClientOrderId clientOrderId =>
    refine .inr ⟨rfl, ?_⟩
    dsimp only [step, cancelOrderByClientOrderId]
    split
    · exact ⟨rfl, rfl, List.eraseP_sublist⟩
    · exact ⟨rfl, rfl, List.Sublist.refl _⟩

end Steps

section Ids

def orderIds (c : Client) : List String := c.placed.map Order.orderId

def fillIds (c : Client) : List (Option String) := c.fills.map TradeFill.fillId

/-- The ids a client gives while every order it placed is open. -/
def numbered (n : ℕ) : List String := (List.range n).map fun i => "dry-" ++ toString (i + 1)

theorem numberedId_injective {m n : ℕ}
    (h : "dry-" ++ toString (m + 1) = "dry-" ++ toString (n + 1)) : m = n :=
  Nat.succ_injective (DecimalText.toString_injective (String.append_right_inj "dry-" |>.mp h))

theorem numbered_succ (n : ℕ) : numbered (n + 1) = numbered n ++ ["dry-" ++ toString (n + 1)] := by
  simp [numbered, List.range_succ]

theorem mem_numbered {m n : ℕ} : "dry-" ++ toString (m + 1) ∈ numbered n ↔ m < n := by
  constructor
  · intro h
    obtain ⟨i, hi, heq⟩ := List.mem_map.mp h
    exact numberedId_injective heq ▸ List.mem_range.mp hi
  · exact fun h => List.mem_map.mpr ⟨m, List.mem_range.mpr h, rfl⟩

/-- Orders and fills of the run have ids of their own, and an id stands for the order it was
given to: a query or a cancellation by it finds that order if it is open, and no other. -/
structure IdsUnique (c : Client) : Prop where
  orders : (orderIds c).Nodup
  fills : (fillIds c).Nodup
  queried : ∀ order ∈ c.placed, getOrder order.orderId c =
    if order ∈ c.openOrders then .ok (snapshotOf order) else .error (.orderNotFound order.orderId)
  cancelled : ∀ order ∈ c.placed, cancelOrder order.orderId c =
    (decide (order ∈ c.openOrders), { c with openOrders := c.openOrders.erase order })

/-- What every run keeps: open orders and fills are of placed orders, and as long as the ids
differ they are numbered in turn. -/
structure Kept (c : Client) : Prop where
  openOrders : c.openOrders.Sublist c.placed
  fills : (fillIds c).Sublist ((orderIds c).map fun orderId => some ("fill-" ++ orderId))
  numbered : (orderIds c).Nodup → orderIds c = numbered c.placed.length

theorem kept_init : Kept {} where
  openOrders := List.Sublist.refl _
  fills := List.Sublist.refl _
  numbered _ := rfl

theorem Kept.fills_nodup {c : Client} (h : Kept c) (hids : (orderIds c).Nodup) :
    (fillIds c).Nodup :=
  (hids.map fun _ _ heq => String.append_right_inj "fill-" |>.mp (Option.some.inj heq)).sublist
    h.fills

/-- The open order of an id that is given once is the one it was given to. -/
theorem Kept.id_eq {c : Client} (h : Kept c) (hids : (orderIds c).Nodup) {order found : Order}
    (horder : order ∈ c.placed) (hfound : found ∈ c.openOrders)
    (hid : found.orderId = order.orderId) : found = order :=
  List.inj_on_of_nodup_map hids (h.openOrders.subset hfound) horder hid

theorem eraseP_congr {α : Type} {p q : α → Bool} {l : List α} (h : ∀ a ∈ l, p a = q a) :
    l.eraseP p = l.eraseP q := by
  induction l with
  | nil => rfl
  | cons a l ih =>
    rw [List.eraseP_cons, List.eraseP_cons, h a List.mem_cons_self,
      ih fun b hb => h b (List.mem_cons_of_mem a hb)]

theorem Kept.idsUnique_iff {c : Client} (h : Kept c) : IdsUnique c ↔ (orderIds c).Nodup := by
  refine ⟨IdsUnique.orders, fun hids => ⟨hids, h.fills_nodup hids, fun order horder => ?_,
    fun order horder => ?_⟩⟩
  · unfold getOrder
    split
    · next found hfind =>
      have hid := List.find?_some hfind
      obtain rfl := h.id_eq hids horder (List.mem_of_find?_eq_some hfind) (by simpa using hid)
      rw [if_pos (List.mem_of_find?_eq_some hfind)]
    · next hnone =>
      have hclosed : order ∉ c.openOrders := fun hin => by
        simpa using List.find?_eq_none.mp hnone order hin
      rw [if_neg hclosed]
  · have hsame : ∀ found ∈ c.openOrders,
        decide (found.orderId = order.orderId) = (found == order) := by
      intro found hfound
      by_cases heq : found = order
      · simp [heq]
      · have hid : found.orderId ≠ order.orderId := fun hid =>
          heq (h.id_eq hids horder hfound hid)
        simp [heq, hid]
    have hany : (c.openOrders.any fun found => found.orderId = order.orderId) =
        decide (order ∈ c.openOrders) := by
      rw [Bool.eq_iff_iff, List.any_eq_true, decide_eq_true_eq]
      constructor
      · rintro ⟨found, hfound, hid⟩
        rw [hsame found hfound, beq_iff_eq] at hid
        exact hid ▸ hfound
      · exact fun hin => ⟨order, hin, by simp⟩
    rw [cancelOrder, hany, eraseP_congr hsame, List.erase_eq_eraseP']

/-- An order placed next is given a new id exactly if no order has left the list. -/
theorem Kept.new_iff {c : Client} (h : Kept c) (hids : (orderIds c).Nodup) :
    "dry-" ++ toString (c.openOrders.length + 1) ∉ orderIds c ↔ c.openOrders = c.placed := by
  rw [h.numbered hids, mem_numbered, not_lt]
  constructor
  · exact fun hle => h.openOrders.eq_of_length_le hle
  · exact fun heq => heq ▸ le_rfl

theorem Kept.step {c : Client} (h : Kept c) (market : Market) (call : Call) :
    Kept (step market c call) := by
  rcases @step_cases market c call with ⟨-, order, hplaces⟩ | ⟨-, hplaced, hfills, hopen⟩
  · have horderIds : orderIds (DryRunClient.step market c call) =
        orderIds c ++ [order.orderId] := by
      rw [orderIds, orderIds, hplaces.placed, List.map_append, List.map_singleton]
    refine ⟨?_, ?_, fun hids => ?_⟩
    · rw [hplaces.placed]
      exact hplaces.openOrders.trans (h.openOrders.append_right _)
    · rw [horderIds, List.map_append]
      rcases hplaces.fills with hfills | ⟨ts, hfills⟩
      · rw [fillIds, hfills]
        exact h.fills.trans (List.sublist_append_left _ _)
      · rw [fillIds, hfills, List.map_append]
        exact h.fills.append (List.Sublist.refl _)
    · rw [horderIds] at hids ⊢
      obtain ⟨hold, -, hnew⟩ := List.nodup_append.mp hids
      have hfresh : order.orderId ∉ orderIds c := fun hin =>
        hnew _ hin _ (List.mem_singleton_self _) rfl
      rw [hplaces.orderId] at hfresh ⊢
      rw [(h.new_iff hold).mp hfresh, hplaces.placed, h.numbered hold, List.length_append,
        List.length_singleton, numbered_succ]
  · refine ⟨hplaced ▸ hopen.trans h.openOrders, ?_, fun hids => ?_⟩
    · rw [fillIds, orderIds, hfills, hplaced]
      exact h.fills
    · rw [orderIds, hplaced] at hids ⊢
      exact h.numbered hids

/-- No order has been cancelled or filled when the call places one. -/
def NoneLeft (c : Client) (call : Call) : Prop := call.places = true → c.openOrders = c.placed

theorem Kept.step_iff {c : Client} (h : Kept c) (market : Market) (call : Call) :
    IdsUnique (DryRunClient.step market c call) ↔ IdsUnique c ∧ NoneLeft c call := by
  rw [(h.step market call).idsUnique_iff, h.idsUnique_iff]
  rcases @step_cases market c call with ⟨hcall, order, hplaces⟩ | ⟨hcall, hplaced, -⟩
  · have hnodup : (orderIds (DryRunClient.step market c call)).Nodup ↔
        order.orderId ∉ orderIds c ∧ (orderIds c).Nodup := by
      rw [orderIds, hplaces.placed, List.map_append, List.map_singleton, ← List.concat_eq_append,
        List.nodup_concat]
      rfl
    rw [hnodup, hplaces.orderId, and_comm]
    refine and_congr_right fun hids => (h.new_iff hids).trans ?_
    exact ⟨fun heq _ => heq, fun hnone => hnone hcall⟩
  · rw [orderIds, hplaced]
    exact (and_iff_left fun hyes => absurd (hcall.symm.trans hyes) Bool.false_ne_true).symm

/-- The ids of a run are unique exactly if it places no order after one has been cancelled or
filled. -/
theorem run_unique_iff (market : Market) (calls : List Call) :
    IdsUnique (Runs.run (DryRunClient.step market) {} calls) ↔
      Runs.Meets (DryRunClient.step market) NoneLeft {} calls := by
  rw [Runs.run_iff_meets (fun c call h => Kept.step h market call)
    (fun c call h => Kept.step_iff h market call) {} calls kept_init]
  exact and_iff_right (kept_init.idsUnique_iff.mpr List.nodup_nil)

/-- One pair at 100, where a draw fills nothing that does not cross. -/
def oneBook : Market where
  orderbooks := (∅ : Dict (ℚ × ℚ)).insert "BTCTRY" (99, 101)
  draws _ := 1 / 2
  clock _ := ⟨0, true⟩

/-- An order placed after one was cancelled has its id, and so have two that were filled at once
each other's, and their fills. -/
theorem ids_reused :
    ¬ IdsUnique (Runs.run (DryRunClient.step oneBook) {}
      [.placeLimitOrder "BTC_TRY" .buy 90 1 none, .cancelOrder "dry-1",
        .placeLimitOrder "BTC_TRY" .buy 95 1 none]) ∧
    ¬ IdsUnique (Runs.run (DryRunClient.step oneBook) {}
      [.placeLimitOrder "BTC_TRY" .buy 101 1 none, .placeLimitOrder "BTC_TRY" .buy 102 1 none]) := by
  constructor
  · have hids : orderIds (Runs.run (DryRunClient.step oneBook) {}
        [.placeLimitOrder "BTC_TRY" .buy 90 1 none, .cancelOrder "dry-1",
          .placeLimitOrder "BTC_TRY" .buy 95 1 none]) = ["dry-1", "dry-1"] := by decide +kernel
    intro h
    have hnodup := h.orders
    rw [hids] at hnodup
    simp at hnodup
  · have hids : fillIds (Runs.run (DryRunClient.step oneBook) {}
        [.placeLimitOrder "BTC_TRY" .buy 101 1 none,
          .placeLimitOrder "BTC_TRY" .buy 102 1 none]) =
        [some "fill-dry-1", some "fill-dry-1"] := by decide +kernel
    intro h
    have hnodup := h.fills
    rw [hids] at hnodup
    simp at hnodup

end Ids

end DryRunClient
