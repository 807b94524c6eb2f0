import Btcbot.Ledger
import Mathlib.Algebra.BigOperators.Group.List.Basic

/-!
# Conservation in the FIFO ledger

The sell loop is the match step of the lot library with three roundings, of
which only the one of the realized profit is not exact. Every symbol's ledger is
then tied to the fills folded so far by four equations, kept by each event.
-/
namespace LedgerConservation

open PyData Money Ledger Grid
open Fifo (Lots Sale Remains total value matchHead book)

/-- The lot library at the ledger's own lots. -/
def lotView : Lots PositionLot ℚ where
  qty lot := lot.qty
  cost lot := lot.unitCost
  put lot qty := { lot with qty := qty }
  qty_put _ _ := rfl
  cost_put _ _ := rfl
  put_put _ _ _ := rfl

def saleOf (s : SellState) : Sale PositionLot ℚ := ⟨s.remaining, s.lots, s.realized⟩

def LotsOnGrid (policy : MoneyMathPolicy) (lots : List PositionLot) : Prop :=
  ∀ lot ∈ lots, QtyGrid policy lot.qty

section SellLoop

variable {policy : MoneyMathPolicy} {price : ℚ}

theorem sellGuard_iff (s : SellState) : sellGuard s = true ↔ 0 < s.remaining ∧ s.lots ≠ [] := by
  simp [sellGuard]

theorem sellBody_sale (price : ℚ) (s : SellState) (hr : QtyGrid policy s.remaining)
    (hl : LotsOnGrid policy s.lots) :
    (sellBody policy price s).remaining = (matchHead lotView price (saleOf s)).remaining ∧
      (sellBody policy price s).lots = (matchHead lotView price (saleOf s)).lots := by
  unfold sellBody matchHead saleOf
  cases hs : s.lots with
  | nil => exact ⟨rfl, hs⟩
  | cons lot rest =>
    rw [hs] at hl
    have hlot : QtyGrid policy lot.qty := hl lot List.mem_cons_self
    have hmatched : QtyGrid policy (min s.remaining lot.qty) := hr.min hlot
    simp only [lotView, roundQty_of_grid (hr.sub hmatched), roundQty_of_grid (hlot.sub hmatched)]
    exact ⟨trivial, rfl⟩

/-- Only the realized profit is rounded away, by less than one quote unit. -/
theorem sellBody_gain (policy : MoneyMathPolicy) (price : ℚ) (s : SellState) :
    |(sellBody policy price s).realized -
      (matchHead lotView price (saleOf s)).gain| < quantum policy.quotePrecision := by
  unfold sellBody matchHead saleOf
  cases hs : s.lots with
  | nil => simpa using quantum_pos policy.quotePrecision
  | cons lot rest => exact abs_roundQuote_sub_lt _ policy

theorem sellBody_grid (s : SellState) (hl : LotsOnGrid policy s.lots) :
    LotsOnGrid policy (sellBody policy price s).lots := by
  unfold sellBody
  cases hs : s.lots with
  | nil =>
    rw [hs] at hl
    simpa [hs] using hl
  | cons lot rest =>
    rw [hs] at hl
    have hrest : LotsOnGrid policy rest := fun l hmem => hl l (List.mem_cons_of_mem lot hmem)
    simp only
    split
    · exact hrest
    · intro l hmem
      rcases List.mem_cons.mp hmem with rfl | hmem
      · exact roundQty_grid _ policy
      · exact hrest l hmem

/-- The lots still to be matched, while there is something to sell. -/
def sellSize (s : SellState) : ℕ := if 0 < s.remaining then s.lots.length else 0

theorem sellBody_size (s : SellState) (h : sellGuard s = true) :
    sellSize (sellBody policy price s) < sellSize s := by
  obtain ⟨hr, hl⟩ := (sellGuard_iff s).mp h
  obtain ⟨lot, rest, hs⟩ := List.exists_cons_of_ne_nil hl
  have hsize : sellSize s = rest.length + 1 := by simp [sellSize, hr, hs]
  rw [hsize, sellSize]
  split
  · next hpos =>
    -- something is left to sell, so the front lot was matched whole
    have hwhole : min s.remaining lot.qty = lot.qty := by
      rcases min_choice s.remaining lot.qty with he | he
      · simp [sellBody, hs, he] at hpos
      · exact he
    simp [sellBody, hs, hwhole]
  · omega

theorem sellLoop_guard (s : SellState) : sellGuard (sellLoop policy price s) = false := by
  refine WhileLoop.guard_run sellSize sellBody_size s.lots.length s ?_
  unfold sellSize
  split <;> omega

/-- What a sell keeps while it closes lots of `opened`, after `n` matches. -/
structure SellInv (policy : MoneyMathPolicy) (price : ℚ) (opened : List PositionLot)
    (balance start : ℚ) (n : ℕ) (s : SellState) : Prop where
  nonneg : 0 ≤ s.remaining
  grid : QtyGrid policy s.remaining
  lotsGrid : LotsOnGrid policy s.lots
  balanced : total lotView s.lots - s.remaining = balance
  remains : Remains lotView opened s.lots
  drift : |book lotView price (saleOf s) - start| ≤ n * quantum policy.quotePrecision

theorem SellInv.step {opened : List PositionLot} {balance start : ℚ} (n : ℕ) (s : SellState)
    (hg : sellGuard s = true) (h : SellInv policy price opened balance start n s) :
    SellInv policy price opened balance start (n + 1) (sellBody policy price s) := by
  obtain ⟨hpos, -⟩ := (sellGuard_iff s).mp hg
  obtain ⟨hrem, hlots⟩ := sellBody_sale price s h.grid h.lotsGrid
  have hgain := sellBody_gain policy price s
  refine ⟨?_, ?_, sellBody_grid s h.lotsGrid, ?_, ?_, ?_⟩
  · rw [hrem]
    exact Fifo.matchHead_remaining_nonneg lotView price _ h.nonneg
  · unfold sellBody
    split
    · exact h.grid
    · exact roundQty_grid _ policy
  · rw [hrem, hlots, Fifo.matchHead_balance]
    exact h.balanced
  · rw [hlots]
    exact Fifo.matchHead_remains lotView price _ opened hpos h.remains
  · have hbook := Fifo.matchHead_book lotView price (saleOf s)
    have hmoved : book lotView price (saleOf (sellBody policy price s)) -
        book lotView price (saleOf s) = (sellBody policy price s).realized -
          (matchHead lotView price (saleOf s)).gain := by
      rw [← hbook]
      simp only [book, saleOf, hrem, hlots]
      ring
    have hsum := abs_add_le (book lotView price (saleOf (sellBody policy price s)) -
      book lotView price (saleOf s)) (book lotView price (saleOf s) - start)
    rw [hmoved, ← hmoved, sub_add_sub_cancel] at hsum
    rw [← hmoved] at hgain
    have hdrift := h.drift
    push_cast
    linarith

theorem sellLoop_inv {opened : List PositionLot} {balance start : ℚ} {s : SellState}
    (h : SellInv policy price opened balance start 0 s) :
    SellInv policy price opened balance start (sellRounds policy price s)
      (sellLoop policy price s) := by
  have hrun := WhileLoop.run_induct (fun n t hg ht => SellInv.step n t hg ht) s.lots.length 0 s h
  rwa [Nat.zero_add] at hrun

end SellLoop

section Folded

variable (policyResolver : Option (String → MoneyMathPolicy)) (symbol : String)

/-- The lot a buy fill of the symbol opens. -/
def buyLot (event : LedgerEvent) : Option PositionLot :=
  match trade (policyFor policyResolver symbol) event with
  | some (.buy lot) => if event.symbol = symbol then some lot else none
  | _ => none

/-- The rounded quantity and price of a sell fill of the symbol. -/
def sellFill (event : LedgerEvent) : Option (ℚ × ℚ) :=
  match trade (policyFor policyResolver symbol) event with
  | some (.sell qty price) => if event.symbol = symbol then some (qty, price) else none
  | _ => none

def adjustment (event : LedgerEvent) : Option ℚ :=
  match event.type with
  | .adjustment => if event.symbol = symbol then event.fee else none
  | _ => none

def buyLots (events : List LedgerEvent) : List PositionLot :=
  events.filterMap (buyLot policyResolver symbol)

def sellFills (events : List LedgerEvent) : List (ℚ × ℚ) :=
  events.filterMap (sellFill policyResolver symbol)

def soldQty (events : List LedgerEvent) : ℚ :=
  ((sellFills policyResolver symbol events).map fun fill => fill.1).sum

def proceeds (events : List LedgerEvent) : ℚ :=
  ((sellFills policyResolver symbol events).map fun fill => fill.1 * fill.2).sum

def adjustments (events : List LedgerEvent) : ℚ := (events.filterMap (adjustment symbol)).sum

/-- The lot matches one event makes on the symbol. -/
def eventMatches (state : LedgerState) (event : LedgerEvent) : ℕ :=
  match sellFill policyResolver symbol event with
  | some (qty, price) =>
    let current := state.ledger symbol
    sellRounds (policyFor policyResolver symbol) price ⟨qty, current.lots, current.realizedPnl⟩
  | none => 0

/-- The lot matches of a whole fold, up to the event that raises. -/
def lotMatches (state : LedgerState) : List LedgerEvent → ℕ
  | [] => 0
  | event :: events =>
    eventMatches policyResolver symbol state event +
      match applyEvent policyResolver state event with
      | .ok next => lotMatches next events
      | .error _ => 0

/-- What one symbol's ledger owes to the events folded so far. -/
structure Conserved (events : List LedgerEvent) (matched : ℕ) (ledger : SymbolLedger) :
    Prop where
  grid : LotsOnGrid (policyFor policyResolver symbol) ledger.lots
  qty : total lotView ledger.lots =
    total lotView (buyLots policyResolver symbol events) - soldQty policyResolver symbol events
  remains : Remains lotView (buyLots policyResolver symbol events) ledger.lots
  drift : |ledger.realizedPnl - value lotView ledger.lots -
      (proceeds policyResolver symbol events -
        value lotView (buyLots policyResolver symbol events) + adjustments symbol events)| ≤
    matched * quantum (policyFor policyResolver symbol).quotePrecision

theorem Conserved.empty : Conserved policyResolver symbol [] 0 { symbol } where
  grid _ h := absurd h List.not_mem_nil
  qty := by simp [buyLots, soldQty, sellFills]
  remains := Remains.refl lotView []
  drift := by simp [buyLots, proceeds, sellFills, adjustments]

variable {policyResolver symbol}

theorem Conserved.buy {events : List LedgerEvent} {matched : ℕ} {ledger : SymbolLedger}
    (h : Conserved policyResolver symbol events matched ledger) {event : LedgerEvent}
    {lot : PositionLot} (hbuy : buyLot policyResolver symbol event = some lot)
    (hsell : sellFill policyResolver symbol event = none)
    (hadj : adjustment symbol event = none)
    (hlot : QtyGrid (policyFor policyResolver symbol) lot.qty) :
    Conserved policyResolver symbol (events ++ [event]) matched
      { ledger with lots := ledger.lots ++ [lot] } where
  grid l hl := by
    rcases List.mem_append.mp hl with hl | hl
    · exact h.grid l hl
    · rwa [List.mem_singleton.mp hl]
  qty := by
    have hq := h.qty
    simp [buyLots, soldQty, sellFills, hbuy, hsell] at hq ⊢
    linarith
  remains := by simpa [buyLots, hbuy] using h.remains.open lot
  drift := by
    have hd := h.drift
    simp [buyLots, proceeds, sellFills, adjustments, hbuy, hsell, hadj] at hd ⊢
    convert hd using 2
    ring

theorem Conserved.sell {events : List LedgerEvent} {matched : ℕ} {ledger : SymbolLedger}
    (h : Conserved policyResolver symbol events matched ledger) {event : LedgerEvent}
    {qty price : ℚ} (hsell : sellFill policyResolver symbol event = some (qty, price))
    (hbuy : buyLot policyResolver symbol event = none) (hadj : adjustment symbol event = none)
    (hqty : QtyGrid (policyFor policyResolver symbol) qty) (hnonneg : 0 ≤ qty)
    (hsold : (sellLoop (policyFor policyResolver symbol) price
      ⟨qty, ledger.lots, ledger.realizedPnl⟩).remaining ≤ 0) :
    Conserved policyResolver symbol (events ++ [event])
      (matched + sellRounds (policyFor policyResolver symbol) price
        ⟨qty, ledger.lots, ledger.realizedPnl⟩)
      { ledger with
        lots := (sellLoop (policyFor policyResolver symbol) price
          ⟨qty, ledger.lots, ledger.realizedPnl⟩).lots
        realizedPnl := (sellLoop (policyFor policyResolver symbol) price
          ⟨qty, ledger.lots, ledger.realizedPnl⟩).realized } := by
  have hstart : SellInv (policyFor policyResolver symbol) price
      (buyLots policyResolver symbol events) (total lotView ledger.lots - qty)
      (book lotView price (saleOf ⟨qty, ledger.lots, ledger.realizedPnl⟩)) 0
      ⟨qty, ledger.lots, ledger.realizedPnl⟩ :=
    ⟨hnonneg, hqty, h.grid, rfl, h.remains, by simp⟩
  have hend := sellLoop_inv hstart
  set sold := sellLoop (policyFor policyResolver symbol) price
    ⟨qty, ledger.lots, ledger.realizedPnl⟩
  have hzero : sold.remaining = 0 := le_antisymm hsold hend.nonneg
  refine ⟨hend.lotsGrid, ?_, ?_, ?_⟩
  · have hb := hend.balanced
    have hq := h.qty
    rw [hzero, sub_zero] at hb
    simp [buyLots, soldQty, sellFills, hbuy, hsell] at hq ⊢
    linarith
  · simpa [buyLots, hbuy] using hend.remains
  · have hloop := hend.drift
    have hd := h.drift
    simp only [book, saleOf, hzero, mul_zero, add_zero] at hloop
    simp [buyLots, proceeds, sellFills, adjustments, hbuy, hsell, hadj] at hd ⊢
    have hsum := abs_add_le
      (sold.realized - value lotView sold.lots -
        (ledger.realizedPnl - value lotView ledger.lots + price * qty))
      (ledger.realizedPnl - value lotView ledger.lots -
        (proceeds policyResolver symbol events -
          value lotView (buyLots policyResolver symbol events) + adjustments symbol events))
    simp only [buyLots, proceeds, sellFills, adjustments] at hsum
    rw [add_mul]
    refine le_trans (le_of_eq ?_) (hsum.trans ((add_le_add hloop hd).trans (le_of_eq ?_)))
    · congr 1
      ring
    · ring

theorem Conserved.adjust {events : List LedgerEvent} {matched : ℕ} {ledger : SymbolLedger}
    (h : Conserved policyResolver symbol events matched ledger) {event : LedgerEvent} {fee : ℚ}
    (hadj : adjustment symbol event = some fee)
    (hbuy : buyLot policyResolver symbol event = none)
    (hsell : sellFill policyResolver symbol event = none) :
    Conserved policyResolver symbol (events ++ [event]) matched
      { ledger with realizedPnl := ledger.realizedPnl + fee } where
  grid := h.grid
  qty := by simpa [buyLots, soldQty, sellFills, hbuy, hsell] using h.qty
  remains := by simpa [buyLots, hbuy] using h.remains
  drift := by
    have hd := h.drift
    simp [buyLots, proceeds, sellFills, adjustments, hbuy, hsell, hadj] at hd ⊢
    convert hd using 2
    ring

theorem Conserved.other {events : List LedgerEvent} {matched : ℕ} {ledger : SymbolLedger}
    (h : Conserved policyResolver symbol events matched ledger) {event : LedgerEvent}
    (hadj : adjustment symbol event = none) (hbuy : buyLot policyResolver symbol event = none)
    (hsell : sellFill policyResolver symbol event = none) :
    Conserved policyResolver symbol (events ++ [event]) matched ledger where
  grid := h.grid
  qty := by simpa [buyLots, soldQty, sellFills, hbuy, hsell] using h.qty
  remains := by simpa [buyLots, hbuy] using h.remains
  drift := by
    simpa [buyLots, proceeds, sellFills, adjustments, hbuy, hsell, hadj] using h.drift

theorem Conserved.renamed {events : List LedgerEvent} {matched : ℕ} {ledger : SymbolLedger}
    (h : Conserved policyResolver symbol events matched ledger) (name : String) :
    Conserved policyResolver symbol events matched { ledger with symbol := name } :=
  ⟨h.grid, h.qty, h.remains, h.drift⟩

/-- A fill opens a lot, sells from the lots or is ignored; the rest may adjust the profit. -/
theorem Conserved.event {events : List LedgerEvent} {matched : ℕ} {state next : LedgerState}
    (h : Conserved policyResolver symbol events matched (state.ledger symbol))
    {event : LedgerEvent} (hok : applyEvent policyResolver state event = .ok next)
    (hnonneg : event.type = .fill → 0 ≤ event.qty) :
    Conserved policyResolver symbol (events ++ [event])
      (matched + eventMatches policyResolver symbol state event) (next.ledger symbol) := by
  obtain ⟨filled, fees, hfill, -, rfl⟩ := applyEvent_ok hok
  rw [ledger_insert]
  by_cases hs : event.symbol = symbol
  · subst hs
    rw [if_pos rfl]
    refine Conserved.renamed ?_ _
    cases ht : trade (policyFor policyResolver event.symbol) event with
    | none =>
      have hbuy : buyLot policyResolver event.symbol event = none := by simp [buyLot, ht]
      have hsell : sellFill policyResolver event.symbol event = none := by simp [sellFill, ht]
      rw [applyFill_none ht, Except.ok.injEq] at hfill
      subst hfill
      simp only [eventMatches, hsell, Nat.add_zero, applyAdjustment]
      split
      · next fee hty hf => exact h.adjust (by simp [adjustment, hty, hf]) hbuy hsell
      · next hno =>
        refine h.other ?_ hbuy hsell
        simp only [adjustment]
        split
        · next hty =>
          rw [if_true]
          exact Option.eq_none_iff_forall_ne_some.mpr fun fee hf => hno fee hty hf
        · rfl
    | some t =>
      have hty := trade_fill ht
      have hadj : adjustment event.symbol event = none := by simp [adjustment, hty]
      have hsame : applyAdjustment event filled = filled := by simp [applyAdjustment, hty]
      rw [hsame]
      cases t with
      | buy lot =>
        have hbuy : buyLot policyResolver event.symbol event = some lot := by simp [buyLot, ht]
        have hsell : sellFill policyResolver event.symbol event = none := by simp [sellFill, ht]
        rw [applyFill_buy ht, Except.ok.injEq] at hfill
        subst hfill
        simp only [eventMatches, hsell, Nat.add_zero]
        refine h.buy hbuy hsell hadj ?_
        rw [(trade_buy_lot ht).2.1]
        exact roundQty_grid _ _
      | sell qty price =>
        have hbuy : buyLot policyResolver event.symbol event = none := by simp [buyLot, ht]
        have hsell : sellFill policyResolver event.symbol event = some (qty, price) := by
          simp [sellFill, ht]
        have hqty := trade_sell_qty ht
        rw [applyFill_sell ht] at hfill
        split at hfill
        · cases hfill
        · next hsold =>
          cases hfill
          simp only [eventMatches, hsell]
          refine h.sell hsell hbuy hadj ?_ ?_ (not_lt.mp hsold)
          · rw [hqty]
            exact roundQty_grid _ _
          · rw [hqty]
            exact roundQty_nonneg _ (hnonneg hty)
  · have hbuy : buyLot policyResolver symbol event = none := by
      simp only [buyLot]
      split <;> simp [hs]
    have hsell : sellFill policyResolver symbol event = none := by
      simp only [sellFill]
      split <;> simp [hs]
    have hadj : adjustment symbol event = none := by
      simp only [adjustment]
      split <;> simp [hs]
    simp only [if_neg hs, eventMatches, hsell, Nat.add_zero]
    exact h.other hadj hbuy hsell

theorem Conserved.fold {state final : LedgerState} {events : List LedgerEvent} {matched : ℕ}
    {more : List LedgerEvent}
    (h : Conserved policyResolver symbol events matched (state.ledger symbol))
    (hok : more.foldlM (applyEvent policyResolver) state = .ok final)
    (hnonneg : ∀ event ∈ more, event.type = .fill → 0 ≤ event.qty) :
    Conserved policyResolver symbol (events ++ more)
      (matched + lotMatches policyResolver symbol state more) (final.ledger symbol) := by
  induction more generalizing state events matched with
  | nil =>
    cases hok
    simpa [lotMatches] using h
  | cons event more ih =>
    rw [List.foldlM_cons] at hok
    obtain ⟨next, hstep, hok⟩ := Runs.bind_ok hok
    have hnext := ih (h.event hstep (hnonneg event List.mem_cons_self)) hok
      (fun e he => hnonneg e (List.mem_cons_of_mem event he))
    simpa [lotMatches, hstep, Nat.add_assoc] using hnext

end Folded

/-- The unit of the default policy. -/
theorem quantum_default : quantum defaultMoneyPolicy.quotePrecision = 1 / 10 ^ 8 := rfl

/-- From the empty state, every symbol's lots and profit account for its fills: what is held
is what was bought less what was sold, the lots are a reduced suffix of the buys in fold
order, and profit drifts from the exact books by at most one quote unit a match. -/
theorem apply_events_conserves (policyResolver : Option (String → MoneyMathPolicy))
    (events : List LedgerEvent) (final : LedgerState)
    (hok : applyEvents {} events policyResolver = .ok final)
    (hnonneg : ∀ event ∈ events, event.type = .fill → 0 ≤ event.qty) (symbol : String) :
    total lotView (final.ledger symbol).lots =
        total lotView (buyLots policyResolver symbol (sortEvents events)) -
          soldQty policyResolver symbol (sortEvents events) ∧
      Remains lotView (buyLots policyResolver symbol (sortEvents events))
        (final.ledger symbol).lots ∧
      |(final.ledger symbol).realizedPnl - value lotView (final.ledger symbol).lots -
          (proceeds policyResolver symbol (sortEvents events) -
            value lotView (buyLots policyResolver symbol (sortEvents events)) +
            adjustments symbol (sortEvents events))| ≤
        lotMatches policyResolver symbol {} (sortEvents events) *
          quantum (policyFor policyResolver symbol).quotePrecision ∧
      (policyResolver = none →
        quantum (policyFor policyResolver symbol).quotePrecision = 1 / 10 ^ 8) := by
  have hsorted : ∀ event ∈ sortEvents events, event.type = .fill → 0 ≤ event.qty :=
    fun event he => hnonneg event ((sortEvents_perm events).mem_iff.mp he)
  have hstart : Conserved policyResolver symbol [] 0 (LedgerState.ledger {} symbol) := by
    have he : LedgerState.ledger {} symbol = { symbol } := by simp [LedgerState.ledger]
    rw [he]
    exact Conserved.empty policyResolver symbol
  have hfold := hstart.fold hok hsorted
  rw [List.nil_append, Nat.zero_add] at hfold
  refine ⟨hfold.qty, hfold.remains, hfold.drift, ?_⟩
  rintro rfl
  exact quantum_default

/-- Two buys and a sell across both lots, inserted out of order. -/
def sampleEvents : List LedgerEvent :=
  let filled (n : ℕ) (side : String) (qty price : ℚ) : LedgerEvent :=
    ⟨s!"fill:{n}", ⟨n, true⟩, "BTCTRY", .fill, some side, qty, some price, none, none, none, none,
      none⟩
  [filled 3 "SELL" (3 / 2) 150, filled 1 "BUY" 1 100, filled 2 "BUY" 1 120]

theorem apply_events_conserves_sample :
    ∃ final, applyEvents {} sampleEvents none = .ok final ∧
      (final.ledger "BTCTRY").realizedPnl = 65 ∧
      total lotView (final.ledger "BTCTRY").lots =
        total lotView (buyLots none "BTCTRY" (sortEvents sampleEvents)) -
          soldQty none "BTCTRY" (sortEvents sampleEvents) ∧
      Remains lotView (buyLots none "BTCTRY" (sortEvents sampleEvents))
        (final.ledger "BTCTRY").lots := by
  have hnonneg : ∀ event ∈ sampleEvents, event.type = .fill → 0 ≤ event.qty := by
    decide +kernel
  have hpnl : (applyEvents {} sampleEvents none).toOption.map
      (fun final => (final.ledger "BTCTRY").realizedPnl) = some 65 := by decide +kernel
  cases hok : applyEvents {} sampleEvents none with
  | error e => simp [hok, Except.toOption] at hpnl
  | ok final =>
    have hall := apply_events_conserves none sampleEvents final hok hnonneg "BTCTRY"
    simp only [hok, Except.toOption, Option.map_some, Option.some.injEq] at hpnl
    exact ⟨final, rfl, hpnl, hall.1, hall.2.1⟩

end LedgerConservation
