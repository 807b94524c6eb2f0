import Btcbot.AccountingOrder
import Btcbot.Fifo
import Mathlib.Algebra.Order.BigOperators.Group.List

/-!
# Equity of the accounting ledger

The sell loop is the sale of the lot library with each gain rounded. Beside the
replay stands an exact FIFO book of the same events; the reported equity differs
from cash, treasury and holdings at their marks by what the events of symbols
paid out, and by the rounding of the gains.
-/
namespace AccountingLedger

open PyData Money DecimalText Grid
open Capital (quantizeMoney MoneyGrid quantizeMoney_grid quantizeMoney_of_grid)
open Fifo (Lots total value sell)

def lotView : Lots PositionLot ℚ where
  qty lot := lot.qty
  cost lot := lot.unitCostTry
  put lot qty := { lot with qty := qty }
  qty_put _ _ := rfl
  cost_put _ _ := rfl
  put_put _ _ _ := rfl

def WholeQty (qty : ℚ) : Prop := QtyGrid defaultMoneyPolicy qty

theorem quantizeQty_of_whole {qty : ℚ} (h : WholeQty qty) : quantizeQty qty = qty :=
  roundQty_of_grid h

theorem quantizeQty_whole (qty : ℚ) : WholeQty (quantizeQty qty) :=
  roundQty_grid qty defaultMoneyPolicy

theorem fillQty_nonneg (event : AccountingLedgerEvent) : 0 ≤ event.fillQty :=
  roundQty_nonneg _ (abs_nonneg _)

/-- Lots hold whole quantities, none of them negative. -/
def LotsSound (lots : List PositionLot) : Prop := ∀ lot ∈ lots, WholeQty lot.qty ∧ 0 ≤ lot.qty

theorem LotsSound.tail {lot : PositionLot} {rest : List PositionLot}
    (h : LotsSound (lot :: rest)) : LotsSound rest :=
  fun other hother => h other (List.mem_cons_of_mem lot hother)

section SellLoop

theorem sellLoop_stop (price : ℚ) {s : SellState} (h : sellGuard s = false) (fuel : ℕ) :
    WhileLoop.run sellGuard (sellBody price) fuel s = s ∧
      WhileLoop.rounds sellGuard (sellBody price) fuel s = 0 := by
  cases fuel with
  | zero => exact ⟨rfl, rfl⟩
  | succ fuel => simp [WhileLoop.run, WhileLoop.rounds, h]

/-- Quantities leave the loop exact; only the gains are rounded. -/
theorem sellLoop_sell (price : ℚ) (lots : List PositionLot) (remaining realized : ℚ)
    (hwhole : WholeQty remaining) (hlots : LotsSound lots) :
    sellLoop price ⟨remaining, lots, realized⟩ =
        ⟨(sell lotView price remaining lots).remaining, (sell lotView price remaining lots).lots,
          realized + ((sell lotView price remaining lots).gains.map quantizeMoney).sum⟩ ∧
      sellRounds price ⟨remaining, lots, realized⟩ =
        (sell lotView price remaining lots).gains.length := by
  unfold sellLoop sellRounds
  induction lots generalizing remaining realized with
  | nil => simp [sell, WhileLoop.run, WhileLoop.rounds]
  | cons lot rest ih =>
    by_cases hpos : 0 < remaining
    · have hlot : WholeQty lot.qty := (hlots lot List.mem_cons_self).1
      have hmatched : WholeQty (min remaining lot.qty) := QtyGrid.min hwhole hlot
      have hleft : quantizeQty (lot.qty - min remaining lot.qty) =
          lot.qty - min remaining lot.qty := quantizeQty_of_whole (QtyGrid.sub hlot hmatched)
      have hrest : quantizeQty (remaining - min remaining lot.qty) =
          remaining - min remaining lot.qty := quantizeQty_of_whole (QtyGrid.sub hwhole hmatched)
      have hguard : sellGuard ⟨remaining, lot :: rest, realized⟩ = true := by simp [sellGuard, hpos]
      have hbody : sellBody price ⟨remaining, lot :: rest, realized⟩ =
          ⟨remaining - min remaining lot.qty,
            if lot.qty - min remaining lot.qty ≤ 0 then rest
              else { lot with qty := lot.qty - min remaining lot.qty } :: rest,
            realized + quantizeMoney ((price - lot.unitCostTry) * min remaining lot.qty)⟩ := by
        simp only [sellBody, hleft, hrest]
      simp only [List.length_cons, WhileLoop.run, WhileLoop.rounds, hguard, if_true, hbody]
      unfold sell
      rw [if_neg (not_le.mpr hpos)]
      by_cases hout : lot.qty - min remaining lot.qty ≤ 0
      · have hnext := ih (remaining - min remaining lot.qty)
          (realized + quantizeMoney ((price - lot.unitCostTry) * min remaining lot.qty))
          (QtyGrid.sub hwhole hmatched) hlots.tail
        rw [if_pos hout, hnext.1, hnext.2]
        simp [lotView, hout, add_assoc]
      · -- the front lot covers all that was left to sell
        have hall : min remaining lot.qty = remaining := by
          rcases min_choice remaining lot.qty with he | he
          · exact he
          · rw [he, sub_self] at hout
            exact absurd (le_refl 0) hout
        rw [hall] at hout
        rw [hall, if_neg hout]
        have hguard : sellGuard ⟨remaining - remaining,
            { lot with qty := lot.qty - remaining } :: rest,
            realized + quantizeMoney ((price - lot.unitCostTry) * remaining)⟩ = false := by
          simp [sellGuard]
        have hstop := sellLoop_stop price hguard rest.length
        rw [hstop.1, hstop.2]
        simp only [lotView, hall, if_neg hout]
        simp
    · have hguard : sellGuard ⟨remaining, lot :: rest, realized⟩ = false := by
        simp [sellGuard, hpos]
      have hstop := sellLoop_stop price hguard (lot :: rest).length
      rw [hstop.1, hstop.2]
      simp [sell, not_lt.mp hpos]

end SellLoop

section Exact

/-- A fill of a symbol. -/
def AccountingLedgerEvent.isFill (event : AccountingLedgerEvent) : Bool :=
  decide (event.type = .fillRecorded ∧ event.symbolName ≠ "")

/-- The gain of each match of a fill, and the lots it leaves. -/
def fillLots (event : AccountingLedgerEvent) (lots : List PositionLot) :
    List ℚ × List PositionLot :=
  if event.sideName = "BUY" then
    ([], lots ++ [⟨event.fillQty, quantizeMoney event.price, event.canonicalTs⟩])
  else if event.sideName = "SELL" then
    let closed := sell lotView event.price event.fillQty lots
    (closed.gains, closed.lots)
  else ([], lots)

/-- The lots of every symbol, and the exact gains so far. -/
structure FifoBook where
  held : String → List PositionLot := fun _ => []
  gains : List ℚ := []

def fifoStep (book : FifoBook) (event : AccountingLedgerEvent) : FifoBook :=
  if event.isFill then
    let filled := fillLots event (book.held event.symbolName)
    ⟨Function.update book.held event.symbolName filled.2, book.gains ++ filled.1⟩
  else book

def fifo (events : List AccountingLedgerEvent) : FifoBook := events.foldl fifoStep {}

/-- What an event of a symbol pays out: buys at their rounded cost, less sales, and charges. -/
def outlay (event : AccountingLedgerEvent) : ℚ :=
  if event.symbolName = "" then 0
  else
    match event.type with
    | .fillRecorded =>
      if event.sideName = "BUY" then quantizeMoney event.price * event.fillQty
      else if event.sideName = "SELL" then -(event.price * event.fillQty)
      else 0
    | .feeRecorded | .fundingCostRecorded | .slippageRecorded => quantizeMoney |event.amount|
    | .transfer | .rebalance | .withdrawal => 0

def netOutlay (events : List AccountingLedgerEvent) : ℚ := (events.map outlay).sum

def symbolNames (events : List AccountingLedgerEvent) : List String :=
  ((events.map AccountingLedgerEvent.symbolName).filter fun name => name ≠ "").dedup

/-- What the lots of a symbol would gain if sold at its mark. -/
def paperGain (marks : Dict ℚ) (symbol : String) (lots : List PositionLot) : ℚ :=
  (lots.map fun lot => (marks.getD symbol 0 - lot.unitCostTry) * lot.qty).sum

/-- How far rounding moves a gain. -/
def slip (gain : ℚ) : ℚ := quantizeMoney gain - gain

/-- The rounding of every match, and of the paper gain of every symbol. -/
def roundingDrift (events : List AccountingLedgerEvent) (marks : Dict ℚ) : ℚ :=
  ((fifo events).gains.map slip).sum +
    ((symbolNames events).map fun name => slip (paperGain marks name ((fifo events).held name))).sum

/-- One quote unit for each fill, match and symbol. -/
def allowance (events : List AccountingLedgerEvent) : ℚ :=
  ((events.filter AccountingLedgerEvent.isFill).length + (fifo events).gains.length +
    (symbolNames events).length : ℕ) / 10 ^ 8

end Exact

section Booking

/-- What a symbol's totals are worth beside its lots. -/
def SymbolState.book (state : SymbolState) : ℚ :=
  state.realizedPnlTry - value lotView state.lots - state.feesTry - state.fundingCostTry -
    state.slippageTry

structure SymbolState.OnGrid (state : SymbolState) : Prop where
  realized : MoneyGrid state.realizedPnlTry
  fees : MoneyGrid state.feesTry
  funding : MoneyGrid state.fundingCostTry
  slippage : MoneyGrid state.slippageTry

theorem SymbolState.OnGrid.empty : SymbolState.OnGrid {} :=
  ⟨OnGrid.zero _, OnGrid.zero _, OnGrid.zero _, OnGrid.zero _⟩

theorem SymbolState.OnGrid.quantized_eq {state : SymbolState} (h : state.OnGrid) :
    state.quantized = state := by
  simp only [SymbolState.quantized, quantizeMoney_of_grid h.realized,
    quantizeMoney_of_grid h.fees, quantizeMoney_of_grid h.funding,
    quantizeMoney_of_grid h.slippage]

theorem quantized_sum_grid (l : List ℚ) : MoneyGrid (l.map quantizeMoney).sum := by
  refine OnGrid.sum fun x hx => ?_
  obtain ⟨y, -, rfl⟩ := List.mem_map.mp hx
  exact quantizeMoney_grid y

theorem slip_sum (gains : List ℚ) :
    (gains.map slip).sum = (gains.map quantizeMoney).sum - gains.sum := by
  induction gains with
  | nil => simp
  | cons gain gains ih =>
    simp only [List.map_cons, List.sum_cons, ih, slip]
    ring

/-- What one booking does to the state of its symbol. -/
structure Booked (event : AccountingLedgerEvent) (before after : SymbolState) : Prop where
  grid : after.OnGrid
  sound : LotsSound after.lots
  lots : after.lots = if event.isFill then (fillLots event before.lots).2 else before.lots
  book : after.book = before.book +
    ((if event.isFill then (fillLots event before.lots).1 else []).map slip).sum - outlay event

theorem sell_sound (price qty : ℚ) (lots : List PositionLot) (hqty : WholeQty qty)
    (hlots : LotsSound lots) : LotsSound (sell lotView price qty lots).lots := by
  induction lots generalizing qty with
  | nil => exact hlots
  | cons lot rest ih =>
    have hlot := hlots lot List.mem_cons_self
    have hmatched : WholeQty (min qty lot.qty) := QtyGrid.min hqty hlot.1
    unfold sell
    split
    · exact hlots
    · simp only
      split
      · exact ih _ (QtyGrid.sub hqty hmatched) hlots.tail
      · intro other hother
        rcases List.mem_cons.mp hother with rfl | hother
        · exact ⟨QtyGrid.sub hlot.1 hmatched, sub_nonneg.mpr (min_le_right _ _)⟩
        · exact hlots.tail other hother

theorem Booked.buy {event : AccountingLedgerEvent} {state : SymbolState} (hgrid : state.OnGrid)
    (hsound : LotsSound state.lots) (hfill : event.isFill = true) (hbuy : event.sideName = "BUY") :
    Booked event state { state with
      lots := state.lots ++
        [⟨event.fillQty, quantizeMoney event.price, event.canonicalTs⟩] } := by
  obtain ⟨htype, hname⟩ := of_decide_eq_true hfill
  refine ⟨⟨hgrid.realized, hgrid.fees, hgrid.funding, hgrid.slippage⟩, ?_, ?_, ?_⟩
  · intro lot hlot
    rcases List.mem_append.mp hlot with hlot | hlot
    · exact hsound lot hlot
    · rw [List.mem_singleton.mp hlot]
      exact ⟨quantizeQty_whole _, fillQty_nonneg event⟩
  · simp [hfill, fillLots, hbuy]
  · simp only [hfill, if_true, fillLots, hbuy, outlay, htype, if_neg hname, SymbolState.book,
      Fifo.value_append, Fifo.value_cons, Fifo.value_nil, lotView]
    simp only [List.map_nil, List.sum_nil]
    ring

theorem Booked.sell {event : AccountingLedgerEvent} {state : SymbolState} (hgrid : state.OnGrid)
    (hsound : LotsSound state.lots) (hfill : event.isFill = true)
    (hsell : event.sideName = "SELL")
    (hdone : ¬ 0 < (sellLoop event.price
      ⟨event.fillQty, state.lots, state.realizedPnlTry⟩).remaining) :
    Booked event state { state with
      lots := (sellLoop event.price ⟨event.fillQty, state.lots, state.realizedPnlTry⟩).lots
      realizedPnlTry :=
        (sellLoop event.price ⟨event.fillQty, state.lots, state.realizedPnlTry⟩).realized } := by
  obtain ⟨htype, hname⟩ := of_decide_eq_true hfill
  have hfilled : fillLots event state.lots =
      ((Fifo.sell lotView event.price event.fillQty state.lots).gains,
        (Fifo.sell lotView event.price event.fillQty state.lots).lots) := by
    simp [fillLots, hsell]
  have houtlay : outlay event = -(event.price * event.fillQty) := by
    simp [outlay, htype, hname, hsell]
  have hloop := (sellLoop_sell event.price state.lots event.fillQty state.realizedPnlTry
    (quantizeQty_whole _) hsound).1
  have hbook := Fifo.sell_book lotView event.price event.fillQty state.lots
  rw [hloop] at hdone ⊢
  have hzero : (Fifo.sell lotView event.price event.fillQty state.lots).remaining = 0 :=
    le_antisymm (not_lt.mp hdone)
      (Fifo.sell_remaining_nonneg lotView event.price _ state.lots (fillQty_nonneg event))
  rw [hzero, mul_zero, add_zero] at hbook
  refine ⟨⟨?_, hgrid.fees, hgrid.funding, hgrid.slippage⟩, ?_, ?_, ?_⟩
  · exact hgrid.realized.add (quantized_sum_grid _)
  · exact sell_sound _ _ _ (quantizeQty_whole _) hsound
  · rw [hfill, if_pos rfl, hfilled]
  · rw [hfill, if_pos rfl, hfilled, houtlay, slip_sum]
    simp only [SymbolState.book]
    linear_combination hbook

theorem Booked.same {event : AccountingLedgerEvent} {before after : SymbolState}
    (hgrid : after.OnGrid) (hsound : LotsSound before.lots) (hlots : after.lots = before.lots)
    (hkeep : event.isFill = true → event.sideName ≠ "BUY" ∧ event.sideName ≠ "SELL")
    (hbook : after.book = before.book - outlay event) : Booked event before after := by
  refine ⟨hgrid, hlots ▸ hsound, ?_, ?_⟩
  · cases hfill : event.isFill with
    | false => simpa using hlots
    | true =>
      obtain ⟨hbuy, hsell⟩ := hkeep hfill
      simpa [fillLots, hbuy, hsell] using hlots
  · cases hfill : event.isFill with
    | false => simpa using hbook
    | true =>
      obtain ⟨hbuy, hsell⟩ := hkeep hfill
      simpa [fillLots, hbuy, hsell] using hbook

theorem applyFill_booked {event : AccountingLedgerEvent} {books next : Books}
    (hgrid : books.state.OnGrid) (hsound : LotsSound books.state.lots)
    (hfill : event.isFill = true) (h : applyFill event books = .ok next) :
    Booked event books.state next.state := by
  unfold applyFill at h
  by_cases hbuy : event.sideName = "BUY"
  · rw [if_pos hbuy] at h
    obtain rfl := Except.ok.inj h
    exact Booked.buy hgrid hsound hfill hbuy
  · rw [if_neg hbuy] at h
    by_cases hsell : event.sideName = "SELL"
    · rw [if_pos hsell] at h
      simp only at h
      split at h
      · cases h
      · next hdone =>
        obtain rfl := Except.ok.inj h
        exact Booked.sell hgrid hsound hfill hsell hdone
    · rw [if_neg hsell] at h
      obtain rfl := Except.ok.inj h
      obtain ⟨htype, hname⟩ := of_decide_eq_true hfill
      exact Booked.same hgrid hsound rfl (fun _ => ⟨hbuy, hsell⟩)
        (by simp [outlay, htype, hname, hbuy, hsell])

theorem bookEvent_booked {event : AccountingLedgerEvent} {books next : Books}
    (hgrid : books.state.OnGrid) (hsound : LotsSound books.state.lots)
    (hname : event.symbolName ≠ "") (h : bookEvent event books = .ok next) :
    Booked event books.state next.state := by
  have hother (htype : event.type ≠ .fillRecorded) :
      event.isFill = true → event.sideName ≠ "BUY" ∧ event.sideName ≠ "SELL" :=
    fun hfill => absurd (of_decide_eq_true hfill).1 htype
  have hcharge : MoneyGrid (quantizeMoney |event.amount|) := quantizeMoney_grid _
  unfold bookEvent at h
  cases htype : event.type with
  | fillRecorded =>
    simp only [htype, if_neg hname] at h
    exact applyFill_booked hgrid hsound (decide_eq_true ⟨htype, hname⟩) h
  | feeRecorded =>
    simp only [htype] at h
    obtain rfl := Except.ok.inj h
    refine Booked.same ⟨hgrid.realized, hgrid.fees.add hcharge, hgrid.funding, hgrid.slippage⟩
      hsound rfl (hother (by simp [htype])) ?_
    simp only [SymbolState.book, outlay, htype, if_neg hname]
    ring
  | fundingCostRecorded =>
    simp only [htype] at h
    obtain rfl := Except.ok.inj h
    refine Booked.same ⟨hgrid.realized, hgrid.fees, hgrid.funding.add hcharge, hgrid.slippage⟩
      hsound rfl (hother (by simp [htype])) ?_
    simp only [SymbolState.book, outlay, htype, if_neg hname]
    ring
  | slippageRecorded =>
    simp only [htype] at h
    obtain rfl := Except.ok.inj h
    refine Booked.same ⟨hgrid.realized, hgrid.fees, hgrid.funding, hgrid.slippage.add hcharge⟩
      hsound rfl (hother (by simp [htype])) ?_
    simp only [SymbolState.book, outlay, htype, if_neg hname]
    ring
  | transfer | rebalance | withdrawal =>
    simp only [htype] at h
    obtain rfl := Except.ok.inj h
    exact Booked.same hgrid hsound rfl (hother (by simp [htype])) (by simp [outlay, htype])

end Booking

section Replaying

/-- How the replay of the events taken stands beside their exact FIFO book. -/
structure Accounted (taken : List AccountingLedgerEvent) (replay : Replay) : Prop where
  lots : ∀ name, name ≠ "" → (replay.state name).lots = (fifo taken).held name
  sound : ∀ name, LotsSound ((fifo taken).held name)
  grid : ∀ name, (replay.state name).OnGrid
  names : ∀ name, (replay.symbolState[name]?).isSome ↔ name ∈ symbolNames taken
  books : (replay.symbolState.toList.map fun entry => entry.2.book).sum =
    ((fifo taken).gains.map slip).sum - netOutlay taken

theorem fifo_append (taken : List AccountingLedgerEvent) (event : AccountingLedgerEvent) :
    fifo (taken ++ [event]) = fifoStep (fifo taken) event := by
  simp [fifo]

/-- What a further event leaves of the lots: those of its symbol are what its fill leaves. -/
theorem fifo_held (taken : List AccountingLedgerEvent) (event : AccountingLedgerEvent)
    (name : String) :
    (fifo (taken ++ [event])).held name =
      if event.symbolName = name then
        if event.isFill then (fillLots event ((fifo taken).held event.symbolName)).2
        else (fifo taken).held event.symbolName
      else (fifo taken).held name := by
  rw [fifo_append, fifoStep]
  by_cases hsame : event.symbolName = name
  · subst hsame
    cases hfill : event.isFill <;> simp
  · rw [if_neg hsame]
    cases hfill : event.isFill with
    | true => simp [Function.update_of_ne (Ne.symm hsame)]
    | false => simp

theorem fifo_gains (taken : List AccountingLedgerEvent) (event : AccountingLedgerEvent) :
    (fifo (taken ++ [event])).gains = (fifo taken).gains ++
      if event.isFill then (fillLots event ((fifo taken).held event.symbolName)).1 else [] := by
  rw [fifo_append, fifoStep]
  cases hfill : event.isFill <;> simp

/-- A symbol that is not in the table has an empty book. -/
theorem Replay.state_book (replay : Replay) (symbol : String) :
    (replay.symbolState[symbol]?.map SymbolState.book).getD 0 = (replay.state symbol).book := by
  rw [Replay.state, Std.ExtTreeMap.getD_eq_getD_getElem?]
  cases replay.symbolState[symbol]? with
  | none => simp [SymbolState.book]
  | some state => rfl

theorem netOutlay_append (taken : List AccountingLedgerEvent) (event : AccountingLedgerEvent) :
    netOutlay (taken ++ [event]) = netOutlay taken + outlay event := by
  simp [netOutlay]

theorem mem_symbolNames {events : List AccountingLedgerEvent} {name : String} :
    name ∈ symbolNames events ↔ name ≠ "" ∧ ∃ event ∈ events, event.symbolName = name := by
  simp only [symbolNames, List.mem_dedup, List.mem_filter, List.mem_map, decide_eq_true_eq,
    and_comm]

theorem Accounted.start {replay : Replay} (h : replay.symbolState = ∅) :
    Accounted [] replay where
  lots name _ := by simp [Replay.state, h, fifo]
  sound name := by simp [fifo, LotsSound]
  grid name := by simpa [Replay.state, h] using SymbolState.OnGrid.empty
  names name := by simp [h, symbolNames]
  books := by
    have hempty : replay.symbolState.toList = [] := Std.ExtTreeMap.toList_eq_nil_iff.mpr h
    simp [hempty, fifo, netOutlay]

/-- An event of no symbol leaves the symbols, and their FIFO book, alone. -/
theorem Accounted.step_unnamed {taken : List AccountingLedgerEvent} {event : AccountingLedgerEvent}
    {replay next : Replay} (h : Accounted taken replay) (hname : event.symbolName = "")
    (hstate : next.symbolState = replay.symbolState) : Accounted (taken ++ [event]) next := by
  have hsame : ∀ name, next.state name = replay.state name := fun name => by
    simp [Replay.state, hstate]
  have hfifo : fifo (taken ++ [event]) = fifo taken := by
    simp [fifo_append, fifoStep, AccountingLedgerEvent.isFill, hname]
  refine ⟨?_, ?_, ?_, ?_, ?_⟩
  · intro name hne
    rw [hsame, hfifo, h.lots name hne]
  · rw [hfifo]
    exact h.sound
  · intro name
    rw [hsame]
    exact h.grid name
  · intro name
    rw [hstate, h.names, mem_symbolNames, mem_symbolNames]
    refine and_congr_right fun hne => ?_
    have hnot : event.symbolName ≠ name := hname ▸ Ne.symm hne
    simp [hnot]
  · rw [hstate, hfifo, h.books]
    simp [netOutlay, outlay, hname]

theorem Accounted.step {taken : List AccountingLedgerEvent} {event : AccountingLedgerEvent}
    {replay next : Replay} (h : Accounted taken replay)
    (hok : applyEvent replay event = .ok next) : Accounted (taken ++ [event]) next := by
  obtain ⟨books, hbook, -, -, hstate⟩ := applyEvent_ok hok
  by_cases hname : event.symbolName = ""
  · rw [if_pos hname] at hstate
    exact h.step_unnamed hname hstate
  · rw [if_neg hname] at hstate
    have hbooked := bookEvent_booked (h.grid event.symbolName)
      (by rw [h.lots _ hname]; exact h.sound _) hname hbook
    rw [hbooked.grid.quantized_eq] at hstate
    have hnext (name : String) : next.state name =
        if event.symbolName = name then books.state else replay.state name := by
      simp only [Replay.state, hstate, Std.ExtTreeMap.getD_eq_getD_getElem?, Dict.insert_get]
      split <;> simp
    have hheld (name : String) : (fifo (taken ++ [event])).held name =
        if event.symbolName = name then books.state.lots else (fifo taken).held name := by
      rw [fifo_held, hbooked.lots, h.lots _ hname]
    refine ⟨?_, ?_, ?_, ?_, ?_⟩
    · intro name hne
      rw [hnext, hheld]
      split
      · rfl
      · exact h.lots name hne
    · intro name
      rw [hheld]
      split
      · exact hbooked.sound
      · exact h.sound name
    · intro name
      rw [hnext]
      split
      · exact hbooked.grid
      · exact h.grid name
    · intro name
      rw [hstate, Dict.insert_get, mem_symbolNames]
      by_cases hsame : event.symbolName = name
      · subst hsame
        simp [hname]
      · rw [if_neg hsame, h.names, mem_symbolNames]
        simp [hsame]
    · rw [hstate, Dict.sum_insert, replay.state_book, h.books, hbooked.book, fifo_gains,
        netOutlay_append, h.lots _ hname, List.map_append, List.sum_append]
      ring

theorem Accounted.replay {start final : Replay} (hstart : start.symbolState = ∅)
    (events : List AccountingLedgerEvent) (h : events.foldlM applyEvent start = .ok final) :
    Accounted events final :=
  Runs.foldlM_ok_induct (I := Accounted) (fun _ _ _ _ haccounted hok => haccounted.step hok)
    events (Accounted.start hstart) h

end Replaying

section Equity

def holdingsTry (state : PortfolioAccountingState) (marks : Dict ℚ) : ℚ :=
  (state.symbols.map fun row => row.qty * marks.getD row.symbol 0).sum

/-- Every symbol held has a mark price. -/
def MarksHeld (state : PortfolioAccountingState) (marks : Dict ℚ) : Prop :=
  ∀ row ∈ state.symbols, row.qty ≠ 0 → (marks[row.symbol]?).isSome

theorem lotsQty_total {lots : List PositionLot} (h : LotsSound lots) :
    lotsQty lots = total lotView lots := by
  refine quantizeQty_of_whole fun hstep => OnGrid.sum fun qty hqty => ?_
  obtain ⟨lot, hlot, rfl⟩ := List.mem_map.mp hqty
  exact (h lot hlot).1 hstep

theorem paperGain_eq (marks : Dict ℚ) (name : String) (lots : List PositionLot) :
    paperGain marks name lots = marks.getD name 0 * total lotView lots - value lotView lots := by
  unfold paperGain
  induction lots with
  | nil => simp
  | cons lot lots ih =>
    rw [List.map_cons, List.sum_cons, ih, Fifo.total_cons, Fifo.value_cons]
    simp only [lotView]
    ring

/-- Lots of no quantity have nothing to gain, whatever the mark. -/
theorem paperGain_empty {marks : Dict ℚ} {name : String} {lots : List PositionLot}
    (h : LotsSound lots) (hzero : total lotView lots = 0) : paperGain marks name lots = 0 := by
  have hall : ∀ qty ∈ lots.map lotView.qty, qty = 0 := by
    refine fun qty hmem => List.all_zero_of_le_zero_le_of_sum_eq_zero ?_ hzero hmem
    intro qty hqty
    obtain ⟨lot, hlot, rfl⟩ := List.mem_map.mp hqty
    exact (h lot hlot).2
  refine List.sum_eq_zero fun gain hgain => ?_
  obtain ⟨lot, hlot, rfl⟩ := List.mem_map.mp hgain
  have hqty : lot.qty = 0 := hall _ (List.mem_map.mpr ⟨lot, hlot, rfl⟩)
  rw [hqty, mul_zero]

theorem unrealized_eq {marks : Dict ℚ} {name : String} {lots : List PositionLot}
    (h : LotsSound lots) (hmark : lotsQty lots ≠ 0 → (marks[name]?).isSome) :
    unrealized marks[name]? lots = quantizeMoney (paperGain marks name lots) := by
  cases hprice : marks[name]? with
  | some mark => simp [unrealized, paperGain, Std.ExtTreeMap.getD_eq_getD_getElem?, hprice]
  | none =>
    have hzero : total lotView lots = 0 := by
      rw [← lotsQty_total h]
      by_contra hne
      simpa [hprice] using hmark hne
    rw [paperGain_empty h hzero]
    exact (quantizeMoney_of_grid (OnGrid.zero _)).symm

/-- What a row adds to the equity beyond the worth of its holding. -/
theorem row_gap {marks : Dict ℚ} {name : String} {state : SymbolState} (h : LotsSound state.lots)
    (hmark : lotsQty state.lots ≠ 0 → (marks[name]?).isSome) :
    state.realizedPnlTry + unrealized marks[name]? state.lots - state.feesTry -
          state.fundingCostTry - state.slippageTry - lotsQty state.lots * marks.getD name 0 =
        state.book + slip (paperGain marks name state.lots) := by
  rw [unrealized_eq h hmark, lotsQty_total h, slip, SymbolState.book]
  linear_combination paperGain_eq marks name state.lots

variable {events : List AccountingLedgerEvent} {replay : Replay}

theorem Accounted.entry (h : Accounted events replay) {entry : String × SymbolState}
    (hentry : entry ∈ replay.symbolState.toList) :
    entry.2 = replay.state entry.1 ∧ entry.2.lots = (fifo events).held entry.1 ∧
      entry.2.OnGrid ∧ LotsSound entry.2.lots := by
  rw [Dict.mem_toList] at hentry
  have hstate : entry.2 = replay.state entry.1 := by
    simp [Replay.state, Std.ExtTreeMap.getD_eq_getD_getElem?, hentry]
  have hname : entry.1 ≠ "" :=
    (mem_symbolNames.mp ((h.names entry.1).mp (by simp [hentry]))).1
  have hlots : entry.2.lots = (fifo events).held entry.1 := by rw [hstate, h.lots _ hname]
  refine ⟨hstate, hlots, ?_, ?_⟩
  · rw [hstate]
    exact h.grid entry.1
  · rw [hlots]
    exact h.sound entry.1

/-- The symbols of the report are those the events name. -/
theorem Accounted.names_perm (h : Accounted events replay) :
    (replay.symbolState.toList.map Prod.fst).Perm (symbolNames events) := by
  have hnodup := Dict.keys_nodup replay.symbolState
  refine (List.perm_ext_iff_of_nodup hnodup (List.nodup_dedup _)).mpr fun name => ?_
  rw [← symbolNames, ← h.names]
  constructor
  · intro hname
    obtain ⟨entry, hentry, rfl⟩ := List.mem_map.mp hname
    rw [(Dict.mem_toList _ _).mp hentry]
    rfl
  · intro hname
    obtain ⟨state, hstate⟩ := Option.isSome_iff_exists.mp hname
    exact List.mem_map.mpr ⟨(name, state), (Dict.mem_toList _ _).mpr hstate, rfl⟩

theorem Accounted.slips (h : Accounted events replay) (marks : Dict ℚ) :
    (replay.symbolState.toList.map fun entry =>
        slip (paperGain marks entry.1 entry.2.lots)).sum =
      ((symbolNames events).map fun name =>
        slip (paperGain marks name ((fifo events).held name))).sum := by
  rw [← (h.names_perm.map fun name => slip (paperGain marks name ((fifo events).held name))).sum_eq,
    List.map_map]
  refine congrArg List.sum (List.map_congr_left fun entry hentry => ?_)
  rw [(h.entry hentry).2.1]
  rfl

theorem quantizeMoney_sum {α : Type} {l : List α} {f : α → ℚ} (h : ∀ a ∈ l, MoneyGrid (f a)) :
    quantizeMoney (l.map f).sum = (l.map f).sum := by
  refine quantizeMoney_of_grid (OnGrid.sum fun x hx => ?_)
  obtain ⟨a, ha, rfl⟩ := List.mem_map.mp hx
  exact h a ha

theorem entries_gap {l : List (String × SymbolState)} (marks : Dict ℚ)
    (hsound : ∀ entry ∈ l, LotsSound entry.2.lots)
    (hmarks : ∀ entry ∈ l, lotsQty entry.2.lots ≠ 0 → (marks[entry.1]?).isSome) :
    (l.map fun entry => entry.2.realizedPnlTry).sum +
            (l.map fun entry => unrealized marks[entry.1]? entry.2.lots).sum -
          (l.map fun entry => entry.2.feesTry).sum -
        (l.map fun entry => entry.2.fundingCostTry).sum -
      (l.map fun entry => entry.2.slippageTry).sum =
    (l.map fun entry => lotsQty entry.2.lots * marks.getD entry.1 0).sum +
        (l.map fun entry => entry.2.book).sum +
      (l.map fun entry => slip (paperGain marks entry.1 entry.2.lots)).sum := by
  induction l with
  | nil => simp
  | cons entry l ih =>
    have hrow := row_gap (hsound entry List.mem_cons_self) (hmarks entry List.mem_cons_self)
    have hrest := ih (fun other h => hsound other (List.mem_cons_of_mem entry h))
      (fun other h => hmarks other (List.mem_cons_of_mem entry h))
    simp only [List.map_cons, List.sum_cons]
    linear_combination hrow + hrest

/-- Equity is cash, treasury and holdings, less what the symbols' events paid out, up to the
rounding of the gains. -/
theorem equity_gap (h : Accounted events replay) {asOf : DateTime} {marks : Dict ℚ}
    (hmarks : MarksHeld (report asOf marks replay) marks) (hcash : MoneyGrid replay.tryBalance)
    (htreasury : MoneyGrid replay.treasuryTry) :
    equityTry (report asOf marks replay) =
      (report asOf marks replay).tradingCapitalTry + (report asOf marks replay).treasuryTry +
          holdingsTry (report asOf marks replay) marks - netOutlay events +
        roundingDrift events marks := by
  have hcapital : quantizeMoney replay.tryBalance = replay.tryBalance := quantizeMoney_of_grid hcash
  have hunrealized (mark : Option ℚ) (lots : List PositionLot) :
      MoneyGrid (unrealized mark lots) := by
    cases mark with
    | none => exact OnGrid.zero _
    | some mark => exact quantizeMoney_grid _
  have hgrid : ∀ entry ∈ replay.symbolState.toList, entry.2.OnGrid :=
    fun entry hentry => (h.entry hentry).2.2.1
  have hrealized := quantizeMoney_sum fun entry hentry => (hgrid entry hentry).realized
  have hpaper := quantizeMoney_sum (l := replay.symbolState.toList)
    fun entry _ => hunrealized marks[entry.1]? entry.2.lots
  have hfees := quantizeMoney_sum fun entry hentry => (hgrid entry hentry).fees
  have hfunding := quantizeMoney_sum fun entry hentry => (hgrid entry hentry).funding
  have hslippage := quantizeMoney_sum fun entry hentry => (hgrid entry hentry).slippage
  have hgap := entries_gap marks (fun entry hentry => (h.entry hentry).2.2.2)
    fun entry hentry hqty => hmarks (symbolReport marks entry.1 entry.2)
      (List.mem_map_of_mem hentry) hqty
  have htotal : MoneyGrid (replay.tryBalance + replay.treasuryTry +
      (replay.symbolState.toList.map fun entry => entry.2.realizedPnlTry).sum +
      (replay.symbolState.toList.map fun entry =>
        unrealized marks[entry.1]? entry.2.lots).sum -
      (replay.symbolState.toList.map fun entry => entry.2.feesTry).sum -
      (replay.symbolState.toList.map fun entry => entry.2.fundingCostTry).sum -
      (replay.symbolState.toList.map fun entry => entry.2.slippageTry).sum) := by
    rw [← hrealized, ← hpaper, ← hfees, ← hfunding, ← hslippage]
    exact (((((hcash.add htreasury).add (quantizeMoney_grid _)).add (quantizeMoney_grid _)).sub
      (quantizeMoney_grid _)).sub (quantizeMoney_grid _)).sub (quantizeMoney_grid _)
  rw [h.slips, h.books] at hgap
  simp only [equityTry, report, holdingsTry, List.map_map, Function.comp_def, symbolReport,
    hrealized, hpaper, hfees, hfunding, hslippage, hcapital, quantizeMoney_of_grid htotal,
    roundingDrift]
  linear_combination hgap

theorem abs_slips_le (gains : List ℚ) : |(gains.map slip).sum| ≤ gains.length / 10 ^ 8 := by
  induction gains with
  | nil => simp
  | cons gain gains ih =>
    have hslip : |slip gain| < 1 / 10 ^ 8 := abs_roundQuote_sub_lt gain defaultMoneyPolicy
    have hadd := abs_add_le (slip gain) (gains.map slip).sum
    rw [List.map_cons, List.sum_cons, List.length_cons]
    push_cast
    linarith

theorem abs_roundingDrift_le (events : List AccountingLedgerEvent) (marks : Dict ℚ) :
    |roundingDrift events marks| ≤
      ((fifo events).gains.length + (symbolNames events).length : ℕ) / 10 ^ 8 := by
  have hmatches := abs_slips_le (fifo events).gains
  have hsymbols := abs_slips_le
    ((symbolNames events).map fun name => paperGain marks name ((fifo events).held name))
  rw [List.map_map, List.length_map] at hsymbols
  have hadd := abs_add_le ((fifo events).gains.map slip).sum ((symbolNames events).map
    (slip ∘ fun name => paperGain marks name ((fifo events).held name))).sum
  refine hadd.trans ?_
  push_cast
  linarith

/-- Equity is cash, treasury and holdings, up to the allowance, exactly when the events of symbols
paid out nothing beyond the rounding of the gains. -/
theorem equity_law_iff {events : List AccountingLedgerEvent} {args : RecomputeArgs}
    {state : PortfolioAccountingState} (h : recompute events args = .ok state)
    (hmarks : MarksHeld state args.markPricesTry) :
    (|equityTry state - (state.tradingCapitalTry + state.treasuryTry +
          holdingsTry state args.markPricesTry)| ≤ allowance (orderedEvents events args.asOf) ↔
        |netOutlay (orderedEvents events args.asOf) -
            roundingDrift (orderedEvents events args.asOf) args.markPricesTry| ≤
          allowance (orderedEvents events args.asOf)) ∧
      |roundingDrift (orderedEvents events args.asOf) args.markPricesTry| ≤
        ((fifo (orderedEvents events args.asOf)).gains.length +
          (symbolNames (orderedEvents events args.asOf)).length : ℕ) / 10 ^ 8 := by
  refine ⟨?_, abs_roundingDrift_le _ _⟩
  obtain ⟨replay, hrun, rfl⟩ := recompute_ok h
  have hmoved := CashMoved.replay (quantizeMoney_grid _) (quantizeMoney_grid _) _ hrun
  have hgap := equity_gap (Accounted.replay rfl _ hrun) hmarks hmoved.cashGrid hmoved.treasuryGrid
  have hsides : equityTry (report args.asOf args.markPricesTry replay) -
      ((report args.asOf args.markPricesTry replay).tradingCapitalTry +
        (report args.asOf args.markPricesTry replay).treasuryTry +
        holdingsTry (report args.asOf args.markPricesTry replay) args.markPricesTry) =
      -(netOutlay (orderedEvents events args.asOf) -
        roundingDrift (orderedEvents events args.asOf) args.markPricesTry) := by
    linear_combination hgap
  rw [hsides, abs_neg]

def hundredMark : RecomputeArgs where
  asOf := ⟨5, true⟩
  markPricesTry := (∅ : Dict ℚ).insert "BTCTRY" 100
  initialTradingCapitalTry := 1000

theorem marksHeld_hundred {state : PortfolioAccountingState}
    (h : state.symbols.map SymbolPnlState.symbol = ["BTCTRY"]) :
    MarksHeld state hundredMark.markPricesTry := by
  intro row hrow _
  have hname : row.symbol ∈ state.symbols.map SymbolPnlState.symbol := List.mem_map_of_mem hrow
  rw [h, List.mem_singleton] at hname
  rw [hname]
  decide +kernel

/-- A lot bought at its mark is in the cash already, and is taken from the equity once more. -/
theorem purchase_counted_twice :
    ∃ state, recompute [lotBought] hundredMark = .ok state ∧
      MarksHeld state hundredMark.markPricesTry ∧ equityTry state = 900 ∧
      state.tradingCapitalTry + state.treasuryTry +
        holdingsTry state hundredMark.markPricesTry = 1000 ∧
      ¬ |equityTry state - (state.tradingCapitalTry + state.treasuryTry +
          holdingsTry state hundredMark.markPricesTry)| ≤
        allowance (orderedEvents [lotBought] hundredMark.asOf) := by
  have hrun : (recompute [lotBought] hundredMark).toOption.map (fun state =>
      (equityTry state, state.tradingCapitalTry + state.treasuryTry +
        holdingsTry state hundredMark.markPricesTry, state.symbols.map SymbolPnlState.symbol)) =
      some (900, 1000, ["BTCTRY"]) := by decide +kernel
  have hallowance : allowance (orderedEvents [lotBought] hundredMark.asOf) = 2 / 10 ^ 8 := by
    decide +kernel
  cases hstate : recompute [lotBought] hundredMark with
  | error e =>
    rw [hstate] at hrun
    cases hrun
  | ok state =>
    rw [hstate] at hrun
    simp only [Except.toOption, Option.map_some, Option.some.injEq, Prod.mk.injEq] at hrun
    obtain ⟨hequity, hworth, hsymbols⟩ := hrun
    refine ⟨state, rfl, marksHeld_hundred hsymbols, hequity, hworth, ?_⟩
    rw [hequity, hworth, hallowance]
    norm_num

def lotSold : AccountingLedgerEvent :=
  { lotBought with eventId := "sold", ts := ⟨2, true⟩, side := some "SELL" }

/-- Sold for what was paid. -/
theorem equity_law_of_round_trip :
    ∃ state, recompute [lotBought, lotSold] hundredMark = .ok state ∧
      |equityTry state - (state.tradingCapitalTry + state.treasuryTry +
          holdingsTry state hundredMark.markPricesTry)| ≤
        allowance (orderedEvents [lotBought, lotSold] hundredMark.asOf) := by
  have hrun : (recompute [lotBought, lotSold] hundredMark).toOption.map (fun state =>
      state.symbols.map SymbolPnlState.symbol) = some ["BTCTRY"] := by decide +kernel
  have houtlay : |netOutlay (orderedEvents [lotBought, lotSold] hundredMark.asOf) -
      roundingDrift (orderedEvents [lotBought, lotSold] hundredMark.asOf)
        hundredMark.markPricesTry| ≤
      allowance (orderedEvents [lotBought, lotSold] hundredMark.asOf) := by decide +kernel
  cases hstate : recompute [lotBought, lotSold] hundredMark with
  | error e =>
    rw [hstate] at hrun
    cases hrun
  | ok state =>
    rw [hstate] at hrun
    have hmarks := marksHeld_hundred (Option.some.inj hrun)
    exact ⟨state, rfl, (equity_law_iff hstate hmarks).1.mpr houtlay⟩

end Equity

end AccountingLedger
