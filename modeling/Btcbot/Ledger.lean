import Btcbot.PyData
import Btcbot.Money
import Btcbot.Fifo
import Btcbot.Runs
import Btcbot.WhileLoop
import Btcbot.SortedFold
import Mathlib.Data.Prod.Lex

/-!
# Ledger events and the reducer

Fills, fees and adjustments are folded in `(ts, event_id)` order into FIFO lots,
realized profit and fees per currency. A sell closes lots from the front and
raises when nothing is left to sell from. The conservation result is proved for
every money policy; the quote unit of the default one is `1 / 10 ^ 8`.
-/
namespace Ledger

open PyData Money

inductive LedgerEventType where
  | orderPlaced
  | orderCanceled
  | fill
  | fee
  | adjustment
  deriving DecidableEq, Repr

structure LedgerEvent where
  eventId : String
  ts : DateTime
  symbol : String
  type : LedgerEventType
  side : Option String
  qty : ℚ
  price : Option ℚ
  fee : Option ℚ
  feeCurrency : Option String
  exchangeTradeId : Option String
  clientOrderId : Option String
  /-- The texts of the price and the quantity, where no exchange trade id names the fill. -/
  printed : Option (String × String) := none
  deriving DecidableEq, Repr

structure PositionLot where
  symbol : String
  qty : ℚ
  unitCost : ℚ
  openedAt : DateTime
  deriving DecidableEq, Repr

structure SymbolLedger where
  symbol : String
  lots : List PositionLot := []
  realizedPnl : ℚ := 0
  deriving DecidableEq, Repr

structure LedgerState where
  symbols : Dict SymbolLedger := ∅
  feesByCurrency : Dict ℚ := ∅

inductive LedgerError where
  | oversellInvariantViolation (symbol : String) (remainingQty : ℚ) (eventId : String)
  | feeEventInvariantViolation (eventId : String) (side : Option String) (qty : ℚ)
      (price : Option ℚ)
  deriving DecidableEq, Repr

def LedgerEvent.key (event : LedgerEvent) : ℤ ×ₗ String :=
  toLex ((ensureUtc event.ts).micros, event.eventId)

def SortsBefore (a b : LedgerEvent) : Prop := a.key ≤ b.key

instance : DecidableRel SortsBefore := fun a b => inferInstanceAs (Decidable (a.key ≤ b.key))

instance : Std.Total SortsBefore := ⟨fun a b => le_total a.key b.key⟩

instance : IsTrans LedgerEvent SortsBefore := ⟨fun _ _ _ => le_trans⟩

def sortEvents (events : List LedgerEvent) : List LedgerEvent := events.insertionSort SortsBefore

theorem sortEvents_perm (events : List LedgerEvent) : (sortEvents events).Perm events :=
  List.perm_insertionSort SortsBefore events

def policyFor (policyResolver : Option (String → MoneyMathPolicy)) (symbol : String) :
    MoneyMathPolicy :=
  match policyResolver with
  | some resolve => resolve symbol
  | none => defaultMoneyPolicy

/-- The variables of the sell loop. -/
structure SellState where
  remaining : ℚ
  lots : List PositionLot
  realized : ℚ

def sellGuard (s : SellState) : Bool := decide (0 < s.remaining) && !s.lots.isEmpty

def sellBody (policy : MoneyMathPolicy) (price : ℚ) (s : SellState) : SellState :=
  match s.lots with
  | [] => s
  | lot :: rest =>
    let matched := min s.remaining lot.qty
    let leftover := roundQty (lot.qty - matched) policy
    { remaining := roundQty (s.remaining - matched) policy
      lots := if leftover ≤ 0 then rest else { lot with qty := leftover } :: rest
      realized := roundQuote (s.realized + (price - lot.unitCost) * matched) policy }

/-- A round closes the front lot or sells out, so one round per lot is enough fuel. -/
def sellLoop (policy : MoneyMathPolicy) (price : ℚ) (s : SellState) : SellState :=
  WhileLoop.run sellGuard (sellBody policy price) s.lots.length s

def sellRounds (policy : MoneyMathPolicy) (price : ℚ) (s : SellState) : ℕ :=
  WhileLoop.rounds sellGuard (sellBody policy price) s.lots.length s

def applyFill (policy : MoneyMathPolicy) (event : LedgerEvent) (current : SymbolLedger) :
    Except LedgerError SymbolLedger :=
  match event.type, event.price, event.side with
  | .fill, some eventPrice, some side =>
    let qty := roundQty event.qty policy
    let price := roundPrice eventPrice policy
    if side.toUpper = "BUY" then
      .ok { current with lots := current.lots ++ [⟨event.symbol, qty, price, event.ts⟩] }
    else if side.toUpper = "SELL" then
      let sold := sellLoop policy price ⟨qty, current.lots, current.realizedPnl⟩
      if 0 < sold.remaining then
        .error (.oversellInvariantViolation event.symbol sold.remaining event.eventId)
      else .ok { current with lots := sold.lots, realizedPnl := sold.realized }
    else .ok current
  | _, _, _ => .ok current

inductive Trade where
  | buy (lot : PositionLot)
  | sell (qty price : ℚ)

/-- The trade a fill stands for, at rounded quantity and price. -/
def trade (policy : MoneyMathPolicy) (event : LedgerEvent) : Option Trade :=
  match event.type, event.price, event.side with
  | .fill, some eventPrice, some side =>
    let qty := roundQty event.qty policy
    let price := roundPrice eventPrice policy
    if side.toUpper = "BUY" then some (.buy ⟨event.symbol, qty, price, event.ts⟩)
    else if side.toUpper = "SELL" then some (.sell qty price)
    else none
  | _, _, _ => none

theorem trade_fill {policy : MoneyMathPolicy} {event : LedgerEvent} {t : Trade}
    (h : trade policy event = some t) : event.type = .fill := by
  simp only [trade] at h
  split at h
  · assumption
  · cases h

theorem applyFill_none {policy : MoneyMathPolicy} {event : LedgerEvent}
    (h : trade policy event = none) (current : SymbolLedger) :
    applyFill policy event current = .ok current := by
  simp only [trade] at h
  simp only [applyFill]
  split at h
  · by_cases hb : String.toUpper ‹String› = "BUY"
    · simp [hb] at h
    · by_cases hs : String.toUpper ‹String› = "SELL"
      · simp [hs] at h
      · simp [hb, hs]
  · rfl

theorem applyFill_buy {policy : MoneyMathPolicy} {event : LedgerEvent} {lot : PositionLot}
    (h : trade policy event = some (.buy lot)) (current : SymbolLedger) :
    applyFill policy event current = .ok { current with lots := current.lots ++ [lot] } := by
  simp only [trade] at h
  simp only [applyFill]
  split at h
  · by_cases hb : String.toUpper ‹String› = "BUY"
    · simp only [hb, if_true, Option.some.injEq, Trade.buy.injEq] at h ⊢
      rw [h]
    · by_cases hs : String.toUpper ‹String› = "SELL"
      · simp [hs] at h
      · simp [hb, hs] at h
  · cases h

theorem applyFill_sell {policy : MoneyMathPolicy} {event : LedgerEvent} {qty price : ℚ}
    (h : trade policy event = some (.sell qty price)) (current : SymbolLedger) :
    applyFill policy event current =
      if 0 < (sellLoop policy price ⟨qty, current.lots, current.realizedPnl⟩).remaining then
        .error (.oversellInvariantViolation event.symbol
          (sellLoop policy price ⟨qty, current.lots, current.realizedPnl⟩).remaining
          event.eventId)
      else .ok { current with
        lots := (sellLoop policy price ⟨qty, current.lots, current.realizedPnl⟩).lots
        realizedPnl :=
          (sellLoop policy price ⟨qty, current.lots, current.realizedPnl⟩).realized } := by
  simp only [trade] at h
  simp only [applyFill]
  split at h
  · by_cases hb : String.toUpper ‹String› = "BUY"
    · simp [hb] at h
    · by_cases hs : String.toUpper ‹String› = "SELL"
      · simp only [hs, if_true, String.reduceEq, if_false, Option.some.injEq, Trade.sell.injEq] at h ⊢
        rw [h.1, h.2]
      · simp [hb, hs] at h
  · cases h

theorem trade_sell_qty {policy : MoneyMathPolicy} {event : LedgerEvent} {qty price : ℚ}
    (h : trade policy event = some (.sell qty price)) : qty = roundQty event.qty policy := by
  simp only [trade] at h
  split at h
  · split at h
    · cases h
    · split at h
      · cases h
        rfl
      · cases h
  · cases h

theorem trade_buy_lot {policy : MoneyMathPolicy} {event : LedgerEvent} {lot : PositionLot}
    (h : trade policy event = some (.buy lot)) :
    lot.symbol = event.symbol ∧ lot.qty = roundQty event.qty policy ∧ lot.openedAt = event.ts := by
  simp only [trade] at h
  split at h
  · split at h
    · cases h
      exact ⟨rfl, rfl, rfl⟩
    · split at h <;> cases h
  · cases h

def applyFee (policy : MoneyMathPolicy) (event : LedgerEvent) (fees : Dict ℚ) :
    Except LedgerError (Dict ℚ) :=
  match event.type, event.fee, event.feeCurrency with
  | .fee, some fee, some feeCurrency =>
    if feeCurrency = "" then .ok fees
    else if event.side ≠ none ∨ event.qty ≠ 0 ∨ event.price ≠ none then
      .error (.feeEventInvariantViolation event.eventId event.side event.qty event.price)
    else
      let currency := feeCurrency.toUpper
      if currency = "TRY" then
        .ok (fees.insert currency (roundFee (fees.getD currency 0 + fee) policy))
      else .ok (fees.insert currency (fees.getD currency 0 + fee))
  | _, _, _ => .ok fees

def applyAdjustment (event : LedgerEvent) (current : SymbolLedger) : SymbolLedger :=
  match event.type, event.fee with
  | .adjustment, some fee => { current with realizedPnl := current.realizedPnl + fee }
  | _, _ => current

def LedgerState.ledger (state : LedgerState) (symbol : String) : SymbolLedger :=
  state.symbols.getD symbol { symbol }

/-- The body of the reducer's loop. -/
def applyEvent (policyResolver : Option (String → MoneyMathPolicy)) (state : LedgerState)
    (event : LedgerEvent) : Except LedgerError LedgerState := do
  let policy := policyFor policyResolver event.symbol
  let filled ← applyFill policy event (state.ledger event.symbol)
  let fees ← applyFee policy event state.feesByCurrency
  let adjusted := applyAdjustment event filled
  .ok { symbols := state.symbols.insert event.symbol { adjusted with symbol := event.symbol }
        feesByCurrency := fees }

def applyEvents (state : LedgerState) (events : List LedgerEvent)
    (policyResolver : Option (String → MoneyMathPolicy)) : Except LedgerError LedgerState :=
  (sortEvents events).foldlM (applyEvent policyResolver) state

theorem applyEvent_ok {policyResolver : Option (String → MoneyMathPolicy)}
    {state next : LedgerState} {event : LedgerEvent}
    (h : applyEvent policyResolver state event = .ok next) :
    ∃ filled fees,
      applyFill (policyFor policyResolver event.symbol) event (state.ledger event.symbol) =
        .ok filled ∧
      applyFee (policyFor policyResolver event.symbol) event state.feesByCurrency = .ok fees ∧
      next = { symbols := state.symbols.insert event.symbol
                 { applyAdjustment event filled with symbol := event.symbol }
               feesByCurrency := fees } := by
  obtain ⟨filled, hfill, h⟩ := Runs.bind_ok h
  obtain ⟨fees, hfee, h⟩ := Runs.bind_ok h
  exact ⟨filled, fees, hfill, hfee, (Except.ok.inj h).symm⟩

@[simp] theorem ledger_insert (state : LedgerState) (symbol other : String)
    (ledger : SymbolLedger) (fees : Dict ℚ) :
    LedgerState.ledger ⟨state.symbols.insert symbol ledger, fees⟩ other =
      if symbol = other then ledger else state.ledger other := by
  simp only [LedgerState.ledger, Std.ExtTreeMap.getD_insert, Std.compare_eq_iff_eq]

end Ledger
