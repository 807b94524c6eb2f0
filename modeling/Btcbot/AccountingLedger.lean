import Btcbot.PyData
import Btcbot.Capital
import Btcbot.DecimalText
import Btcbot.Representative
import Btcbot.WhileLoop
import Mathlib.Data.List.Sort
import Mathlib.Data.List.Lex
import Mathlib.Data.Prod.Lex

/-!
# The self-financing accounting ledger

A recompute replays events from nothing: one event for each event id, those dated
up to the reading time, in `(ts, event_id)` order. Fills move cash against FIFO
lots, the other kinds cash, treasury or the totals of a symbol.
-/
namespace AccountingLedger

open PyData Money DecimalText
open Capital (quantizeMoney)

section Events

inductive AccountingEventType where
  | fillRecorded
  | feeRecorded
  | fundingCostRecorded
  | slippageRecorded
  | transfer
  | rebalance
  | withdrawal
  deriving DecidableEq, Repr

def AccountingEventType.value : AccountingEventType → String
  | .fillRecorded => "FILL_RECORDED"
  | .feeRecorded => "FEE_RECORDED"
  | .fundingCostRecorded => "FUNDING_COST_RECORDED"
  | .slippageRecorded => "SLIPPAGE_RECORDED"
  | .transfer => "TRANSFER"
  | .rebalance => "REBALANCE"
  | .withdrawal => "WITHDRAWAL"

/-- The metadata as its keys and values print. -/
structure AccountingLedgerEvent where
  eventId : String
  ts : DateTime
  type : AccountingEventType
  symbol : Option String
  side : Option String
  qty : PrintedDecimal
  priceTry : Option PrintedDecimal
  amountTry : Option PrintedDecimal
  feeCurrency : Option String
  referenceId : Option String := none
  metadata : List (String × String) := []

def AccountingLedgerEvent.canonicalTs (event : AccountingLedgerEvent) : DateTime :=
  ensureUtc event.ts

/-- `value or Decimal("0")` -/
def orZero (value : Option PrintedDecimal) : PrintedDecimal :=
  match value with
  | some d => if d.value = 0 then .zero else d
  | none => .zero

def sortedMetadata (metadata : List (String × String)) : List (String ×ₗ String) :=
  (metadata.map toLex).insertionSort (· ≤ ·)

abbrev SortKey := ℤ ×ₗ List String ×ₗ List (String ×ₗ String)

/-- What decides between two events of one event id. -/
def sortKey (event : AccountingLedgerEvent) : SortKey :=
  toLex (event.canonicalTs.micros, toLex (
    [event.type.value, event.symbol.getD "", event.side.getD "", event.qty.text,
      (orZero event.priceTry).text, (orZero event.amountTry).text, event.feeCurrency.getD "",
      event.referenceId.getD ""],
    sortedMetadata event.metadata))

def dedupeEvents (events : List AccountingLedgerEvent) : Dict AccountingLedgerEvent :=
  Representative.ofList AccountingLedgerEvent.eventId sortKey events

def AccountingLedgerEvent.order (event : AccountingLedgerEvent) : ℤ ×ₗ String :=
  toLex (event.canonicalTs.micros, event.eventId)

def SortsBefore (a b : AccountingLedgerEvent) : Prop := a.order ≤ b.order

instance : DecidableRel SortsBefore := fun a b => inferInstanceAs (Decidable (a.order ≤ b.order))

/-- One event for each event id, dated up to the time given. -/
def distinctEvents (events : List AccountingLedgerEvent) (asOf : DateTime) :
    List AccountingLedgerEvent :=
  ((dedupeEvents events).toList.map Prod.snd).filter fun event =>
    event.canonicalTs.micros ≤ (ensureUtc asOf).micros

def orderedEvents (events : List AccountingLedgerEvent) (asOf : DateTime) :
    List AccountingLedgerEvent := (distinctEvents events asOf).insertionSort SortsBefore

end Events

section Replay

def quantizeQty (value : ℚ) : ℚ := roundQty value defaultMoneyPolicy

structure PositionLot where
  qty : ℚ
  unitCostTry : ℚ
  openedAt : DateTime
  deriving DecidableEq, Repr

structure SymbolState where
  lots : List PositionLot := []
  realizedPnlTry : ℚ := 0
  feesTry : ℚ := 0
  fundingCostTry : ℚ := 0
  slippageTry : ℚ := 0
  deriving DecidableEq, Repr

structure Oversell where
  symbol : String
  qty : ℚ
  eventId : String
  deriving DecidableEq, Repr

/-- The variables of the sell loop. -/
structure SellState where
  remaining : ℚ
  lots : List PositionLot
  realized : ℚ

def sellGuard (s : SellState) : Bool := decide (0 < s.remaining) && !s.lots.isEmpty

def sellBody (price : ℚ) (s : SellState) : SellState :=
  match s.lots with
  | [] => s
  | lot :: rest =>
    let matched := min s.remaining lot.qty
    let left := quantizeQty (lot.qty - matched)
    { remaining := quantizeQty (s.remaining - matched)
      lots := if left ≤ 0 then rest else { lot with qty := left } :: rest
      realized := s.realized + quantizeMoney ((price - lot.unitCostTry) * matched) }

/-- A round sells the front lot out or ends the sale, so one round a lot is enough fuel. -/
def sellLoop (price : ℚ) (s : SellState) : SellState :=
  WhileLoop.run sellGuard (sellBody price) s.lots.length s

def sellRounds (price : ℚ) (s : SellState) : ℕ :=
  WhileLoop.rounds sellGuard (sellBody price) s.lots.length s

/-- The variables of the event loop, the symbol's among them. -/
structure Books where
  state : SymbolState
  tryBalance : ℚ
  treasuryTry : ℚ

def AccountingLedgerEvent.symbolName (event : AccountingLedgerEvent) : String :=
  (event.symbol.getD "").toUpper

def AccountingLedgerEvent.sideName (event : AccountingLedgerEvent) : String :=
  (event.side.getD "").toUpper

def AccountingLedgerEvent.fillQty (event : AccountingLedgerEvent) : ℚ :=
  quantizeQty |event.qty.value|

def AccountingLedgerEvent.price (event : AccountingLedgerEvent) : ℚ := (orZero event.priceTry).value

def AccountingLedgerEvent.notionalTry (event : AccountingLedgerEvent) : ℚ :=
  quantizeMoney (event.fillQty * event.price)

def AccountingLedgerEvent.amount (event : AccountingLedgerEvent) : ℚ :=
  (orZero event.amountTry).value

def applyFill (event : AccountingLedgerEvent) (books : Books) : Except Oversell Books :=
  if event.sideName = "BUY" then
    .ok { books with
      state := { books.state with
        lots := books.state.lots ++
          [⟨event.fillQty, quantizeMoney event.price, event.canonicalTs⟩] }
      tryBalance := quantizeMoney (books.tryBalance - event.notionalTry) }
  else if event.sideName = "SELL" then
    let sold := sellLoop event.price
      ⟨event.fillQty, books.state.lots, books.state.realizedPnlTry⟩
    if 0 < sold.remaining then .error ⟨event.symbolName, sold.remaining, event.eventId⟩
    else .ok { books with
      state := { books.state with lots := sold.lots, realizedPnlTry := sold.realized }
      tryBalance := quantizeMoney (books.tryBalance + event.notionalTry) }
  else .ok books

def bookEvent (event : AccountingLedgerEvent) (books : Books) : Except Oversell Books :=
  match event.type with
  | .fillRecorded => if event.symbolName = "" then .ok books else applyFill event books
  | .feeRecorded =>
    let amount := quantizeMoney |event.amount|
    .ok { books with
      state := { books.state with feesTry := books.state.feesTry + amount }
      tryBalance := quantizeMoney (books.tryBalance - amount) }
  | .fundingCostRecorded =>
    let amount := quantizeMoney |event.amount|
    .ok { books with
      state := { books.state with fundingCostTry := books.state.fundingCostTry + amount }
      tryBalance := quantizeMoney (books.tryBalance - amount) }
  | .slippageRecorded =>
    .ok { books with
      state := { books.state with
        slippageTry := books.state.slippageTry + quantizeMoney |event.amount| } }
  | .transfer =>
    .ok { books with
      tryBalance := quantizeMoney (books.tryBalance + quantizeMoney event.amount) }
  | .rebalance =>
    .ok { books with
      treasuryTry := quantizeMoney (books.treasuryTry + quantizeMoney event.amount)
      tryBalance := quantizeMoney (books.tryBalance - quantizeMoney event.amount) }
  | .withdrawal =>
    .ok { books with
      tryBalance := quantizeMoney (books.tryBalance - quantizeMoney |event.amount|) }

structure Replay where
  symbolState : Dict SymbolState := ∅
  tryBalance : ℚ
  treasuryTry : ℚ

def Replay.state (replay : Replay) (symbol : String) : SymbolState :=
  replay.symbolState.getD symbol {}

def SymbolState.quantized (state : SymbolState) : SymbolState :=
  { state with
    realizedPnlTry := quantizeMoney state.realizedPnlTry
    feesTry := quantizeMoney state.feesTry
    fundingCostTry := quantizeMoney state.fundingCostTry
    slippageTry := quantizeMoney state.slippageTry }

/-- The body of the event loop. The state of no symbol is dropped. -/
def applyEvent (replay : Replay) (event : AccountingLedgerEvent) : Except Oversell Replay := do
  let books ← bookEvent event
    ⟨replay.state event.symbolName, replay.tryBalance, replay.treasuryTry⟩
  .ok { symbolState := if event.symbolName = "" then replay.symbolState
          else replay.symbolState.insert event.symbolName books.state.quantized
        tryBalance := books.tryBalance
        treasuryTry := books.treasuryTry }

end Replay

section Report

structure SymbolPnlState where
  symbol : String
  qty : ℚ
  avgCostTry : ℚ
  realizedPnlTry : ℚ
  unrealizedPnlTry : ℚ
  feesTry : ℚ
  fundingCostTry : ℚ
  slippageTry : ℚ
  deriving DecidableEq, Repr

structure PortfolioAccountingState where
  asOf : DateTime
  balancesTry : List (String × ℚ)
  lockedTry : List (String × ℚ)
  treasuryTry : ℚ
  tradingCapitalTry : ℚ
  realizedPnlTry : ℚ
  unrealizedPnlTry : ℚ
  feesTry : ℚ
  fundingCostTry : ℚ
  slippageTry : ℚ
  symbols : List SymbolPnlState
  deriving DecidableEq, Repr

def equityTry (state : PortfolioAccountingState) : ℚ :=
  quantizeMoney (state.tradingCapitalTry + state.treasuryTry + state.realizedPnlTry +
    state.unrealizedPnlTry - state.feesTry - state.fundingCostTry - state.slippageTry)

def lotsQty (lots : List PositionLot) : ℚ := quantizeQty (lots.map PositionLot.qty).sum

def avgCost (lots : List PositionLot) : ℚ :=
  if 0 < lotsQty lots then
    quantizeMoney ((lots.map fun lot => lot.qty * lot.unitCostTry).sum / lotsQty lots)
  else 0

def unrealized (mark : Option ℚ) (lots : List PositionLot) : ℚ :=
  match mark with
  | some mark => quantizeMoney (lots.map fun lot => (mark - lot.unitCostTry) * lot.qty).sum
  | none => 0

def symbolReport (markPricesTry : Dict ℚ) (symbol : String) (state : SymbolState) :
    SymbolPnlState where
  symbol := symbol
  qty := lotsQty state.lots
  avgCostTry := avgCost state.lots
  realizedPnlTry := state.realizedPnlTry
  unrealizedPnlTry := unrealized markPricesTry[symbol]? state.lots
  feesTry := state.feesTry
  fundingCostTry := state.fundingCostTry
  slippageTry := state.slippageTry

/-- The reports in the order of their symbols. -/
def report (asOf : DateTime) (markPricesTry : Dict ℚ) (replay : Replay) :
    PortfolioAccountingState :=
  let symbols := replay.symbolState.toList.map fun entry =>
    symbolReport markPricesTry entry.1 entry.2
  let tradingCapitalTry := quantizeMoney replay.tryBalance
  { asOf := ensureUtc asOf
    balancesTry := [("TRY", tradingCapitalTry)]
    lockedTry := []
    treasuryTry := replay.treasuryTry
    tradingCapitalTry := tradingCapitalTry
    realizedPnlTry := quantizeMoney (symbols.map SymbolPnlState.realizedPnlTry).sum
    unrealizedPnlTry := quantizeMoney (symbols.map SymbolPnlState.unrealizedPnlTry).sum
    feesTry := quantizeMoney (symbols.map SymbolPnlState.feesTry).sum
    fundingCostTry := quantizeMoney (symbols.map SymbolPnlState.fundingCostTry).sum
    slippageTry := quantizeMoney (symbols.map SymbolPnlState.slippageTry).sum
    symbols := symbols }

structure RecomputeArgs where
  asOf : DateTime
  markPricesTry : Dict ℚ
  initialTradingCapitalTry : ℚ := 0
  initialTreasuryTry : ℚ := 0

def RecomputeArgs.start (args : RecomputeArgs) : Replay where
  tryBalance := quantizeMoney args.initialTradingCapitalTry
  treasuryTry := quantizeMoney args.initialTreasuryTry

def recompute (events : List AccountingLedgerEvent) (args : RecomputeArgs) :
    Except Oversell PortfolioAccountingState := do
  let replay ← (orderedEvents events args.asOf).foldlM applyEvent args.start
  .ok (report args.asOf args.markPricesTry replay)

end Report

end AccountingLedger
