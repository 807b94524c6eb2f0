import Btcbot.Effects
import Btcbot.LedgerStore

/-!
# Fills of a stage 4 cycle

A cycle fetches the recent fills of each active symbol and, in one transaction,
appends their ledger events, applies the new ones to the positions and writes
the cursors. A statement of the transaction may fail at any point.
-/
namespace Stage4Accounting

open PyData Ledger LedgerStore Effects

inductive OrderSide where
  | buy
  | sell
  deriving DecidableEq, Repr

def OrderSide.value : OrderSide → String
  | .buy => "buy"
  | .sell => "sell"

/-- A fill as the exchange reports it. -/
structure TradeFill where
  fillId : Option String
  orderId : String
  symbol : String
  side : OrderSide
  price : Decimal
  qty : Decimal
  fee : ℚ
  feeCurrency : String
  ts : DateTime
  deriving DecidableEq, Repr

structure Fill where
  fillId : String
  orderId : String
  symbol : String
  side : String
  price : Decimal
  qty : Decimal
  fee : ℚ
  feeAsset : String
  ts : DateTime
  deriving DecidableEq, Repr

structure Position where
  symbol : String
  qty : ℚ
  avgCostTry : ℚ
  realizedPnlTry : ℚ
  lastUpdateTs : DateTime
  deriving DecidableEq, Repr

structure PnLSnapshot where
  totalEquityTry : ℚ
  realizedTodayTry : ℚ
  drawdownPct : ℚ
  ts : DateTime
  realizedTotalTry : ℚ
  deriving DecidableEq, Repr

/-- A fill cursor is the decimal text of an integer, kept as that integer. -/
structure Store where
  ledgerEvents : List LedgerRow := []
  appliedFills : List String := []
  stage4Fills : List Fill := []
  stage4Positions : Dict Position := ∅
  pnlSnapshots : List PnLSnapshot := []
  cursors : Dict ℤ := ∅

/-- Milliseconds of a timestamp and back. Both go through binary floating point. -/
structure EpochTime where
  ms : DateTime → ℤ
  ofMs : ℤ → DateTime

structure Config where
  time : EpochTime
  lookbackMinutes : ℤ

section Fetch

def fallbackFillId (orderId : String) (tsMs : ℤ) (price qty : Decimal) (side : String) : String :=
  orderId ++ ":" ++ toString tsMs ++ ":" ++ price.text ++ ":" ++ qty.text ++ ":" ++ side

def fillIdOf (time : EpochTime) (trade : TradeFill) : String :=
  let fillId := strip (trade.fillId.getD "")
  if fillId = "" then
    fallbackFillId trade.orderId (time.ms trade.ts) trade.price trade.qty trade.side.value
  else fillId

def toFill (time : EpochTime) (trade : TradeFill) : Fill where
  fillId := fillIdOf time trade
  orderId := trade.orderId
  symbol := trade.symbol
  side := trade.side.value
  price := trade.price
  qty := trade.qty
  fee := trade.fee
  feeAsset := trade.feeCurrency
  ts := trade.ts

def fillsCursorKey (symbol : String) : String := "fills_cursor:" ++ normalizeSymbol symbol

/-- The order fills are taken in. -/
def SeenBefore (a b : TradeFill) : Prop :=
  a.ts.micros < b.ts.micros ∨
    (a.ts.micros = b.ts.micros ∧ a.fillId.getD "" ≤ b.fillId.getD "")

instance : DecidableRel SeenBefore := fun a b => by unfold SeenBefore; infer_instance

/-- The variables of the fetch loop. -/
structure FetchState where
  fills : List Fill := []
  seenFillIds : List String := []
  fillsSeen : ℕ := 0
  fillsDeduped : ℕ := 0
  maxTsMs : ℤ
  lastSeenFillId : Option String := none
  lastSeenTsMs : Option ℤ := none

def fetchStep (time : EpochTime) (s : FetchState) (trade : TradeFill) : FetchState :=
  let fillId := fillIdOf time trade
  if fillId ∈ s.seenFillIds then
    { s with fillsSeen := s.fillsSeen + 1, fillsDeduped := s.fillsDeduped + 1 }
  else
    let tsMs := time.ms trade.ts
    let last := s.lastSeenTsMs.all fun seen => seen ≤ tsMs
    { fills := s.fills ++ [toFill time trade]
      seenFillIds := fillId :: s.seenFillIds
      fillsSeen := s.fillsSeen + 1
      fillsDeduped := s.fillsDeduped
      maxTsMs := max s.maxTsMs tsMs
      lastSeenFillId := if last then some fillId else s.lastSeenFillId
      lastSeenTsMs := if last then some tsMs else s.lastSeenTsMs }

structure FetchFillsResult where
  fills : List Fill
  fillsSeen : ℕ
  fillsDeduped : ℕ
  cursorAfter : Option ℤ
  lastSeenFillId : Option String
  lastSeenTsMs : Option ℤ

inductive FetchError where
  | exchange (message : String)
  | naiveTimestamp
  deriving DecidableEq, Repr

/-- The exchange's answer for a symbol since a time. -/
abbrev RecentFills := String → ℤ → Except String (List TradeFill)

/-- Where a fetch starts: the lookback before the cursor, or before now. -/
def sinceMs (config : Config) (storedCursor : Option ℤ) (now : DateTime) : ℤ :=
  let lookbackMs := config.lookbackMinutes * 60 * 1000
  match storedCursor with
  | some cursor => max 0 (cursor - lookbackMs)
  | none => max 0 (config.time.ms now - lookbackMs)

def fetchResult (s : FetchState) : FetchFillsResult where
  fills := s.fills
  fillsSeen := s.fillsSeen
  fillsDeduped := s.fillsDeduped
  cursorAfter := if 0 < s.maxTsMs then some s.maxTsMs else none
  lastSeenFillId := s.lastSeenFillId
  lastSeenTsMs := s.lastSeenTsMs

def fetchNewFills (config : Config) (cursors : Dict ℤ) (getRecentFills : RecentFills)
    (now : DateTime) (symbol : String) : Except FetchError FetchFillsResult :=
  let storedCursor := cursors[fillsCursorKey symbol]?
  let since := sinceMs config storedCursor now
  match getRecentFills symbol since with
  | .error message => .error (.exchange message)
  | .ok incoming =>
    -- an aware and a naive timestamp do not compare
    if incoming.any fun trade => !trade.ts.aware then .error .naiveTimestamp
    else
      let recent := incoming.filter fun trade => (config.time.ofMs since).micros ≤ trade.ts.micros
      .ok (fetchResult ((recent.insertionSort SeenBefore).foldl (fetchStep config.time)
        { maxTsMs := storedCursor.getD 0 }))

end Fetch

section Transaction

inductive TxError where
  | sqlite
  | oversellDetected (symbol : String) (positionQty fillQty : ℚ)
  | cursorMonotonicityViolation (key : String) (previous next : ℤ)
  | databaseIsLocked
  deriving DecidableEq, Repr

/-- The store under an open transaction and the statements left before one fails. -/
structure Tx where
  store : Store
  statementsLeft : Option ℕ

abbrev TxM := EStateM TxError Tx

def statement {α : Type} (f : Store → α × Store) : TxM α := do
  let tx ← get
  if tx.statementsLeft = some 0 then throw .sqlite
  else
    let (result, store) := f tx.store
    set (Tx.mk store (tx.statementsLeft.map (· - 1)))
    pure result

def selectFrom {α : Type} (f : Store → α) : TxM α := statement fun store => (f store, store)

def write (f : Store → Store) : TxM Unit := statement fun store => ((), f store)

/-- An inner transaction runs on the connection of the outer one. -/
def appendEvent (event : LedgerEvent) : TxM Bool :=
  statement fun store =>
    let (rows, inserted) := insertOrIgnore store.ledgerEvents event
    (inserted, { store with ledgerEvents := rows })

def appendLedgerEvents (events : List LedgerEvent) : TxM AppendResult := do
  let inserted ← events.foldlM (fun inserted event => do
    let hit ← appendEvent event
    pure (inserted + hit.toNat)) 0
  pure ⟨events.length, inserted, events.length - inserted⟩

/-- The fill id the ledger uses. -/
def ledgerFillId (time : EpochTime) (fill : Fill) : String :=
  let fillId := strip fill.fillId
  if fillId = "" then
    fallbackFillId fill.orderId (time.ms fill.ts) fill.price fill.qty fill.side
  else fillId

def fillEvent (time : EpochTime) (fill : Fill) : LedgerEvent where
  eventId := "fill:" ++ ledgerFillId time fill
  ts := { fill.ts with aware := true }
  symbol := normalizeSymbol fill.symbol
  type := .fill
  side := some fill.side.toUpper
  qty := fill.qty.value
  price := some fill.price.value
  fee := none
  feeCurrency := none
  exchangeTradeId := some (ledgerFillId time fill)
  clientOrderId := none

def feeEvent (time : EpochTime) (fill : Fill) : LedgerEvent where
  eventId := "fee:" ++ ledgerFillId time fill
  ts := { fill.ts with aware := true }
  symbol := normalizeSymbol fill.symbol
  type := .fee
  side := none
  qty := 0
  price := none
  fee := some fill.fee
  feeCurrency := some fill.feeAsset.toUpper
  exchangeTradeId := some ("fee:" ++ ledgerFillId time fill)
  clientOrderId := none

def fillEvents (time : EpochTime) (fill : Fill) : List LedgerEvent :=
  if 0 < fill.fee then [fillEvent time fill, feeEvent time fill] else [fillEvent time fill]

def ingestExchangeUpdates (time : EpochTime) (fills : List Fill) : TxM AppendResult :=
  appendLedgerEvents (fills.flatMap (fillEvents time))

/-- Mark prices in the order of the dict. -/
abbrev MarkPrices := List (String × ℚ)

def MarkPrices.normalized (markPrices : MarkPrices) : Dict ℚ :=
  markPrices.foldl (fun marks entry => marks.insert (normalizeSymbol entry.1) entry.2) ∅

def convertFeeToTry (feeAsset : String) (feeAmount : ℚ) (markPrices : MarkPrices) :
    ℚ × Option String :=
  let currency := feeAsset.toUpper
  if feeAmount ≤ 0 then (0, none)
  else if currency = "TRY" then (feeAmount, none)
  else
    let direct := markPrices.normalized[normalizeSymbol (currency ++ "TRY")]?.getD 0
    let inverse := markPrices.normalized[normalizeSymbol ("TRY" ++ currency)]?.getD 0
    if 0 < direct then (feeAmount * direct, none)
    else if 0 < inverse then (feeAmount / inverse, none)
    else (0, some ("missing_fee_conversion:" ++ currency))

def markFillApplied (fillId : String) : TxM Bool :=
  statement fun store =>
    if fillId ∈ store.appliedFills then (false, store)
    else (true, { store with appliedFills := fillId :: store.appliedFills })

def saveStage4Fill (fill : Fill) : TxM Bool :=
  statement fun store =>
    if store.stage4Fills.any fun saved => saved.fillId = fill.fillId then (false, store)
    else (true, { store with
      stage4Fills := { fill with symbol := normalizeSymbol fill.symbol } :: store.stage4Fills })

def getStage4Position (symbol : String) : TxM (Option Position) :=
  selectFrom fun store => store.stage4Positions[normalizeSymbol symbol]?

def saveStage4Position (position : Position) : TxM Unit :=
  write fun store =>
    { store with
      stage4Positions := store.stage4Positions.insert (normalizeSymbol position.symbol)
        { position with symbol := normalizeSymbol position.symbol } }

def newPosition (fill : Fill) : Position := ⟨fill.symbol, 0, 0, 0, fill.ts⟩

def isBuy (fill : Fill) : Prop := fill.side.toLower = "buy"

instance (fill : Fill) : Decidable (isBuy fill) := by unfold isBuy; infer_instance

/-- A position after a fill, its fee in TRY. -/
def fillPosition (position : Position) (fill : Fill) (feeTry : ℚ) : Except TxError Position :=
  if isBuy fill then
    let totalCost :=
      position.avgCostTry * position.qty + fill.price.value * fill.qty.value + feeTry
    let newQty := position.qty + fill.qty.value
    .ok { symbol := position.symbol
          qty := newQty
          avgCostTry := if 0 < newQty then totalCost / newQty else 0
          realizedPnlTry := position.realizedPnlTry
          lastUpdateTs := fill.ts }
  else if position.qty < fill.qty.value then
    .error (.oversellDetected fill.symbol position.qty fill.qty.value)
  else
    let realized := (fill.price.value - position.avgCostTry) * fill.qty.value - feeTry
    let remaining := position.qty - fill.qty.value
    .ok { symbol := position.symbol
          qty := remaining
          avgCostTry := if 0 < remaining then position.avgCostTry else 0
          realizedPnlTry := position.realizedPnlTry + realized
          lastUpdateTs := fill.ts }

def applyFill (markPrices : MarkPrices) (feeNotes : List String) (fill : Fill) :
    TxM (List String) := do
  let fresh ← markFillApplied fill.fillId
  if fresh then
    let _ ← saveStage4Fill fill
    let stored ← getStage4Position fill.symbol
    let (feeTry, feeNote) := convertFeeToTry fill.feeAsset fill.fee markPrices
    match fillPosition (stored.getD (newPosition fill)) fill feeTry with
    | .ok position =>
      saveStage4Position position
      pure (feeNotes ++ (feeNote.map (· ++ ":" ++ fill.fillId)).toList)
    | .error error => throw error
  else pure feeNotes

def dayMicros : ℤ := 86400000000

def dayStartOf (now : DateTime) : DateTime := ⟨now.micros - now.micros % dayMicros, true⟩

/-- The first snapshot of the day. -/
def realizedTotalAtDayStart (dayStart : DateTime) : TxM ℚ :=
  selectFrom fun store =>
    let today := store.pnlSnapshots.filter fun snapshot => dayStart.micros ≤ snapshot.ts.micros
    ((today.insertionSort fun a b => a.ts.micros ≤ b.ts.micros).head?.map
      PnLSnapshot.realizedTotalTry).getD 0

def computeDrawdownPct (equityNow : ℚ) : TxM ℚ :=
  selectFrom fun store =>
    let peak := (store.pnlSnapshots.map PnLSnapshot.totalEquityTry).foldr max equityNow
    if peak ≤ 0 then 0 else max 0 ((peak - equityNow) / peak * 100)

def saveStage4PnlSnapshot (snapshot : PnLSnapshot) : TxM Unit :=
  write fun store => { store with pnlSnapshots := store.pnlSnapshots ++ [snapshot] }

/-- The audit goes through a connection of its own, which waits for the write
lock of the open transaction until it times out. -/
def recordCycleAudit (_counts : ℕ) (_decisions : List String) : TxM Unit :=
  throw .databaseIsLocked

structure PnlInput where
  markPrices : MarkPrices
  tryCash : ℚ
  appliedAt : DateTime
  snapshotAt : DateTime

def takePnlSnapshot (input : PnlInput) : TxM PnLSnapshot := do
  let positions ← selectFrom fun store => store.stage4Positions.toList.map Prod.snd
  let realizedTotal := (positions.map Position.realizedPnlTry).sum
  let held := positions.map fun position =>
    position.qty *
      (input.markPrices.lookup (normalizeSymbol position.symbol)).getD position.avgCostTry
  let totalEquity := input.tryCash + held.sum
  let baseline ← realizedTotalAtDayStart (dayStartOf input.appliedAt)
  let drawdown ← computeDrawdownPct totalEquity
  let snapshot : PnLSnapshot :=
    { totalEquityTry := totalEquity
      realizedTodayTry := realizedTotal - baseline
      drawdownPct := drawdown
      ts := input.snapshotAt
      realizedTotalTry := realizedTotal }
  saveStage4PnlSnapshot snapshot
  pure snapshot

def applyFills (fills : List Fill) (input : PnlInput) : TxM PnLSnapshot := do
  let feeNotes ← fills.foldlM (applyFill input.markPrices) []
  let snapshot ← takePnlSnapshot input
  if feeNotes ≠ [] then recordCycleAudit fills.length feeNotes else pure ()
  pure snapshot

/-- Only texts of digits are compared: the text of a negative integer is none. -/
def setCursor (key : String) (value : ℤ) : TxM Unit := do
  let current ← selectFrom fun store => store.cursors[key]?
  match current with
  | some previous =>
    if 0 ≤ previous ∧ 0 ≤ value ∧ value < previous then
      throw (.cursorMonotonicityViolation key previous value)
    else write fun store => { store with cursors := store.cursors.insert key value }
  | none => write fun store => { store with cursors := store.cursors.insert key value }

end Transaction

section Cycle

/-- What a cycle meets: the symbols, the exchange's answers, the prices, the
clocks, and how many statements of its transaction run before one fails. -/
structure CycleInput where
  activeSymbols : List String
  failedSymbols : List String
  getRecentFills : RecentFills
  fetchedAt : String → DateTime
  pnl : PnlInput
  statementsLeft : Option ℕ

structure FetchedFills where
  fills : List Fill
  cursorAfterBySymbol : List (String × ℤ)
  failedSymbols : List String

/-- An entry of a dict kept in insertion order. -/
def setEntry (entries : List (String × ℤ)) (key : String) (value : ℤ) : List (String × ℤ) :=
  if entries.any (·.1 == key) then
    entries.map fun entry => if entry.1 = key then (key, value) else entry
  else entries ++ [(key, value)]

def fetchSymbol (config : Config) (cursors : Dict ℤ) (input : CycleInput)
    (fetched : FetchedFills) (symbol : String) : FetchedFills :=
  match fetchNewFills config cursors input.getRecentFills (input.fetchedAt symbol) symbol with
  | .ok result =>
    { fetched with
      fills := fetched.fills ++ result.fills
      cursorAfterBySymbol := match result.cursorAfter with
        | some cursorAfter =>
          setEntry fetched.cursorAfterBySymbol (normalizeSymbol symbol) cursorAfter
        | none => fetched.cursorAfterBySymbol }
  | .error _ =>
    { fetched with failedSymbols := normalizeSymbol symbol :: fetched.failedSymbols }

def fetchFills (config : Config) (cursors : Dict ℤ) (input : CycleInput) : FetchedFills :=
  input.activeSymbols.foldl (fetchSymbol config cursors input) ⟨[], [], input.failedSymbols⟩

def saveCursors (fetched : FetchedFills) : TxM Unit :=
  fetched.cursorAfterBySymbol.foldlM (fun _ entry =>
    if entry.1 ∈ fetched.failedSymbols then pure ()
    else setCursor (fillsCursorKey entry.1) entry.2) ()

/-- The body of the fills transaction and its commit. -/
def applyFetched (config : Config) (input : CycleInput) (fetched : FetchedFills) :
    TxM (AppendResult × PnLSnapshot) := do
  let ledgerIngest ← ingestExchangeUpdates config.time fetched.fills
  let snapshot ← applyFills fetched.fills input.pnl
  saveCursors fetched
  write id
  pure (ledgerIngest, snapshot)

/-- The fills of one cycle: an aborted transaction leaves the store as it was. -/
def runCycle (config : Config) (store : Store) (input : CycleInput) :
    Except TxError (AppendResult × PnLSnapshot) × Store :=
  let fetched := fetchFills config store.cursors input
  let (result, tx) := atomically (applyFetched config input fetched) ⟨store, input.statementsLeft⟩
  (result, tx.store)

def stepCycle (config : Config) (store : Store) (input : CycleInput) : Store :=
  (runCycle config store input).2

def runCycles (config : Config) (store : Store) (inputs : List CycleInput) : Store :=
  Runs.run (stepCycle config) store inputs

end Cycle

end Stage4Accounting
