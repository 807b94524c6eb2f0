import Btcbot.Ledger
import Btcbot.Runs

/-!
# The ledger table and the incremental reducer

Rows are kept in rowid order. An insert is ignored when the event id, the
exchange trade id or the fallback fill key is taken. A checkpoint holds the
snapshot of the events folded so far for its scope and the last rowid among them.
-/
namespace LedgerStore

open PyData Ledger

structure LedgerRow where
  rowid : ℕ
  event : LedgerEvent
  deriving DecidableEq, Repr

def latestRowid (rows : List LedgerRow) : ℕ := rows.foldr (fun row last => max row.rowid last) 0

/-- The columns an event is stored in. -/
def storedEvent (event : LedgerEvent) : LedgerEvent :=
  { event with ts := ensureUtc event.ts, symbol := normalizeSymbol event.symbol }

/-- The unique key of a fill without an exchange trade id: the price and the quantity are
stored as texts, so `1` and `1.0` are different keys. -/
def fallbackFillKey (event : LedgerEvent) :
    Option (String × String × String × (String × String) × DateTime) :=
  match event.type, event.exchangeTradeId, event.clientOrderId, event.side, event.price with
  | .fill, none, some clientOrderId, some side, some _ =>
    event.printed.map fun printed => (clientOrderId, event.symbol, side, printed, event.ts)
  | _, _, _, _, _ => none

/-- The primary key and the two unique indexes. -/
def conflicts (a b : LedgerEvent) : Bool :=
  a.eventId == b.eventId ||
    (a.exchangeTradeId.isSome && a.exchangeTradeId == b.exchangeTradeId) ||
    ((fallbackFillKey a).isSome && fallbackFillKey a == fallbackFillKey b)

def insertOrIgnore (rows : List LedgerRow) (event : LedgerEvent) : List LedgerRow × Bool :=
  if rows.any fun row => conflicts row.event (storedEvent event) then (rows, false)
  else (rows ++ [⟨latestRowid rows + 1, storedEvent event⟩], true)

structure AppendResult where
  attempted : ℕ
  inserted : ℕ
  ignored : ℕ
  deriving DecidableEq, Repr

theorem le_latestRowid {rows : List LedgerRow} {row : LedgerRow} (h : row ∈ rows) :
    row.rowid ≤ latestRowid rows := by
  induction rows with
  | nil => cases h
  | cons first rest ih =>
    simp only [latestRowid, List.foldr_cons] at ih ⊢
    rcases List.mem_cons.mp h with rfl | h
    · exact le_max_left _ _
    · exact (ih h).trans (le_max_right _ _)

theorem latestRowid_append_le (rows more : List LedgerRow) :
    latestRowid rows ≤ latestRowid (rows ++ more) := by
  induction rows with
  | nil => exact Nat.zero_le _
  | cons first rest ih => exact max_le_max_left first.rowid ih

def insertAll (rows : List LedgerRow) : List LedgerEvent → List LedgerRow × ℕ
  | [] => (rows, 0)
  | event :: events =>
    let (next, hit) := insertOrIgnore rows event
    let (final, inserted) := insertAll next events
    (final, hit.toNat + inserted)

def appendLedgerEvents (rows : List LedgerRow) (events : List LedgerEvent) :
    List LedgerRow × AppendResult :=
  let (final, inserted) := insertAll rows events
  (final, ⟨events.length, inserted, events.length - inserted⟩)

/-- Rows in rowid order, no two of one event, each as stored. -/
structure TableWf (rows : List LedgerRow) : Prop where
  rowids : rows.Pairwise fun a b => a.rowid < b.rowid
  positive : ∀ row ∈ rows, 0 < row.rowid
  events : rows.Pairwise fun a b => conflicts a.event b.event = false
  stored : ∀ row ∈ rows, ensureUtc row.event.ts = row.event.ts

theorem TableWf.nil : TableWf [] :=
  ⟨List.Pairwise.nil, fun _ h => absurd h List.not_mem_nil, List.Pairwise.nil,
    fun _ h => absurd h List.not_mem_nil⟩

/-- An event id names one row. -/
theorem TableWf.row_eq {rows : List LedgerRow} (h : TableWf rows) {a b : LedgerRow}
    (ha : a ∈ rows) (hb : b ∈ rows) (hid : a.event.eventId = b.event.eventId) : a = b := by
  have hne : rows.Pairwise fun a b => a.event.eventId ≠ b.event.eventId :=
    h.events.imp fun {a b} hc heq => by simp [conflicts, heq] at hc
  have hsymm : Std.Symm fun a b : LedgerRow => a.event.eventId ≠ b.event.eventId :=
    ⟨fun _ _ h => Ne.symm h⟩
  by_contra hab
  exact hne.forall ha hb hab hid

theorem insertOrIgnore_cases (rows : List LedgerRow) (event : LedgerEvent) :
    insertOrIgnore rows event = (rows, false) ∨
      (insertOrIgnore rows event =
          (rows ++ [⟨latestRowid rows + 1, storedEvent event⟩], true) ∧
        ∀ row ∈ rows, conflicts row.event (storedEvent event) = false) := by
  simp only [insertOrIgnore]
  split
  · exact .inl rfl
  · next h =>
    refine .inr ⟨rfl, fun row hrow => ?_⟩
    simp only [List.any_eq_true, not_exists, not_and, Bool.not_eq_true] at h
    exact h row hrow

theorem TableWf.insertOrIgnore {rows : List LedgerRow} (h : TableWf rows) (event : LedgerEvent) :
    TableWf (insertOrIgnore rows event).1 := by
  rcases insertOrIgnore_cases rows event with he | ⟨he, hfree⟩
  · rw [he]
    exact h
  · rw [he]
    refine ⟨?_, ?_, ?_, ?_⟩
    · refine List.pairwise_append.mpr ⟨h.rowids, List.pairwise_singleton _ _, ?_⟩
      intro row hrow last hlast
      rw [List.mem_singleton.mp hlast]
      exact Nat.lt_succ_of_le (le_latestRowid hrow)
    · intro row hrow
      rcases List.mem_append.mp hrow with hrow | hrow
      · exact h.positive row hrow
      · rw [List.mem_singleton.mp hrow]
        exact Nat.succ_pos _
    · refine List.pairwise_append.mpr ⟨h.events, List.pairwise_singleton _ _, ?_⟩
      intro row hrow last hlast
      rw [List.mem_singleton.mp hlast]
      exact hfree row hrow
    · intro row hrow
      rcases List.mem_append.mp hrow with hrow | hrow
      · exact h.stored row hrow
      · rw [List.mem_singleton.mp hrow]
        rfl

theorem TableWf.insertAll {rows : List LedgerRow} (h : TableWf rows)
    (events : List LedgerEvent) : TableWf (insertAll rows events).1 := by
  induction events generalizing rows with
  | nil => exact h
  | cons event events ih => exact ih (h.insertOrIgnore event)

/-- An append on top of an append. -/
theorem insertAll_append (rows : List LedgerRow) (events more : List LedgerEvent) :
    (insertAll rows (events ++ more)).1 = (insertAll (insertAll rows events).1 more).1 := by
  induction events generalizing rows with
  | nil => rfl
  | cons event events ih => exact ih (insertOrIgnore rows event).1

/-- An append only adds rows, all past the last rowid. -/
theorem insertAll_extends (rows : List LedgerRow) (events : List LedgerEvent) :
    ∃ more, (insertAll rows events).1 = rows ++ more ∧
      ∀ row ∈ more, latestRowid rows < row.rowid := by
  induction events generalizing rows with
  | nil => exact ⟨[], by simp [insertAll]⟩
  | cons event events ih =>
    obtain ⟨more, hmore, hlast⟩ := ih (insertOrIgnore rows event).1
    rcases insertOrIgnore_cases rows event with he | ⟨he, -⟩
    · rw [he] at hmore hlast
      exact ⟨more, by simpa [insertAll, he] using hmore, hlast⟩
    · rw [he] at hmore hlast
      refine ⟨⟨latestRowid rows + 1, storedEvent event⟩ :: more,
        by simpa [insertAll, he] using hmore, ?_⟩
      intro row hrow
      rcases List.mem_cons.mp hrow with rfl | hrow
      · exact Nat.lt_succ_self _
      · exact lt_of_le_of_lt (latestRowid_append_le rows _) (hlast row hrow)

def loadLedgerEvents (rows : List LedgerRow) : List LedgerEvent :=
  sortEvents (rows.map LedgerRow.event)

def rowsAfter (rows : List LedgerRow) (lastRowid : ℕ) : List LedgerRow :=
  rows.filter fun row => lastRowid < row.rowid

def loadLedgerEventsAfterRowid (rows : List LedgerRow) (lastRowid : ℕ) : List LedgerEvent × ℕ :=
  let hits := rowsAfter rows lastRowid
  (hits.map LedgerRow.event, (hits.getLast?.map LedgerRow.rowid).getD lastRowid)

section Snapshot

structure LotPayload where
  qty : ℚ
  unitCost : ℚ
  openedAt : DateTime
  deriving DecidableEq, Repr

structure SymbolPayload where
  lots : List LotPayload
  realizedPnl : ℚ
  deriving DecidableEq, Repr

/-- The snapshot text as the value it parses to. -/
structure SnapshotPayload where
  symbols : Dict SymbolPayload
  feesByCurrency : Dict ℚ

def serializeLedgerState (state : LedgerState) : SnapshotPayload where
  symbols := state.symbols.map fun _ ledger =>
    ⟨ledger.lots.map fun lot => ⟨lot.qty, lot.unitCost, ensureUtc lot.openedAt⟩,
      ledger.realizedPnl⟩
  feesByCurrency := state.feesByCurrency

def deserializeLedgerState (payload : SnapshotPayload) : LedgerState where
  symbols := payload.symbols.map fun symbol ledger =>
    ⟨symbol, ledger.lots.map fun lot => ⟨symbol, lot.qty, lot.unitCost, ensureUtc lot.openedAt⟩,
      ledger.realizedPnl⟩
  feesByCurrency := payload.feesByCurrency

/-- A lot filed under its symbol, opened at a stored time. -/
def LotFiled (symbol : String) (lot : PositionLot) : Prop :=
  lot.symbol = symbol ∧ ensureUtc lot.openedAt = lot.openedAt

def LedgerFiled (symbol : String) (ledger : SymbolLedger) : Prop :=
  ledger.symbol = symbol ∧ ∀ lot ∈ ledger.lots, LotFiled symbol lot

def Filed (state : LedgerState) : Prop :=
  ∀ symbol ledger, state.symbols[symbol]? = some ledger → LedgerFiled symbol ledger

theorem LotFiled.restored {symbol : String} {lot : PositionLot} (h : LotFiled symbol lot) :
    (⟨symbol, lot.qty, lot.unitCost, ensureUtc (ensureUtc lot.openedAt)⟩ : PositionLot) = lot := by
  obtain ⟨hs, ht⟩ := h
  cases lot
  simp_all

theorem LedgerFiled.restored {symbol : String} {ledger : SymbolLedger}
    (h : LedgerFiled symbol ledger) :
    (⟨symbol, (ledger.lots.map fun lot =>
        (⟨lot.qty, lot.unitCost, ensureUtc lot.openedAt⟩ : LotPayload)).map fun lot =>
          ⟨symbol, lot.qty, lot.unitCost, ensureUtc lot.openedAt⟩, ledger.realizedPnl⟩ :
      SymbolLedger) = ledger := by
  obtain ⟨hs, hl⟩ := h
  have hlots : (ledger.lots.map fun lot =>
      (⟨symbol, lot.qty, lot.unitCost, ensureUtc (ensureUtc lot.openedAt)⟩ : PositionLot)) =
      ledger.lots := by
    calc (ledger.lots.map fun lot =>
        (⟨symbol, lot.qty, lot.unitCost, ensureUtc (ensureUtc lot.openedAt)⟩ : PositionLot))
        = ledger.lots.map id := List.map_congr_left fun lot hlot => (hl lot hlot).restored
      _ = ledger.lots := List.map_id _
  rw [List.map_map]
  cases ledger
  simp_all [Function.comp_def]

/-- A snapshot of a filed state is read back whole. -/
theorem deserialize_serialize {state : LedgerState} (h : Filed state) :
    deserializeLedgerState (serializeLedgerState state) = state := by
  have hsymbols : (deserializeLedgerState (serializeLedgerState state)).symbols =
      state.symbols := by
    refine Dict.ext fun symbol => ?_
    simp only [deserializeLedgerState, serializeLedgerState, Std.ExtTreeMap.getElem?_map,
      Option.map_map]
    cases hl : state.symbols[symbol]? with
    | none => rfl
    | some ledger =>
      simp only [Option.map_some, Function.comp_apply, Option.some.injEq]
      exact (h symbol ledger hl).restored
  cases state
  simp only [deserializeLedgerState, serializeLedgerState] at hsymbols ⊢
  rw [hsymbols]

end Snapshot

def ledgerReducerSnapshotVersion : ℕ := 1

structure LedgerReducerCheckpoint where
  lastRowid : ℕ
  snapshotJson : SnapshotPayload
  snapshotVersion : ℕ

structure Store where
  ledgerEvents : List LedgerRow := []
  ledgerReducerCheckpoints : Dict LedgerReducerCheckpoint := ∅

structure LoadInfo where
  lastRowid : ℕ
  usedCheckpoint : Bool
  appliedEvents : ℕ
  deriving DecidableEq, Repr

/-- The state and cursor a load starts from. -/
def restoreCheckpoint (store : Store) (scopeId : String) : LedgerState × ℕ × Bool :=
  match store.ledgerReducerCheckpoints[scopeId]? with
  | some checkpoint =>
    if checkpoint.snapshotVersion = ledgerReducerSnapshotVersion then
      (deserializeLedgerState checkpoint.snapshotJson, checkpoint.lastRowid, true)
    else ({}, 0, false)
  | none => ({}, 0, false)

def upsertLedgerCheckpoint (store : Store) (scopeId : String)
    (checkpoint : LedgerReducerCheckpoint) : Store :=
  { store with
    ledgerReducerCheckpoints := store.ledgerReducerCheckpoints.insert scopeId checkpoint }

def loadStateIncremental (store : Store) (scopeId : String) :
    Except LedgerError ((LedgerState × LoadInfo) × Store) := do
  let (restored, cursor, usedCheckpoint) := restoreCheckpoint store scopeId
  let (newEvents, batchMaxRowid) := loadLedgerEventsAfterRowid store.ledgerEvents cursor
  let state ← if newEvents = [] then .ok restored else applyEvents restored newEvents none
  let appliedEvents := newEvents.length
  if appliedEvents = 0 ∧ usedCheckpoint then .ok ((state, ⟨cursor, true, 0⟩), store)
  else
    let newLastRowid := if 0 < appliedEvents then batchMaxRowid else cursor
    .ok ((state, ⟨newLastRowid, usedCheckpoint, appliedEvents⟩),
      upsertLedgerCheckpoint store scopeId
        ⟨newLastRowid, serializeLedgerState state, ledgerReducerSnapshotVersion⟩)

inductive LedgerOp where
  | appendLedgerEvents (events : List LedgerEvent)
  | loadStateIncremental (scopeId : String)

/-- A load that raises leaves the store as it was. -/
def stepOp (store : Store) : LedgerOp → Store
  | .appendLedgerEvents events =>
    { store with ledgerEvents := (appendLedgerEvents store.ledgerEvents events).1 }
  | .loadStateIncremental scopeId =>
    match loadStateIncremental store scopeId with
    | .ok (_, next) => next
    | .error _ => store

def runOps (store : Store) (ops : List LedgerOp) : Store := Runs.run stepOp store ops

end LedgerStore
