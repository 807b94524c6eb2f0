import Btcbot.LedgerOrder
import Btcbot.LedgerStore

/-!
# The incremental ledger against full replay

A load folds the rows past its checkpoint, sorted among themselves, onto the
snapshot; full replay sorts all rows. A checkpoint is the full replay of the
rows up to its cursor as long as every load folds no row that sorts before a
folded one it clashes with. A late fill is such a row, and there the two differ.
-/
namespace LedgerReplay

open PyData Money Ledger LedgerOrder LedgerStore
open SortedFold (foldlM_insertionSort_append insertionSort_perm_eq foldlM_induct)

def rowsUpTo (rows : List LedgerRow) (cursor : ℕ) : List LedgerRow :=
  rows.filter fun row => ¬ cursor < row.rowid

/-- The rows the reducer has folded at a cursor, and full replay of a list of rows. -/
def replay (rows : List LedgerRow) : Option LedgerState :=
  (sortEvents (rows.map LedgerRow.event)).foldlM reduce {}

theorem replay_eq (rows : List LedgerRow) :
    replay rows = (applyEvents {} (loadLedgerEvents rows) none).toOption := by
  have hsorted : sortEvents (loadLedgerEvents rows) = sortEvents (rows.map LedgerRow.event) :=
    (List.pairwise_insertionSort SortsBefore (rows.map LedgerRow.event)).insertionSort_eq
  rw [applyEvents_toOption, hsorted, replay]

section Split

variable {rows : List LedgerRow}

theorem sorts_antisymm (h : TableWf rows) :
    ∀ a ∈ rows.map LedgerRow.event, ∀ b ∈ rows.map LedgerRow.event,
      SortsBefore a b → SortsBefore b a → a = b := by
  intro a ha b hb hab hba
  obtain ⟨ra, hra, rfl⟩ := List.mem_map.mp ha
  obtain ⟨rb, hrb, rfl⟩ := List.mem_map.mp hb
  have hkey : ra.event.key = rb.event.key := le_antisymm hab hba
  have hid : ra.event.eventId = rb.event.eventId :=
    congrArg (fun k => (ofLex k).2) hkey
  rw [h.row_eq hra hrb hid]

/-- No new row sorts before a folded one it clashes with. -/
def InOrder (rows : List LedgerRow) (cursor : ℕ) : Prop :=
  ∀ folded ∈ rowsUpTo rows cursor, ∀ late ∈ rowsAfter rows cursor,
    SortsBefore late.event folded.event → ¬ Clash folded.event late.event

instance (rows : List LedgerRow) (cursor : ℕ) : Decidable (InOrder rows cursor) :=
  inferInstanceAs (Decidable (∀ folded ∈ _, ∀ late ∈ _, _ → _))

/-- Full replay in two passes, the folded rows first. -/
theorem replay_split (h : TableWf rows) {cursor : ℕ} (hin : InOrder rows cursor) :
    replay rows = (replay (rowsUpTo rows cursor)).bind fun state =>
      (sortEvents ((rowsAfter rows cursor).map LedgerRow.event)).foldlM reduce state := by
  have hperm : (rows.map LedgerRow.event).Perm
      ((rowsUpTo rows cursor).map LedgerRow.event ++
        (rowsAfter rows cursor).map LedgerRow.event) := by
    rw [← List.map_append]
    have hsplit := List.filter_append_perm (fun row : LedgerRow => decide (cursor < row.rowid)) rows
    have hswap := (List.perm_append_comm.trans hsplit).symm.map LedgerRow.event
    simpa only [rowsUpTo, rowsAfter, decide_not] using hswap
  have hanti := sorts_antisymm h
  have hsort := insertionSort_perm_eq SortsBefore hperm hanti
  have hanti' : ∀ a ∈ (rowsUpTo rows cursor).map LedgerRow.event ++
      (rowsAfter rows cursor).map LedgerRow.event,
      ∀ b ∈ (rowsUpTo rows cursor).map LedgerRow.event ++
        (rowsAfter rows cursor).map LedgerRow.event,
      SortsBefore a b → SortsBefore b a → a = b :=
    fun a ha b hb => hanti a (hperm.mem_iff.mpr ha) b (hperm.mem_iff.mpr hb)
  have hcommute : ∀ a ∈ (rowsUpTo rows cursor).map LedgerRow.event,
      ∀ b ∈ (rowsAfter rows cursor).map LedgerRow.event, ¬ SortsBefore a b →
        SortedFold.Commute reduce Reduced a b := by
    intro a ha b hb hnot
    obtain ⟨folded, hfolded, rfl⟩ := List.mem_map.mp ha
    obtain ⟨late, hlate, rfl⟩ := List.mem_map.mp hb
    have hbefore : SortsBefore late.event folded.event :=
      (Std.Total.total (r := SortsBefore) _ _).resolve_left hnot
    exact reduce_commute (hin folded hfolded late hlate hbefore)
  have hfold := foldlM_insertionSort_append SortsBefore reduce_keeps _ _ hanti' hcommute {}
    reduced_empty
  rw [List.foldlM_append] at hfold
  simp only [replay, sortEvents, hsort]
  exact hfold

end Split

section Filing

/-- A sale only drops lots and changes quantities. -/
theorem sellLoop_lots {policy : MoneyMathPolicy} {price : ℚ} {P : PositionLot → Prop}
    (hput : ∀ (lot : PositionLot) (qty : ℚ), P lot → P { lot with qty := qty }) (s : SellState)
    (h : ∀ lot ∈ s.lots, P lot) : ∀ lot ∈ (sellLoop policy price s).lots, P lot := by
  refine WhileLoop.run_induct (I := fun _ t => ∀ lot ∈ t.lots, P lot) (fun _ t _ ht => ?_)
    s.lots.length 0 s h
  simp only [sellBody]
  cases hl : t.lots with
  | nil =>
    rw [hl] at ht
    simp [hl]
  | cons lot rest =>
    rw [hl] at ht
    have hrest : ∀ l ∈ rest, P l := fun l hmem => ht l (List.mem_cons_of_mem lot hmem)
    intro l hmem
    simp only at hmem
    split at hmem
    · exact hrest l hmem
    · rcases List.mem_cons.mp hmem with rfl | hmem
      · exact hput lot _ (ht lot List.mem_cons_self)
      · exact hrest l hmem

theorem applyFill_lots {event : LedgerEvent} {current filled : SymbolLedger}
    {policy : MoneyMathPolicy} (hts : ensureUtc event.ts = event.ts)
    (h : ∀ lot ∈ current.lots, LotFiled event.symbol lot)
    (hok : applyFill policy event current = .ok filled) :
    ∀ lot ∈ filled.lots, LotFiled event.symbol lot := by
  cases ht : trade policy event with
  | none =>
    rw [applyFill_none ht, Except.ok.injEq] at hok
    exact hok ▸ h
  | some t =>
    cases t with
    | buy lot =>
      obtain ⟨hsym, -, hopened⟩ := trade_buy_lot ht
      rw [applyFill_buy ht, Except.ok.injEq] at hok
      subst hok
      intro l hl
      rcases List.mem_append.mp hl with hl | hl
      · exact h l hl
      · rw [List.mem_singleton.mp hl]
        exact ⟨hsym, by rw [hopened, hts]⟩
    | sell qty price =>
      rw [applyFill_sell ht] at hok
      split at hok
      · cases hok
      · cases hok
        exact sellLoop_lots (P := LotFiled event.symbol) (fun lot qty hlot => hlot) _ h

theorem applyAdjustment_lots (event : LedgerEvent) (current : SymbolLedger) :
    (applyAdjustment event current).lots = current.lots := by
  simp only [applyAdjustment]
  split <;> rfl

theorem reduce_filed {state next : LedgerState} {event : LedgerEvent}
    (hts : ensureUtc event.ts = event.ts) (h : Filed state)
    (hstep : reduce state event = some next) : Filed next := by
  have hok : applyEvent none state event = .ok next := by
    cases he : applyEvent none state event with
    | error e => simp [reduce, he, Except.toOption] at hstep
    | ok t =>
      simp only [reduce, he, Except.toOption, Option.some.injEq] at hstep
      rw [hstep]
  obtain ⟨filled, fees, hfill, -, rfl⟩ := applyEvent_ok hok
  have hcurrent : ∀ lot ∈ (state.ledger event.symbol).lots, LotFiled event.symbol lot := by
    intro lot hlot
    simp only [LedgerState.ledger, Std.ExtTreeMap.getD_eq_getD_getElem?] at hlot
    cases hl : state.symbols[event.symbol]? with
    | none => simp [hl] at hlot
    | some ledger =>
      rw [hl] at hlot
      exact (h event.symbol ledger hl).2 lot hlot
  intro symbol ledger hget
  simp only [Dict.insert_get] at hget
  split at hget
  · next hsym =>
    subst hsym
    cases hget
    refine ⟨rfl, ?_⟩
    rw [applyAdjustment_lots]
    exact applyFill_lots hts hcurrent hfill
  · exact h symbol ledger hget

theorem filed_empty : Filed {} := by
  intro symbol ledger h
  simp at h

theorem replay_filed {rows : List LedgerRow} (h : TableWf rows) {state : LedgerState}
    (hs : replay rows = some state) : Filed state := by
  refine foldlM_induct (I := Filed) _ (fun event hevent s t hfiled hstep => ?_) {} state
    filed_empty hs
  have hmem := (sortEvents_perm _).mem_iff.mp hevent
  obtain ⟨row, hrow, rfl⟩ := List.mem_map.mp hmem
  exact reduce_filed (h.stored row hrow) hfiled hstep

end Filing

section Loads

/-- A checkpoint is the full replay of the rows up to its cursor. -/
def CheckpointWf (rows : List LedgerRow) (checkpoint : LedgerReducerCheckpoint) : Prop :=
  checkpoint.snapshotVersion = ledgerReducerSnapshotVersion ∧
    checkpoint.lastRowid ≤ latestRowid rows ∧
    ∃ state, replay (rowsUpTo rows checkpoint.lastRowid) = some state ∧
      checkpoint.snapshotJson = serializeLedgerState state

structure StoreWf (store : Store) : Prop where
  table : TableWf store.ledgerEvents
  checkpoints : ∀ (scopeId : String) (checkpoint : LedgerReducerCheckpoint),
    store.ledgerReducerCheckpoints[scopeId]? = some checkpoint →
      CheckpointWf store.ledgerEvents checkpoint

theorem StoreWf.empty : StoreWf {} :=
  ⟨TableWf.nil, fun scopeId checkpoint h => by simp at h⟩

theorem TableWf_filter {rows : List LedgerRow} (h : TableWf rows) (p : LedgerRow → Bool) :
    TableWf (rows.filter p) :=
  ⟨h.rowids.filter p, fun row hrow => h.positive row (List.mem_filter.mp hrow).1,
    h.events.filter p, fun row hrow => h.stored row (List.mem_filter.mp hrow).1⟩

/-- What a load starts from is the full replay of the rows up to its cursor. -/
theorem StoreWf.restore {store : Store} (h : StoreWf store) (scopeId : String) :
    replay (rowsUpTo store.ledgerEvents (restoreCheckpoint store scopeId).2.1) =
      some (restoreCheckpoint store scopeId).1 ∧
    (restoreCheckpoint store scopeId).2.1 ≤ latestRowid store.ledgerEvents := by
  simp only [restoreCheckpoint]
  cases hc : store.ledgerReducerCheckpoints[scopeId]? with
  | none =>
    have hnone : rowsUpTo store.ledgerEvents 0 = [] := by
      refine List.filter_eq_nil_iff.mpr fun row hrow => ?_
      have hpos := h.table.positive row hrow
      simpa using hpos.ne'
    exact ⟨by simp [hnone, replay, sortEvents], Nat.zero_le _⟩
  | some checkpoint =>
    obtain ⟨hversion, hle, state, hstate, hjson⟩ := h.checkpoints scopeId checkpoint hc
    have hfiled : Filed state := replay_filed (TableWf_filter h.table _) hstate
    simp only [hversion, if_true, hjson, deserialize_serialize hfiled]
    exact ⟨hstate, hle⟩

/-- The cursor after a load. -/
def nextCursor (rows : List LedgerRow) (cursor : ℕ) : ℕ :=
  ((rowsAfter rows cursor).getLast?.map LedgerRow.rowid).getD cursor

theorem load_eq (store : Store) (scopeId : String) (restored : LedgerState) (cursor : ℕ)
    (used : Bool) (hr : restoreCheckpoint store scopeId = (restored, cursor, used)) :
    loadStateIncremental store scopeId =
      (applyEvents restored ((rowsAfter store.ledgerEvents cursor).map LedgerRow.event)
          none).map fun state =>
        if rowsAfter store.ledgerEvents cursor = [] ∧ used then
          ((state, ⟨cursor, true, 0⟩), store)
        else
          ((state, ⟨nextCursor store.ledgerEvents cursor, used,
              (rowsAfter store.ledgerEvents cursor).length⟩),
            upsertLedgerCheckpoint store scopeId
              ⟨nextCursor store.ledgerEvents cursor, serializeLedgerState state,
                ledgerReducerSnapshotVersion⟩) := by
  simp only [loadStateIncremental, hr, loadLedgerEventsAfterRowid, nextCursor]
  cases hnew : rowsAfter store.ledgerEvents cursor with
  | nil =>
    have hnil : applyEvents restored [] none = .ok restored := rfl
    simp only [List.map_nil, if_true, hnil, List.length_nil, true_and, List.getLast?_nil,
      Option.map_none, Option.getD_none, bind, Except.bind, Except.map]
    cases used <;> simp
  | cons row rest =>
    have hne : (row :: rest).map LedgerRow.event ≠ [] := by simp
    have hlen : (row :: rest).length ≠ 0 := by simp
    have hcons : row :: rest ≠ [] := by simp
    rw [if_neg hne]
    cases applyEvents restored ((row :: rest).map LedgerRow.event) none with
    | error e => rfl
    | ok state =>
      simp only [bind, Except.bind, Except.map, List.length_map, hlen, hcons, false_and, if_false,
        Nat.pos_of_ne_zero hlen, if_true]

/-- Past the last row there is nothing left to fold. -/
theorem rowsUpTo_nextCursor {rows : List LedgerRow} (h : TableWf rows) (cursor : ℕ) :
    rowsUpTo rows (nextCursor rows cursor) = rows := by
  refine List.filter_eq_self.mpr fun row hrow => ?_
  simp only [decide_eq_true_eq, not_lt, nextCursor]
  cases hlast : (rowsAfter rows cursor).getLast? with
  | none =>
    have hnil : rowsAfter rows cursor = [] := by simpa using hlast
    have hkeep := List.filter_eq_nil_iff.mp hnil row hrow
    simpa using hkeep
  | some last =>
    simp only [Option.map_some, Option.getD_some]
    have hmem := List.mem_of_getLast? hlast
    by_cases hc : cursor < row.rowid
    · have hrow' : row ∈ rowsAfter rows cursor := List.mem_filter.mpr ⟨hrow, by simpa using hc⟩
      obtain ⟨front, hfront⟩ := List.getLast?_eq_some_iff.mp hlast
      rw [hfront] at hrow'
      rcases List.mem_append.mp hrow' with hrow' | hrow'
      · have hsorted : (front ++ [last]).Pairwise fun a b => a.rowid < b.rowid := by
          rw [← hfront]
          exact h.rowids.filter _
        exact ((List.pairwise_append.mp hsorted).2.2 row hrow' last (by simp)).le
      · rw [List.mem_singleton.mp hrow']
    · have hlt : cursor < last.rowid := by simpa using (List.mem_filter.mp hmem).2
      omega

theorem nextCursor_le {rows : List LedgerRow} {cursor : ℕ} (h : cursor ≤ latestRowid rows) :
    nextCursor rows cursor ≤ latestRowid rows := by
  simp only [nextCursor]
  cases hlast : (rowsAfter rows cursor).getLast? with
  | none => simpa using h
  | some last =>
    exact le_latestRowid (List.mem_filter.mp (List.mem_of_getLast? hlast)).1

/-- A load in order computes full replay, or raises with it. -/
theorem load_replay {store : Store} (h : StoreWf store) (scopeId : String)
    (hin : InOrder store.ledgerEvents (restoreCheckpoint store scopeId).2.1) :
    (loadStateIncremental store scopeId).toOption.map (fun result => result.1.1) =
      replay store.ledgerEvents := by
  rw [replay_split h.table hin, (h.restore scopeId).1, Option.bind_some, ← applyEvents_toOption]
  rcases hr : restoreCheckpoint store scopeId with ⟨restored, cursor, used⟩
  rw [load_eq store scopeId restored cursor used hr]
  cases applyEvents restored ((rowsAfter store.ledgerEvents cursor).map LedgerRow.event)
      none with
  | error e => rfl
  | ok state =>
    simp only [Except.map, Except.toOption, Option.map_some]
    split <;> rfl

theorem StoreWf.append {store : Store} (h : StoreWf store) (events : List LedgerEvent) :
    StoreWf (stepOp store (.appendLedgerEvents events)) := by
  obtain ⟨more, hmore, hlast⟩ := insertAll_extends store.ledgerEvents events
  have hrows : (stepOp store (.appendLedgerEvents events)).ledgerEvents =
      store.ledgerEvents ++ more := by
    simpa [stepOp, appendLedgerEvents] using hmore
  refine ⟨?_, fun scopeId checkpoint hc => ?_⟩
  · have htable := h.table.insertAll events
    rwa [hmore, ← hrows] at htable
  · obtain ⟨hversion, hle, hstate⟩ := h.checkpoints scopeId checkpoint hc
    rw [hrows]
    have hsame : rowsUpTo (store.ledgerEvents ++ more) checkpoint.lastRowid =
        rowsUpTo store.ledgerEvents checkpoint.lastRowid := by
      have hnone : rowsUpTo more checkpoint.lastRowid = [] := by
        refine List.filter_eq_nil_iff.mpr fun row hrow => ?_
        have hlt := hlast row hrow
        simp only [decide_eq_true_eq, not_not]
        omega
      simp only [rowsUpTo] at hnone ⊢
      rw [List.filter_append, hnone, List.append_nil]
    exact ⟨hversion, hle.trans (latestRowid_append_le _ _), by rwa [hsame]⟩

theorem StoreWf.load {store : Store} (h : StoreWf store) (scopeId : String)
    (hin : InOrder store.ledgerEvents (restoreCheckpoint store scopeId).2.1) :
    StoreWf (stepOp store (.loadStateIncremental scopeId)) := by
  have hreplay := load_replay h scopeId hin
  obtain ⟨-, hle⟩ := h.restore scopeId
  rcases hr : restoreCheckpoint store scopeId with ⟨restored, cursor, used⟩
  rw [hr] at hle
  simp only [stepOp]
  rw [load_eq store scopeId restored cursor used hr] at hreplay ⊢
  cases happly : applyEvents restored ((rowsAfter store.ledgerEvents cursor).map LedgerRow.event)
      none with
  | error e => exact h
  | ok state =>
    simp only [happly, Except.map, Except.toOption, Option.map_some] at hreplay ⊢
    split at hreplay
    · next hidle =>
      rw [if_pos hidle]
      exact h
    · next hidle =>
      rw [if_neg hidle]
      refine ⟨h.table, fun other checkpoint hc => ?_⟩
      simp only [upsertLedgerCheckpoint, Dict.insert_get] at hc
      split at hc
      · cases hc
        refine ⟨rfl, nextCursor_le hle, state, ?_, rfl⟩
        simp only [upsertLedgerCheckpoint, rowsUpTo_nextCursor h.table]
        exact hreplay.symm
      · exact h.checkpoints other checkpoint hc

/-- A load folds no row it should have folded before. -/
def LoadInOrder (store : Store) : LedgerOp → Prop
  | .appendLedgerEvents _ => True
  | .loadStateIncremental scopeId =>
    InOrder store.ledgerEvents (restoreCheckpoint store scopeId).2.1

instance (store : Store) (op : LedgerOp) : Decidable (LoadInOrder store op) := by
  cases op with
  | appendLedgerEvents events => exact inferInstanceAs (Decidable True)
  | loadStateIncremental scopeId => exact inferInstanceAs (Decidable (InOrder _ _))

def LoadsInOrder (store : Store) (ops : List LedgerOp) : Prop :=
  Runs.Meets stepOp LoadInOrder store ops

theorem StoreWf.step {store : Store} (h : StoreWf store) (op : LedgerOp)
    (hin : LoadInOrder store op) : StoreWf (stepOp store op) := by
  cases op with
  | appendLedgerEvents events => exact h.append events
  | loadStateIncremental scopeId => exact h.load scopeId hin

theorem StoreWf.run (ops : List LedgerOp) (hin : LoadsInOrder {} ops) :
    StoreWf (runOps {} ops) :=
  Runs.run_meets (I := StoreWf) (fun _ op hs hok => StoreWf.step hs op hok) {} ops
    StoreWf.empty hin

end Loads

/-- In every run from the empty store whose loads are in order, a load that full replay
does not raise on returns exactly the replayed state. -/
theorem load_returns_replay (ops : List LedgerOp) (scopeId : String)
    (hin : LoadsInOrder {} (ops ++ [.loadStateIncremental scopeId])) (full : LedgerState)
    (hfull : applyEvents {} (loadLedgerEvents (runOps {} ops).ledgerEvents) none = .ok full) :
    ∃ info next, loadStateIncremental (runOps {} ops) scopeId = .ok ((full, info), next) := by
  obtain ⟨hops, hload, -⟩ := Runs.Meets.append ops [.loadStateIncremental scopeId] hin
  have hreplay := load_replay (StoreWf.run ops hops) scopeId hload
  rw [replay_eq, hfull] at hreplay
  cases hl : loadStateIncremental (runOps {} ops) scopeId with
  | error e => simp [hl, Except.toOption] at hreplay
  | ok result =>
    obtain ⟨⟨state, info⟩, next⟩ := result
    simp only [hl, Except.toOption, Option.map_some, Option.some.injEq] at hreplay
    exact ⟨info, next, by rw [hreplay]⟩

def sampleFill (eventId : String) (micros : ℤ) (symbol side : String) (qty price : ℚ) :
    LedgerEvent :=
  ⟨eventId, ⟨micros, true⟩, symbol, .fill, some side, qty, some price, none, none, some eventId,
    none, none⟩

/-- A late fill of another symbol does not disturb the checkpoint. -/
def sampleOps : List LedgerOp :=
  [.appendLedgerEvents [sampleFill "a" 2 "BTC_TRY" "BUY" 1 100], .loadStateIncremental "global",
    .appendLedgerEvents [sampleFill "b" 1 "ETH_TRY" "BUY" 2 50]]

theorem load_returns_replay_sample :
    ∃ full info next,
      applyEvents {} (loadLedgerEvents (runOps {} sampleOps).ledgerEvents) none = .ok full ∧
      loadStateIncremental (runOps {} sampleOps) "global" = .ok ((full, info), next) := by
  have hin : LoadsInOrder {} (sampleOps ++ [.loadStateIncremental "global"]) :=
    ⟨trivial, by decide +kernel, trivial, by decide +kernel, trivial⟩
  have hok : (applyEvents {} (loadLedgerEvents (runOps {} sampleOps).ledgerEvents)
      none).toOption.isSome = true := by decide +kernel
  cases hfull : applyEvents {} (loadLedgerEvents (runOps {} sampleOps).ledgerEvents) none with
  | error e => simp [hfull, Except.toOption] at hok
  | ok full =>
    obtain ⟨info, next, hload⟩ := load_returns_replay sampleOps "global" hin full hfull
    exact ⟨full, info, next, rfl, hload⟩

/-- A buy at 100 is folded before a buy at 50 that was filled earlier. -/
def lateFillOps : List LedgerOp :=
  [.appendLedgerEvents [sampleFill "b" 2 "BTC_TRY" "BUY" 1 100], .loadStateIncremental "global",
    .appendLedgerEvents [sampleFill "a" 1 "BTC_TRY" "BUY" 1 50,
      sampleFill "c" 3 "BTC_TRY" "SELL" 1 200]]

/-- Full replay sells the lot bought at 50, the incremental ledger the one bought at 100. -/
theorem late_fill_diverges :
    ¬ ∀ (ops : List LedgerOp) (scopeId : String) (full : LedgerState),
      applyEvents {} (loadLedgerEvents (runOps {} ops).ledgerEvents) none = .ok full →
        ∃ info next, loadStateIncremental (runOps {} ops) scopeId =
          .ok ((full, info), next) := by
  intro hall
  have hreplayed : (applyEvents {} (loadLedgerEvents (runOps {} lateFillOps).ledgerEvents)
      none).toOption.map (fun full => (full.ledger "BTCTRY").realizedPnl) = some 150 := by
    decide +kernel
  have hloaded : (loadStateIncremental (runOps {} lateFillOps) "global").toOption.map
      (fun result => (result.1.1.ledger "BTCTRY").realizedPnl) = some 100 := by
    decide +kernel
  cases hfull : applyEvents {} (loadLedgerEvents (runOps {} lateFillOps).ledgerEvents) none with
  | error e => simp [hfull, Except.toOption] at hreplayed
  | ok full =>
    obtain ⟨info, next, hload⟩ := hall lateFillOps "global" full hfull
    simp only [hfull, Except.toOption, Option.map_some, Option.some.injEq] at hreplayed
    simp only [hload, Except.toOption, Option.map_some, Option.some.injEq] at hloaded
    rw [hreplayed] at hloaded
    norm_num at hloaded

end LedgerReplay
