import Btcbot.Stage4Reconcile
import Mathlib.Data.List.Pairwise
import Mathlib.Data.List.Sort

/-!
# What a reconcile concludes from absence

A cycle reads the open orders of its active symbols, joins them with all open and
unknown orders of the store, and marks the stored ones it does not find. The join
leaves out the symbols whose read failed, not those that were never read.
-/
namespace Stage4Absence

open PyData Stage4Reconcile
open Stage4Store
  (OrderStatus OrderMode OrderRow statusText updateOrder nextId getStage4OrderByClientId)

section Table

/-- The status of a text the client reads off an answer. -/
def textStatus (text : String) : OrderStatus :=
  if text = "open" then .open
  else if text = "partial" then .partialFill
  else if text = "filled" then .filled
  else if text = "canceled" then .canceled
  else if text = "rejected" then .rejected
  else .unknown

/-- Client ids are unique where there are any, and symbols are spelled canonically. -/
structure OrderTable where
  rows : List OrderRow
  unique : (rows.filterMap OrderRow.clientOrderId).Nodup
  normal : ∀ row ∈ rows, normalizeSymbol row.symbol = row.symbol

def rowToStage4Order (row : OrderRow) : Order where
  symbol := row.symbol
  side := row.side
  type := "limit"
  price := row.price
  qty := row.qty
  status := statusText row.status
  createdAt := row.createdAt
  updatedAt := row.updatedAt
  exchangeOrderId := row.exchangeOrderId.filter (· ≠ "")
  clientOrderId := row.clientOrderId.filter (· ≠ "")
  exchangeClientId := row.exchangeClientId.filter (· ≠ "")
  mode := row.mode

/-- Open or of unknown outcome, and the bot's own. -/
def Pending (row : OrderRow) : Prop :=
  (row.status = .open ∨ row.status = .submitted ∨ row.status = .cancelRequested ∨
    row.status = .unknown) ∧ row.mode ≠ .external

instance : DecidablePred Pending := fun row => by unfold Pending; infer_instance

def listOrder (a b : OrderRow) : Prop :=
  a.symbol < b.symbol ∨ a.symbol = b.symbol ∧ (a.side < b.side ∨
    a.side = b.side ∧ a.createdAt ≤ b.createdAt)

instance : DecidableRel listOrder := fun a b => by unfold listOrder; infer_instance

/-- The orders of all symbols, those of unknown outcome included. -/
def listStage4OpenOrders (rows : List OrderRow) : List Order :=
  ((rows.filter Pending).insertionSort listOrder).map rowToStage4Order

def importedRow (rows : List OrderRow) (now : ℤ) (order : Order) : OrderRow where
  id := nextId rows
  symbol := normalizeSymbol order.symbol
  clientOrderId := order.clientOrderId
  exchangeClientId := none
  exchangeOrderId := order.exchangeOrderId
  side := order.side
  price := order.price
  qty := order.qty
  status := textStatus order.status
  mode := .external
  lastError := none
  lastErrorCode := none
  createdAt := now
  updatedAt := now

def importStage4ExternalOrder (now : ℤ) (rows : List OrderRow) (order : Order) :
    List OrderRow :=
  match order.exchangeOrderId with
  | none => rows
  | some exchangeOrderId =>
    match order.clientOrderId with
    | none => rows ++ [importedRow rows now order]
    | some clientOrderId =>
      if (getStage4OrderByClientId rows clientOrderId).isSome then
        updateOrder rows clientOrderId fun row =>
          { row with
            exchangeOrderId := row.exchangeOrderId.or (some exchangeOrderId)
            updatedAt := now }
      else rows ++ [importedRow rows now order]

def updateStage4OrderExchangeId (now : ℤ) (rows : List OrderRow) (ids : String × String) :
    List OrderRow :=
  updateOrder rows ids.1 fun row => { row with exchangeOrderId := some ids.2, updatedAt := now }

def markStage4UnknownClosed (now : ℤ) (rows : List OrderRow) (clientOrderId : String) :
    List OrderRow :=
  updateOrder rows clientOrderId fun row => { row with status := .unknownClosed, updatedAt := now }

end Table

section Cycle

/-- The symbols a cycle may not conclude on, and its reads in their order: an active symbol and
its open orders, none where the call raised. -/
structure ReconcileCycle where
  now : ℤ
  markPriceErrors : List String
  reads : List (String × Option (List Order))

def ReconcileCycle.exchangeOpenOrders (cycle : ReconcileCycle) : List Order :=
  cycle.reads.flatMap fun read => read.2.getD []

def ReconcileCycle.failedSymbols (cycle : ReconcileCycle) : List String :=
  cycle.markPriceErrors ++
    (cycle.reads.filter fun read => read.2.isNone).map fun read => normalizeSymbol read.1

def reconcileResult (cycle : ReconcileCycle) (rows : List OrderRow) : ReconcileResult :=
  resolve cycle.exchangeOpenOrders (listStage4OpenOrders rows) cycle.failedSymbols

/-- The writes of the reconcile step of a cycle. -/
def reconcileRows (cycle : ReconcileCycle) (rows : List OrderRow) : List OrderRow :=
  let result := reconcileResult cycle rows
  let imported := result.importExternal.foldl (importStage4ExternalOrder cycle.now) rows
  let enriched := result.enrichExchangeIds.foldl (updateStage4OrderExchangeId cycle.now) imported
  result.markUnknownClosed.foldl (markStage4UnknownClosed cycle.now) enriched

end Cycle

section Rows

/-- Rows stay where they are, under their client id and symbol, with the status given. -/
def Keeps (status : OrderRow → OrderStatus) (before after : List OrderRow) : Prop :=
  ∀ (i : ℕ) (row : OrderRow), before[i]? = some row → ∃ next : OrderRow, after[i]? = some next ∧
    next.clientOrderId = row.clientOrderId ∧ next.status = status row

theorem Keeps.refl (rows : List OrderRow) : Keeps OrderRow.status rows rows :=
  fun _ row hrow => ⟨row, hrow, rfl, rfl⟩

theorem Keeps.trans {status : OrderRow → OrderStatus} {a b c : List OrderRow}
    (hab : Keeps OrderRow.status a b) (hbc : Keeps status b c)
    (hstatus : ∀ row next : OrderRow, next.clientOrderId = row.clientOrderId →
      next.status = row.status → status next = status row) : Keeps status a c := by
  intro i row hrow
  obtain ⟨next, hnext, hid, hsame⟩ := hab i row hrow
  obtain ⟨last, hlast, hid', hstatus'⟩ := hbc i next hnext
  exact ⟨last, hlast, hid'.trans hid, hstatus'.trans (hstatus row next hid hsame)⟩

theorem keeps_updateOrder (rows : List OrderRow) (clientOrderId : String)
    {update : OrderRow → OrderRow} {status : OrderRow → OrderStatus}
    (hid : ∀ row, (update row).clientOrderId = row.clientOrderId)
    (hstatus : ∀ row, row.clientOrderId = some clientOrderId → (update row).status = status row)
    (hother : ∀ row, row.clientOrderId ≠ some clientOrderId → row.status = status row) :
    Keeps status rows (updateOrder rows clientOrderId update) := by
  intro i row hrow
  refine ⟨if row.clientOrderId = some clientOrderId then update row else row, ?_, ?_, ?_⟩
  · simp [updateOrder, hrow]
  · split
    · exact hid row
    · rfl
  · split
    · next h => exact hstatus row h
    · next h => exact hother row h

theorem keeps_append (rows more : List OrderRow) : Keeps OrderRow.status rows (rows ++ more) := by
  intro i row hrow
  refine ⟨row, ?_, rfl, rfl⟩
  rw [List.getElem?_append_left (List.getElem?_eq_some_iff.mp hrow).1, hrow]

theorem keeps_import (now : ℤ) (rows : List OrderRow) (order : Order) :
    Keeps OrderRow.status rows (importStage4ExternalOrder now rows order) := by
  unfold importStage4ExternalOrder
  split
  · exact Keeps.refl rows
  · split
    · exact keeps_append rows _
    · split
      · exact keeps_updateOrder rows _ (fun _ => rfl) (fun _ _ => rfl) fun _ _ => rfl
      · exact keeps_append rows _

theorem keeps_enrich (now : ℤ) (rows : List OrderRow) (ids : String × String) :
    Keeps OrderRow.status rows (updateStage4OrderExchangeId now rows ids) :=
  keeps_updateOrder rows _ (fun _ => rfl) (fun _ _ => rfl) fun _ _ => rfl

theorem keeps_foldl {α : Type} {f : List OrderRow → α → List OrderRow}
    (hf : ∀ rows a, Keeps OrderRow.status rows (f rows a)) (l : List α) (rows : List OrderRow) :
    Keeps OrderRow.status rows (l.foldl f rows) := by
  induction l generalizing rows with
  | nil => exact Keeps.refl rows
  | cons a l ih => exact (hf rows a).trans (ih (f rows a)) fun _ _ _ h => h

/-- The status of a row once the orders of these client ids are marked. -/
def markedStatus (ids : List String) (row : OrderRow) : OrderStatus :=
  if ∃ c ∈ ids, row.clientOrderId = some c then .unknownClosed else row.status

theorem keeps_mark (now : ℤ) (ids : List String) (rows : List OrderRow) :
    Keeps (markedStatus ids) rows (ids.foldl (markStage4UnknownClosed now) rows) := by
  induction ids generalizing rows with
  | nil =>
    intro i row hrow
    exact ⟨row, hrow, rfl, by simp [markedStatus]⟩
  | cons c ids ih =>
    intro i row hrow
    have hfirst : Keeps (markedStatus [c]) rows (markStage4UnknownClosed now rows c) :=
      keeps_updateOrder rows c (fun _ => rfl) (fun row h => by simp [markedStatus, h])
        fun row h => by simp [markedStatus, h]
    obtain ⟨next, hnext, hid, hstatus⟩ := hfirst i row hrow
    obtain ⟨last, hlast, hid', hstatus'⟩ := ih _ i next hnext
    refine ⟨last, hlast, hid'.trans hid, ?_⟩
    rw [hstatus']
    simp only [markedStatus, hid, hstatus, List.mem_cons, List.not_mem_nil, or_false,
      exists_eq_left, or_and_right, exists_or]
    by_cases hc : row.clientOrderId = some c <;> simp [hc]

/-- One cycle: every row keeps its status or is marked. -/
theorem keeps_reconcile (cycle : ReconcileCycle) (rows : List OrderRow) :
    Keeps (markedStatus (reconcileResult cycle rows).markUnknownClosed) rows
      (reconcileRows cycle rows) := by
  have himport := keeps_foldl (keeps_import cycle.now)
    (reconcileResult cycle rows).importExternal rows
  have henrich := keeps_foldl (keeps_enrich cycle.now)
    (reconcileResult cycle rows).enrichExchangeIds
    ((reconcileResult cycle rows).importExternal.foldl (importStage4ExternalOrder cycle.now) rows)
  refine (himport.trans henrich fun _ _ _ h => h).trans (keeps_mark cycle.now _ _) ?_
  intro row next hid hstatus
  simp only [markedStatus, hid, hstatus]

end Rows

section Sound

/-- What the table keeps. -/
def Sound (rows : List OrderRow) : Prop :=
  (rows.filterMap OrderRow.clientOrderId).Nodup ∧ ∀ row ∈ rows, normalizeSymbol row.symbol = row.symbol

theorem sound_updateOrder {rows : List OrderRow} (h : Sound rows) (clientOrderId : String)
    {update : OrderRow → OrderRow} (hid : ∀ row, (update row).clientOrderId = row.clientOrderId)
    (hsymbol : ∀ row, (update row).symbol = row.symbol) :
    Sound (updateOrder rows clientOrderId update) := by
  have hids : (fun row : OrderRow => (if row.clientOrderId = some clientOrderId then update row
      else row).clientOrderId) = OrderRow.clientOrderId := by
    funext row
    split
    · exact hid row
    · rfl
  constructor
  · simpa [updateOrder, List.filterMap_map, Function.comp_def, hids] using h.1
  · intro next hnext
    obtain ⟨row, hrow, rfl⟩ := List.mem_map.mp hnext
    have hnormal := h.2 row hrow
    split
    · rwa [hsymbol]
    · exact hnormal

theorem sound_importedRow {rows : List OrderRow} (h : Sound rows) (now : ℤ) (order : Order)
    (hnew : ∀ c, order.clientOrderId = some c → getStage4OrderByClientId rows c = none) :
    Sound (rows ++ [importedRow rows now order]) := by
  constructor
  · rw [List.filterMap_append]
    cases hid : order.clientOrderId with
    | none => simpa [importedRow, hid] using h.1
    | some c =>
      have hfresh : ∀ row ∈ rows, row.clientOrderId ≠ some c := by
        simpa [getStage4OrderByClientId] using hnew c hid
      simp only [importedRow, hid, List.filterMap_cons, List.filterMap_nil]
      refine List.nodup_append.mpr ⟨h.1, List.nodup_singleton c, ?_⟩
      intro a ha b hb heq
      obtain ⟨row, hrow, hrowId⟩ := List.mem_filterMap.mp ha
      rw [heq, List.mem_singleton.mp hb] at hrowId
      exact hfresh row hrow hrowId
  · intro row hrow
    rcases List.mem_append.mp hrow with hrow | hrow
    · exact h.2 row hrow
    · rw [List.mem_singleton.mp hrow]
      simp [importedRow]

theorem sound_import {rows : List OrderRow} (h : Sound rows) (now : ℤ) (order : Order) :
    Sound (importStage4ExternalOrder now rows order) := by
  unfold importStage4ExternalOrder
  split
  · exact h
  · split
    · next hid => exact sound_importedRow h now order fun c hc => by simp [hid] at hc
    · next c hid =>
      split
      · exact sound_updateOrder h _ (fun _ => rfl) fun _ => rfl
      · next hnone =>
        refine sound_importedRow h now order fun d hd => ?_
        rw [hid] at hd
        cases hd
        simpa using hnone

theorem sound_foldl {α : Type} {f : List OrderRow → α → List OrderRow}
    (hf : ∀ rows a, Sound rows → Sound (f rows a)) (l : List α) {rows : List OrderRow}
    (h : Sound rows) : Sound (l.foldl f rows) := by
  induction l generalizing rows with
  | nil => exact h
  | cons a l ih => exact ih (hf rows a h)

theorem sound_reconcile (cycle : ReconcileCycle) {rows : List OrderRow} (h : Sound rows) :
    Sound (reconcileRows cycle rows) := by
  refine sound_foldl (fun rows c h => ?_) _ (sound_foldl (fun rows ids h => ?_) _
    (sound_foldl (fun rows order h => sound_import h cycle.now order) _ h))
  · exact sound_updateOrder h c (fun _ => rfl) fun _ => rfl
  · exact sound_updateOrder h ids.1 (fun _ => rfl) fun _ => rfl

def reconcileTable (cycle : ReconcileCycle) (table : OrderTable) : OrderTable where
  rows := reconcileRows cycle table.rows
  unique := (sound_reconcile cycle ⟨table.unique, table.normal⟩).1
  normal := (sound_reconcile cycle ⟨table.unique, table.normal⟩).2

end Sound

section Marked

theorem nodup_filterMap_of {α β : Type} {f g : α → Option β} (l : List α)
    (hg : ∀ a, g a = none ∨ g a = f a) (h : (l.filterMap f).Nodup) : (l.filterMap g).Nodup := by
  refine h.sublist ?_
  clear h
  induction l with
  | nil => exact .slnil
  | cons a l ih =>
    rcases hg a with hnone | hsame
    · rw [List.filterMap_cons_none hnone, List.filterMap_cons]
      cases f a with
      | none => exact ih
      | some b => exact ih.cons b
    · rw [List.filterMap_cons, List.filterMap_cons, hsame]
      cases f a with
      | none => exact ih
      | some b => exact ih.cons_cons b

variable {cycle : ReconcileCycle} {table : OrderTable} {row : OrderRow}

theorem mem_listStage4OpenOrders {order : Order} {rows : List OrderRow} :
    order ∈ listStage4OpenOrders rows ↔
      ∃ row ∈ rows, Pending row ∧ rowToStage4Order row = order := by
  simp only [listStage4OpenOrders, List.mem_map, List.mem_insertionSort, List.mem_filter,
    decide_eq_true_eq, and_assoc]

theorem listed_unique (table : OrderTable) :
    ((listStage4OpenOrders table.rows).filterMap Order.clientOrderId).Nodup := by
  have hperm := (List.perm_insertionSort listOrder (table.rows.filter Pending)).filterMap
    fun row => (rowToStage4Order row).clientOrderId
  rw [listStage4OpenOrders, List.filterMap_map]
  refine hperm.nodup_iff.mpr ?_
  refine nodup_filterMap_of (f := OrderRow.clientOrderId) _ (fun row => ?_)
    (table.unique.sublist (List.filter_sublist.filterMap _))
  cases hid : row.clientOrderId with
  | none => simp [rowToStage4Order, hid]
  | some c => by_cases hc : c = "" <;> simp [rowToStage4Order, hid, hc]

/-- Two rows of one client id are one row. -/
theorem row_unique {other : OrderRow} {c : String} (hrow : row ∈ table.rows)
    (hother : other ∈ table.rows) (hid : row.clientOrderId = some c)
    (hid' : other.clientOrderId = some c) : other = row := by
  have hnodup := table.unique
  rw [List.Nodup, List.pairwise_filterMap] at hnodup
  by_contra hne
  have hsymm : Std.Symm fun a b : OrderRow => ∀ k, a.clientOrderId = some k →
      ∀ l, b.clientOrderId = some l → k ≠ l :=
    ⟨fun _ _ h k hk l hl heq => h l hl k hk heq.symm⟩
  exact hnodup.forall hother hrow hne c hid' c hid rfl

def Unblocked (cycle : ReconcileCycle) (row : OrderRow) : Prop :=
  row.symbol.toUpper ∉ cycle.failedSymbols.map String.toUpper

/-- The exchange lists an order under a client id. -/
def Listed (cycle : ReconcileCycle) (clientOrderId : String) : Prop :=
  ∃ found ∈ cycle.exchangeOpenOrders, found.clientOrderId = some clientOrderId

/-- A row is marked when it is pending on no failed symbol and listed under its own id nowhere. -/
theorem marked_iff (hrow : row ∈ table.rows) {c : String} (hid : row.clientOrderId = some c) :
    c ∈ (reconcileResult cycle table.rows).markUnknownClosed ↔
      Pending row ∧ c ≠ "" ∧ Unblocked cycle row ∧ ¬ Listed cycle c := by
  have hstored : Pending row → rowToStage4Order row ∈ listStage4OpenOrders table.rows :=
    fun hpending => mem_listStage4OpenOrders.mpr ⟨row, hrow, hpending, rfl⟩
  have hexact (hpending : Pending row) (hne : c ≠ "") (hfree : Unblocked cycle row) :=
    @mem_markUnknownClosed_iff cycle.exchangeOpenOrders _ cycle.failedSymbols _ c
      (listed_unique table) (hstored hpending) (by simpa [rowToStage4Order] using hpending.2)
      (by simp [rowToStage4Order, hid, hne]) hne hfree
  constructor
  · intro hmarked
    obtain ⟨entry, hentry, hkey⟩ := List.mem_map.mp hmarked
    obtain ⟨hchecked, -⟩ := List.mem_filter.mp hentry
    obtain ⟨hdb, hfree⟩ := List.mem_filter.mp hchecked
    obtain ⟨horder, horderId⟩ := mem_byClientId hdb
    have hne : entry.1 ≠ "" :=
      ((mem_keys_byClientId _ entry.1).mp (List.mem_map_of_mem hdb)).1
    obtain ⟨other, hother, hpending, hsame⟩ :=
      mem_listStage4OpenOrders.mp (List.mem_filter.mp horder).1
    have hotherId : other.clientOrderId = some c := by
      rw [← hsame, hkey] at horderId
      exact (Option.filter_eq_some_iff.mp horderId).1
    have hthis : other = row := row_unique hrow hother hid hotherId
    subst hthis
    have hunblocked : Unblocked cycle other := by
      rw [← hsame] at hfree
      simpa [Blocked, rowToStage4Order, Unblocked] using hfree
    exact ⟨hpending, hkey ▸ hne, hunblocked,
      (hexact hpending (hkey ▸ hne) hunblocked).mp hmarked⟩
  · rintro ⟨hpending, hne, hfree, hnone⟩
    exact (hexact hpending hne hfree).mpr hnone

end Marked

section Observed

variable {cycle : ReconcileCycle} {table : OrderTable} {row : OrderRow}

/-- A listed order carries an id the exchange knows the row by. -/
def UnderExchangeIds (found : Order) (row : OrderRow) : Prop :=
  (found.clientOrderId ≠ none ∧ found.clientOrderId = row.exchangeClientId) ∨
    (found.exchangeOrderId ≠ none ∧ found.exchangeOrderId = row.exchangeOrderId)

def SameOrder (found : Order) (row : OrderRow) : Prop :=
  (found.clientOrderId ≠ none ∧ found.clientOrderId = row.clientOrderId) ∨
    UnderExchangeIds found row

/-- The open orders of the row's symbol were read in this cycle, and it is not among them. -/
def Observed (cycle : ReconcileCycle) (row : OrderRow) : Prop :=
  (∃ read ∈ cycle.reads, normalizeSymbol read.1 = row.symbol) ∧
    ∀ read ∈ cycle.reads, normalizeSymbol read.1 = row.symbol →
      ∃ orders, read.2 = some orders ∧ ∀ found ∈ orders, ¬ SameOrder found row

/-- The row's symbol is active, and no list of it has the row under its exchange ids alone. -/
def Recognisable (cycle : ReconcileCycle) (row : OrderRow) : Prop :=
  (∃ read ∈ cycle.reads, normalizeSymbol read.1 = row.symbol) ∧
    ∀ read ∈ cycle.reads, normalizeSymbol read.1 = row.symbol →
      ∀ orders, read.2 = some orders → ∀ found ∈ orders, ¬ UnderExchangeIds found row

/-- A failed read blocks every row of its symbol. -/
theorem read_of_unblocked (hfree : Unblocked cycle row) {read : String × Option (List Order)}
    (hread : read ∈ cycle.reads) (hsymbol : normalizeSymbol read.1 = row.symbol) :
    ∃ orders, read.2 = some orders := by
  rw [← Option.isSome_iff_exists, ← Bool.not_eq_false, Option.isSome_eq_false_iff]
  intro hnone
  refine hfree (List.mem_map.mpr ⟨row.symbol, List.mem_append_right _ ?_, rfl⟩)
  exact List.mem_map.mpr ⟨read, List.mem_filter.mpr ⟨hread, hnone⟩, hsymbol⟩

theorem observed_iff {c : String} (hid : row.clientOrderId = some c) (hfree : Unblocked cycle row)
    (hunlisted : ¬ Listed cycle c) : Observed cycle row ↔ Recognisable cycle row := by
  refine and_congr_right fun _ => forall_congr' fun read => forall_congr' fun hread =>
    forall_congr' fun hsymbol => ?_
  obtain ⟨orders, horders⟩ := read_of_unblocked hfree hread hsymbol
  constructor
  · rintro ⟨other, hother, hall⟩ orders' horders' found hfound hsame
    rw [hother] at horders'
    cases horders'
    exact hall found hfound (.inr hsame)
  · intro hall
    refine ⟨orders, horders, fun found hfound hsame => ?_⟩
    rcases hsame with ⟨-, hown⟩ | hsame
    · refine hunlisted ⟨found, List.mem_flatMap.mpr ⟨read, hread, ?_⟩, hown.trans hid⟩
      rw [horders]
      exact hfound
    · exact hall orders horders found hfound hsame

/-- A cycle concludes only from absence it observed exactly when every pending row that is neither
blocked nor listed under its own id is recognisable. -/
theorem absence_observed_iff (cycle : ReconcileCycle) (table : OrderTable) :
    (∀ (i : ℕ) (row : OrderRow), table.rows[i]? = some row →
        ∃ next : OrderRow, (reconcileTable cycle table).rows[i]? = some next ∧
          (next.status = row.status ∨
            next.status = .unknownClosed ∧ Observed cycle row)) ↔
      ∀ row ∈ table.rows, Pending row → Unblocked cycle row →
        ∀ c, row.clientOrderId = some c → c ≠ "" → ¬ Listed cycle c → Recognisable cycle row := by
  have hkeeps := keeps_reconcile cycle table.rows
  constructor
  · intro hall row hrow hpending hfree c hid hne hunlisted
    obtain ⟨i, hi, rfl⟩ := List.getElem_of_mem hrow
    have hat : table.rows[i]? = some table.rows[i] := List.getElem?_eq_getElem hi
    obtain ⟨next, hnext, hcase⟩ := hall i _ hat
    obtain ⟨next', hnext', -, hstatus⟩ := hkeeps i _ hat
    have hmarked := (@marked_iff cycle table _ hrow c hid).mpr ⟨hpending, hne, hfree, hunlisted⟩
    have hsame : next' = next := by
      rw [reconcileTable, hnext'] at hnext
      exact Option.some.inj hnext
    subst hsame
    have hclosed : next'.status = .unknownClosed := by
      rw [hstatus, markedStatus, if_pos ⟨c, hmarked, hid⟩]
    rw [← observed_iff hid hfree hunlisted]
    refine (hcase.resolve_left fun heq => ?_).2
    rw [hclosed] at heq
    rcases hpending.1 with h | h | h | h <;> rw [h] at heq <;> cases heq
  · intro hall i row hrow
    have hmem : row ∈ table.rows := List.mem_of_getElem? hrow
    obtain ⟨next, hnext, -, hstatus⟩ := hkeeps i row hrow
    refine ⟨next, hnext, ?_⟩
    by_cases hmarked : ∃ c ∈ (reconcileResult cycle table.rows).markUnknownClosed,
        row.clientOrderId = some c
    · obtain ⟨c, hc, hid⟩ := hmarked
      obtain ⟨hpending, hne, hfree, hunlisted⟩ := (marked_iff hmem hid).mp hc
      refine .inr ⟨?_, ?_⟩
      · rw [hstatus, markedStatus, if_pos ⟨c, hc, hid⟩]
      · rw [observed_iff hid hfree hunlisted]
        exact hall row hmem hpending hfree c hid hne hunlisted
    · rw [hstatus, markedStatus, if_neg hmarked]
      exact .inl rfl

/-- An open order of a symbol that has left the active set. -/
def droppedRow : OrderRow where
  id := 1
  symbol := "ETHTRY"
  clientOrderId := some "cid-1"
  exchangeClientId := some "b4-ethtry-b-0"
  exchangeOrderId := some "7"
  side := "buy"
  price := 100
  qty := 1
  status := .open
  mode := .live
  lastError := none
  lastErrorCode := none
  createdAt := 0
  updatedAt := 0

def droppedTable : OrderTable := ⟨[droppedRow], by decide, by decide +kernel⟩

/-- Only the other symbol is active, and its read goes well. -/
def otherCycle : ReconcileCycle := ⟨5, [], [("BTC_TRY", some [])]⟩

theorem dropped_symbol_closed :
    (reconcileTable otherCycle droppedTable).rows.map OrderRow.status = [.unknownClosed] ∧
      ¬ Observed otherCycle droppedRow := by
  refine ⟨by decide +kernel, ?_⟩
  rintro ⟨⟨read, hread, hsymbol⟩, -⟩
  rw [List.mem_singleton.mp hread] at hsymbol
  revert hsymbol
  decide +kernel

end Observed

end Stage4Absence
