import Btcbot.FilledOrders
import Btcbot.Stage7Cycle

/-!
# Booking filled orders

The two rows of a fill are told apart from all others by its fill id, which holds the
client order id. Booked again under the same id an order keeps its rows; under another it
would have more.
-/
namespace Stage7Cycle

open PyData OmsService OrderBounds Ledger LedgerStore

section FillIds

variable {digest : String → String}

/-- No bar, which parts the texts of a fill id. -/
def Unbarred (text : String) : Prop := '|' ∉ text.toList

instance (text : String) : Decidable (Unbarred text) := by unfold Unbarred; infer_instance

variable (digest) in
/-- A fill id of a client order id. -/
def Named (clientOrderId fillId : String) : Prop :=
  ∃ cycleId symbol side, Unbarred cycleId ∧ Unbarred clientOrderId ∧
    fillId = deterministicFillId digest cycleId clientOrderId symbol side

/-- A digest without collisions keeps the fill ids of different orders apart. -/
theorem Named.inj (hdigest : Function.Injective digest) {a b fillId : String}
    (ha : Named digest a fillId) (hb : Named digest b fillId) : a = b := by
  obtain ⟨cycle, symbol, side, hcycle, ha, rfl⟩ := ha
  obtain ⟨cycle', symbol', side', hcycle', hb, hsame⟩ := hb
  have htext := hdigest (String.append_right_inj "s7f:" |>.mp hsame)
  have hsplit : cycle.toList ++ '|' :: (a.toList ++ '|' :: (symbol.toList ++ '|' :: side.toList)) =
      cycle'.toList ++ '|' :: (b.toList ++ '|' :: (symbol'.toList ++ '|' :: side'.toList)) := by
    simpa using congrArg String.toList htext
  obtain ⟨-, hrest⟩ := split_first hcycle hcycle' hsplit
  exact String.toList_inj.mp (split_first ha hb hrest).1

/-- No fill id begins as the trade id of a fee does. -/
theorem Named.ne_fee {clientOrderId fillId : String} (h : Named digest clientOrderId fillId)
    (other : String) : fillId ≠ "fee:" ++ other := by
  obtain ⟨cycle, symbol, side, -, -, rfl⟩ := h
  intro hsame
  have hlists := congrArg String.toList hsame
  rw [deterministicFillId, String.toList_append, String.toList_append] at hlists
  exact absurd (List.cons.inj hlists).1 (by decide)

theorem fill_ne_fee_id (a b : String) : "fill:" ++ a ≠ "fee:" ++ b := by
  intro hsame
  have hlists := congrArg String.toList hsame
  rw [String.toList_append, String.toList_append] at hlists
  have hsecond := (List.cons.inj (List.cons.inj hlists).2).1
  exact absurd hsecond (by decide)

end FillIds

section Rows

variable {digest : String → String} {clientOrderId fillId : String} {rows : List LedgerRow}
  {event : LedgerEvent}

def FillOf (fillId : String) (event : LedgerEvent) : Prop :=
  event.type = .fill ∧ event.eventId = "fill:" ++ fillId ∧ event.exchangeTradeId = some fillId

def FeeOf (fillId : String) (event : LedgerEvent) : Prop :=
  event.type = .fee ∧ event.eventId = "fee:" ++ fillId ∧
    event.exchangeTradeId = some ("fee:" ++ fillId)

variable (digest) in
/-- An event booked for an order, under one of its fill ids. -/
def Marked (event : LedgerEvent) : Prop :=
  ∃ clientOrderId fillId, Named digest clientOrderId fillId ∧
    event.clientOrderId = some clientOrderId ∧ (FillOf fillId event ∨ FeeOf fillId event)

/-- Two marked events are one row if they have one trade id. -/
theorem conflicts_marked {a b : LedgerEvent} (ha : Marked digest a) (hb : Marked digest b) :
    conflicts a b = true ↔ a.exchangeTradeId = b.exchangeTradeId := by
  obtain ⟨_, i, -, -, ha⟩ := ha
  obtain ⟨_, j, -, -, hb⟩ := hb
  have hkey : fallbackFillKey a = none := by
    rcases ha with ⟨-, -, ht⟩ | ⟨-, -, ht⟩ <;> simp [fallbackFillKey, ht]
  have hsome : a.exchangeTradeId.isSome = true := by
    rcases ha with ⟨-, -, ht⟩ | ⟨-, -, ht⟩ <;> simp [ht]
  have hid : a.eventId = b.eventId → a.exchangeTradeId = b.exchangeTradeId := by
    intro h
    rcases ha with ⟨-, hai, hat⟩ | ⟨-, hai, hat⟩ <;> rcases hb with ⟨-, hbi, hbt⟩ | ⟨-, hbi, hbt⟩ <;>
      rw [hai, hbi] at h
    · rw [hat, hbt, String.append_right_inj "fill:" |>.mp h]
    · exact absurd h (fill_ne_fee_id i j)
    · exact absurd h.symm (fill_ne_fee_id j i)
    · rw [hat, hbt, h]
  simp only [conflicts, hkey, hsome, Option.isSome_none, Bool.false_and, Bool.or_false,
    Bool.true_and, Bool.or_eq_true, beq_iff_eq]
  exact ⟨fun h => h.elim hid id, .inr⟩

/-- The rows of a client order id, each by its type and event id. -/
def entries (rows : List LedgerRow) (clientOrderId : String) : List (LedgerEventType × String) :=
  (rows.filter fun row => row.event.clientOrderId = some clientOrderId).map fun row =>
    (row.event.type, row.event.eventId)

def pair (fillId : String) : List (LedgerEventType × String) :=
  [(.fill, "fill:" ++ fillId), (.fee, "fee:" ++ fillId)]

def AllMarked (digest : String → String) (rows : List LedgerRow) : Prop :=
  ∀ row ∈ rows, Marked digest row.event

theorem entries_append (rows : List LedgerRow) (row : LedgerRow) :
    entries (rows ++ [row]) clientOrderId = entries rows clientOrderId ++
      if row.event.clientOrderId = some clientOrderId then [(row.event.type, row.event.eventId)]
      else [] := by
  unfold entries
  rw [List.filter_append, List.map_append, List.filter_singleton]
  split <;> simp_all

/-- A row whose event an order has booked is one of the order's own. -/
theorem mem_entries {row : LedgerRow} (hrow : row ∈ rows)
    (hid : row.event.clientOrderId = some clientOrderId) :
    (row.event.type, row.event.eventId) ∈ entries rows clientOrderId :=
  List.mem_map_of_mem (f := fun row : LedgerRow => (row.event.type, row.event.eventId))
    (List.mem_filter.mpr ⟨hrow, by simpa using hid⟩)

theorem of_mem_entries {entry : LedgerEventType × String}
    (h : entry ∈ entries rows clientOrderId) :
    ∃ row ∈ rows, row.event.clientOrderId = some clientOrderId ∧
      (row.event.type, row.event.eventId) = entry := by
  obtain ⟨row, hrow, rfl⟩ := List.mem_map.mp h
  obtain ⟨hin, hid⟩ := List.mem_filter.mp hrow
  exact ⟨row, hin, by simpa using hid, rfl⟩

/-- A marked event is inserted after the rows that do not conflict, or ignored. -/
theorem insert_marked (hrows : AllMarked digest rows) (hevent : Marked digest event) :
    AllMarked digest (insertOrIgnore rows event).1 := by
  rcases insertOrIgnore_cases rows event with he | ⟨he, -⟩
  · rw [he]
    exact hrows
  · rw [he]
    intro row hrow
    rcases List.mem_append.mp hrow with hin | hin
    · exact hrows row hin
    · rw [List.mem_singleton.mp hin]
      exact hevent

/-- The events of another order leave an order's rows. -/
theorem entries_insert_other (hother : event.clientOrderId ≠ some clientOrderId) :
    entries (insertOrIgnore rows event).1 clientOrderId = entries rows clientOrderId := by
  rcases insertOrIgnore_cases rows event with he | ⟨he, -⟩
  · rw [he]
  · rw [he, entries_append]
    exact (congrArg _ (if_neg hother)).trans (List.append_nil _)

/-- An event that an order has booked is ignored. -/
theorem insert_again (h : (event.type, event.eventId) ∈ entries rows clientOrderId) :
    (insertOrIgnore rows event).1 = rows := by
  obtain ⟨row, hrow, -, hsame⟩ := of_mem_entries h
  have htaken : (rows.any fun row => conflicts row.event (storedEvent event)) = true := by
    refine List.any_eq_true.mpr ⟨row, hrow, ?_⟩
    have hid : row.event.eventId = event.eventId := (Prod.mk.inj hsame).2
    simp [conflicts, storedEvent, hid]
  unfold insertOrIgnore
  rw [if_pos htaken]

/-- An event whose trade id no row has is inserted. -/
theorem insert_new (hrows : AllMarked digest rows) (hevent : Marked digest event)
    (hid : event.clientOrderId = some clientOrderId)
    (hfree : ∀ row ∈ rows, row.event.exchangeTradeId ≠ event.exchangeTradeId) :
    entries (insertOrIgnore rows event).1 clientOrderId =
      entries rows clientOrderId ++ [(event.type, event.eventId)] := by
  rcases insertOrIgnore_cases rows event with he | ⟨he, -⟩
  · exfalso
    unfold insertOrIgnore at he
    split at he
    · next htaken =>
      obtain ⟨row, hrow, hconflict⟩ := List.any_eq_true.mp htaken
      have hstored : Marked digest (storedEvent event) := hevent
      exact hfree row hrow ((conflicts_marked (hrows row hrow) hstored).mp hconflict)
    · cases congrArg Prod.snd he
  · rw [he, entries_append]
    exact congrArg _ (if_pos hid)

end Rows

section Orders

variable {digest : String → String} {cycle : Cycle} {clientOrderId : String}
  {rows : List LedgerRow} {order : Stage7Order} {orders : List Stage7Order}

theorem materialize_cases (digest : String → String) (cycle : Cycle) (order : Stage7Order) :
    (¬ Priced order ∧ materialize digest cycle order = []) ∨
      (Priced order ∧ ∃ price, materialize digest cycle order =
        [fillEvent digest cycle order price, feeEvent digest cycle order price]) := by
  unfold materialize
  by_cases hstatus : order.status = .filled
  · rw [if_neg (not_not.mpr hstatus)]
    cases hprice : order.avgFillPriceTry with
    | none =>
      refine .inl ⟨fun h => ?_, rfl⟩
      have hsome := h.price
      rw [hprice] at hsome
      cases hsome
    | some price =>
      dsimp only
      by_cases hqty : order.filledQty ≤ 0
      · exact .inl ⟨fun h => absurd h.filledQty (not_lt.mpr hqty), if_pos hqty⟩
      · exact .inr ⟨⟨hstatus, not_le.mp hqty, by rw [hprice]; rfl⟩, price, if_neg hqty⟩
  · exact .inl ⟨fun h => hstatus h.status, if_pos hstatus⟩

/-- The rows after an order is booked. -/
def book (digest : String → String) (cycle : Cycle) (rows : List LedgerRow)
    (order : Stage7Order) : List LedgerRow :=
  (insertAll rows (materialize digest cycle order)).1

theorem book_unpriced (h : ¬ Priced order) : book digest cycle rows order = rows := by
  unfold book
  rcases materialize_cases digest cycle order with ⟨-, hnone⟩ | ⟨hpriced, -⟩
  · rw [hnone]
    rfl
  · exact absurd hpriced h

theorem book_priced (h : Priced order) : ∃ price, book digest cycle rows order =
    (insertOrIgnore (insertOrIgnore rows (fillEvent digest cycle order price)).1
      (feeEvent digest cycle order price)).1 := by
  unfold book
  rcases materialize_cases digest cycle order with ⟨hunpriced, -⟩ | ⟨-, price, hevents⟩
  · exact absurd h hunpriced
  · refine ⟨price, ?_⟩
    rw [hevents]
    rfl

theorem fillId_named (hcycle : Unbarred cycle.cycleId) (horder : Unbarred order.clientOrderId) :
    Named digest order.clientOrderId (fillIdOf digest cycle.cycleId order) :=
  ⟨_, _, _, hcycle, horder, rfl⟩

theorem fillEvent_marked (hcycle : Unbarred cycle.cycleId)
    (horder : Unbarred order.clientOrderId) (price : ℚ) :
    Marked digest (fillEvent digest cycle order price) :=
  ⟨_, _, fillId_named hcycle horder, rfl, .inl ⟨rfl, rfl, rfl⟩⟩

theorem feeEvent_marked (hcycle : Unbarred cycle.cycleId)
    (horder : Unbarred order.clientOrderId) (price : ℚ) :
    Marked digest (feeEvent digest cycle order price) :=
  ⟨_, _, fillId_named hcycle horder, rfl, .inr ⟨rfl, rfl, rfl⟩⟩

theorem book_marked (hrows : AllMarked digest rows) (hcycle : Unbarred cycle.cycleId)
    (horder : Unbarred order.clientOrderId) : AllMarked digest (book digest cycle rows order) := by
  by_cases hpriced : Priced order
  · obtain ⟨price, hbook⟩ := @book_priced digest cycle rows order hpriced
    rw [hbook]
    exact insert_marked (insert_marked hrows (fillEvent_marked hcycle horder price))
      (feeEvent_marked hcycle horder price)
  · rw [book_unpriced hpriced]
    exact hrows

/-- Another order, and one that is not filled, is booked past the rows of an order. -/
theorem book_other (h : ¬ (order.clientOrderId = clientOrderId ∧ Priced order)) :
    entries (book digest cycle rows order) clientOrderId = entries rows clientOrderId := by
  by_cases hpriced : Priced order
  · obtain ⟨price, hbook⟩ := @book_priced digest cycle rows order hpriced
    have hother : some order.clientOrderId ≠ some clientOrderId := fun hsame =>
      h ⟨Option.some.inj hsame, hpriced⟩
    rw [hbook]
    calc entries (insertOrIgnore (insertOrIgnore rows (fillEvent digest cycle order price)).1
          (feeEvent digest cycle order price)).1 clientOrderId
        = entries (insertOrIgnore rows (fillEvent digest cycle order price)).1 clientOrderId :=
          entries_insert_other hother
      _ = entries rows clientOrderId := entries_insert_other hother
  · rw [book_unpriced hpriced]

/-- An order without rows gets its pair. -/
theorem book_first (hdigest : Function.Injective digest) (hrows : AllMarked digest rows)
    (hcycle : Unbarred cycle.cycleId) (hid : Unbarred order.clientOrderId) (hpriced : Priced order)
    (hnone : entries rows order.clientOrderId = []) :
    entries (book digest cycle rows order) order.clientOrderId =
      pair (fillIdOf digest cycle.cycleId order) := by
  obtain ⟨price, hbook⟩ := @book_priced digest cycle rows order hpriced
  have hnamed := @fillId_named digest cycle order hcycle hid
  have hfill := @fillEvent_marked digest cycle order hcycle hid price
  have hfee := @feeEvent_marked digest cycle order hcycle hid price
  -- a row under the fill id would be one of the order's own
  have hfree : ∀ row ∈ rows, ∀ other, Named digest order.clientOrderId other →
      row.event.exchangeTradeId ≠ some other ∧
        row.event.exchangeTradeId ≠ some ("fee:" ++ other) := by
    intro row hrow other hother
    obtain ⟨owner, fillId, howner, hrowId, hkind⟩ := hrows row hrow
    have hne : fillId ≠ other := by
      rintro rfl
      have hentry := mem_entries hrow (hrowId.trans (congrArg some (howner.inj hdigest hother)))
      rw [hnone] at hentry
      cases hentry
    rcases hkind with ⟨-, -, htrade⟩ | ⟨-, -, htrade⟩
    · rw [htrade]
      exact ⟨fun h => hne (Option.some.inj h), fun h => howner.ne_fee other (Option.some.inj h)⟩
    · rw [htrade]
      exact ⟨fun h => hother.ne_fee fillId (Option.some.inj h).symm,
        fun h => hne (String.append_right_inj "fee:" |>.mp (Option.some.inj h))⟩
  have hinserted : entries (insertOrIgnore rows (fillEvent digest cycle order price)).1
      order.clientOrderId = [(.fill, "fill:" ++ fillIdOf digest cycle.cycleId order)] := by
    rw [insert_new hrows hfill rfl fun row hrow => (hfree row hrow _ hnamed).1, hnone]
    rfl
  rw [hbook, insert_new (insert_marked hrows hfill) hfee rfl ?_, hinserted]
  · rfl
  · intro row hrow
    rcases insertOrIgnore_cases rows (fillEvent digest cycle order price) with he | ⟨he, -⟩
    · rw [he] at hrow
      exact (hfree row hrow _ hnamed).2
    · rw [he] at hrow
      rcases List.mem_append.mp hrow with hin | hin
      · exact (hfree row hin _ hnamed).2
      · rw [List.mem_singleton.mp hin]
        exact fun h => hnamed.ne_fee _ (Option.some.inj h)

/-- An order booked again under its fill id keeps its pair. -/
theorem book_again
    (hpair : entries rows clientOrderId = pair (fillIdOf digest cycle.cycleId order)) :
    book digest cycle rows order = rows := by
  by_cases hpriced : Priced order
  · obtain ⟨price, hbook⟩ := @book_priced digest cycle rows order hpriced
    have hfill : (insertOrIgnore rows (fillEvent digest cycle order price)).1 = rows :=
      @insert_again clientOrderId _ _ (by rw [hpair]; exact List.mem_cons_self)
    rw [hbook, hfill]
    refine @insert_again clientOrderId _ _ ?_
    rw [hpair]
    exact List.mem_cons_of_mem _ List.mem_cons_self
  · exact book_unpriced hpriced

theorem insertAll_materialize (rows : List LedgerRow) (orders : List Stage7Order) :
    (insertAll rows (orders.flatMap (materialize digest cycle))).1 =
      orders.foldl (book digest cycle) rows := by
  induction orders generalizing rows with
  | nil => rfl
  | cons order orders ih =>
    rw [List.flatMap_cons, insertAll_append, ih]
    rfl

theorem books_marked (hrows : AllMarked digest rows) (hcycle : Unbarred cycle.cycleId)
    (hids : ∀ order ∈ orders, Unbarred order.clientOrderId) :
    AllMarked digest (orders.foldl (book digest cycle) rows) := by
  induction orders generalizing rows with
  | nil => exact hrows
  | cons order orders ih =>
    exact ih (book_marked hrows hcycle (hids order List.mem_cons_self))
      fun other hin => hids other (List.mem_cons_of_mem order hin)

theorem books_other
    (h : ∀ order ∈ orders, ¬ (order.clientOrderId = clientOrderId ∧ Priced order)) :
    entries (orders.foldl (book digest cycle) rows) clientOrderId = entries rows clientOrderId := by
  induction orders generalizing rows with
  | nil => rfl
  | cons order orders ih =>
    rw [List.foldl_cons, ih fun other hin => h other (List.mem_cons_of_mem order hin)]
    exact book_other (h order List.mem_cons_self)

theorem books_again {fillId : String} (hpair : entries rows clientOrderId = pair fillId)
    (hsame : ∀ order ∈ orders, order.clientOrderId = clientOrderId → Priced order →
      fillIdOf digest cycle.cycleId order = fillId) :
    entries (orders.foldl (book digest cycle) rows) clientOrderId = pair fillId := by
  induction orders generalizing rows with
  | nil => exact hpair
  | cons order orders ih =>
    refine ih ?_ fun other hin => hsame other (List.mem_cons_of_mem order hin)
    by_cases hown : order.clientOrderId = clientOrderId ∧ Priced order
    · have hid := hsame order List.mem_cons_self hown.1 hown.2
      rw [book_again (hid ▸ hpair)]
      exact hpair
    · rw [book_other hown]
      exact hpair

/-- However often an order comes back filled, it is booked once. -/
theorem books_first (hdigest : Function.Injective digest) (hrows : AllMarked digest rows)
    (hcycle : Unbarred cycle.cycleId) (hids : ∀ order ∈ orders, Unbarred order.clientOrderId)
    {fillId : String} (hnone : entries rows clientOrderId = [])
    (hsome : ∃ order ∈ orders, order.clientOrderId = clientOrderId ∧ Priced order)
    (hsame : ∀ order ∈ orders, order.clientOrderId = clientOrderId → Priced order →
      fillIdOf digest cycle.cycleId order = fillId) :
    entries (orders.foldl (book digest cycle) rows) clientOrderId = pair fillId := by
  induction orders generalizing rows with
  | nil =>
    obtain ⟨_, hin, -⟩ := hsome
    cases hin
  | cons order orders ih =>
    have hid := hids order List.mem_cons_self
    have hrest := fun other hin => hids other (List.mem_cons_of_mem order hin)
    have hrestSame := fun other hin => hsame other (List.mem_cons_of_mem order hin)
    by_cases hown : order.clientOrderId = clientOrderId ∧ Priced order
    · obtain ⟨rfl, hpriced⟩ := hown
      refine @books_again digest cycle _ _ orders fillId ?_ hrestSame
      rw [← hsame order List.mem_cons_self rfl hpriced]
      exact book_first hdigest hrows hcycle hid hpriced hnone
    · refine ih (book_marked hrows hcycle hid) hrest ?_ ?_ hrestSame
      · rw [book_other hown]
        exact hnone
      · obtain ⟨filled, hin, hfilled⟩ := hsome
        rcases List.mem_cons.mp hin with rfl | hin
        · exact absurd hfilled hown
        · exact ⟨filled, hin, hfilled⟩

end Orders

end Stage7Cycle
