import Btcbot.Stage4Accounting

/-!
# Fills are applied once

The ledger rows of fills are told apart by their trade ids, so the events of a
fill are inserted unless its id is taken. From there one cycle keeps positions,
applied marks and ledger in step, and a run does by induction.
-/
namespace Stage4Accounting

open PyData Ledger LedgerStore Effects

variable {α β : Type}

section Rules

variable {P : Store → Prop} {Q : α → Store → Prop}

/-- A program of a transaction, from the stores of a precondition. Whatever an
exception leaves is rolled back. -/
def TxTriple (P : Store → Prop) (m : TxM α) (Q : α → Store → Prop) : Prop :=
  Triple (fun tx => P tx.store) m (fun a tx => Q a tx.store) (fun _ _ => True)

theorem TxTriple.bind {m : TxM α} {f : α → TxM β} {R : β → Store → Prop} (hm : TxTriple P m Q)
    (hf : ∀ a, TxTriple (Q a) (f a) R) : TxTriple P (m >>= f) R :=
  Triple.bind hm hf

theorem TxTriple.pure {a : α} (h : ∀ store, P store → Q a store) : TxTriple P (pure a) Q :=
  Triple.pure fun tx htx => h tx.store htx

theorem TxTriple.throw (error : TxError) : TxTriple P (throw error) Q :=
  Triple.throw fun _ _ => trivial

theorem TxTriple.conseq {m : TxM α} {R : α → Store → Prop} (h : TxTriple P m Q)
    (hq : ∀ a store, Q a store → R a store) : TxTriple P m R :=
  Triple.conseq h (fun _ htx => htx) (fun a tx => hq a tx.store) (fun _ _ h => h)

theorem TxTriple.at {m : TxM α} {store : Store} (h : TxTriple P m Q) (hs : P store) :
    TxTriple (· = store) m Q :=
  Triple.conseq h (fun tx htx => show P tx.store from htx ▸ hs) (fun _ _ h => h) (fun _ _ h => h)

/-- A precondition is taken store by store. -/
theorem TxTriple.of_each {m : TxM α} (h : ∀ store, P store → TxTriple (· = store) m Q) :
    TxTriple P m Q :=
  fun tx htx => h tx.store htx tx rfl

theorem TxTriple.assume {c : Prop} {m : TxM α} (h : c → TxTriple P m Q) :
    TxTriple (fun store => c ∧ P store) m Q :=
  Triple.assume h

/-- A statement started in one store. -/
theorem statement_from (store : Store) (f : Store → α × Store) :
    TxTriple (· = store) (statement f) (fun a next => a = (f store).1 ∧ next = (f store).2) := by
  intro tx htx
  subst htx
  simp only [statement, ends_bind, ends_get, ends_ite, ends_throw, ends_set, ends_pure, and_self,
    ite_self]

theorem select_from (store : Store) (f : Store → α) :
    TxTriple (· = store) (selectFrom f) (fun a next => a = f store ∧ next = store) :=
  statement_from store _

theorem write_from (store : Store) (f : Store → Store) :
    TxTriple (· = store) (write f) (fun _ next => next = f store) :=
  (statement_from store _).conseq fun _ _ h => h.2

end Rules

section Ledger

/-- The shape of the events made of fills. -/
def FromFill (event : LedgerEvent) : Prop :=
  (∃ id, event.type = .fill ∧ event.eventId = "fill:" ++ id ∧ event.exchangeTradeId = some id) ∨
    ∃ id, event.type = .fee ∧ event.eventId = "fee:" ++ id ∧
      event.exchangeTradeId = some ("fee:" ++ id)

def tradeIds (rows : List LedgerRow) : List String :=
  rows.filterMap fun row => row.event.exchangeTradeId

theorem fillEvent_fromFill (time : EpochTime) (fill : Fill) : FromFill (fillEvent time fill) :=
  .inl ⟨_, rfl, rfl, rfl⟩

theorem feeEvent_fromFill (time : EpochTime) (fill : Fill) : FromFill (feeEvent time fill) :=
  .inr ⟨_, rfl, rfl, rfl⟩

theorem FromFill.stored {event : LedgerEvent} (h : FromFill event) :
    FromFill (storedEvent event) := h

theorem append_left_cancel {a b c : String} (h : a ++ b = a ++ c) : b = c := by
  have hl := congrArg String.toList h
  rw [String.toList_append, String.toList_append] at hl
  exact String.toList_injective (List.append_cancel_left hl)

theorem fill_ne_fee (a b : String) : "fill:" ++ a ≠ "fee:" ++ b := by
  intro h
  have hl := congrArg String.toList h
  simp at hl

/-- Two such events conflict just when they carry one trade id. -/
theorem conflicts_iff {a b : LedgerEvent} (ha : FromFill a) (hb : FromFill b) :
    conflicts a b = true ↔ a.exchangeTradeId = b.exchangeTradeId := by
  have hkey : fallbackFillKey a = none := by
    rcases ha with ⟨i, -, -, hi⟩ | ⟨i, -, -, hi⟩ <;> simp [fallbackFillKey, hi]
  have hsome : a.exchangeTradeId.isSome = true := by
    rcases ha with ⟨i, -, -, hi⟩ | ⟨i, -, -, hi⟩ <;> simp [hi]
  have hid : a.eventId = b.eventId → a.exchangeTradeId = b.exchangeTradeId := by
    intro h
    rcases ha with ⟨i, -, hai, hat⟩ | ⟨i, -, hai, hat⟩ <;>
      rcases hb with ⟨j, -, hbi, hbt⟩ | ⟨j, -, hbi, hbt⟩ <;> rw [hai, hbi] at h
    · rw [hat, hbt, append_left_cancel h]
    · exact absurd h (fill_ne_fee i j)
    · exact absurd h.symm (fill_ne_fee j i)
    · rw [hat, hbt, h]
  simp only [conflicts, hkey, hsome, Option.isSome_none, Bool.false_and, Bool.or_false,
    Bool.true_and, Bool.or_eq_true, beq_iff_eq]
  exact ⟨fun h => h.elim hid fun h => h, .inr⟩

/-- Every row of the table comes from a fill. -/
def RowsFromFills (rows : List LedgerRow) : Prop := ∀ row ∈ rows, FromFill row.event

/-- The fill is recorded: its event stands in the table. -/
def Recorded (rows : List LedgerRow) (fillId : String) : Prop :=
  ∃ row ∈ rows, row.event.type = .fill ∧ row.event.exchangeTradeId = some (strip fillId)

theorem Recorded.mono {rows more : List LedgerRow} {fillId : String} (h : Recorded rows fillId)
    (hsub : ∀ row ∈ rows, row ∈ more) : Recorded more fillId := by
  obtain ⟨row, hrow, hevent⟩ := h
  exact ⟨row, hsub row hrow, hevent⟩

theorem Recorded.tradeId {rows : List LedgerRow} {fillId : String} (h : Recorded rows fillId) :
    strip fillId ∈ tradeIds rows := by
  obtain ⟨row, hrow, -, hid⟩ := h
  exact List.mem_filterMap.mpr ⟨row, hrow, hid⟩

/-- What one insert does to a table of fills. -/
theorem insertOrIgnore_fromFill {rows : List LedgerRow} (hrows : RowsFromFills rows)
    {event : LedgerEvent} (hevent : FromFill event) {t : String}
    (ht : event.exchangeTradeId = some t) :
    RowsFromFills (insertOrIgnore rows event).1 ∧
      (∀ row ∈ rows, row ∈ (insertOrIgnore rows event).1) ∧
      (∀ u ∈ tradeIds (insertOrIgnore rows event).1, u ∈ tradeIds rows ∨ u = t) ∧
      (t ∉ tradeIds rows → ∃ row ∈ (insertOrIgnore rows event).1, row.event = storedEvent event) := by
  by_cases hc : rows.any fun row => conflicts row.event (storedEvent event)
  · rw [show insertOrIgnore rows event = (rows, false) from if_pos hc]
    refine ⟨hrows, fun _ h => h, fun _ hu => .inl hu, fun hfree => ?_⟩
    obtain ⟨row, hrow, hconf⟩ := List.any_eq_true.mp hc
    have heq := (conflicts_iff (hrows row hrow) hevent.stored).mp hconf
    exact absurd (List.mem_filterMap.mpr ⟨row, hrow, heq.trans ht⟩) hfree
  · rw [show insertOrIgnore rows event =
      (rows ++ [⟨latestRowid rows + 1, storedEvent event⟩], true) from if_neg hc]
    refine ⟨fun row hrow => ?_, fun row hrow => List.mem_append_left _ hrow, fun u hu => ?_,
      fun _ => ⟨_, List.mem_append_right _ (List.mem_singleton_self _), rfl⟩⟩
    · rcases List.mem_append.mp hrow with hrow | hrow
      · exact hrows row hrow
      · rw [List.mem_singleton.mp hrow]
        exact hevent.stored
    · have hnew : (storedEvent event).exchangeTradeId = some t := ht
      rw [tradeIds, List.filterMap_append, List.mem_append] at hu
      refine hu.imp (fun h => h) fun h => ?_
      simpa [hnew] using h

def eventTradeIds (time : EpochTime) (fill : Fill) : List String :=
  (fillEvents time fill).filterMap LedgerEvent.exchangeTradeId

/-- What the events of one fill do to a table of fills. -/
theorem insertAll_fillEvents {rows : List LedgerRow} (hrows : RowsFromFills rows)
    (time : EpochTime) (fill : Fill) (hid : ledgerFillId time fill = strip fill.fillId) :
    RowsFromFills (insertAll rows (fillEvents time fill)).1 ∧
      (∀ row ∈ rows, row ∈ (insertAll rows (fillEvents time fill)).1) ∧
      (∀ t ∈ tradeIds (insertAll rows (fillEvents time fill)).1,
        t ∈ tradeIds rows ∨ t ∈ eventTradeIds time fill) ∧
      (ledgerFillId time fill ∉ tradeIds rows →
        Recorded (insertAll rows (fillEvents time fill)).1 fill.fillId) := by
  obtain ⟨hfill, hkeep, htrade, hnew⟩ := insertOrIgnore_fromFill hrows
    (fillEvent_fromFill time fill) (t := ledgerFillId time fill) rfl
  have hrecorded : ledgerFillId time fill ∉ tradeIds rows →
      Recorded (insertOrIgnore rows (fillEvent time fill)).1 fill.fillId := by
    intro hfree
    obtain ⟨row, hrow, hevent⟩ := hnew hfree
    exact ⟨row, hrow, by rw [hevent]; rfl, by rw [hevent, ← hid]; rfl⟩
  unfold eventTradeIds fillEvents
  split
  · obtain ⟨hfee, hkeep', htrade', -⟩ := insertOrIgnore_fromFill hfill
      (feeEvent_fromFill time fill) (t := "fee:" ++ ledgerFillId time fill) rfl
    refine ⟨hfee, fun row hrow => hkeep' row (hkeep row hrow), fun t ht => ?_,
      fun hfree => (hrecorded hfree).mono hkeep'⟩
    rcases htrade' t ht with ht | rfl
    · exact (htrade t ht).imp_right fun h => by simp [fillEvent, h]
    · exact .inr (by simp [feeEvent])
  · exact ⟨hfill, hkeep, fun t ht => (htrade t ht).imp_right fun h => by simp [fillEvent, h],
      hrecorded⟩

/-- The condition on a batch: the trade id of a fill not applied yet is free. -/
def IdsFree (time : EpochTime) : List String → List String → List Fill → Prop
  | _, _, [] => True
  | applied, claimed, fill :: fills =>
    (fill.fillId ∈ applied ∨ ledgerFillId time fill ∉ claimed) ∧
      IdsFree time (applied.insert fill.fillId) (claimed ++ eventTradeIds time fill) fills

instance (time : EpochTime) : ∀ (applied claimed : List String) (fills : List Fill),
    Decidable (IdsFree time applied claimed fills)
  | _, _, [] => .isTrue trivial
  | applied, claimed, fill :: fills =>
    have := instDecidableIdsFree time (applied.insert fill.fillId)
      (claimed ++ eventTradeIds time fill) fills
    inferInstanceAs (Decidable (_ ∧ _))

/-- The ids of a fetched fill: the ledger keeps the one it was given, trimmed. -/
def Trimmed (time : EpochTime) (fill : Fill) : Prop := ledgerFillId time fill = strip fill.fillId

theorem insertAll_batch {time : EpochTime} {fills : List Fill} {rows : List LedgerRow}
    {applied claimed : List String} (hrows : RowsFromFills rows)
    (hclaimed : ∀ t ∈ tradeIds rows, t ∈ claimed) (happlied : ∀ id ∈ applied, Recorded rows id)
    (hids : ∀ fill ∈ fills, Trimmed time fill) (hfree : IdsFree time applied claimed fills) :
    RowsFromFills (insertAll rows (fills.flatMap (fillEvents time))).1 ∧
      (∀ id ∈ applied, Recorded (insertAll rows (fills.flatMap (fillEvents time))).1 id) ∧
      ∀ fill ∈ fills,
        Recorded (insertAll rows (fills.flatMap (fillEvents time))).1 fill.fillId := by
  induction fills generalizing rows applied claimed with
  | nil => exact ⟨hrows, happlied, fun _ h => absurd h List.not_mem_nil⟩
  | cons fill fills ih =>
    obtain ⟨hfirst, hrest⟩ := hfree
    obtain ⟨hrows', hkeep, htrade, hnew⟩ := insertAll_fillEvents hrows time fill
      (hids fill List.mem_cons_self)
    have happlied' : ∀ id ∈ applied.insert fill.fillId,
        Recorded (insertAll rows (fillEvents time fill)).1 id := by
      intro id hid
      rcases List.mem_insert_iff.mp hid with rfl | hid
      · exact hfirst.elim (fun h => (happlied _ h).mono hkeep)
          fun h => hnew fun ht => h (hclaimed _ ht)
      · exact (happlied id hid).mono hkeep
    obtain ⟨hall, hold, hmore⟩ := ih hrows'
      (fun t ht => List.mem_append.mpr ((htrade t ht).imp_left (hclaimed t))) happlied'
      (fun f hf => hids f (List.mem_cons_of_mem fill hf)) hrest
    rw [List.flatMap_cons, insertAll_append]
    refine ⟨hall, fun id hid => hold id (List.mem_insert_of_mem hid), fun f hf => ?_⟩
    rcases List.mem_cons.mp hf with rfl | hf
    · exact hold _ (List.mem_insert_self)
    · exact hmore f hf

end Ledger

section Positions

/-- The symbol and the signed quantity of the fill an id denotes. -/
abbrev ExchangeFills := String → String × ℚ

def signedQty (fill : Fill) : ℚ := if isBuy fill then fill.qty.value else -fill.qty.value

def Denotes (exchange : ExchangeFills) (fill : Fill) : Prop :=
  exchange fill.fillId = (normalizeSymbol fill.symbol, signedQty fill)

instance (exchange : ExchangeFills) (fill : Fill) : Decidable (Denotes exchange fill) := by
  unfold Denotes
  infer_instance

/-- The signed sum over applied fill ids. -/
def appliedQty (exchange : ExchangeFills) (fillIds : List String) (symbol : String) : ℚ :=
  (fillIds.map fun id => if (exchange id).1 = symbol then (exchange id).2 else 0).sum

theorem appliedQty_cons (exchange : ExchangeFills) (id : String) (fillIds : List String)
    (symbol : String) : appliedQty exchange (id :: fillIds) symbol =
      (if (exchange id).1 = symbol then (exchange id).2 else 0) +
        appliedQty exchange fillIds symbol := rfl

def positionQty (positions : Dict Position) (symbol : String) : ℚ :=
  (positions[symbol]?.map Position.qty).getD 0

theorem fillPosition_ok {position next : Position} {fill : Fill} {feeTry : ℚ}
    (h : fillPosition position fill feeTry = .ok next) :
    next.symbol = position.symbol ∧ next.qty = position.qty + signedQty fill := by
  unfold fillPosition at h
  unfold signedQty
  split at h
  · next hbuy =>
    rw [if_pos hbuy]
    cases h
    exact ⟨rfl, rfl⟩
  · next hsell =>
    rw [if_neg hsell]
    split at h
    · cases h
    · cases h
      exact ⟨rfl, sub_eq_add_neg _ _⟩

/-- Positions and applied marks in step, every mark under a claimed trade id. -/
structure Booked (exchange : ExchangeFills) (claimed : List String) (store : Store) : Prop where
  claimed : ∀ id ∈ store.appliedFills, strip id ∈ claimed
  distinct : (store.appliedFills.map strip).Nodup
  filed : ∀ key (position : Position),
    store.stage4Positions[key]? = some position → position.symbol = key
  positions : ∀ symbol, positionQty store.stage4Positions symbol =
    appliedQty exchange store.appliedFills symbol

theorem Booked.claim {exchange : ExchangeFills} {claimed : List String} {store : Store}
    (h : Booked exchange claimed store) (more : List String) :
    Booked exchange (claimed ++ more) store :=
  { h with claimed := fun id hid => List.mem_append_left more (h.claimed id hid) }

/-- A new fill moves its position by its signed quantity and marks its id. -/
theorem Booked.apply {exchange : ExchangeFills} {claimed more : List String} {store : Store}
    (h : Booked exchange claimed store) {fill : Fill} {position : Position} {feeTry : ℚ}
    (hfree : strip fill.fillId ∉ claimed) (hmore : strip fill.fillId ∈ more)
    (hdenotes : Denotes exchange fill)
    (hposition : fillPosition
      ((store.stage4Positions[normalizeSymbol fill.symbol]?).getD (newPosition fill)) fill
        feeTry = .ok position) (saved : List Fill) :
    Booked exchange (claimed ++ more) { store with
      appliedFills := fill.fillId :: store.appliedFills
      stage4Fills := saved
      stage4Positions := store.stage4Positions.insert (normalizeSymbol position.symbol)
        { position with symbol := normalizeSymbol position.symbol } } := by
  obtain ⟨hsymbol, hqty⟩ := fillPosition_ok hposition
  have hkey : normalizeSymbol position.symbol = normalizeSymbol fill.symbol := by
    rw [hsymbol]
    cases hp : store.stage4Positions[normalizeSymbol fill.symbol]? with
    | none => rfl
    | some old =>
      rw [Option.getD_some, h.filed _ old hp]
      exact normalizeSymbol_idem _
  have hold : ((store.stage4Positions[normalizeSymbol fill.symbol]?).getD (newPosition fill)).qty =
      positionQty store.stage4Positions (normalizeSymbol fill.symbol) := by
    unfold positionQty
    cases store.stage4Positions[normalizeSymbol fill.symbol]? <;> rfl
  refine ⟨?_, ?_, ?_, ?_⟩
  · intro id hid
    rcases List.mem_cons.mp hid with rfl | hid
    · exact List.mem_append_right claimed hmore
    · exact List.mem_append_left more (h.claimed id hid)
  · refine List.nodup_cons.mpr ⟨fun hmem => ?_, h.distinct⟩
    obtain ⟨id, hid, heq⟩ := List.mem_map.mp hmem
    exact hfree (heq ▸ h.claimed id hid)
  · intro key old hget
    rw [Dict.insert_get] at hget
    split at hget
    · next hk =>
      cases hget
      exact hk
    · exact h.filed key old hget
  · intro symbol
    rw [appliedQty_cons, ← h.positions symbol, show exchange fill.fillId = _ from hdenotes]
    simp only [positionQty, Dict.insert_get, hkey]
    split
    · next hs =>
      subst hs
      rw [Option.map_some, Option.getD_some, hqty, hold, positionQty]
      exact add_comm _ _
    · exact (zero_add _).symm

end Positions

section Transaction

theorem appendLedgerEvents_from (store : Store) (events : List LedgerEvent) :
    TxTriple (· = store) (appendLedgerEvents events) (fun result next =>
      next = { store with ledgerEvents := (insertAll store.ledgerEvents events).1 } ∧
        result = (LedgerStore.appendLedgerEvents store.ledgerEvents events).2) := by
  have hloop (inserted : ℕ) : TxTriple (· = store)
      (events.foldlM (fun inserted event => do
        let hit ← appendEvent event
        Pure.pure (inserted + hit.toNat)) inserted)
      (fun count next =>
        next = { store with ledgerEvents := (insertAll store.ledgerEvents events).1 } ∧
          count = inserted + (insertAll store.ledgerEvents events).2) := by
    induction events generalizing store inserted with
    | nil => exact TxTriple.pure fun _ h => ⟨h, rfl⟩
    | cons event events ih =>
      rw [List.foldlM_cons]
      refine TxTriple.bind (Q := fun count next =>
        next = { store with ledgerEvents := (insertOrIgnore store.ledgerEvents event).1 } ∧
          count = inserted + (insertOrIgnore store.ledgerEvents event).2.toNat) ?_ fun count => ?_
      · refine (statement_from store _).bind fun hit => TxTriple.pure fun _ h => ⟨h.2, ?_⟩
        rw [h.1]
      · refine TxTriple.of_each fun next ⟨hnext, hcount⟩ => ?_
        subst hnext
        refine (ih _ count).conseq fun total last h => ⟨h.1, ?_⟩
        rw [h.2, hcount, insertAll]
        exact Nat.add_assoc _ _ _
  refine (hloop 0).bind fun count => TxTriple.pure fun _ h => ⟨h.1, ?_⟩
  rw [h.2, Nat.zero_add]
  rfl

theorem saveStage4Fill_from (store : Store) (fill : Fill) :
    TxTriple (· = store) (saveStage4Fill fill) (fun _ next =>
      ∃ saved, next = { store with stage4Fills := saved }) := by
  refine (statement_from store _).conseq fun _ next h => ?_
  rw [h.2]
  split
  · exact ⟨_, rfl⟩
  · exact ⟨_, rfl⟩

/-- What the application loop goes through: the ledger holds the events of the
batch, the fills to come have free ids. -/
structure Applying (exchange : ExchangeFills) (time : EpochTime) (start : Store)
    (claimed : List String) (fills : List Fill) (store : Store) : Prop where
  ledger : store.ledgerEvents = start.ledgerEvents
  cursors : store.cursors = start.cursors
  booked : Booked exchange claimed store
  recorded : ∀ id ∈ store.appliedFills, Recorded start.ledgerEvents id
  free : IdsFree time store.appliedFills claimed fills

/-- A fill of a batch: fetched, denoted and recorded. -/
structure BatchFill (exchange : ExchangeFills) (time : EpochTime) (start : Store)
    (fill : Fill) : Prop where
  denotes : Denotes exchange fill
  trimmed : Trimmed time fill
  recorded : Recorded start.ledgerEvents fill.fillId

theorem mem_eventTradeIds (time : EpochTime) (fill : Fill) :
    ledgerFillId time fill ∈ eventTradeIds time fill := by
  unfold eventTradeIds fillEvents
  split <;> simp [fillEvent]

theorem applyFill_triple {exchange : ExchangeFills} {time : EpochTime} {start : Store}
    {claimed : List String} {fill : Fill} {fills : List Fill}
    (hfill : BatchFill exchange time start fill) (markPrices : MarkPrices)
    (feeNotes : List String) :
    TxTriple (Applying exchange time start claimed (fill :: fills))
      (applyFill markPrices feeNotes fill)
      (fun _ => Applying exchange time start (claimed ++ eventTradeIds time fill) fills) := by
  refine TxTriple.of_each fun store hstore => ?_
  obtain ⟨hnext, hrest⟩ := hstore.free
  by_cases hmem : fill.fillId ∈ store.appliedFills
  · -- a fill applied before is skipped
    refine (statement_from store _).bind fun fresh => TxTriple.assume fun hfresh => ?_
    rw [if_pos hmem] at hfresh
    rw [if_pos hmem, hfresh]
    refine TxTriple.pure fun next hn => ?_
    rw [List.insert_of_mem hmem] at hrest
    rw [hn]
    exact { hstore with booked := hstore.booked.claim _, free := hrest }
  · refine (statement_from store _).bind fun fresh => TxTriple.assume fun hfresh => ?_
    rw [if_neg hmem] at hfresh
    rw [if_neg hmem, hfresh]
    refine (saveStage4Fill_from _ fill).bind fun _ => TxTriple.of_each fun s ⟨saved, hs⟩ => ?_
    refine (select_from s _).bind fun stored => TxTriple.assume fun hstored => ?_
    subst hs hstored
    dsimp only
    split
    · next position hposition =>
      refine (write_from _ _).bind fun _ => TxTriple.pure fun next hn => ?_
      subst hn
      rw [List.insert_of_not_mem hmem] at hrest
      have hfree : strip fill.fillId ∉ claimed := hfill.trimmed ▸ hnext.resolve_left hmem
      refine ⟨hstore.ledger, hstore.cursors,
        hstore.booked.apply hfree (hfill.trimmed ▸ mem_eventTradeIds time fill) hfill.denotes
          hposition saved, fun id hid => ?_, hrest⟩
      rcases List.mem_cons.mp hid with rfl | hid
      · exact hfill.recorded
      · exact hstore.recorded id hid
    · exact TxTriple.throw _

theorem applyLoop_triple {exchange : ExchangeFills} {time : EpochTime} {start : Store}
    {claimed : List String} {fills : List Fill}
    (hfills : ∀ fill ∈ fills, BatchFill exchange time start fill) (markPrices : MarkPrices)
    (feeNotes : List String) :
    TxTriple (Applying exchange time start claimed fills)
      (fills.foldlM (applyFill markPrices) feeNotes)
      (fun _ store => ∃ claimed, Applying exchange time start claimed [] store) := by
  induction fills generalizing claimed feeNotes with
  | nil => exact TxTriple.pure fun _ h => ⟨claimed, h⟩
  | cons fill fills ih =>
    rw [List.foldlM_cons]
    refine (applyFill_triple (hfills fill List.mem_cons_self) markPrices feeNotes).bind
      fun notes => ?_
    exact ih (fun f hf => hfills f (List.mem_cons_of_mem fill hf)) notes

theorem takePnlSnapshot_from (store : Store) (input : PnlInput) :
    TxTriple (· = store) (takePnlSnapshot input) (fun _ next =>
      ∃ snapshots, next = { store with pnlSnapshots := snapshots }) := by
  refine (select_from store _).bind fun positions => TxTriple.assume fun _ => ?_
  refine (select_from store _).bind fun baseline => TxTriple.assume fun _ => ?_
  refine (select_from store _).bind fun drawdown => TxTriple.assume fun _ => ?_
  exact (write_from store _).bind fun _ => TxTriple.pure fun _ h => ⟨_, h⟩

theorem Booked.frame {exchange : ExchangeFills} {claimed : List String} {store next : Store}
    (h : Booked exchange claimed store) (happlied : next.appliedFills = store.appliedFills)
    (hpositions : next.stage4Positions = store.stage4Positions) :
    Booked exchange claimed next := by
  refine ⟨?_, ?_, ?_, ?_⟩
  · rw [happlied]
    exact h.claimed
  · rw [happlied]
    exact h.distinct
  · rw [hpositions]
    exact h.filed
  · rw [happlied, hpositions]
    exact h.positions

theorem applyFills_triple {exchange : ExchangeFills} {time : EpochTime} {start : Store}
    {claimed : List String} {fills : List Fill}
    (hfills : ∀ fill ∈ fills, BatchFill exchange time start fill) (input : PnlInput) :
    TxTriple (Applying exchange time start claimed fills) (applyFills fills input)
      (fun _ store => ∃ claimed, Applying exchange time start claimed [] store) := by
  refine (applyLoop_triple hfills input.markPrices []).bind fun feeNotes => ?_
  refine TxTriple.of_each fun store ⟨claimed, h⟩ => ?_
  refine (takePnlSnapshot_from store input).bind fun snapshot => ?_
  dsimp only
  split
  · exact (TxTriple.throw _).bind (Q := fun _ _ => False) fun _ => TxTriple.pure fun _ h => h.elim
  · refine TxTriple.pure fun next ⟨snapshots, hn⟩ => ⟨claimed, ?_⟩
    subst hn
    exact { h with booked := h.booked.frame rfl rfl }

/-- Every cursor stays or grows. -/
def CursorsAdvance (before after : Dict ℤ) : Prop :=
  ∀ (key : String) (value : ℤ), before[key]? = some value →
    ∃ next, after[key]? = some next ∧ value ≤ next

theorem CursorsAdvance.refl (cursors : Dict ℤ) : CursorsAdvance cursors cursors :=
  fun _ value h => ⟨value, h, le_rfl⟩

theorem CursorsAdvance.trans {a b c : Dict ℤ} (h : CursorsAdvance a b)
    (h' : CursorsAdvance b c) : CursorsAdvance a c := by
  intro key value hv
  obtain ⟨v, hb, hle⟩ := h key value hv
  obtain ⟨w, hc, hle'⟩ := h' key v hb
  exact ⟨w, hc, hle.trans hle'⟩

def CursorsDigits (cursors : Dict ℤ) : Prop :=
  ∀ (key : String) (value : ℤ), cursors[key]? = some value → 0 ≤ value

/-- A cursor written over a smaller or equal one, or over none. -/
theorem CursorsAdvance.insert (cursors : Dict ℤ) (key : String) (value : ℤ)
    (h : ∀ old, cursors[key]? = some old → old ≤ value) :
    CursorsAdvance cursors (cursors.insert key value) := by
  intro k old hk
  rw [Dict.insert_get]
  by_cases hkey : key = k
  · subst hkey
    exact ⟨value, if_pos rfl, h old hk⟩
  · exact ⟨old, by rw [if_neg hkey, hk], le_rfl⟩

theorem CursorsDigits.insert {cursors : Dict ℤ} (h : CursorsDigits cursors) (key : String)
    {value : ℤ} (hv : 0 ≤ value) : CursorsDigits (cursors.insert key value) := by
  intro k v hk
  rw [Dict.insert_get] at hk
  split at hk
  · cases hk
    exact hv
  · exact h k v hk

/-- The stores the cursor loop goes through. -/
def SavingCursors (start store : Store) : Prop :=
  ∃ cursors, store = { start with cursors := cursors } ∧ CursorsDigits cursors ∧
    CursorsAdvance start.cursors cursors

theorem SavingCursors.insert {start store : Store} (h : SavingCursors start store) (key : String)
    {value : ℤ} (hv : 0 ≤ value) (hold : ∀ old, store.cursors[key]? = some old → old ≤ value) :
    SavingCursors start { store with cursors := store.cursors.insert key value } := by
  obtain ⟨cursors, rfl, hdigits, hadvance⟩ := h
  exact ⟨_, rfl, hdigits.insert key hv, hadvance.trans (CursorsAdvance.insert _ _ _ hold)⟩

theorem setCursor_triple (start : Store) (key : String) {value : ℤ} (hv : 0 ≤ value) :
    TxTriple (SavingCursors start) (setCursor key value) (fun _ => SavingCursors start) := by
  refine TxTriple.of_each fun store hstore => ?_
  refine (select_from store _).bind fun current => TxTriple.assume fun hcurrent => ?_
  split
  · next previous =>
    split
    · exact TxTriple.throw _
    · next hle =>
      refine (write_from store _).conseq fun _ next hn => ?_
      rw [hn]
      refine hstore.insert key hv fun old hold => ?_
      obtain ⟨cursors, rfl, hdigits, -⟩ := hstore
      have hnonneg := hdigits key old hold
      have hsame : previous = old := by rw [← hcurrent] at hold; exact Option.some.inj hold
      subst hsame
      omega
  · refine (write_from store _).conseq fun _ next hn => ?_
    rw [hn]
    refine hstore.insert key hv fun old hold => ?_
    rw [← hcurrent] at hold
    cases hold

theorem saveCursors_triple (start : Store) {fetched : FetchedFills}
    (hpos : ∀ entry ∈ fetched.cursorAfterBySymbol, 0 < entry.2) :
    TxTriple (SavingCursors start) (saveCursors fetched) (fun _ => SavingCursors start) := by
  refine Triple.foldlM (I := fun _ (tx : Tx) => SavingCursors start tx.store) _
    (fun entry hentry _ => ?_) ()
  refine Triple.ite (fun _ => Triple.pure fun _ h => h) fun _ => ?_
  exact setCursor_triple start _ (hpos entry hentry).le

end Transaction

section Fetch

theorem mem_fallbackFillId (orderId : String) (tsMs : ℤ) (price qty : Decimal) (side : String) :
    ':' ∈ (fallbackFillId orderId tsMs price qty side).toList := by
  unfold fallbackFillId
  simp only [String.toList_append, List.mem_append]
  exact .inl (.inr (List.mem_singleton.mpr rfl))

theorem fillIdOf_not_blank (time : EpochTime) (trade : TradeFill) :
    strip (fillIdOf time trade) ≠ "" := by
  unfold fillIdOf
  dsimp only
  split
  · exact strip_ne_empty.mpr ⟨':', mem_fallbackFillId _ _ _ _ _, by decide⟩
  · next h => exact strip_strip_ne_empty h

/-- The id a fetched fill gets is never blank, so the ledger keeps it. -/
theorem toFill_trimmed (time : EpochTime) (trade : TradeFill) :
    Trimmed time (toFill time trade) := by
  simp only [Trimmed, ledgerFillId, toFill, fillIdOf_not_blank time trade, if_false]

theorem fetchLoop_fills (time : EpochTime) (trades : List TradeFill) (s : FetchState) {fill : Fill}
    (h : fill ∈ (trades.foldl (fetchStep time) s).fills) :
    fill ∈ s.fills ∨ ∃ trade ∈ trades, fill = toFill time trade := by
  induction trades generalizing s with
  | nil => exact .inl h
  | cons trade trades ih =>
    rcases ih _ h with h | ⟨t, ht, he⟩
    · unfold fetchStep at h
      dsimp only at h
      split at h
      · exact .inl h
      · rcases List.mem_append.mp h with h | h
        · exact .inl h
        · exact .inr ⟨trade, List.mem_cons_self, List.mem_singleton.mp h⟩
    · exact .inr ⟨t, List.mem_cons_of_mem trade ht, he⟩

/-- A fill some answer of the exchange reports. -/
def Reported (time : EpochTime) (getRecentFills : RecentFills) (fill : Fill) : Prop :=
  ∃ symbol since trades, getRecentFills symbol since = .ok trades ∧
    ∃ trade ∈ trades, fill = toFill time trade

theorem fetchNewFills_ok {config : Config} {cursors : Dict ℤ} {getRecentFills : RecentFills}
    {now : DateTime} {symbol : String} {result : FetchFillsResult}
    (h : fetchNewFills config cursors getRecentFills now symbol = .ok result) :
    (∀ fill ∈ result.fills, Reported config.time getRecentFills fill) ∧
      ∀ cursor, result.cursorAfter = some cursor → 0 < cursor := by
  unfold fetchNewFills at h
  dsimp only at h
  split at h
  · cases h
  · next trades hanswer =>
    split at h
    · cases h
    · obtain rfl := Except.ok.inj h
      refine ⟨fun fill hfill => ?_, fun cursor hcursor => ?_⟩
      · rcases fetchLoop_fills _ _ _ hfill with hfill | ⟨trade, htrade, he⟩
        · cases hfill
        · have hmem := (List.perm_insertionSort SeenBefore _).mem_iff.mp htrade
          exact ⟨_, _, trades, hanswer, trade, (List.mem_filter.mp hmem).1, he⟩
      · unfold fetchResult at hcursor
        dsimp only at hcursor
        split at hcursor
        · next hpos => exact Option.some.inj hcursor ▸ hpos
        · cases hcursor

theorem mem_setEntry {entries : List (String × ℤ)} {key : String} {value : ℤ}
    {entry : String × ℤ} (h : entry ∈ setEntry entries key value) :
    entry ∈ entries ∨ entry = (key, value) := by
  unfold setEntry at h
  split at h
  · obtain ⟨e, he, rfl⟩ := List.mem_map.mp h
    split
    · exact .inr rfl
    · exact .inl he
  · exact (List.mem_append.mp h).imp_right List.mem_singleton.mp

/-- What a fetch of all symbols hands on: reported fills and positive cursors. -/
structure Fetched (time : EpochTime) (getRecentFills : RecentFills) (fetched : FetchedFills) :
    Prop where
  reported : ∀ fill ∈ fetched.fills, Reported time getRecentFills fill
  cursors : ∀ entry ∈ fetched.cursorAfterBySymbol, 0 < entry.2

theorem fetchSymbol_fetched (config : Config) (cursors : Dict ℤ) (input : CycleInput)
    {fetched : FetchedFills} (h : Fetched config.time input.getRecentFills fetched)
    (symbol : String) :
    Fetched config.time input.getRecentFills (fetchSymbol config cursors input fetched symbol) := by
  unfold fetchSymbol
  split
  · next result hresult =>
    obtain ⟨hreported, hcursor⟩ := fetchNewFills_ok hresult
    refine ⟨fun fill hfill => ?_, fun entry hentry => ?_⟩
    · exact (List.mem_append.mp hfill).elim (h.reported fill) (hreported fill)
    · dsimp only at hentry
      split at hentry
      · next cursorAfter hafter =>
        rcases mem_setEntry hentry with hentry | rfl
        · exact h.cursors entry hentry
        · exact hcursor cursorAfter hafter
      · exact h.cursors entry hentry
  · exact ⟨h.reported, h.cursors⟩

theorem fetchFills_fetched (config : Config) (cursors : Dict ℤ) (input : CycleInput) :
    Fetched config.time input.getRecentFills (fetchFills config cursors input) := by
  unfold fetchFills
  have hstart : Fetched config.time input.getRecentFills ⟨[], [], input.failedSymbols⟩ :=
    ⟨fun _ h => absurd h List.not_mem_nil, fun _ h => absurd h List.not_mem_nil⟩
  generalize (⟨[], [], input.failedSymbols⟩ : FetchedFills) = fetched at hstart ⊢
  induction input.activeSymbols generalizing fetched with
  | nil => exact hstart
  | cons symbol symbols ih =>
    exact ih _ (fetchSymbol_fetched config cursors input hstart symbol)

end Fetch

section Cycle

/-- What every cycle keeps. -/
structure InStep (exchange : ExchangeFills) (store : Store) : Prop where
  rows : RowsFromFills store.ledgerEvents
  table : TableWf store.ledgerEvents
  booked : Booked exchange (tradeIds store.ledgerEvents) store
  recorded : ∀ id ∈ store.appliedFills, Recorded store.ledgerEvents id
  digits : CursorsDigits store.cursors

theorem InStep.start (exchange : ExchangeFills) : InStep exchange {} where
  rows := fun _ h => absurd h List.not_mem_nil
  table := TableWf.nil
  booked :=
    { claimed := fun _ h => absurd h List.not_mem_nil
      distinct := List.nodup_nil
      filed := fun _ _ h => by simp at h
      positions := fun _ => by simp [positionQty, appliedQty] }
  recorded := fun _ h => absurd h List.not_mem_nil
  digits := fun _ _ h => by simp at h

/-- Each answer of the exchange gives an id the fill it denotes. -/
def CycleInput.Reports (time : EpochTime) (exchange : ExchangeFills) (input : CycleInput) : Prop :=
  ∀ fill, Reported time input.getRecentFills fill → Denotes exchange fill

/-- The condition on a cycle: the trade ids of its new fills are free. -/
def IdsFreeIn (config : Config) (store : Store) (input : CycleInput) : Prop :=
  IdsFree config.time store.appliedFills (tradeIds store.ledgerEvents)
    (fetchFills config store.cursors input).fills

theorem applyFetched_triple {config : Config} {exchange : ExchangeFills} {store : Store}
    {input : CycleInput} (h : InStep exchange store) (hreports : input.Reports config.time exchange)
    (hfree : IdsFreeIn config store input) :
    TxTriple (· = store) (applyFetched config input (fetchFills config store.cursors input))
      (fun _ next => InStep exchange next ∧ CursorsAdvance store.cursors next.cursors) := by
  obtain ⟨hreported, hpos⟩ := fetchFills_fetched config store.cursors input
  have hids : ∀ fill ∈ (fetchFills config store.cursors input).fills,
      Trimmed config.time fill := by
    intro fill hfill
    obtain ⟨-, -, -, -, trade, -, rfl⟩ := hreported fill hfill
    exact toFill_trimmed config.time trade
  obtain ⟨hrows, hold, hnew⟩ := insertAll_batch h.rows (fun _ ht => ht) h.recorded hids hfree
  refine (appendLedgerEvents_from store _).bind fun ingest =>
    TxTriple.of_each fun start ⟨hstart, _⟩ => ?_
  have hbatch : ∀ fill ∈ (fetchFills config store.cursors input).fills,
      BatchFill exchange config.time start fill := by
    intro fill hfill
    exact ⟨hreports fill (hreported fill hfill), hids fill hfill, hstart ▸ hnew fill hfill⟩
  have happlying : Applying exchange config.time start (tradeIds store.ledgerEvents)
      (fetchFills config store.cursors input).fills start := by
    subst hstart
    exact ⟨rfl, rfl, h.booked.frame rfl rfl, hold, hfree⟩
  refine ((applyFills_triple hbatch input.pnl).at happlying).bind fun snapshot => ?_
  refine TxTriple.of_each fun applied ⟨claimed, happlied⟩ => ?_
  have hcursors : applied.cursors = store.cursors := by rw [happlied.cursors, hstart]
  have hsaving : SavingCursors applied applied :=
    ⟨applied.cursors, rfl, hcursors ▸ h.digits, CursorsAdvance.refl _⟩
  refine ((saveCursors_triple applied hpos).at hsaving).bind fun _ => ?_
  refine TxTriple.of_each fun saved ⟨cursors, hsaved, hdigits, hadvance⟩ => ?_
  refine (write_from saved id).bind fun _ => TxTriple.pure fun next hn => ?_
  subst hsaved hn
  refine ⟨⟨?_, ?_, ?_, ?_, hdigits⟩, hcursors ▸ hadvance⟩
  · show RowsFromFills applied.ledgerEvents
    rw [happlied.ledger, hstart]
    exact hrows
  · show TableWf applied.ledgerEvents
    rw [happlied.ledger, hstart]
    exact h.table.insertAll _
  · have hclaimed : ∀ id ∈ applied.appliedFills, strip id ∈ tradeIds applied.ledgerEvents :=
      fun id hid => happlied.ledger ▸ (happlied.recorded id hid).tradeId
    exact { happlied.booked with claimed := hclaimed }
  · exact happlied.ledger ▸ happlied.recorded

/-- The ledger events of a fill. -/
def fillRows (rows : List LedgerRow) (fillId : String) : List LedgerRow :=
  rows.filter fun row =>
    row.event.type = .fill ∧ row.event.exchangeTradeId = some (strip fillId)

theorem fillRows_length {rows : List LedgerRow} (h : TableWf rows) {fillId : String}
    (hr : Recorded rows fillId) : (fillRows rows fillId).length = 1 := by
  have hpair : (fillRows rows fillId).Pairwise fun a b => conflicts a.event b.event = false :=
    h.events.sublist List.filter_sublist
  have hclash : ∀ a ∈ fillRows rows fillId, ∀ b ∈ fillRows rows fillId,
      conflicts a.event b.event = true := by
    intro a ha b hb
    have hta := (of_decide_eq_true (List.mem_filter.mp ha).2).2
    have htb := (of_decide_eq_true (List.mem_filter.mp hb).2).2
    simp [conflicts, hta, htb]
  obtain ⟨row, hrow, hevent⟩ := hr
  have hmem : row ∈ fillRows rows fillId :=
    List.mem_filter.mpr ⟨hrow, decide_eq_true hevent⟩
  cases hl : fillRows rows fillId with
  | nil =>
    rw [hl] at hmem
    cases hmem
  | cons a rest =>
    cases rest with
    | nil => rfl
    | cons b rest =>
      rw [hl] at hpair hclash
      have hfree := List.rel_of_pairwise_cons hpair List.mem_cons_self
      rw [hclash a List.mem_cons_self b (List.mem_cons_of_mem a List.mem_cons_self)] at hfree
      cases hfree

/-- Every position is the signed sum over the applied fill ids, each of which is
applied once and has one ledger event of its own. -/
structure FillsOnce (exchange : ExchangeFills) (store : Store) : Prop where
  positions : ∀ symbol, positionQty store.stage4Positions symbol =
    appliedQty exchange store.appliedFills symbol
  recorded : ∀ id ∈ store.appliedFills, (fillRows store.ledgerEvents id).length = 1
  distinct : (store.appliedFills.map strip).Nodup

theorem InStep.fillsOnce {exchange : ExchangeFills} {store : Store} (h : InStep exchange store) :
    FillsOnce exchange store where
  positions := h.booked.positions
  recorded := fun id hid => fillRows_length h.table (h.recorded id hid)
  distinct := h.booked.distinct

theorem stepCycle_inStep {config : Config} {exchange : ExchangeFills} {store : Store}
    {input : CycleInput} (h : InStep exchange store) (hreports : input.Reports config.time exchange)
    (hfree : IdsFreeIn config store input) :
    InStep exchange (stepCycle config store input) ∧
      CursorsAdvance store.cursors (stepCycle config store input).cursors := by
  have htx := applyFetched_triple h hreports hfree
  rcases atomically_cases htx (s := ⟨store, input.statementsLeft⟩) rfl with ⟨-, hcommit⟩ | habort
  · exact hcommit
  · have hstore : stepCycle config store input = store := congrArg Tx.store habort
    rw [hstore]
    exact ⟨h, CursorsAdvance.refl _⟩

/-- An aborted cycle leaves the store as it was. -/
theorem runCycle_error {config : Config} {store : Store} {input : CycleInput} {error : TxError}
    (h : (runCycle config store input).1 = .error error) : stepCycle config store input = store :=
  congrArg Tx.store (atomically_error h)

theorem runCycles_inStep {config : Config} {exchange : ExchangeFills} {store : Store}
    {inputs : List CycleInput} (h : InStep exchange store)
    (hreports : ∀ input ∈ inputs, input.Reports config.time exchange)
    (hfree : Runs.Meets (stepCycle config) (IdsFreeIn config) store inputs) :
    InStep exchange (runCycles config store inputs) ∧
      CursorsAdvance store.cursors (runCycles config store inputs).cursors := by
  induction inputs generalizing store with
  | nil => exact ⟨h, CursorsAdvance.refl _⟩
  | cons input inputs ih =>
    obtain ⟨hfirst, hrest⟩ := hfree
    obtain ⟨hstep, hadvance⟩ := stepCycle_inStep h (hreports input List.mem_cons_self) hfirst
    obtain ⟨hend, hadvance'⟩ := ih hstep
      (fun i hi => hreports i (List.mem_cons_of_mem input hi)) hrest
    exact ⟨hend, hadvance.trans hadvance'⟩

/-- In a run whose new fills have free trade ids, every fill is applied once, the
cursors never fall, and an aborted cycle is as if never run. -/
theorem fills_applied_once (config : Config) (exchange : ExchangeFills) (inputs : List CycleInput)
    (hreports : ∀ input ∈ inputs, input.Reports config.time exchange)
    (hfree : Runs.Meets (stepCycle config) (IdsFreeIn config) {} inputs)
    (before after : List CycleInput) (hsplit : inputs = before ++ after) :
    FillsOnce exchange (runCycles config {} before) ∧
      CursorsAdvance (runCycles config {} before).cursors (runCycles config {} inputs).cursors ∧
      ∀ input rest error, after = input :: rest →
        (runCycle config (runCycles config {} before) input).1 = .error error →
        runCycles config {} (before ++ [input]) = runCycles config {} before := by
  subst hsplit
  obtain ⟨hbefore, hafter⟩ := hfree.append
  obtain ⟨hstep, -⟩ := runCycles_inStep (InStep.start exchange)
    (fun i hi => hreports i (List.mem_append_left after hi)) hbefore
  have hend := runCycles_inStep hstep (fun i hi => hreports i (List.mem_append_right before hi))
    hafter
  refine ⟨hstep.fillsOnce, ?_, fun input rest error _ herror => ?_⟩
  · have hrun : runCycles config {} (before ++ after) =
        runCycles config (runCycles config {} before) after := List.foldl_append
    rw [hrun]
    exact hend.2
  · have hrun : runCycles config {} (before ++ [input]) =
        stepCycle config (runCycles config {} before) input := List.foldl_append
    rw [hrun]
    exact runCycle_error herror

section Sample

def sampleConfig : Config := ⟨⟨fun ts => ts.micros.tdiv 1000, fun ms => ⟨ms * 1000, true⟩⟩, 30⟩

def sampleTrade (fillId : String) (seconds : ℤ) (side : OrderSide) (qty fee : ℚ) : TradeFill :=
  ⟨some fillId, "o1", "BTC_TRY", side, ⟨100, "100"⟩, ⟨qty, "qty"⟩, fee, "TRY",
    ⟨seconds * 1000000, true⟩⟩

def sampleCycle (trades : List TradeFill) (statementsLeft : Option ℕ) : CycleInput where
  activeSymbols := ["BTC_TRY"]
  failedSymbols := []
  getRecentFills := fun _ _ => .ok trades
  fetchedAt := fun _ => ⟨6000000, true⟩
  pnl := ⟨[("BTCTRY", 100)], 1000, ⟨6000000, true⟩, ⟨6000000, true⟩⟩
  statementsLeft := statementsLeft

theorem sampleCycle_reports {time : EpochTime} {exchange : ExchangeFills}
    {trades : List TradeFill} (statementsLeft : Option ℕ)
    (h : ∀ trade ∈ trades, Denotes exchange (toFill time trade)) :
    (sampleCycle trades statementsLeft).Reports time exchange := by
  rintro fill ⟨symbol, since, answer, hanswer, trade, htrade, rfl⟩
  obtain rfl := Except.ok.inj hanswer
  exact h trade htrade

def sampleExchange : ExchangeFills := fun id => ("BTCTRY", if id = "t2" then -1 else 2)

/-- Overlapping batches, and an abort by a failed statement. -/
def sampleCycles : List CycleInput :=
  [sampleCycle [sampleTrade "t1" 5 .buy 2 (1 / 10)] none,
    sampleCycle [sampleTrade "t1" 5 .buy 2 (1 / 10), sampleTrade "t2" 6 .sell 1 0] (some 9),
    sampleCycle [sampleTrade "t2" 6 .sell 1 0, sampleTrade "t1" 5 .buy 2 (1 / 10)] none]

instance (config : Config) (store : Store) (input : CycleInput) :
    Decidable (IdsFreeIn config store input) := by unfold IdsFreeIn; infer_instance

theorem sampleCycles_reports : ∀ input ∈ sampleCycles, input.Reports sampleConfig.time
    sampleExchange := by
  intro input h
  simp only [sampleCycles, List.mem_cons, List.not_mem_nil, or_false] at h
  rcases h with rfl | rfl | rfl <;> exact sampleCycle_reports _ (by decide +kernel)

theorem fills_applied_once_sample :
    FillsOnce sampleExchange (runCycles sampleConfig {} sampleCycles) :=
  (fills_applied_once sampleConfig sampleExchange sampleCycles sampleCycles_reports
    ⟨by decide +kernel, by decide +kernel, by decide +kernel, trivial⟩ sampleCycles []
    (List.append_nil _).symm).1

def feeNamedCycle : CycleInput :=
  sampleCycle [sampleTrade "t1" 5 .buy 2 (1 / 10), sampleTrade "fee:t1" 6 .buy 2 0] none

/-- A fill under the trade id of another fill's fee event is applied, and its own
event is ignored. -/
theorem fee_named_fill_unrecorded : feeNamedCycle.Reports sampleConfig.time sampleExchange ∧
    ¬ FillsOnce sampleExchange (runCycles sampleConfig {} [feeNamedCycle]) :=
  ⟨sampleCycle_reports none (by decide +kernel),
    fun h => absurd (h.recorded "fee:t1" (by decide +kernel)) (by decide +kernel)⟩

end Sample

end Cycle

end Stage4Accounting
