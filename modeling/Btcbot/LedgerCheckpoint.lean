import Btcbot.DecimalFormat
import Btcbot.IsoTime
import Btcbot.JsonText
import Btcbot.Ledger

/-!
# Checkpoints of the ledger

A ledger state is saved as a JSON text with its decimals without an exponent and its times
in UTC, and loaded from one. The decimals of a state are kept here with their digits, as
two decimals of one value may have different texts; their values make a state of the
reducer.
-/
namespace LedgerCheckpoint

open DecimalText JsonText PyData
open Money (MoneyMathPolicy)
open IsoTime (InRange fromisoformat isoformat)

structure PositionLot where
  symbol : String
  qty : ScaledDecimal
  unitCost : ScaledDecimal
  openedAt : DateTime

structure SymbolLedger where
  symbol : String
  lots : List PositionLot := []
  realizedPnl : ScaledDecimal := ⟨false, 0, 0⟩

structure LedgerState where
  symbols : Dict SymbolLedger := ∅
  feesByCurrency : Dict ScaledDecimal := ∅

section Values

def PositionLot.value (lot : PositionLot) : Ledger.PositionLot :=
  ⟨lot.symbol, lot.qty.value, lot.unitCost.value, lot.openedAt⟩

def SymbolLedger.value (ledger : SymbolLedger) : Ledger.SymbolLedger :=
  ⟨ledger.symbol, ledger.lots.map PositionLot.value, ledger.realizedPnl.value⟩

/-- The state as the reducer computes with it. -/
def LedgerState.value (state : LedgerState) : Ledger.LedgerState :=
  ⟨state.symbols.map fun _ ledger => ledger.value,
    state.feesByCurrency.map fun _ amount => amount.value⟩

end Values

section Code

def serializeDecimal (value : ScaledDecimal) : Json := .string (.ofList value.fixed)

def serializeLot (lot : PositionLot) : Json :=
  .object [("qty", serializeDecimal lot.qty), ("unit_cost", serializeDecimal lot.unitCost),
    ("opened_at", .string (.ofList (isoformat (ensureUtc lot.openedAt).micros)))]

def serializeSymbol (ledger : SymbolLedger) : Json :=
  .object [("lots", .array (ledger.lots.map serializeLot)),
    ("realized_pnl", serializeDecimal ledger.realizedPnl)]

/-- An object with the keys of a dict in order. -/
def serializeDict {V : Type} (f : V → Json) (dict : Dict V) : Json :=
  .object (dict.toList.map fun entry => (entry.1, f entry.2))

def serializeLedgerState (state : LedgerState) : String :=
  dumps (.object [("symbols", serializeDict serializeSymbol state.symbols),
    ("fees_by_currency", serializeDict serializeDecimal state.feesByCurrency)])

inductive DecodeError where
  | json
  | type
  | key (name : String)
  | decimal (text : String)
  | timestamp (text : String)
  deriving DecidableEq, Repr

def asDict : Json → Except DecodeError (Dict Json)
  | .object entries => .ok (.ofList entries compare)
  | _ => .error .type

/-- What a loop over a value goes through: the keys of an object, the characters of a string. -/
def asItems : Json → Except DecodeError (List Json)
  | .array items => .ok items
  | .object entries => .ok (entries.map fun entry => .string entry.1)
  | .string text => .ok (text.toList.map fun c => .string (.singleton c))
  | _ => .error .type

/-- The entries by symbol; nothing is looked up in a sequence without items. -/
def symbolEntries : Json → Except DecodeError (Dict Json)
  | .array [] => .ok ∅
  | .string "" => .ok ∅
  | raw => asDict raw

def getItem (dict : Dict Json) (name : String) : Except DecodeError Json :=
  match dict[name]? with
  | some value => .ok value
  | none => .error (.key name)

def readScaled (text : String) : Except DecodeError ScaledDecimal :=
  match ScaledDecimal.ofText text with
  | some value => .ok value
  | none => .error (.decimal text)

def readTime (text : String) : Except DecodeError DateTime :=
  match fromisoformat text.toList with
  | some (micros, aware) => .ok ⟨micros, aware⟩
  | none => .error (.timestamp text)

variable (otherText : Json → String)

/-- The text of a value; that of one that is no string is left to Python. -/
def str : Json → String
  | .string text => text
  | value => otherText value

def deserializeLot (symbol : String) (lot : Json) : Except DecodeError PositionLot := do
  let fields ← asDict lot
  let qty ← getItem fields "qty"
  let qty ← readScaled (str otherText qty)
  let unitCost ← getItem fields "unit_cost"
  let unitCost ← readScaled (str otherText unitCost)
  let openedAt ← getItem fields "opened_at"
  let openedAt ← readTime (str otherText openedAt)
  .ok ⟨symbol, qty, unitCost, ensureUtc openedAt⟩

def deserializeSymbol (symbol : String) (payload : Json) : Except DecodeError SymbolLedger := do
  let fields ← asDict payload
  let lots ← asItems ((fields["lots"]?).getD (.array []))
  let lots ← lots.mapM (deserializeLot otherText symbol)
  let realizedPnl ← readScaled (str otherText ((fields["realized_pnl"]?).getD (.string "0")))
  .ok ⟨symbol, lots, realizedPnl⟩

/-- A dict with what is read of each entry, by key. -/
def readDict {V : Type} (read : String → Json → Except DecodeError V) (dict : Dict Json) :
    Except DecodeError (Dict V) := do
  let entries ← dict.toList.mapM fun (key, value) => (read key value).map fun value => (key, value)
  .ok (.ofList entries compare)

def deserializeLedgerState (payload : String) : Except DecodeError LedgerState :=
  match loads payload with
  | none => .error .json
  | some raw => do
    let raw ← asDict raw
    let symbols ← symbolEntries ((raw["symbols"]?).getD (.object []))
    let symbols ← readDict (deserializeSymbol otherText) symbols
    let fees ← asDict ((raw["fees_by_currency"]?).getD (.object []))
    let fees ← readDict (fun _ amount => readScaled (str otherText amount)) fees
    .ok ⟨symbols, fees⟩

end Code

section Dicts

variable {V W : Type}

theorem asDict_serializeDict (f : V → Json) (dict : Dict V) :
    asDict (serializeDict f dict) = .ok (dict.map fun _ value => f value) :=
  congrArg Except.ok (Dict.ofList_map dict fun _ value => f value)

theorem sortEntries_map (entries : List (String × V)) (f : V → Json) :
    sortEntries (entries.map fun entry => (entry.1, f entry.2)) =
      entries.map fun entry => (entry.1, sortKeys (f entry.2)) := by
  induction entries with
  | nil => rfl
  | cons entry entries ih => rw [List.map_cons, sortEntries, ih, List.map_cons]

theorem sortItems_map {α : Type} (items : List α) (f : α → Json) :
    sortItems (items.map f) = items.map fun item => sortKeys (f item) := by
  induction items with
  | nil => rfl
  | cons item items ih => rw [List.map_cons, sortItems, ih, List.map_cons]

/-- The keys of a dict are in order already. -/
theorem sortKeys_serializeDict (f : V → Json) (dict : Dict V) :
    sortKeys (serializeDict f dict) = serializeDict (fun value => sortKeys (f value)) dict := by
  rw [serializeDict, sortKeys, sortEntries_map, serializeDict]
  congr 1
  refine List.Pairwise.insertionSort_eq ?_
  rw [List.pairwise_map]
  refine (Std.ExtTreeMap.ordered_keys_toList (t := dict)).imp fun hlt => ?_
  exact (compare_lt_iff_lt.mp hlt).le

/-- What is read back of each entry makes the dict that is read. -/
theorem readDict_map {read : String → Json → Except DecodeError W} {f : V → Json}
    {g : String → V → W} {dict : Dict V}
    (h : ∀ (key : String) (value : V), dict[key]? = some value →
      read key (f value) = .ok (g key value)) :
    readDict read (dict.map fun _ value => f value) = .ok (dict.map g) := by
  have hread : ((dict.map fun _ value => f value).toList.mapM fun (key, value) =>
      (read key value).map fun value => (key, value)) =
      .ok (dict.toList.map fun entry => (entry.1, g entry.1 entry.2)) := by
    rw [Std.ExtTreeMap.toList_map, List.mapM_map]
    refine Runs.mapM_eq_ok fun entry hentry => ?_
    dsimp only [Function.comp_apply]
    rw [h entry.1 entry.2 ((Dict.mem_toList dict entry).mp hentry)]
    rfl
  rw [readDict, hread]
  exact congrArg Except.ok (Dict.ofList_map dict g)

end Dicts

section RoundTrip

variable (otherText : Json → String)

/-- What is loaded of a lot stored under a symbol. -/
def restoredLot (symbol : String) (lot : PositionLot) : PositionLot :=
  ⟨symbol, lot.qty.settled, lot.unitCost.settled, ensureUtc lot.openedAt⟩

def restoredSymbol (symbol : String) (ledger : SymbolLedger) : SymbolLedger :=
  ⟨symbol, ledger.lots.map (restoredLot symbol), ledger.realizedPnl.settled⟩

def restored (state : LedgerState) : LedgerState :=
  ⟨state.symbols.map restoredSymbol, state.feesByCurrency.map fun _ amount => amount.settled⟩

theorem readScaled_serialize (value : ScaledDecimal) :
    readScaled (str otherText (serializeDecimal value)) = .ok value.settled := by
  rw [serializeDecimal, str, readScaled, value.ofText_fixed]

theorem readTime_isoformat {micros : ℤ} (h : InRange micros) :
    readTime (str otherText (.string (.ofList (isoformat micros)))) = .ok ⟨micros, true⟩ := by
  rw [str, readTime, String.toList_ofList, IsoTime.fromisoformat_isoformat h]

theorem sortKeys_lot (lot : PositionLot) : sortKeys (serializeLot lot) =
    .object [("opened_at", .string (.ofList (isoformat (ensureUtc lot.openedAt).micros))),
      ("qty", serializeDecimal lot.qty), ("unit_cost", serializeDecimal lot.unitCost)] := by
  simp [serializeLot, serializeDecimal, sortKeys, sortEntries, List.insertionSort_cons,
    List.orderedInsert]

theorem sortKeys_symbol (ledger : SymbolLedger) : sortKeys (serializeSymbol ledger) =
    .object [("lots", .array (ledger.lots.map fun lot => sortKeys (serializeLot lot))),
      ("realized_pnl", serializeDecimal ledger.realizedPnl)] := by
  simp [serializeSymbol, serializeDecimal, sortKeys, sortEntries, sortItems_map,
    List.insertionSort_cons]

theorem getItem_lot (openedAt qty unitCost : Json) :
    getItem (.ofList [("opened_at", openedAt), ("qty", qty), ("unit_cost", unitCost)] compare)
      "qty" = .ok qty ∧
    getItem (.ofList [("opened_at", openedAt), ("qty", qty), ("unit_cost", unitCost)] compare)
      "unit_cost" = .ok unitCost ∧
    getItem (.ofList [("opened_at", openedAt), ("qty", qty), ("unit_cost", unitCost)] compare)
      "opened_at" = .ok openedAt := ⟨rfl, rfl, rfl⟩

theorem deserializeLot_serialize (symbol : String) {lot : PositionLot}
    (h : InRange lot.openedAt.micros) :
    deserializeLot otherText symbol (sortKeys (serializeLot lot)) =
      .ok (restoredLot symbol lot) := by
  have htime : readTime
      (str otherText (.string (.ofList (isoformat (ensureUtc lot.openedAt).micros)))) =
      .ok ⟨lot.openedAt.micros, true⟩ := readTime_isoformat otherText h
  obtain ⟨hqty, hunitCost, hopenedAt⟩ :=
    getItem_lot (.string (.ofList (isoformat (ensureUtc lot.openedAt).micros)))
      (serializeDecimal lot.qty) (serializeDecimal lot.unitCost)
  rw [sortKeys_lot, deserializeLot, asDict]
  simp only [bind, Except.bind, hqty, hunitCost, hopenedAt, readScaled_serialize, htime]
  rfl

theorem deserializeSymbol_serialize (symbol : String) {ledger : SymbolLedger}
    (h : ∀ lot ∈ ledger.lots, InRange lot.openedAt.micros) :
    deserializeSymbol otherText symbol (sortKeys (serializeSymbol ledger)) =
      .ok (restoredSymbol symbol ledger) := by
  have hlots : (ledger.lots.map fun lot => sortKeys (serializeLot lot)).mapM
      (deserializeLot otherText symbol) = .ok (ledger.lots.map (restoredLot symbol)) := by
    rw [List.mapM_map]
    exact Runs.mapM_eq_ok fun lot hlot => deserializeLot_serialize otherText symbol (h lot hlot)
  rw [sortKeys_symbol]
  change (do
    let lots ← (ledger.lots.map fun lot => sortKeys (serializeLot lot)).mapM
      (deserializeLot otherText symbol)
    let realizedPnl ← readScaled (str otherText (serializeDecimal ledger.realizedPnl))
    .ok (⟨symbol, lots, realizedPnl⟩ : SymbolLedger)) = _
  rw [hlots, readScaled_serialize]
  rfl

theorem loads_serialize (state : LedgerState) : loads (serializeLedgerState state) =
    some (.object [("fees_by_currency", serializeDict serializeDecimal state.feesByCurrency),
      ("symbols",
        serializeDict (fun ledger => sortKeys (serializeSymbol ledger)) state.symbols)]) := by
  have hfees := sortKeys_serializeDict serializeDecimal state.feesByCurrency
  have hsymbols := sortKeys_serializeDict serializeSymbol state.symbols
  have hdecimal : (fun value => sortKeys (serializeDecimal value)) = serializeDecimal := by
    funext value
    rw [serializeDecimal, sortKeys] <;> simp
  rw [serializeLedgerState, loads_dumps]
  rw [hdecimal] at hfees
  simp [sortKeys, sortEntries, List.insertionSort_cons, List.orderedInsert, hfees, hsymbols]

/-- What a state is saved as is loaded, if its times are of years 1 to 9999. -/
theorem deserialize_serialize {state : LedgerState}
    (h : ∀ (symbol : String) (ledger : SymbolLedger), state.symbols[symbol]? = some ledger →
      ∀ lot ∈ ledger.lots, InRange lot.openedAt.micros) :
    deserializeLedgerState otherText (serializeLedgerState state) = .ok (restored state) := by
  have hsymbols : readDict (deserializeSymbol otherText)
      (state.symbols.map fun _ ledger => sortKeys (serializeSymbol ledger)) =
      .ok (state.symbols.map restoredSymbol) :=
    readDict_map fun symbol ledger hledger =>
      deserializeSymbol_serialize otherText symbol (h symbol ledger hledger)
  have hfees : readDict (fun _ amount => readScaled (str otherText amount))
      (state.feesByCurrency.map fun _ amount => serializeDecimal amount) =
      .ok (state.feesByCurrency.map fun _ amount => amount.settled) :=
    readDict_map fun _ amount _ => readScaled_serialize otherText amount
  rw [deserializeLedgerState, loads_serialize]
  change (do
    let symbols ← asDict
      (serializeDict (fun ledger => sortKeys (serializeSymbol ledger)) state.symbols)
    let symbols ← readDict (deserializeSymbol otherText) symbols
    let fees ← asDict (serializeDict serializeDecimal state.feesByCurrency)
    let fees ← readDict (fun _ amount => readScaled (str otherText amount)) fees
    .ok (⟨symbols, fees⟩ : LedgerState)) = _
  rw [asDict_serializeDict, asDict_serializeDict]
  change (do
    let symbols ← readDict (deserializeSymbol otherText)
      (state.symbols.map fun _ ledger => sortKeys (serializeSymbol ledger))
    let fees ← readDict (fun _ amount => readScaled (str otherText amount))
      (state.feesByCurrency.map fun _ amount => serializeDecimal amount)
    .ok (⟨symbols, fees⟩ : LedgerState)) = _
  rw [hsymbols, hfees]
  rfl

end RoundTrip

section Reachable

/-- A zone is attached and the year is one of 1 to 9999. -/
def Stamped (ts : DateTime) : Prop := ts.aware = true ∧ InRange ts.micros

instance (ts : DateTime) : Decidable (Stamped ts) := inferInstanceAs (Decidable (_ ∧ _))

/-- What events with such times make of nothing, in any number of calls and under any policies. -/
inductive Reachable : Ledger.LedgerState → Prop where
  | empty : Reachable {}
  | applied {state next : Ledger.LedgerState} {events : List Ledger.LedgerEvent}
      (policyResolver : Option (String → MoneyMathPolicy)) (h : Reachable state)
      (hstamped : ∀ event ∈ events, Stamped event.ts)
      (happlied : Ledger.applyEvents state events policyResolver = .ok next) : Reachable next

def LotKept (symbol : String) (lot : Ledger.PositionLot) : Prop :=
  lot.symbol = symbol ∧ Stamped lot.openedAt

/-- Every ledger and lot is stored under its own symbol, with the time of an event. -/
def Kept (state : Ledger.LedgerState) : Prop :=
  ∀ (symbol : String) (ledger : Ledger.SymbolLedger), state.symbols[symbol]? = some ledger →
    ledger.symbol = symbol ∧ ∀ lot ∈ ledger.lots, LotKept symbol lot

theorem kept_empty : Kept {} := by
  intro symbol ledger h
  simp at h

/-- A sale changes the quantity of a lot at most. -/
theorem sellLoop_kept {policy : MoneyMathPolicy} {price : ℚ} {symbol : String}
    (s : Ledger.SellState) (h : ∀ lot ∈ s.lots, LotKept symbol lot) :
    ∀ lot ∈ (Ledger.sellLoop policy price s).lots, LotKept symbol lot := by
  refine WhileLoop.run_induct (I := fun _ s => ∀ lot ∈ s.lots, LotKept symbol lot)
    (fun _ s _ hs => ?_) s.lots.length 0 s h
  unfold Ledger.sellBody
  cases hlots : s.lots with
  | nil =>
    dsimp only
    exact fun lot hlot => hs lot (hlots ▸ hlot)
  | cons first rest =>
    rw [hlots] at hs
    intro lot hlot
    dsimp only at hlot
    split at hlot
    · exact hs lot (List.mem_cons_of_mem _ hlot)
    · rcases List.mem_cons.mp hlot with rfl | hlot
      · exact hs first List.mem_cons_self
      · exact hs lot (List.mem_cons_of_mem _ hlot)

theorem applyFill_kept {policy : MoneyMathPolicy} {event : Ledger.LedgerEvent}
    {current filled : Ledger.SymbolLedger} (hts : Stamped event.ts)
    (h : ∀ lot ∈ current.lots, LotKept event.symbol lot)
    (hfill : Ledger.applyFill policy event current = .ok filled) :
    ∀ lot ∈ filled.lots, LotKept event.symbol lot := by
  cases htrade : Ledger.trade policy event with
  | none =>
    rw [Ledger.applyFill_none htrade] at hfill
    obtain rfl := Except.ok.inj hfill
    exact h
  | some trade =>
    cases trade with
    | buy bought =>
      rw [Ledger.applyFill_buy htrade] at hfill
      obtain rfl := Except.ok.inj hfill
      obtain ⟨hsymbol, -, hopened⟩ := Ledger.trade_buy_lot htrade
      intro lot hlot
      rcases List.mem_append.mp hlot with hlot | hlot
      · exact h lot hlot
      · obtain rfl := List.mem_singleton.mp hlot
        exact ⟨hsymbol, hopened ▸ hts⟩
    | sell qty price =>
      rw [Ledger.applyFill_sell htrade, Runs.guarded_ok] at hfill
      obtain rfl := Except.ok.inj hfill.2
      exact sellLoop_kept ⟨qty, current.lots, current.realizedPnl⟩ h

theorem applyAdjustment_lots (event : Ledger.LedgerEvent) (current : Ledger.SymbolLedger) :
    (Ledger.applyAdjustment event current).lots = current.lots := by
  unfold Ledger.applyAdjustment
  split <;> rfl

theorem Kept.ledger {state : Ledger.LedgerState} (h : Kept state) (symbol : String) :
    ∀ lot ∈ (state.ledger symbol).lots, LotKept symbol lot := by
  unfold Ledger.LedgerState.ledger
  rw [Std.ExtTreeMap.getD_eq_getD_getElem?]
  cases hledger : state.symbols[symbol]? with
  | none => simp
  | some ledger => exact (h symbol ledger hledger).2

theorem Kept.applyEvent {policyResolver : Option (String → MoneyMathPolicy)}
    {state next : Ledger.LedgerState} {event : Ledger.LedgerEvent} (h : Kept state)
    (hts : Stamped event.ts) (happlied : Ledger.applyEvent policyResolver state event = .ok next) :
    Kept next := by
  obtain ⟨filled, fees, hfill, -, rfl⟩ := Ledger.applyEvent_ok happlied
  intro symbol ledger hledger
  rw [Dict.insert_get] at hledger
  split at hledger
  · next hsymbol =>
    subst hsymbol
    obtain rfl := Option.some.inj hledger
    refine ⟨rfl, ?_⟩
    dsimp only
    rw [applyAdjustment_lots]
    exact applyFill_kept hts (h.ledger event.symbol) hfill
  · exact h symbol ledger hledger

theorem Reachable.kept {state : Ledger.LedgerState} (h : Reachable state) : Kept state := by
  induction h with
  | empty => exact kept_empty
  | @applied state next events policyResolver h hstamped happlied ih =>
    refine Runs.foldlM_ok_induct (I := fun taken state => (∀ event ∈ taken, Stamped event.ts) →
      Kept state) (fun taken event s t hs hevent hall => ?_) _ (fun _ => ih) happlied
      fun event hevent => hstamped event ((Ledger.sortEvents_perm events).mem_iff.mp hevent)
    exact (hs fun other hother => hall other (List.mem_append_left _ hother)).applyEvent
      (hall event (List.mem_append_right _ (List.mem_singleton_self event))) hevent

end Reachable

section Checkpoint

variable (otherText : Json → String)

theorem restoredLot_value {symbol : String} {lot : PositionLot} (h : LotKept symbol lot.value) :
    (restoredLot symbol lot).value = lot.value := by
  obtain ⟨hsymbol, haware, -⟩ := h
  have hopened : ensureUtc lot.openedAt = lot.openedAt := by
    rw [ensureUtc, ← haware]
    rfl
  simp only [restoredLot, PositionLot.value, ScaledDecimal.value_settled, hopened]
  rw [← hsymbol]
  rfl

theorem restored_value {state : LedgerState} (h : Kept state.value) :
    (restored state).value = state.value := by
  have hledger (symbol : String) (ledger : SymbolLedger)
      (hin : state.symbols[symbol]? = some ledger) :
      (restoredSymbol symbol ledger).value = ledger.value := by
    obtain ⟨hsymbol, hlots⟩ := h symbol ledger.value (by simp [LedgerState.value, hin])
    have hmap : ledger.lots.map (fun lot => (restoredLot symbol lot).value) =
        ledger.lots.map PositionLot.value :=
      List.map_congr_left fun lot hlot => restoredLot_value (hlots _ (List.mem_map_of_mem hlot))
    simp only [restoredSymbol, SymbolLedger.value, ScaledDecimal.value_settled, List.map_map]
    rw [← hsymbol]
    exact congrArg (Ledger.SymbolLedger.mk ledger.symbol · ledger.realizedPnl.value)
      (hsymbol ▸ hmap)
  have hsymbols : (restored state).value.symbols = state.value.symbols := by
    refine Dict.ext fun symbol => ?_
    simp only [restored, LedgerState.value, Std.ExtTreeMap.getElem?_map]
    cases hin : state.symbols[symbol]? with
    | none => rfl
    | some ledger => exact congrArg some (hledger symbol ledger hin)
  have hfees : (restored state).value.feesByCurrency = state.value.feesByCurrency := by
    refine Dict.ext fun currency => ?_
    simp only [restored, LedgerState.value, Std.ExtTreeMap.getElem?_map]
    cases state.feesByCurrency[currency]? with
    | none => rfl
    | some amount => exact congrArg some amount.value_settled
  calc (restored state).value
      = ⟨(restored state).value.symbols, (restored state).value.feesByCurrency⟩ := rfl
    _ = state.value := by rw [hsymbols, hfees]

theorem serializeDict_map {V W : Type} {f : V → Json} {g : W → Json} {r : String → V → W}
    (h : ∀ (key : String) (value : V), g (r key value) = f value) (dict : Dict V) :
    serializeDict g (dict.map r) = serializeDict f dict := by
  rw [serializeDict, serializeDict, Std.ExtTreeMap.toList_map, List.map_map]
  congr 1
  refine List.map_congr_left fun entry _ => ?_
  simp only [Function.comp_apply, h]

theorem serializeDecimal_settled (value : ScaledDecimal) :
    serializeDecimal value.settled = serializeDecimal value := by
  rw [serializeDecimal, serializeDecimal, value.fixed_settled]

theorem serialize_restored (state : LedgerState) :
    serializeLedgerState (restored state) = serializeLedgerState state := by
  have hlot (symbol : String) (lot : PositionLot) :
      serializeLot (restoredLot symbol lot) = serializeLot lot := by
    simp only [serializeLot, restoredLot, serializeDecimal_settled, ensureUtc_idem]
  have hledger (symbol : String) (ledger : SymbolLedger) :
      serializeSymbol (restoredSymbol symbol ledger) = serializeSymbol ledger := by
    simp only [serializeSymbol, restoredSymbol, serializeDecimal_settled, List.map_map,
      Function.comp_def, hlot]
  rw [serializeLedgerState, serializeLedgerState, restored, serializeDict_map hledger,
    serializeDict_map fun _ amount => serializeDecimal_settled amount]

/-- A state of the reducer is loaded from what it was saved as, saved again as the same text, and
goes on as it would have. -/
theorem deserialize_serialize_reachable {state : LedgerState} (h : Reachable state.value) :
    ∃ loaded, deserializeLedgerState otherText (serializeLedgerState state) = .ok loaded ∧
      loaded.value = state.value ∧
      serializeLedgerState loaded = serializeLedgerState state ∧
      ∀ (events : List Ledger.LedgerEvent) (policyResolver : Option (String → MoneyMathPolicy)),
        Ledger.applyEvents loaded.value events policyResolver =
          Ledger.applyEvents state.value events policyResolver := by
  have hvalue := restored_value h.kept
  refine ⟨restored state, deserialize_serialize otherText fun symbol ledger hledger lot hlot => ?_,
    hvalue, serialize_restored state, fun events policyResolver => by rw [hvalue]⟩
  have hkept := (h.kept symbol ledger.value (by simp [LedgerState.value, hledger])).2
  exact (hkept lot.value (List.mem_map_of_mem hlot)).2.2

/-- A buy of one and a half at 123.45 and a fee of a quarter, and what they come to. -/
def boughtEvents : List Ledger.LedgerEvent :=
  [{ eventId := "fill:1", ts := ⟨1700000000000001, true⟩, symbol := "BTCTRY", type := .fill,
      side := some "BUY", qty := 3 / 2, price := some (12345 / 100), fee := none,
      feeCurrency := none, exchangeTradeId := none, clientOrderId := none },
    { eventId := "fee:1", ts := ⟨1700000000000002, true⟩, symbol := "BTCTRY", type := .fee,
      side := none, qty := 0, price := none, fee := some (1 / 4), feeCurrency := some "try",
      exchangeTradeId := none, clientOrderId := none }]

def boughtState : LedgerState where
  symbols := (∅ : Dict SymbolLedger).insert "BTCTRY"
    ⟨"BTCTRY", [⟨"BTCTRY", ⟨false, 150000000, -8⟩, ⟨false, 12345, -2⟩, ⟨1700000000000001, true⟩⟩],
      ⟨false, 0, 0⟩⟩
  feesByCurrency := (∅ : Dict ScaledDecimal).insert "TRY" ⟨false, 25, -2⟩

theorem boughtState_applied : Ledger.applyEvents {} boughtEvents none = .ok boughtState.value := by
  have hsymbols : ((Ledger.applyEvents {} boughtEvents none).toOption.map
      fun state => state.symbols.toList) = some boughtState.value.symbols.toList := by
    decide +kernel
  have hfees : ((Ledger.applyEvents {} boughtEvents none).toOption.map
      fun state => state.feesByCurrency.toList) =
      some boughtState.value.feesByCurrency.toList := by decide +kernel
  cases happlied : Ledger.applyEvents {} boughtEvents none with
  | error e =>
    rw [happlied] at hsymbols
    cases hsymbols
  | ok next =>
    rw [happlied] at hsymbols hfees
    obtain ⟨symbols, fees⟩ := next
    obtain rfl := Std.ExtTreeMap.toList_inj.mp (Option.some.inj hsymbols)
    obtain rfl := Std.ExtTreeMap.toList_inj.mp (Option.some.inj hfees)
    rfl

theorem boughtState_reachable : Reachable boughtState.value :=
  .applied none .empty (by decide +kernel) boughtState_applied

theorem boughtState_loaded :
    ∃ loaded, deserializeLedgerState (fun _ => "") (serializeLedgerState boughtState) = .ok loaded ∧
      loaded.value = boughtState.value ∧
      serializeLedgerState loaded = serializeLedgerState boughtState ∧
      ∀ (events : List Ledger.LedgerEvent) (policyResolver : Option (String → MoneyMathPolicy)),
        Ledger.applyEvents loaded.value events policyResolver =
          Ledger.applyEvents boughtState.value events policyResolver :=
  deserialize_serialize_reachable (fun _ => "") boughtState_reachable

end Checkpoint

end LedgerCheckpoint
