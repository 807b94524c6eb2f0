import Btcbot.Ledger

/-!
# The reducer on permuted and on selected events

Events that the sort key tells apart are folded in one order however they are
listed. A naive timestamp is keyed as the aware one of the same clock time, so
that two different pairs of timestamp and id may still tie. A symbol's ledger is
read and written by its own events only.
-/
namespace LedgerLocality

open PyData Money Ledger

variable {policyResolver : Option (String → MoneyMathPolicy)}

section Order

/-- The key of an event before its timestamp is read as UTC. -/
def stamped (event : LedgerEvent) : DateTime × String := (event.ts, event.eventId)

/-- The pair the events are sorted by. -/
def sortedBy (event : LedgerEvent) : DateTime × String := (ensureUtc event.ts, event.eventId)

theorem sortedBy_eq {a b : LedgerEvent} (h : a.key = b.key) : sortedBy a = sortedBy b := by
  obtain ⟨hts, hid⟩ := Prod.mk.inj (toLex_inj.mp h)
  have hutc : ensureUtc a.ts = ensureUtc b.ts := congrArg (DateTime.mk · true) hts
  rw [sortedBy, sortedBy, hutc, hid]

theorem sortEvents_permuted {events permuted : List LedgerEvent} (hperm : permuted.Perm events)
    (hdistinct : (events.map sortedBy).Nodup) : sortEvents permuted = sortEvents events := by
  refine (SortedFold.insertionSort_perm_eq SortsBefore hperm.symm fun a ha b hb hab hba => ?_).symm
  exact List.inj_on_of_nodup_map hdistinct ha hb (sortedBy_eq (le_antisymm hab hba))

end Order

section Locality

def ofSymbol (symbol : String) (events : List LedgerEvent) : List LedgerEvent :=
  events.filter fun event => event.symbol = symbol

theorem sortEvents_ofSymbol (symbol : String) (events : List LedgerEvent) :
    sortEvents (ofSymbol symbol events) = ofSymbol symbol (sortEvents events) :=
  (SortedFold.filter_insertionSort SortsBefore _ events).symm

/-- The fees of an event are taken whatever was charged before, or never. -/
theorem applyFee_total {policy : MoneyMathPolicy} {event : LedgerEvent} {fees charged : Dict ℚ}
    (h : applyFee policy event fees = .ok charged) (other : Dict ℚ) :
    ∃ charged', applyFee policy event other = .ok charged' := by
  unfold applyFee at h ⊢
  split
  · next fee feeCurrency hty hfee hcurrency =>
    simp only [hty, hfee, hcurrency] at h
    split
    · exact ⟨_, rfl⟩
    · next hsome =>
      rw [if_neg hsome] at h
      split
      · next hbad =>
        rw [if_pos hbad] at h
        cases h
      · dsimp only
        split
        · exact ⟨_, rfl⟩
        · exact ⟨_, rfl⟩
  · exact ⟨_, rfl⟩

/-- The two states tell the same of a symbol. -/
def SameSymbol (symbol : String) (s t : LedgerState) : Prop :=
  s.symbols[symbol]? = t.symbols[symbol]?

theorem SameSymbol.ledger {symbol : String} {s t : LedgerState} (h : SameSymbol symbol s t) :
    s.ledger symbol = t.ledger symbol := by
  rw [LedgerState.ledger, LedgerState.ledger, Std.ExtTreeMap.getD_eq_getD_getElem?,
    Std.ExtTreeMap.getD_eq_getD_getElem?, h]

/-- An event of another symbol leaves the ledger alone. -/
theorem applyEvent_other {symbol : String} {s next : LedgerState} {event : LedgerEvent}
    (h : applyEvent policyResolver s event = .ok next) (hother : event.symbol ≠ symbol) :
    SameSymbol symbol next s := by
  obtain ⟨filled, fees, -, -, rfl⟩ := applyEvent_ok h
  rw [SameSymbol, Dict.insert_get, if_neg hother]

/-- An event of the symbol does the same to states that agree on it. -/
theorem applyEvent_own {symbol : String} {s t next : LedgerState} {event : LedgerEvent}
    (h : applyEvent policyResolver s event = .ok next) (hown : event.symbol = symbol)
    (hsame : SameSymbol symbol s t) :
    ∃ next', applyEvent policyResolver t event = .ok next' ∧ SameSymbol symbol next next' := by
  obtain ⟨filled, fees, hfill, hfee, rfl⟩ := applyEvent_ok h
  obtain ⟨fees', hfee'⟩ := applyFee_total hfee t.feesByCurrency
  rw [hown, hsame.ledger, ← hown] at hfill
  refine ⟨_, by simp only [applyEvent, hfill, hfee', bind, Except.bind]; rfl, ?_⟩
  rw [SameSymbol, Dict.insert_get, Dict.insert_get, if_pos hown, if_pos hown]

/-- The events of a symbol, folded alone, leave it as all events do. -/
theorem foldlM_ofSymbol {symbol : String} {events : List LedgerEvent} {s t next : LedgerState}
    (h : events.foldlM (applyEvent policyResolver) s = .ok next) (hsame : SameSymbol symbol s t) :
    ∃ next', (ofSymbol symbol events).foldlM (applyEvent policyResolver) t = .ok next' ∧
      SameSymbol symbol next next' := by
  induction events generalizing s t with
  | nil =>
    obtain rfl := Except.ok.inj h
    exact ⟨t, rfl, hsame⟩
  | cons event events ih =>
    rw [List.foldlM_cons] at h
    obtain ⟨mid, hstep, hrest⟩ := Runs.bind_ok h
    by_cases hown : event.symbol = symbol
    · obtain ⟨mid', hstep', hsame'⟩ := applyEvent_own hstep hown hsame
      obtain ⟨next', hrest', hnext⟩ := ih hrest hsame'
      refine ⟨next', ?_, hnext⟩
      rw [ofSymbol, List.filter_cons_of_pos (by simpa using hown), List.foldlM_cons, hstep']
      exact hrest'
    · have hleft := (applyEvent_other hstep hown).trans hsame
      obtain ⟨next', hrest', hnext⟩ := ih hrest hleft
      refine ⟨next', ?_, hnext⟩
      rw [ofSymbol, List.filter_cons_of_neg (by simpa using hown)]
      exact hrest'

end Locality

/-- Where the sort key tells the events apart, the order they are listed in is not seen; and a
symbol's ledger is the one its own events leave. -/
theorem applyEvents_orderless_local (policyResolver : Option (String → MoneyMathPolicy))
    (state : LedgerState) (events : List LedgerEvent) (hdistinct : (events.map sortedBy).Nodup) :
    (∀ permuted : List LedgerEvent, permuted.Perm events →
      applyEvents state permuted policyResolver = applyEvents state events policyResolver) ∧
    ∀ next, applyEvents state events policyResolver = .ok next → ∀ symbol,
      ∃ own, applyEvents state (ofSymbol symbol events) policyResolver = .ok own ∧
        own.symbols[symbol]? = next.symbols[symbol]? := by
  constructor
  · intro permuted hperm
    rw [applyEvents, applyEvents, sortEvents_permuted hperm hdistinct]
  · intro next h symbol
    have hstart : SameSymbol symbol state state := rfl
    obtain ⟨own, hown, hsame⟩ := foldlM_ofSymbol h hstart
    refine ⟨own, ?_, hsame.symm⟩
    rw [applyEvents, sortEvents_ofSymbol]
    exact hown

section Ties

/-- A fill of one unit at 100. -/
def unitFill (eventId : String) (ts : DateTime) (side : String) : LedgerEvent where
  eventId := eventId
  ts := ts
  symbol := "BTCTRY"
  type := .fill
  side := some side
  qty := 1
  price := some 100
  fee := none
  feeCurrency := none
  exchangeTradeId := none
  clientOrderId := none

theorem bought_then_sold_orderless_local :
    (∀ permuted : List LedgerEvent,
      permuted.Perm [unitFill "1" ⟨0, true⟩ "BUY", unitFill "2" ⟨0, true⟩ "SELL"] →
        applyEvents {} permuted none =
          applyEvents {} [unitFill "1" ⟨0, true⟩ "BUY", unitFill "2" ⟨0, true⟩ "SELL"] none) ∧
    ∀ next, applyEvents {} [unitFill "1" ⟨0, true⟩ "BUY", unitFill "2" ⟨0, true⟩ "SELL"] none =
      .ok next → ∀ symbol, ∃ own,
        applyEvents {} (ofSymbol symbol
          [unitFill "1" ⟨0, true⟩ "BUY", unitFill "2" ⟨0, true⟩ "SELL"]) none = .ok own ∧
        own.symbols[symbol]? = next.symbols[symbol]? :=
  applyEvents_orderless_local none {} _ (by decide)

/-- A naive and an aware timestamp differ, but tie when sorted: a sale may come before its buy. -/
theorem naive_tie_seen :
    ([unitFill "1" ⟨0, false⟩ "BUY", unitFill "1" ⟨0, true⟩ "SELL"].map stamped).Nodup ∧
    [unitFill "1" ⟨0, true⟩ "SELL", unitFill "1" ⟨0, false⟩ "BUY"].Perm
      [unitFill "1" ⟨0, false⟩ "BUY", unitFill "1" ⟨0, true⟩ "SELL"] ∧
    (applyEvents {} [unitFill "1" ⟨0, false⟩ "BUY", unitFill "1" ⟨0, true⟩ "SELL"] none).isOk =
      true ∧
    (applyEvents {} [unitFill "1" ⟨0, true⟩ "SELL", unitFill "1" ⟨0, false⟩ "BUY"] none).isOk =
      false := by
  refine ⟨by decide, List.Perm.swap _ _ _, ?_, ?_⟩
  · decide +kernel
  · decide +kernel

end Ties

end LedgerLocality
