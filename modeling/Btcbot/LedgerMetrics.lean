import Btcbot.FillsOnce
import Btcbot.LedgerConservation
import Btcbot.LedgerStore
import Btcbot.Redelivery
import Mathlib.Algebra.Order.BigOperators.Group.List

/-!
# Profit and equity from the ledger state

The metrics of a cycle are computed from the reduced ledger: realized and unrealized
profit, the worth of what is held, fees in the quote currency and turnover. Every sum
over lots is rounded as it goes, and marks are rounded for profit but not for worth.
A state is read in the order of its table of symbols, which is any.
-/
namespace LedgerMetrics

open PyData Money Ledger LedgerStore LedgerConservation Grid
open Fifo (total value)

section Code

/-- The symbols of a state with their ledgers, in the order of the table. -/
abbrev Ledgers := List (String × SymbolLedger)

def totalPolicy (policyResolver : Option (String → MoneyMathPolicy)) (ledgers : Ledgers) :
    MoneyMathPolicy :=
  match policyResolver, ledgers with
  | some resolve, (symbol, _) :: _ => resolve symbol
  | _, _ => defaultMoneyPolicy

variable (policyResolver : Option (String → MoneyMathPolicy)) (ledgers : Ledgers)
  (markPrices : Dict ℚ)

def computeRealizedPnl : ℚ :=
  roundQuote (ledgers.map fun entry => entry.2.realizedPnl).sum (totalPolicy policyResolver ledgers)

def addLot (policy : MoneyMathPolicy) (mark total : ℚ) (lot : PositionLot) : ℚ :=
  roundQuote (total + (mark - lot.unitCost) * lot.qty) policy

def addUnrealized (total : ℚ) (entry : String × SymbolLedger) : ℚ :=
  match markPrices[entry.1]? with
  | none => total
  | some mark =>
    let policy := policyFor policyResolver entry.1
    entry.2.lots.foldl (addLot policy (roundPrice mark policy)) total

def computeUnrealizedPnl : ℚ :=
  roundQuote (ledgers.foldl (addUnrealized policyResolver markPrices) 0)
    (totalPolicy policyResolver ledgers)

def addMtm (total : ℚ) (entry : String × SymbolLedger) : ℚ :=
  match markPrices[entry.1]? with
  | none => total
  | some mark => total + (entry.2.lots.map fun lot => lot.qty * mark).sum

def positionMtm : ℚ := ledgers.foldl (addMtm markPrices) 0

/-- The last of the marks whose symbols are spelled alike. -/
def normalizedMarks (markPrices : List (String × ℚ)) : Dict ℚ :=
  markPrices.foldl (fun marks entry => marks.insert (normalizeSymbol entry.1) entry.2) ∅

/-- A rate, where the source raises when there is none. -/
abbrev PriceConverter := String → String → Option ℚ

def markPriceConverter (marks : Dict ℚ) : PriceConverter := fun baseCurrency quoteCurrency =>
  let base := baseCurrency.toUpper
  let quote := quoteCurrency.toUpper
  if base = quote then some 1
  else
    match (marks[normalizeSymbol (base ++ quote)]?).filter (0 < ·) with
    | some direct => some direct
    | none => ((marks[normalizeSymbol (quote ++ base)]?).filter (0 < ·)).map (1 / ·)

/-- With the currencies that could not be converted; a strict call raises instead. -/
def addFee (convert : PriceConverter) (strict : Bool) (s : ℚ × List String)
    (entry : String × ℚ) : Option (ℚ × List String) :=
  let normalized := entry.1.toUpper
  if normalized = "TRY" then some (s.1 + entry.2, s.2)
  else
    match convert normalized "TRY" with
    | some converted => some (s.1 + roundQuote (entry.2 * converted) defaultMoneyPolicy, s.2)
    | none =>
      if strict then none
      else some (s.1, if normalized ∈ s.2 then s.2 else s.2 ++ [normalized])

def computeFeesTry (feesByCurrency : List (String × ℚ)) (convert : PriceConverter)
    (strict : Bool) : Option (ℚ × List String) :=
  feesByCurrency.foldlM (addFee convert strict) (0, [])

def computeTurnoverTry (rows : List LedgerRow) : ℚ :=
  (rows.filterMap fun row => match row.event.type, row.event.price with
    | .fill, some price => some |price * row.event.qty|
    | _, _ => none).sum

structure FinancialBreakdown where
  cashTry : ℚ
  positionMtmTry : ℚ
  realizedPnlTry : ℚ
  unrealizedPnlTry : ℚ
  feesTry : ℚ
  slippageTry : ℚ
  grossPnlTry : ℚ
  netPnlTry : ℚ
  equityTry : ℚ
  turnoverTry : ℚ
  deriving DecidableEq, Repr

structure BreakdownArgs where
  markPrices : List (String × ℚ)
  cashTry : ℚ
  priceForFeeConversion : Option PriceConverter := none
  slippageTry : ℚ := 0
  strictFeeConversion : Bool := false

def financialBreakdown (args : BreakdownArgs) (ledgers : Ledgers)
    (feesByCurrency : List (String × ℚ)) (rows : List LedgerRow) : Option FinancialBreakdown := do
  let realized := computeRealizedPnl none ledgers
  let marks := normalizedMarks args.markPrices
  let unrealized := computeUnrealizedPnl none ledgers marks
  let feeConverter := args.priceForFeeConversion.getD (markPriceConverter marks)
  let (feesTry, _) ← computeFeesTry feesByCurrency feeConverter args.strictFeeConversion
  let turnover := computeTurnoverTry rows
  let gross := realized + unrealized
  let net := gross - feesTry - args.slippageTry
  let mtm := positionMtm ledgers marks
  let equity := args.cashTry + mtm
  some
    { cashTry := args.cashTry
      positionMtmTry := mtm
      realizedPnlTry := realized
      unrealizedPnlTry := unrealized
      feesTry := feesTry
      slippageTry := args.slippageTry
      grossPnlTry := gross
      netPnlTry := net
      equityTry := equity
      turnoverTry := turnover }

end Code

section Bounds

variable {α : Type}

/-- Sums are as close as their terms. -/
theorem abs_sum_sub_le {f g b : α → ℚ} {items : List α} (h : ∀ a ∈ items, |f a - g a| ≤ b a) :
    |(items.map f).sum - (items.map g).sum| ≤ (items.map b).sum := by
  induction items with
  | nil => simp
  | cons a items ih =>
    have ha := h a List.mem_cons_self
    have hrest := ih fun c hc => h c (List.mem_cons_of_mem a hc)
    simp only [List.map_cons, List.sum_cons]
    have hsplit : f a + (items.map f).sum - (g a + (items.map g).sum) =
        f a - g a + ((items.map f).sum - (items.map g).sum) := by ring
    rw [hsplit]
    exact (abs_add_le _ _).trans (add_le_add ha hrest)

/-- A sum that is rounded at each of its terms. -/
theorem abs_foldl_addLot_le (policy : MoneyMathPolicy) (mark : ℚ) (lots : List PositionLot)
    (start : ℚ) :
    |lots.foldl (addLot policy mark) start -
        (start + (lots.map fun lot => (mark - lot.unitCost) * lot.qty).sum)| ≤
      lots.length * quantum policy.quotePrecision := by
  induction lots generalizing start with
  | nil => simp
  | cons lot lots ih =>
    have hrest := ih (addLot policy mark start lot)
    have hround := (abs_roundQuote_sub_lt (start + (mark - lot.unitCost) * lot.qty) policy).le
    simp only [List.foldl_cons, List.map_cons, List.sum_cons, List.length_cons]
    rw [Nat.cast_add, Nat.cast_one]
    have hsplit : lots.foldl (addLot policy mark) (addLot policy mark start lot) -
        (start + ((mark - lot.unitCost) * lot.qty +
          (lots.map fun lot => (mark - lot.unitCost) * lot.qty).sum)) =
        lots.foldl (addLot policy mark) (addLot policy mark start lot) -
          (addLot policy mark start lot +
            (lots.map fun lot => (mark - lot.unitCost) * lot.qty).sum) +
        (addLot policy mark start lot - (start + (mark - lot.unitCost) * lot.qty)) := by ring
    rw [hsplit]
    refine (abs_add_le _ _).trans ?_
    rw [addLot] at hrest ⊢
    linarith

theorem abs_roundPrice_sub_lt (price : ℚ) :
    |roundPrice price defaultMoneyPolicy - price| < 1 / 100 := by
  have htick : ¬ defaultMoneyPolicy.priceTick ≤ 0 := by decide +kernel
  rw [roundPrice, quantizeToStep, if_neg htick]
  have hsnap := defaultMoneyPolicy.rounding.2.abs_snap_sub_lt (not_le.mp htick) price
  have heq : defaultMoneyPolicy.priceTick = 1 / 100 := by decide +kernel
  rw [heq] at hsnap ⊢
  exact hsnap

end Bounds

section Trading

variable (marks : Dict ℚ)

/-- What a symbol's lots would gain at its rounded mark. -/
def gainOf (entry : String × SymbolLedger) : ℚ :=
  match marks[entry.1]? with
  | none => 0
  | some mark =>
    (entry.2.lots.map fun lot => (roundPrice mark defaultMoneyPolicy - lot.unitCost) * lot.qty).sum

def worthOf (entry : String × SymbolLedger) : ℚ :=
  match marks[entry.1]? with
  | none => 0
  | some mark => (entry.2.lots.map fun lot => lot.qty * mark).sum

theorem positionMtm_eq (ledgers : Ledgers) :
    positionMtm ledgers marks = (ledgers.map (worthOf marks)).sum := by
  have hfold : ∀ start, ledgers.foldl (addMtm marks) start =
      start + (ledgers.map (worthOf marks)).sum := by
    induction ledgers with
    | nil => simp
    | cons entry ledgers ih =>
      intro start
      rw [List.foldl_cons, ih, List.map_cons, List.sum_cons, addMtm, worthOf]
      split <;> ring
  rw [positionMtm, hfold, zero_add]

def heldLots (ledgers : Ledgers) : ℕ := (ledgers.map fun entry => entry.2.lots.length).sum

theorem abs_unrealized_le (ledgers : Ledgers) (start : ℚ) :
    |ledgers.foldl (addUnrealized none marks) start -
        (start + (ledgers.map (gainOf marks)).sum)| ≤
      heldLots ledgers * quantum defaultMoneyPolicy.quotePrecision := by
  have hunit := (quantum_pos defaultMoneyPolicy.quotePrecision).le
  induction ledgers generalizing start with
  | nil => simp [heldLots]
  | cons entry ledgers ih =>
    have hrest := ih (addUnrealized none marks start entry)
    have hfirst : |addUnrealized none marks start entry - (start + gainOf marks entry)| ≤
        entry.2.lots.length * quantum defaultMoneyPolicy.quotePrecision := by
      unfold addUnrealized gainOf
      cases hmark : marks[entry.1]? with
      | none =>
        simp only [add_zero, sub_self, abs_zero]
        positivity
      | some mark => exact abs_foldl_addLot_le defaultMoneyPolicy _ entry.2.lots start
    simp only [List.foldl_cons, List.map_cons, List.sum_cons, heldLots] at hrest ⊢
    rw [Nat.cast_add]
    have hsplit : ledgers.foldl (addUnrealized none marks) (addUnrealized none marks start entry) -
        (start + (gainOf marks entry + (ledgers.map (gainOf marks)).sum)) =
        ledgers.foldl (addUnrealized none marks) (addUnrealized none marks start entry) -
          (addUnrealized none marks start entry + (ledgers.map (gainOf marks)).sum) +
        (addUnrealized none marks start entry - (start + gainOf marks entry)) := by ring
    rw [hsplit]
    refine (abs_add_le _ _).trans ?_
    linarith

/-- At a mark, gain and cost come to the worth but for the rounding of the mark. -/
theorem abs_gain_le (entry : String × SymbolLedger)
    (hmarked : entry.2.lots ≠ [] → marks[entry.1]? ≠ none)
    (hnonneg : ∀ lot ∈ entry.2.lots, 0 ≤ lot.qty) :
    |gainOf marks entry - (worthOf marks entry - value lotView entry.2.lots)| ≤
      total lotView entry.2.lots / 100 := by
  unfold gainOf worthOf
  cases hmark : marks[entry.1]? with
  | none =>
    have hnil : entry.2.lots = [] := not_not.mp fun hne => hmarked hne hmark
    simp [hnil]
  | some mark =>
    have hround := (abs_roundPrice_sub_lt mark).le
    dsimp only
    generalize roundPrice mark defaultMoneyPolicy = rounded at hround ⊢
    generalize entry.2.lots = lots at hnonneg ⊢
    have heq : (lots.map fun lot => (rounded - lot.unitCost) * lot.qty).sum -
        ((lots.map fun lot => lot.qty * mark).sum - value lotView lots) =
        (rounded - mark) * total lotView lots := by
      clear hnonneg
      induction lots with
      | nil => simp
      | cons lot lots ih =>
        simp only [List.map_cons, List.sum_cons, Fifo.value_cons, Fifo.total_cons]
        simp only [lotView] at ih ⊢
        linear_combination ih
    have htotal : 0 ≤ total lotView lots := by
      refine List.sum_nonneg fun qty hqty => ?_
      obtain ⟨lot, hlot, rfl⟩ := List.mem_map.mp hqty
      exact hnonneg lot hlot
    rw [heq, abs_mul, abs_of_nonneg htotal, div_eq_mul_inv, mul_comm (total lotView lots)]
    refine mul_le_mul_of_nonneg_right ?_ htotal
    rw [← one_div]
    exact hround

end Trading

section Identity

/-- What trading in a symbol brought in and cost, and what it was adjusted by. -/
def tradingFlow (events : List LedgerEvent) (symbol : String) : ℚ :=
  proceeds none symbol (sortEvents events) -
    value lotView (buyLots none symbol (sortEvents events)) + adjustments symbol (sortEvents events)

def heldQty (ledgers : Ledgers) : ℚ := (ledgers.map fun entry => total lotView entry.2.lots).sum

def totalMatches (events : List LedgerEvent) (ledgers : Ledgers) : ℕ :=
  (ledgers.map fun entry => lotMatches none entry.1 {} (sortEvents events)).sum

theorem remains_nonneg {opened lots : List PositionLot} (h : Fifo.Remains lotView opened lots)
    (hopened : ∀ lot ∈ opened, 0 ≤ lot.qty) : ∀ lot ∈ lots, 0 ≤ lot.qty := by
  obtain ⟨gone, rfl | ⟨first, qty, rest, rfl, rfl, hpos, -⟩⟩ := h
  · exact fun lot hlot => hopened lot (List.mem_append_right gone hlot)
  · intro lot hlot
    rcases List.mem_cons.mp hlot with rfl | hrest
    · exact hpos.le
    · exact hopened lot (List.mem_append_right gone (List.mem_cons_of_mem first hrest))

theorem buyLots_nonneg {events : List LedgerEvent}
    (hnonneg : ∀ event ∈ events, event.type = .fill → 0 ≤ event.qty) (symbol : String) :
    ∀ lot ∈ buyLots none symbol events, 0 ≤ lot.qty := by
  intro lot hlot
  obtain ⟨event, hevent, hbuy⟩ := List.mem_filterMap.mp hlot
  unfold buyLot at hbuy
  split at hbuy
  · next bought htrade =>
    split at hbuy
    · obtain rfl := Option.some.inj hbuy
      rw [(trade_buy_lot htrade).2.1]
      exact roundQty_nonneg _ (hnonneg event hevent (trade_fill htrade))
    · cases hbuy
  · cases hbuy

/-- What one symbol's realized profit and gain at its mark come to. -/
theorem symbol_identity {events : List LedgerEvent} {final : LedgerState}
    (hok : applyEvents {} events none = .ok final)
    (hnonneg : ∀ event ∈ events, event.type = .fill → 0 ≤ event.qty) (marks : Dict ℚ)
    {entry : String × SymbolLedger} (hentry : final.symbols[entry.1]? = some entry.2)
    (hmarked : entry.2.lots ≠ [] → marks[entry.1]? ≠ none) :
    |entry.2.realizedPnl + gainOf marks entry -
        (tradingFlow events entry.1 + worthOf marks entry)| ≤
      lotMatches none entry.1 {} (sortEvents events) * (1 / 10 ^ 8) +
        total lotView entry.2.lots / 100 := by
  have hledger : final.ledger entry.1 = entry.2 := by
    rw [LedgerState.ledger, Std.ExtTreeMap.getD_eq_getD_getElem?, hentry, Option.getD_some]
  obtain ⟨-, hremains, hdrift, hunit⟩ :=
    apply_events_conserves none events final hok hnonneg entry.1
  rw [hledger] at hremains hdrift
  rw [hunit rfl] at hdrift
  have hsorted : ∀ event ∈ sortEvents events, event.type = .fill → 0 ≤ event.qty :=
    fun event hin => hnonneg event ((sortEvents_perm events).mem_iff.mp hin)
  have hlots := remains_nonneg hremains (buyLots_nonneg hsorted entry.1)
  have hgain := abs_gain_le marks entry hmarked hlots
  have hsplit : entry.2.realizedPnl + gainOf marks entry -
      (tradingFlow events entry.1 + worthOf marks entry) =
      (entry.2.realizedPnl - value lotView entry.2.lots - tradingFlow events entry.1) +
        (gainOf marks entry - (worthOf marks entry - value lotView entry.2.lots)) := by ring
  rw [hsplit]
  exact (abs_add_le _ _).trans (add_le_add hdrift hgain)

theorem sum_bounds (events : List LedgerEvent) (ledgers : Ledgers) :
    (ledgers.map fun entry => (lotMatches none entry.1 {} (sortEvents events) : ℚ) * (1 / 10 ^ 8) +
        total lotView entry.2.lots / 100).sum =
      totalMatches events ledgers * (1 / 10 ^ 8) + heldQty ledgers / 100 := by
  induction ledgers with
  | nil => simp [totalMatches, heldQty]
  | cons entry ledgers ih =>
    rw [List.map_cons, List.sum_cons, ih]
    simp only [totalMatches, heldQty, List.map_cons, List.sum_cons]
    rw [Nat.cast_add]
    ring

theorem abs_roundQuote_le (amount : ℚ) :
    |roundQuote amount defaultMoneyPolicy - amount| ≤ 1 / 10 ^ 8 :=
  (quantum_default ▸ abs_roundQuote_sub_lt amount defaultMoneyPolicy).le

end Identity

/-- Gross profit is what trading brought in and what is held is worth: from the empty ledger, with
every symbol that is held marked, it is off by at most a hundred-millionth for each match, each
lot and each of the two totals, and a hundredth for each unit held. -/
theorem gross_accounts_for_trading (events : List LedgerEvent) (final : LedgerState)
    (hok : applyEvents {} events none = .ok final)
    (hnonneg : ∀ event ∈ events, event.type = .fill → 0 ≤ event.qty) (ledgers : Ledgers)
    (hledgers : ledgers.Perm final.symbols.toList) (args : BreakdownArgs)
    (fees : List (String × ℚ)) (rows : List LedgerRow) (breakdown : FinancialBreakdown)
    (hmarked : ∀ entry ∈ ledgers, entry.2.lots ≠ [] →
      (normalizedMarks args.markPrices)[entry.1]? ≠ none)
    (hbreakdown : financialBreakdown args ledgers fees rows = some breakdown) :
    |breakdown.grossPnlTry - ((ledgers.map fun entry => tradingFlow events entry.1).sum +
        breakdown.positionMtmTry)| ≤
      (totalMatches events ledgers + heldLots ledgers + 2) * (1 / 10 ^ 8) +
        heldQty ledgers / 100 := by
  obtain ⟨⟨feesTry, missing⟩, -, hrest⟩ := Option.bind_eq_some_iff.mp hbreakdown
  obtain rfl := Option.some.inj hrest
  dsimp only
  generalize normalizedMarks args.markPrices = marks at hmarked
  have hpolicy : totalPolicy none ledgers = defaultMoneyPolicy := by
    cases ledgers <;> rfl
  have hrealized := abs_roundQuote_le (ledgers.map fun entry => entry.2.realizedPnl).sum
  have hsum := abs_unrealized_le marks ledgers 0
  have htotal := abs_roundQuote_le (ledgers.foldl (addUnrealized none marks) 0)
  rw [quantum_default, zero_add] at hsum
  have hsymbols : |(ledgers.map fun entry => entry.2.realizedPnl + gainOf marks entry).sum -
      (ledgers.map fun entry => tradingFlow events entry.1 + worthOf marks entry).sum| ≤
      (ledgers.map fun entry => lotMatches none entry.1 {} (sortEvents events) * (1 / 10 ^ 8) +
        total lotView entry.2.lots / 100).sum := by
    refine abs_sum_sub_le fun entry hin => symbol_identity hok hnonneg marks ?_ (hmarked entry hin)
    exact (Dict.mem_toList _ entry).mp (hledgers.mem_iff.mp hin)
  rw [computeRealizedPnl, computeUnrealizedPnl, hpolicy, positionMtm_eq]
  rw [sum_bounds, List.sum_map_add, List.sum_map_add] at hsymbols
  have hsplit : roundQuote (ledgers.map fun entry => entry.2.realizedPnl).sum defaultMoneyPolicy +
        roundQuote (ledgers.foldl (addUnrealized none marks) 0) defaultMoneyPolicy -
      ((ledgers.map fun entry => tradingFlow events entry.1).sum +
        (ledgers.map (worthOf marks)).sum) =
      (roundQuote (ledgers.map fun entry => entry.2.realizedPnl).sum defaultMoneyPolicy -
        (ledgers.map fun entry => entry.2.realizedPnl).sum) +
      (roundQuote (ledgers.foldl (addUnrealized none marks) 0) defaultMoneyPolicy -
        ledgers.foldl (addUnrealized none marks) 0) +
      (ledgers.foldl (addUnrealized none marks) 0 - (ledgers.map (gainOf marks)).sum) +
      ((ledgers.map fun entry => entry.2.realizedPnl).sum + (ledgers.map (gainOf marks)).sum -
        ((ledgers.map fun entry => tradingFlow events entry.1).sum +
          (ledgers.map (worthOf marks)).sum)) := by ring
  rw [hsplit]
  have hfirst := abs_add_le (roundQuote (ledgers.map fun entry => entry.2.realizedPnl).sum
      defaultMoneyPolicy - (ledgers.map fun entry => entry.2.realizedPnl).sum)
    (roundQuote (ledgers.foldl (addUnrealized none marks) 0) defaultMoneyPolicy -
      ledgers.foldl (addUnrealized none marks) 0)
  refine (abs_add_le _ _).trans ?_
  refine (add_le_add_left (abs_add_le _ _) _).trans ?_
  linarith

/-- Half a coin is left of two buys and a sell, and is marked at 130. -/
theorem sampleEvents_accounted :
    let ledgers : Ledgers := [("BTCTRY", ⟨"BTCTRY", [⟨"BTCTRY", 1 / 2, 120, ⟨2, true⟩⟩], 65⟩)]
    ∃ breakdown : FinancialBreakdown,
      financialBreakdown ⟨[("BTC_TRY", 130)], 0, none, 0, false⟩ ledgers [] [] = some breakdown ∧
      |breakdown.grossPnlTry - ((ledgers.map fun entry => tradingFlow sampleEvents entry.1).sum +
          breakdown.positionMtmTry)| ≤
        (totalMatches sampleEvents ledgers + heldLots ledgers + 2) * (1 / 10 ^ 8) +
          heldQty ledgers / 100 := by
  intro ledgers
  have hnonneg : ∀ event ∈ sampleEvents, event.type = .fill → 0 ≤ event.qty := by
    decide +kernel
  have hstate : (applyEvents {} sampleEvents none).toOption.map
      (fun final => final.symbols.toList) = some ledgers := by decide +kernel
  cases hok : applyEvents {} sampleEvents none with
  | error e => simp [hok, Except.toOption] at hstate
  | ok final =>
    simp only [hok, Except.toOption, Option.map_some, Option.some.injEq] at hstate
    refine ⟨_, rfl, gross_accounts_for_trading sampleEvents final hok hnonneg ledgers
      (hstate ▸ List.Perm.refl _) _ [] [] _ ?_ rfl⟩
    intro entry hin _
    obtain rfl := List.mem_singleton.mp hin
    decide +kernel

section Ingest

open Stage4Accounting (EpochTime Fill fillEvents)

/-- On the rows alone; in a cycle it is part of a transaction. -/
def ingestExchangeUpdates (time : EpochTime) (rows : List LedgerRow) (fills : List Fill) :
    List LedgerRow × AppendResult :=
  LedgerStore.appendLedgerEvents rows (fills.flatMap (fillEvents time))

/-- In a transaction that goes through, the rows and the counts are these. -/
theorem ingestExchangeUpdates_from (time : EpochTime) (store : Stage4Accounting.Store)
    (fills : List Fill) :
    Stage4Accounting.TxTriple (· = store) (Stage4Accounting.ingestExchangeUpdates time fills)
      (fun result next =>
        next = { store with
          ledgerEvents := (ingestExchangeUpdates time store.ledgerEvents fills).1 } ∧
          result = (ingestExchangeUpdates time store.ledgerEvents fills).2) :=
  Stage4Accounting.appendLedgerEvents_from store (fills.flatMap (fillEvents time))

/-- An insert of the event would be ignored. -/
def Taken (rows : List LedgerRow) (event : LedgerEvent) : Prop :=
  ∃ row ∈ rows, conflicts row.event (storedEvent event) = true

theorem Taken.idle {rows : List LedgerRow} {event : LedgerEvent} (h : Taken rows event) :
    insertOrIgnore rows event = (rows, false) := by
  obtain ⟨row, hin, hconflict⟩ := h
  exact if_pos (List.any_eq_true.mpr ⟨row, hin, hconflict⟩)

theorem insertAll_taken {rows : List LedgerRow} {events : List LedgerEvent}
    (h : ∀ event ∈ events, Taken rows event) : (insertAll rows events).1 = rows := by
  induction events with
  | nil => rfl
  | cons event events ih =>
    have hidle := (h event List.mem_cons_self).idle
    simp only [insertAll, hidle]
    exact ih fun other hin => h other (List.mem_cons_of_mem event hin)

theorem taken_insertOrIgnore (rows : List LedgerRow) (event : LedgerEvent) :
    Taken (insertOrIgnore rows event).1 event := by
  unfold insertOrIgnore
  split
  · next hany => exact List.any_eq_true.mp hany
  · refine ⟨_, List.mem_append_right _ (List.mem_singleton_self _), ?_⟩
    simp [conflicts]

theorem Taken.insertAll {rows : List LedgerRow} {event : LedgerEvent} (h : Taken rows event)
    (events : List LedgerEvent) : Taken (insertAll rows events).1 event := by
  obtain ⟨more, hmore, -⟩ := insertAll_extends rows events
  obtain ⟨row, hin, hconflict⟩ := h
  exact ⟨row, hmore ▸ List.mem_append_left more hin, hconflict⟩

theorem taken_insertAll {rows : List LedgerRow} {events : List LedgerEvent} {event : LedgerEvent}
    (h : event ∈ events) : Taken (insertAll rows events).1 event := by
  induction events generalizing rows with
  | nil => cases h
  | cons first events ih =>
    rcases List.mem_cons.mp h with rfl | hrest
    · exact (taken_insertOrIgnore rows event).insertAll events
    · exact ih hrest

variable (time : EpochTime)

def ingestFill (rows : List LedgerRow) (fill : Fill) : List LedgerRow :=
  (insertAll rows (fillEvents time fill)).1

theorem ingest_fold (rows : List LedgerRow) (fills : List Fill) :
    (ingestExchangeUpdates time rows fills).1 = fills.foldl (ingestFill time) rows := by
  induction fills generalizing rows with
  | nil => rfl
  | cons fill fills ih =>
    rw [List.foldl_cons, ← ih]
    simp only [ingestExchangeUpdates, LedgerStore.appendLedgerEvents, List.flatMap_cons,
      insertAll_append]
    rfl

theorem taken_fold {fills : List Fill} {fill : Fill} (h : fill ∈ fills) (rows : List LedgerRow) :
    ∀ event ∈ fillEvents time fill, Taken (fills.foldl (ingestFill time) rows) event := by
  intro event hevent
  induction fills using List.reverseRecOn with
  | nil => cases h
  | append_singleton fills last ih =>
    rw [List.foldl_append]
    rcases List.mem_append.mp h with hin | hin
    · exact (ih hin).insertAll (fillEvents time last)
    · obtain rfl := List.mem_singleton.mp hin
      exact taken_insertAll hevent

end Ingest

/-- However the fills are delivered again, and in whatever batches, the ledger table is that of one
delivery of each. -/
theorem ingest_redelivered (time : Stage4Accounting.EpochTime) (rows : List LedgerRow)
    (fills : List Stage4Accounting.Fill) (batches : List (List Stage4Accounting.Fill))
    (h : Redelivery.Repeats fills batches.flatten) :
    batches.foldl (fun rows batch => (ingestExchangeUpdates time rows batch).1) rows =
      (ingestExchangeUpdates time rows fills).1 := by
  have hflat : ∀ rows, batches.foldl (fun rows batch => (ingestExchangeUpdates time rows batch).1)
      rows = batches.flatten.foldl (ingestFill time) rows := by
    clear h
    induction batches with
    | nil => exact fun _ => rfl
    | cons batch batches ih =>
      intro rows
      rw [List.foldl_cons, ih, List.flatten_cons, List.foldl_append, ingest_fold]
  rw [hflat, ingest_fold]
  refine h.foldl_eq fun taken _ fill hin => ?_
  exact insertAll_taken (taken_fold time hin rows)

/-- The exchange reports a fill again, in a later batch. -/
theorem ingest_again :
    let time : Stage4Accounting.EpochTime := ⟨fun ts => ts.micros / 1000, fun ms => ⟨ms, true⟩⟩
    let fill (fillId : String) : Stage4Accounting.Fill :=
      ⟨fillId, "o1", "BTCTRY", "buy", ⟨100, "100"⟩, ⟨1, "1"⟩, 1 / 10, "TRY", ⟨5, true⟩⟩
    [[fill "t1"], [fill "t2", fill "t1"]].foldl
        (fun rows batch => (ingestExchangeUpdates time rows batch).1) [] =
      (ingestExchangeUpdates time [] [fill "t1", fill "t2"]).1 := by
  intro time fill
  refine ingest_redelivered time [] [fill "t1", fill "t2"] _ ?_
  have hagain : Redelivery.Repeats [fill "t1", fill "t2"]
      ([fill "t1", fill "t2"] ++ fill "t1" :: []) :=
    .again (.refl _) List.mem_cons_self
  exact hagain

end LedgerMetrics
