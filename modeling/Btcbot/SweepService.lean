import Btcbot.Degrade
import Btcbot.Grid
import Btcbot.PortfolioPolicy
import Btcbot.Stage3Intent
import Btcbot.WhileLoop

/-!
# The sweep of free cash

What is free above the target is divided evenly over the symbols and each share turned
into an order of whole steps at a price under the best bid. Rounding and minimums leave
something over, which is then offered to the symbols in turn, again a share at most, until
less than the minimum is left or the rounds are used up.
-/
namespace SweepService

open Grid PyData
open Degrade (sortedSet)
open PortfolioPolicy (Balance)
open Stage3Intent (OrderIntent)
open Stage3Store (ActionRow recordAction toEpoch)

def eightDp : ℚ := 1 / 10 ^ 8

def twoDp : ℚ := 1 / 10 ^ 2

structure SymbolInfo where
  minNotional : Option ℚ := none
  stepSize : Option ℚ := none
  tickSize : Option ℚ := none

structure Settings where
  targetTry : ℚ := 300
  offsetBps : ℚ := 20
  defaultMinNotional : ℚ := 10

/-- The orders so far and where the rounds are; `broken` is the loop's own `break`. -/
structure State where
  intentsBySymbol : Dict OrderIntent := ∅
  usedNotional : ℚ := 0
  roundRobinIndex : ℕ := 0
  broken : Bool := false

section Code

def tryFreeBalance (balances : List Balance) : ℚ :=
  ((balances.find? fun balance => balance.asset.toUpper = "TRY").map Balance.free).getD 0

/-- Down to multiples of the increment where one is set, else of the default. -/
def roundTo (fallback value : ℚ) : Option ℚ → ℚ
  | none => snap trunc fallback value
  | some increment =>
    if increment ≤ 0 then snap trunc fallback value else snap trunc increment value

def roundPrice (value : ℚ) (tickSize : Option ℚ) : ℚ := roundTo twoDp value tickSize

def roundQty (value : ℚ) (stepSize : Option ℚ) : ℚ := roundTo eightDp value stepSize

/-- One step less. -/
def reducedQty (qty : ℚ) (stepSize : Option ℚ) : ℚ :=
  match stepSize with
  | none => roundQty (max 0 (qty - eightDp)) none
  | some step =>
    if 0 < step then roundQty (max 0 (qty - step)) stepSize
    else roundQty (max 0 (qty - eightDp)) none

variable (service : Settings) (cycleId : String) (bestBids : Dict ℚ) (rules : Dict SymbolInfo)

/-- The price of a symbol's orders, if its bid is there and positive. -/
def limitPrice (symbol : String) : Option ℚ :=
  match bestBids[symbol]? with
  | none => none
  | some bid =>
    if bid ≤ 0 then none
    else some (roundPrice (bid * (1 - service.offsetBps / 10000))
      ((rules[symbol]?).bind SymbolInfo.tickSize))

def minNotional (symbol : String) : ℚ :=
  ((rules[symbol]?).bind SymbolInfo.minNotional).getD service.defaultMinNotional

def intentForBudget (symbol : String) (budget : ℚ) : Option OrderIntent :=
  match limitPrice service bestBids rules symbol with
  | none => none
  | some price =>
    if price ≤ 0 then none
    else
      let stepSize := (rules[symbol]?).bind SymbolInfo.stepSize
      let qty := roundQty (budget / price) stepSize
      if qty ≤ 0 then none
      else
        let exceeds := budget < snap trunc eightDp (qty * price)
        let qty := if exceeds then reducedQty qty stepSize else qty
        let notional := snap trunc eightDp (qty * price)
        if qty ≤ 0 ∨ notional < minNotional service rules symbol then none
        else some {
          symbol := symbol
          side := .buy
          price := price
          quantity := qty
          notional := notional
          cycleId := cycleId }

def remaining (excess : ℚ) (s : State) : ℚ := max 0 (excess - s.usedNotional)

variable (excess perSymbolBudget : ℚ)

/-- What a symbol is offered of what is left. -/
def offer (symbol : String) (s : State) : Option OrderIntent :=
  intentForBudget service cycleId bestBids rules symbol
    (min perSymbolBudget (remaining excess s))

def firstPass : List String → State → State
  | [], s => s
  | symbol :: rest, s =>
    if remaining excess s < service.defaultMinNotional then s
    else
      match offer service cycleId bestBids rules excess perSymbolBudget symbol s with
      | none => firstPass rest s
      | some intent => firstPass rest { s with
          intentsBySymbol := s.intentsBySymbol.insert symbol intent
          usedNotional := s.usedNotional + intent.notional }

/-- An order grown by another of its symbol. -/
def grown (current intent : OrderIntent) : OrderIntent := { current with
  quantity := snap trunc eightDp (current.quantity + intent.quantity)
  notional := snap trunc eightDp (current.notional + intent.notional) }

def granted (symbol : String) (intent : OrderIntent) (s : State) : State := { s with
  intentsBySymbol := s.intentsBySymbol.insert symbol
    (match s.intentsBySymbol[symbol]? with
      | some current => grown current intent
      | none => intent)
  usedNotional := s.usedNotional + intent.notional }

def goesOn (s : State) : Bool :=
  !s.broken && !decide (remaining excess s < service.defaultMinNotional)

def round (sortedSymbols : List String) (s : State) : State :=
  let symbol := sortedSymbols.getD (s.roundRobinIndex % sortedSymbols.length) ""
  let index := s.roundRobinIndex + 1
  match offer service cycleId bestBids rules excess perSymbolBudget symbol s with
  | none => { s with
      roundRobinIndex := index
      broken := decide (sortedSymbols.length * 4 ≤ index) }
  | some intent => { granted symbol intent s with
      roundRobinIndex := index
      broken := decide (sortedSymbols.length * 8 ≤ index) }

/-- Eight rounds a symbol are all the loop makes. -/
def roundRobin (sortedSymbols : List String) (s : State) : State :=
  WhileLoop.run (goesOn service excess)
    (round service cycleId bestBids rules excess perSymbolBudget sortedSymbols)
    (8 * sortedSymbols.length) s

end Code

section Build

variable (service : Settings) (cycleId : String) (bestBids : Dict ℚ) (rules : Dict SymbolInfo)

def excessOf (balances : List Balance) : ℚ := max 0 (tryFreeBalance balances - service.targetTry)

def perSymbolBudget (excess : ℚ) (sortedSymbols : List String) : ℚ :=
  snap trunc eightDp (excess / sortedSymbols.length)

/-- Where the first pass leaves what is in excess. -/
def shared (excess : ℚ) (sortedSymbols : List String) : State :=
  firstPass service cycleId bestBids rules excess (perSymbolBudget excess sortedSymbols)
    sortedSymbols {}

/-- The orders, by symbol. -/
def plannedIntents (balances : List Balance) (symbols : List String) : List OrderIntent :=
  let excess := excessOf service balances
  let sortedSymbols := sortedSet symbols
  if excess ≤ 0 then []
  else if sortedSymbols = [] then []
  else
    let s := roundRobin service cycleId bestBids rules excess
      (perSymbolBudget excess sortedSymbols) sortedSymbols
      (shared service cycleId bestBids rules excess sortedSymbols)
    s.intentsBySymbol.toList.map Prod.snd

/-- A plan that was recorded in the same window of five minutes is not given again. -/
def buildOrderIntents (payloadHash : List OrderIntent → String) (now : ℤ)
    (actions : List ActionRow) (balances : List Balance) (symbols : List String) :
    List OrderIntent × List ActionRow :=
  let intents := plannedIntents service cycleId bestBids rules balances symbols
  if intents = [] then ([], actions)
  else
    let hash := payloadHash intents
    let dedupeKey := "sweep_plan:" ++ hash ++ ":" ++ toString (toEpoch now / 300)
    match recordAction now actions cycleId "sweep_plan" hash dedupeKey with
    | (none, actions) => ([], actions)
    | (some _, actions) => (intents, actions)

end Build

section Chunks

variable {service : Settings} {cycleId : String} {bestBids : Dict ℚ} {rules : Dict SymbolInfo}

theorem eightDp_pos : 0 < eightDp := by norm_num [eightDp]

theorem roundTo_le {fallback value : ℚ} (hfallback : 0 < fallback) (h : 0 ≤ value)
    (increment : Option ℚ) : roundTo fallback value increment ≤ value := by
  cases increment with
  | none => exact snap_trunc_le hfallback h
  | some increment =>
    dsimp only [roundTo]
    split
    · exact snap_trunc_le hfallback h
    · next hpos => exact snap_trunc_le (not_le.mp hpos) h

/-- What a share of the budget buys of a symbol. -/
structure Chunk (service : Settings) (bestBids : Dict ℚ) (rules : Dict SymbolInfo)
    (symbol : String) (budget : ℚ) (intent : OrderIntent) : Prop where
  named : intent.symbol = symbol
  price : limitPrice service bestBids rules symbol = some intent.price
  price_pos : 0 < intent.price
  quantity : 0 < intent.quantity
  within : intent.price * intent.quantity ≤ budget
  notional : intent.notional = snap trunc eightDp (intent.quantity * intent.price)
  minimum : minNotional service rules symbol ≤ intent.notional

theorem intentForBudget_chunk {symbol : String} {budget : ℚ} {intent : OrderIntent}
    (hbudget : 0 ≤ budget)
    (h : intentForBudget service cycleId bestBids rules symbol budget = some intent) :
    Chunk service bestBids rules symbol budget intent := by
  unfold intentForBudget at h
  cases hprice : limitPrice service bestBids rules symbol with
  | none => simp [hprice] at h
  | some price =>
    simp only [hprice] at h
    split at h
    · cases h
    · next hpos =>
      rw [not_le] at hpos
      -- rounded down, a quantity never costs more than the budget it was taken from
      have hle : roundQty (budget / price) ((rules[symbol]?).bind SymbolInfo.stepSize) ≤
          budget / price := roundTo_le eightDp_pos (div_nonneg hbudget hpos.le) _
      generalize roundQty (budget / price) ((rules[symbol]?).bind SymbolInfo.stepSize) = qty
        at hle h
      have hcost : qty * price ≤ budget := (le_div_iff₀ hpos).mp hle
      split at h
      · cases h
      · next hqty =>
        rw [not_le] at hqty
        have hover : ¬ budget < snap trunc eightDp (qty * price) := not_lt.mpr
          ((snap_trunc_le eightDp_pos (mul_pos hqty hpos).le).trans hcost)
        simp only [hover, if_false] at h
        split at h
        · cases h
        · next hmin =>
          rw [not_or, not_lt] at hmin
          obtain rfl := Option.some.inj h
          exact ⟨rfl, hprice, hpos, hqty, (mul_comm price qty).trans_le hcost, rfl, hmin.2⟩

theorem Chunk.notional_nonneg {symbol : String} {budget : ℚ} {intent : OrderIntent}
    (h : Chunk service bestBids rules symbol budget intent) : 0 ≤ intent.notional := by
  rw [h.notional]
  exact isRounding_trunc.snap_nonneg eightDp_pos (mul_pos h.quantity h.price_pos).le

/-- The decimals after the eighth are not booked. -/
theorem Chunk.spent_le {symbol : String} {budget : ℚ} {intent : OrderIntent}
    (h : Chunk service bestBids rules symbol budget intent) :
    intent.price * intent.quantity ≤ intent.notional + eightDp := by
  have hclose := isRounding_trunc.abs_snap_sub_lt eightDp_pos (intent.quantity * intent.price)
  rw [← h.notional, abs_lt] at hclose
  linarith [mul_comm intent.price intent.quantity]

theorem Chunk.notional_le {symbol : String} {budget : ℚ} {intent : OrderIntent}
    (h : Chunk service bestBids rules symbol budget intent) : intent.notional ≤ budget := by
  rw [h.notional]
  have hspent := h.within
  rw [mul_comm] at hspent
  exact (snap_trunc_le eightDp_pos (mul_pos h.quantity h.price_pos).le).trans hspent

end Chunks

section Invariant

variable {service : Settings} {cycleId : String} {bestBids : Dict ℚ} {rules : Dict SymbolInfo}
variable {excess perSymbolBudget : ℚ}

/-- An order of the plan. -/
structure Entry (service : Settings) (bestBids : Dict ℚ) (rules : Dict SymbolInfo)
    (symbol : String) (intent : OrderIntent) : Prop where
  named : intent.symbol = symbol
  price : limitPrice service bestBids rules symbol = some intent.price
  price_pos : 0 < intent.price
  quantity : 0 ≤ intent.quantity
  notional : 0 ≤ intent.notional
  onGrid : OnGrid eightDp intent.notional
  minimum : minNotional service rules symbol ≤ intent.notional

theorem Chunk.entry {symbol : String} {budget : ℚ} {intent : OrderIntent}
    (h : Chunk service bestBids rules symbol budget intent) :
    Entry service bestBids rules symbol intent :=
  ⟨h.named, h.price, h.price_pos, h.quantity.le, h.notional_nonneg,
    h.notional ▸ snap_onGrid trunc eightDp _, h.minimum⟩

theorem Entry.spent_nonneg {symbol : String} {intent : OrderIntent}
    (h : Entry service bestBids rules symbol intent) : 0 ≤ intent.price * intent.quantity :=
  mul_nonneg h.price_pos.le h.quantity

section Grown

variable {symbol : String} {budget : ℚ} {current intent : OrderIntent}
variable (hcurrent : Entry service bestBids rules symbol current)
variable (hintent : Chunk service bestBids rules symbol budget intent)
include hcurrent hintent

/-- Booked amounts have no decimals after the eighth to lose. -/
theorem grown_notional : (grown current intent).notional = current.notional + intent.notional :=
  isRounding_trunc.snap_of_onGrid eightDp_pos.ne' (hcurrent.onGrid.add hintent.entry.onGrid)

theorem Entry.grown : Entry service bestBids rules symbol (SweepService.grown current intent) where
  named := hcurrent.named
  price := hcurrent.price
  price_pos := hcurrent.price_pos
  quantity := isRounding_trunc.snap_nonneg eightDp_pos
    (add_nonneg hcurrent.quantity hintent.quantity.le)
  notional := by
    rw [grown_notional hcurrent hintent]
    exact add_nonneg hcurrent.notional hintent.notional_nonneg
  onGrid := snap_onGrid trunc eightDp _
  minimum := by
    rw [grown_notional hcurrent hintent]
    exact hcurrent.minimum.trans (le_add_of_nonneg_right hintent.notional_nonneg)

theorem grown_spent_le : (grown current intent).price * (grown current intent).quantity ≤
    current.price * current.quantity + intent.price * intent.quantity := by
  have hsame : intent.price = current.price :=
    Option.some.inj (hintent.price.symm.trans hcurrent.price)
  rw [hsame, ← mul_add]
  exact mul_le_mul_of_nonneg_left (snap_trunc_le eightDp_pos
    (add_nonneg hcurrent.quantity hintent.quantity.le)) hcurrent.price_pos.le

end Grown

def booked (s : State) : ℚ := (s.intentsBySymbol.toList.map fun entry => entry.2.notional).sum

def spent (s : State) : ℚ :=
  (s.intentsBySymbol.toList.map fun entry => entry.2.price * entry.2.quantity).sum

/-- After so many offers at most: what the orders cost is what was used, but for the decimals
that were not booked, one a share, and the last share was within what was left. -/
structure Held (service : Settings) (bestBids : Dict ℚ) (rules : Dict SymbolInfo) (excess : ℚ)
    (offers : ℕ) (s : State) : Prop where
  entry : ∀ (symbol : String) (intent : OrderIntent), s.intentsBySymbol[symbol]? = some intent →
    Entry service bestBids rules symbol intent
  booked : booked s ≤ s.usedNotional
  used : s.usedNotional ≤ excess
  spent : spent s ≤ s.usedNotional + offers * eightDp
  last : SweepService.spent s ≤ excess + (offers - 1 : ℕ) * eightDp

theorem held_init (hexcess : 0 ≤ excess) : Held service bestBids rules excess 0 {} := by
  have hbooked : booked {} = 0 := rfl
  have hspent : spent {} = 0 := rfl
  refine ⟨fun symbol intent h => by simp at h, hbooked.le, hexcess, ?_, ?_⟩
  · simp [hspent]
  · simpa [hspent] using hexcess

theorem Held.mono {offers more : ℕ} {s : State} (h : Held service bestBids rules excess offers s)
    (hle : offers ≤ more) : Held service bestBids rules excess more s := by
  have hcast (m n : ℕ) (hmn : m ≤ n) : (m : ℚ) * eightDp ≤ n * eightDp :=
    mul_le_mul_of_nonneg_right (by exact_mod_cast hmn) eightDp_pos.le
  exact ⟨h.entry, h.booked, h.used, h.spent.trans (by linarith [hcast _ _ hle]),
    h.last.trans (by linarith [hcast _ _ (Nat.sub_le_sub_right hle 1)])⟩

theorem Held.remaining_eq {offers : ℕ} {s : State}
    (h : Held service bestBids rules excess offers s) :
    remaining excess s = excess - s.usedNotional :=
  max_eq_right (sub_nonneg.mpr h.used)

/-- An order set to no more than it was and the share it was given. -/
theorem Held.insert {offers : ℕ} {s : State} (h : Held service bestBids rules excess offers s)
    {symbol : String} {budget : ℚ} {intent next : OrderIntent}
    (hbudget : budget ≤ remaining excess s)
    (hintent : Chunk service bestBids rules symbol budget intent)
    (hnext : Entry service bestBids rules symbol next)
    (hnotional : next.notional ≤
      ((s.intentsBySymbol[symbol]?).map OrderIntent.notional).getD 0 + intent.notional)
    (hspent : next.price * next.quantity ≤
      ((s.intentsBySymbol[symbol]?).map fun current => current.price * current.quantity).getD 0 +
        intent.price * intent.quantity)
    (index : ℕ) (broken : Bool) :
    Held service bestBids rules excess (offers + 1)
      ⟨s.intentsBySymbol.insert symbol next, s.usedNotional + intent.notional, index, broken⟩ := by
  have hbooked := Dict.sum_insert s.intentsBySymbol symbol next OrderIntent.notional
  have hcost := Dict.sum_insert s.intentsBySymbol symbol next fun intent =>
    intent.price * intent.quantity
  have hleft := hbudget.trans_eq h.remaining_eq
  have hshare := hintent.spent_le
  have hwithin := hintent.within
  have hless := hintent.notional_le
  refine ⟨fun name order horder => ?_, ?_, ?_, ?_, ?_⟩
  · rw [Dict.insert_get] at horder
    split at horder
    · next hname =>
      obtain rfl := Option.some.inj horder
      exact hname ▸ hnext
    · exact h.entry name order horder
  · have hold := h.booked
    rw [SweepService.booked] at hold ⊢
    rw [hbooked]
    linarith
  · change s.usedNotional + intent.notional ≤ excess
    linarith
  · have hold := h.spent
    rw [SweepService.spent] at hold ⊢
    rw [hcost]
    push_cast
    linarith
  · have hold := h.spent
    rw [SweepService.spent] at hold ⊢
    rw [hcost, Nat.add_sub_cancel]
    linarith

/-- A first order of a symbol, or one in place of another. -/
theorem Held.insert_chunk {offers : ℕ} {s : State}
    (h : Held service bestBids rules excess offers s) {symbol : String} {budget : ℚ}
    {intent : OrderIntent} (hbudget : budget ≤ remaining excess s)
    (hintent : Chunk service bestBids rules symbol budget intent) (index : ℕ) (broken : Bool) :
    Held service bestBids rules excess (offers + 1)
      ⟨s.intentsBySymbol.insert symbol intent, s.usedNotional + intent.notional, index,
        broken⟩ := by
  refine h.insert hbudget hintent hintent.entry (le_add_of_nonneg_left ?_)
    (le_add_of_nonneg_left ?_) index broken
  · cases hold : s.intentsBySymbol[symbol]? with
    | none => exact le_rfl
    | some current => exact (h.entry symbol current hold).notional
  · cases hold : s.intentsBySymbol[symbol]? with
    | none => exact le_rfl
    | some current => exact (h.entry symbol current hold).spent_nonneg

end Invariant

section Loops

variable (service : Settings) (cycleId : String) (bestBids : Dict ℚ) (rules : Dict SymbolInfo)
variable {excess perSymbolBudget : ℚ}

theorem offer_chunk (hbudget : 0 ≤ perSymbolBudget) {symbol : String} {s : State}
    {intent : OrderIntent}
    (h : offer service cycleId bestBids rules excess perSymbolBudget symbol s = some intent) :
    Chunk service bestBids rules symbol (min perSymbolBudget (remaining excess s)) intent :=
  intentForBudget_chunk (le_min hbudget (le_max_left _ _)) h

theorem firstPass_held (hbudget : 0 ≤ perSymbolBudget) (symbols : List String) {offers : ℕ}
    {s : State} (h : Held service bestBids rules excess offers s) :
    Held service bestBids rules excess (offers + symbols.length)
      (firstPass service cycleId bestBids rules excess perSymbolBudget symbols s) := by
  induction symbols generalizing offers s with
  | nil => exact h
  | cons symbol rest ih =>
    have hlength : offers + (symbol :: rest).length = offers + 1 + rest.length := by
      rw [List.length_cons]
      omega
    rw [hlength, firstPass]
    split
    · exact h.mono (by omega)
    · split
      · exact ih (h.mono (Nat.le_succ offers))
      · next intent hoffer =>
        have hchunk := offer_chunk service cycleId bestBids rules hbudget hoffer
        exact ih (h.insert_chunk (min_le_right _ _) hchunk _ _)

variable (excess perSymbolBudget) in
/-- The first pass makes no round. -/
theorem firstPass_rounds (symbols : List String) (s : State) :
    (firstPass service cycleId bestBids rules excess perSymbolBudget symbols s).roundRobinIndex =
      s.roundRobinIndex ∧
    (firstPass service cycleId bestBids rules excess perSymbolBudget symbols s).broken =
      s.broken := by
  induction symbols generalizing s with
  | nil => exact ⟨rfl, rfl⟩
  | cons symbol rest ih =>
    rw [firstPass]
    split
    · exact ⟨rfl, rfl⟩
    · split
      · exact ih s
      · exact ih _

theorem round_held (hbudget : 0 ≤ perSymbolBudget) (sortedSymbols : List String) {offers : ℕ}
    {s : State} (h : Held service bestBids rules excess offers s) :
    Held service bestBids rules excess (offers + 1)
      (round service cycleId bestBids rules excess perSymbolBudget sortedSymbols s) := by
  unfold round
  dsimp only
  split
  · have hmore := h.mono (Nat.le_succ offers)
    exact ⟨hmore.entry, hmore.booked, hmore.used, hmore.spent, hmore.last⟩
  · next intent hoffer =>
    have hchunk := offer_chunk service cycleId bestBids rules hbudget hoffer
    unfold granted
    cases hold : s.intentsBySymbol[
        sortedSymbols.getD (s.roundRobinIndex % sortedSymbols.length) ""]? with
    | none =>
      exact h.insert_chunk (min_le_right _ _) hchunk _ _
    | some current =>
      have hcurrent := h.entry _ current hold
      refine h.insert (min_le_right _ _) hchunk (hcurrent.grown hchunk) ?_ ?_ _ _
      · rw [hold]
        exact (grown_notional hcurrent hchunk).le
      · rw [hold]
        exact grown_spent_le hcurrent hchunk

/-- The rounds that are left for so many symbols. -/
def roundsLeft (n : ℕ) (s : State) : ℕ := if s.broken then 0 else max 1 (8 * n - s.roundRobinIndex)

variable (perSymbolBudget) in
theorem round_roundsLeft (sortedSymbols : List String) {s : State}
    (h : goesOn service excess s = true) :
    roundsLeft sortedSymbols.length
      (round service cycleId bestBids rules excess perSymbolBudget sortedSymbols s) <
      roundsLeft sortedSymbols.length s := by
  have hbroken : s.broken = false := by
    simp only [goesOn, Bool.and_eq_true, Bool.not_eq_true'] at h
    exact h.1
  unfold round
  dsimp only
  split
  · simp only [roundsLeft, hbroken, decide_eq_true_eq, Bool.false_eq_true, if_false]
    split <;> omega
  · simp only [roundsLeft, hbroken, decide_eq_true_eq, Bool.false_eq_true, if_false]
    split <;> omega

end Loops

section Result

variable (service : Settings) (cycleId : String) (bestBids : Dict ℚ) (rules : Dict SymbolInfo)

theorem perSymbolBudget_nonneg {excess : ℚ} (h : 0 ≤ excess) (sortedSymbols : List String) :
    0 ≤ perSymbolBudget excess sortedSymbols :=
  isRounding_trunc.snap_nonneg eightDp_pos (div_nonneg h (Nat.cast_nonneg _))

/-- The round-robin loop over so many symbols from the state after the first pass. -/
structure Bounded (excess : ℚ) (sortedSymbols : List String) : Prop where
  rounds : ∀ fuel, WhileLoop.rounds (goesOn service excess)
    (round service cycleId bestBids rules excess (perSymbolBudget excess sortedSymbols)
      sortedSymbols) fuel (shared service cycleId bestBids rules excess sortedSymbols) ≤
    8 * sortedSymbols.length
  ends : goesOn service excess
    (roundRobin service cycleId bestBids rules excess (perSymbolBudget excess sortedSymbols)
      sortedSymbols (shared service cycleId bestBids rules excess sortedSymbols)) = false

theorem roundRobin_bounded (excess : ℚ) {sortedSymbols : List String} (h : sortedSymbols ≠ []) :
    Bounded service cycleId bestBids rules excess sortedSymbols := by
  have hpos : 0 < sortedSymbols.length := List.length_pos_iff.mpr h
  have hstart : roundsLeft sortedSymbols.length
      (shared service cycleId bestBids rules excess sortedSymbols) = 8 * sortedSymbols.length := by
    obtain ⟨hindex, hbroken⟩ := firstPass_rounds service cycleId bestBids rules excess
      (perSymbolBudget excess sortedSymbols) sortedSymbols {}
    rw [roundsLeft, shared, hindex, hbroken]
    simp only [Bool.false_eq_true, if_false]
    omega
  have hdec (s : State) (hon : goesOn service excess s = true) :=
    round_roundsLeft service cycleId bestBids rules (perSymbolBudget excess sortedSymbols)
      sortedSymbols hon
  exact ⟨fun fuel => (WhileLoop.rounds_le _ hdec fuel _).trans hstart.le,
    WhileLoop.guard_run _ hdec _ _ hstart.le⟩

theorem roundRobin_held {excess : ℚ} (hexcess : 0 ≤ excess) {sortedSymbols : List String}
    (h : sortedSymbols ≠ []) : Held service bestBids rules excess (9 * sortedSymbols.length)
      (roundRobin service cycleId bestBids rules excess (perSymbolBudget excess sortedSymbols)
        sortedSymbols (shared service cycleId bestBids rules excess sortedSymbols)) := by
  have hbudget := perSymbolBudget_nonneg hexcess sortedSymbols
  have hshared := firstPass_held service cycleId bestBids rules hbudget sortedSymbols
    (held_init hexcess)
  have hrounds := (roundRobin_bounded service cycleId bestBids rules excess h).rounds
    (8 * sortedSymbols.length)
  have hrun := @WhileLoop.run_induct State (goesOn service excess)
    (round service cycleId bestBids rules excess (perSymbolBudget excess sortedSymbols)
      sortedSymbols) (Held service bestBids rules excess)
    (fun offers s _ hs => round_held service cycleId bestBids rules hbudget sortedSymbols hs)
    (8 * sortedSymbols.length) _ _ hshared
  rw [shared] at hrounds
  exact hrun.mono (by omega)

/-- A plan within what is in excess, but for the decimals that are not booked, of at most nine
shares a symbol, the last of which is within what was left. -/
structure WithinBudget (excess : ℚ) (sortedSymbols : List String) (plan : List OrderIntent) :
    Prop where
  notional : (plan.map OrderIntent.notional).sum ≤ excess
  spent : (plan.map fun intent => intent.price * intent.quantity).sum ≤
    excess + (9 * sortedSymbols.length - 1 : ℕ) * eightDp
  symbols : (plan.map OrderIntent.symbol).Nodup
  minimum : ∀ intent ∈ plan, minNotional service rules intent.symbol ≤ intent.notional

theorem withinBudget_nil {excess : ℚ} (h : 0 ≤ excess) (sortedSymbols : List String) :
    WithinBudget service rules excess sortedSymbols [] where
  notional := h
  spent := add_nonneg h (mul_nonneg (Nat.cast_nonneg _) eightDp_pos.le)
  symbols := List.nodup_nil
  minimum := by simp

theorem Held.withinBudget {excess : ℚ} {sortedSymbols : List String} {s : State}
    (h : Held service bestBids rules excess (9 * sortedSymbols.length) s) :
    WithinBudget service rules excess sortedSymbols (s.intentsBySymbol.toList.map Prod.snd) where
  notional := by
    rw [List.map_map]
    exact h.booked.trans h.used
  spent := by
    rw [List.map_map]
    exact h.last
  symbols := Dict.values_nodup _ _ fun symbol intent hintent =>
    (h.entry symbol intent hintent).named
  minimum intent hintent := by
    obtain ⟨⟨symbol, order⟩, hin, rfl⟩ := List.mem_map.mp hintent
    have hentry := h.entry symbol order ((Dict.mem_toList _ _).mp hin)
    exact hentry.named ▸ hentry.minimum

theorem plannedIntents_withinBudget (balances : List Balance) (symbols : List String) :
    WithinBudget service rules (excessOf service balances) (sortedSet symbols)
      (plannedIntents service cycleId bestBids rules balances symbols) := by
  have hexcess : 0 ≤ excessOf service balances := le_max_left _ _
  unfold plannedIntents
  dsimp only
  split
  · exact withinBudget_nil service rules hexcess _
  · split
    · exact withinBudget_nil service rules hexcess _
    · next hsome =>
      exact (roundRobin_held service cycleId bestBids rules hexcess hsome).withinBudget

/-- What is planned is within what is free above the target, at no less than the minimum and at
most one order a symbol, and the loop that plans it ends by itself. -/
theorem buildOrderIntents_withinBudget (payloadHash : List OrderIntent → String) (now : ℤ)
    (actions : List ActionRow) (balances : List Balance) (symbols : List String) :
    WithinBudget service rules (excessOf service balances) (sortedSet symbols)
      (buildOrderIntents service cycleId bestBids rules payloadHash now actions balances
        symbols).1 ∧
    (sortedSet symbols = [] ∨
      Bounded service cycleId bestBids rules (excessOf service balances) (sortedSet symbols)) := by
  have hnil := withinBudget_nil service rules (le_max_left _ _ : 0 ≤ excessOf service balances)
    (sortedSet symbols)
  constructor
  · unfold buildOrderIntents
    dsimp only
    split
    · exact hnil
    · split
      · exact hnil
      · exact plannedIntents_withinBudget service cycleId bestBids rules balances symbols
  · rcases eq_or_ne (sortedSet symbols) [] with hnone | hsome
    · exact .inl hnone
    · exact .inr (roundRobin_bounded service cycleId bestBids rules _ hsome)

/-- Three symbols at 1.00, 1.23 and 20.00 after the offset, the last in whole units. -/
def threeBids : Dict ℚ :=
  (((∅ : Dict ℚ).insert "AAATRY" (101 / 100)).insert "BBBTRY" (124 / 100)).insert "CCCTRY"
    (2005 / 100)

def wholeUnits : Dict SymbolInfo := (∅ : Dict SymbolInfo).insert "CCCTRY" { stepSize := some 1 }

/-- Of 90 in excess, 29.999999997 is booked as 29.99999999, and the rest spent to the last decimal;
and of less than the target nothing is spent, which is more than what is above it. -/
theorem unbooked_decimals_spent :
    (390 : ℚ) - 300 <
      ((buildOrderIntents {} "cycle" threeBids wholeUnits (fun _ => "hash") 0 []
        [⟨"TRY", 390⟩] ["AAATRY", "BBBTRY", "CCCTRY"]).1.map
          fun intent => intent.price * intent.quantity).sum ∧
    (100 : ℚ) - 300 <
      ((buildOrderIntents {} "cycle" threeBids wholeUnits (fun _ => "hash") 0 []
        [⟨"TRY", 100⟩] ["AAATRY"]).1.map fun intent => intent.price * intent.quantity).sum := by
  constructor <;> decide +kernel

end Result

end SweepService
