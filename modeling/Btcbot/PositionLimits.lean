import Btcbot.AllocationBudget
import Btcbot.Spending

/-!
# Allocation within the position limits

Every intent is sized by the position that its symbol had at the start, whatever the actions
before it have taken. The limits hold over the whole list exactly if each action finds what
it takes in what the earlier ones of its side and symbol left.
-/
namespace PositionLimits

open PyData AllocationService AllocationBudget
open CycleCap (limitsOf_cases sizeIntent_cases sizeNotional_ok)
open Spending (spent)

/-- The side and symbol that an action takes from. -/
def purse (action : SizedAction) : Side × String := (action.side, action.symbol)

section Limits

variable (knobs : AllocationKnobs) (positions : Mapping PositionSummary) (prices : Mapping ℚ)

/-- What a position is worth at a mark price that the allocation takes. -/
def positionNotional (symbol : String) : ℚ :=
  match prices.get symbol with
  | none => 0
  | some markPrice =>
    let heldQty := ((positions.get symbol).map PositionSummary.qty).getD 0
    if 0 < markPrice ∧ 0 < heldQty then heldQty * markPrice else 0

/-- What the actions of a side may take of a symbol, if there is a limit. -/
def room : Side × String → Option ℚ
  | (.buy, symbol) =>
    if 0 < knobs.maxPositionTryPerSymbol then
      some (knobs.maxPositionTryPerSymbol - positionNotional positions prices symbol)
    else none
  | (.sell, symbol) => some (positionNotional positions prices symbol)

/-- Each symbol's position and BUY actions are within its limit, and its SELL actions within
the position. -/
def WithinPositions (actions : List SizedAction) : Prop :=
  (0 < knobs.maxPositionTryPerSymbol → ∀ symbol,
    positionNotional positions prices symbol +
      spent purse SizedAction.notionalTry (.buy, symbol) actions ≤
        knobs.maxPositionTryPerSymbol) ∧
  ∀ symbol, spent purse SizedAction.notionalTry (.sell, symbol) actions ≤
    positionNotional positions prices symbol

/-- An intent that is sized after an action of its side and symbol leaves its notional, cut by
its limits and raised to the minimum, within what the actions so far have left. -/
def FitsPosition (progress : Progress) (intent : Intent) : Prop :=
  (∃ earlier ∈ progress.actions,
    purse earlier = (intent.side, canonicalSymbol intent.symbol)) →
  (sizeIntent knobs positions prices progress intent).isOk → ∀ requested markPrice limits,
    intent.targetNotionalTry = some requested →
    limitsOf knobs positions prices progress.remainingDeployBudgetTry
      progress.remainingCycleNotional (canonicalSymbol intent.symbol) intent.side requested =
      .ok (markPrice, limits) →
    ∀ bound ∈ room knobs positions prices (intent.side, canonicalSymbol intent.symbol),
      spent purse SizedAction.notionalTry (intent.side, canonicalSymbol intent.symbol)
        progress.actions + max (tightest requested limits) knobs.minOrderNotionalTry ≤ bound

theorem positionNotional_nonneg (symbol : String) :
    0 ≤ positionNotional positions prices symbol := by
  rw [positionNotional]
  split
  · exact le_refl 0
  · dsimp only
    split
    · next hpos => exact (mul_pos hpos.2 hpos.1).le
    · exact le_refl 0

theorem withinPositions_iff (actions : List SizedAction) :
    WithinPositions knobs positions prices actions ↔
      ∀ k, ∀ bound ∈ room knobs positions prices k,
        spent purse SizedAction.notionalTry k actions ≤ bound := by
  constructor
  · rintro ⟨hbuys, hsells⟩ ⟨side, symbol⟩ bound hbound
    cases side with
    | buy =>
      rw [room] at hbound
      split at hbound
      · next hmax =>
        obtain rfl := Option.some.inj hbound
        exact le_sub_iff_add_le'.mpr (hbuys hmax symbol)
      · cases hbound
    | sell =>
      obtain rfl := Option.some.inj hbound
      exact hsells symbol
  · intro h
    constructor
    · intro hmax symbol
      exact le_sub_iff_add_le'.mp (h (.buy, symbol) _ (if_pos hmax))
    · intro symbol
      exact h (.sell, symbol) _ rfl

/-- Before the first action only the positions themselves may be over their limit. -/
theorem withinPositions_nil : WithinPositions knobs positions prices [] ↔
    (0 < knobs.maxPositionTryPerSymbol → ∀ symbol,
      positionNotional positions prices symbol ≤ knobs.maxPositionTryPerSymbol) := by
  simp only [WithinPositions, Spending.spent_nil, add_zero]
  exact and_iff_left (positionNotional_nonneg positions prices)

end Limits

section Steps

variable {knobs : AllocationKnobs} {positions : Mapping PositionSummary} {prices : Mapping ℚ}

theorem tightest_nonneg {requested : ℚ} {limits : Limits} (hrequested : 0 ≤ requested)
    (hlimits : ∀ cap bound, (cap, some bound) ∈ limits → 0 ≤ bound) :
    0 ≤ tightest requested limits := by
  induction limits generalizing requested with
  | nil => exact hrequested
  | cons limit limits ih =>
    have hrest := fun cap bound hin => hlimits cap bound (List.mem_cons_of_mem _ hin)
    obtain ⟨cap, bound⟩ := limit
    cases bound with
    | none => exact ih hrequested hrest
    | some bound => exact ih (le_min hrequested (hlimits cap bound List.mem_cons_self)) hrest

/-- No limit is less than nothing while the deploy budget is not overdrawn. -/
theorem limits_nonneg {deployBudget cycleNotional requested markPrice : ℚ} {symbol : String}
    {side : Side} {limits : Limits} (hdeploy : 0 ≤ deployBudget) (hrequested : 0 ≤ requested)
    (h : limitsOf knobs positions prices deployBudget cycleNotional symbol side requested =
      .ok (markPrice, limits)) :
    ∀ cap bound, (cap, some bound) ∈ limits → 0 ≤ bound := by
  have hcycle : 0 ≤ applyOptionalCap requested cycleNotional
      knobs.maxTotalNotionalTryPerCycle := by
    rw [applyOptionalCap]
    split
    · exact hrequested
    · exact le_max_right _ _
  have hintent : ∀ cap bound, (cap, some bound) ∈ intentCap knobs → 0 ≤ bound := by
    intro cap bound hin
    rw [intentCap] at hin
    split at hin
    · next hpos =>
      obtain ⟨-, heq⟩ := Prod.mk.inj (List.mem_singleton.mp hin)
      obtain rfl := Option.some.inj heq
      exact hpos.le
    · cases hin
  obtain ⟨-, hmark, ⟨-, rfl⟩ | ⟨-, hheld, rfl⟩⟩ := limitsOf_cases h
  · intro cap bound hin
    rcases List.mem_append.mp hin with hin | hin
    · simp only [List.mem_cons, Prod.mk.injEq, Option.some.injEq, List.not_mem_nil,
        or_false] at hin
      rcases hin with ⟨-, rfl⟩ | ⟨-, hposition⟩ | ⟨-, rfl⟩
      · exact hdeploy
      · rw [maxNewPositionNotional] at hposition
        split at hposition
        · cases hposition
        · obtain rfl := Option.some.inj hposition
          exact le_max_right _ _
      · exact hcycle
    · exact hintent cap bound hin
  · intro cap bound hin
    rcases List.mem_append.mp hin with hin | hin
    · simp only [List.mem_cons, Prod.mk.injEq, Option.some.injEq, List.not_mem_nil,
        or_false] at hin
      rcases hin with ⟨-, rfl⟩ | ⟨-, rfl⟩
      · exact (mul_pos hheld hmark).le
      · exact hcycle
    · exact hintent cap bound hin

/-- On its own an intent is sized within the limits of its symbol. -/
theorem sizeIntent_room {progress : Progress} {intent : Intent} {allocated markPrice : ℚ}
    {reason : ReasonCode}
    (h : sizeIntent knobs positions prices progress intent = .ok (allocated, markPrice, reason))
    {bound : ℚ}
    (hbound : bound ∈ room knobs positions prices (intent.side, canonicalSymbol intent.symbol))
    (hnonneg : 0 ≤ bound) : allocated ≤ bound := by
  obtain ⟨requested, limits, -, -, hlimits, hsized⟩ := sizeIntent_cases h
  have hcaps := (sizeNotional_ok hsized).2
  obtain ⟨hprice, hmark, ⟨hside, rfl⟩ | ⟨hside, hheld, rfl⟩⟩ := limitsOf_cases hlimits
  · rw [hside, room] at hbound
    split at hbound
    · next hmax =>
      obtain rfl := Option.some.inj hbound
      have hcap := hcaps .maxPositionExposureCap (max (knobs.maxPositionTryPerSymbol -
        positionNotional positions prices (canonicalSymbol intent.symbol)) 0)
        (by simp [maxNewPositionNotional, not_le.mpr hmax, positionNotional, hprice, hmark])
        (by decide)
      rwa [max_eq_left hnonneg] at hcap
    · cases hbound
  · rw [hside] at hbound
    obtain rfl := Option.some.inj hbound
    refine hcaps .positionValueCap _ ?_ (by decide)
    simp [positionNotional, hprice, hmark, hheld]

/-- An action keeps the limits exactly if it fits what those before it left. -/
theorem withinPositions_step (progress : Progress) (intent : Intent)
    (hs : 0 ≤ progress.remainingDeployBudgetTry) :
    WithinPositions knobs positions prices
        (allocateIntent knobs positions prices progress intent).actions ↔
      WithinPositions knobs positions prices progress.actions ∧
        FitsPosition knobs positions prices progress intent := by
  cases hsized : sizeIntent knobs positions prices progress intent with
  | error reason =>
    have hactions : (allocateIntent knobs positions prices progress intent).actions =
        progress.actions := by
      simp only [allocateIntent, hsized]
    have hfits : FitsPosition knobs positions prices progress intent := by
      intro _ hok
      rw [hsized] at hok
      cases hok
    rw [hactions, and_iff_left hfits]
  | ok sized =>
    obtain ⟨allocated, markPrice, reason⟩ := sized
    obtain ⟨requested, limits, hrequested, hpositive, hlimits, hnotional⟩ :=
      sizeIntent_cases hsized
    have hmax := sizeNotional_max hnotional
    have hnonneg : 0 ≤ allocated := by
      rw [hmax]
      exact le_max_of_le_left
        (tightest_nonneg hpositive.le (limits_nonneg hs hpositive.le hlimits))
    have hactions : (allocateIntent knobs positions prices progress intent).actions =
        progress.actions ++ [actionOf progress intent allocated markPrice reason] := by
      simp only [allocateIntent, hsized]
    rw [hactions, withinPositions_iff, withinPositions_iff, Spending.bounded_concat hnonneg]
    refine and_congr_right fun hbefore => ⟨fun h => ?_, fun h => ?_⟩
    · intro _ _ other mark otherLimits hother hotherLimits bound hbound
      obtain rfl := Option.some.inj (hrequested.symm.trans hother)
      obtain ⟨-, rfl⟩ := Prod.mk.inj (Except.ok.inj (hlimits.symm.trans hotherLimits))
      rw [← hmax]
      exact h bound hbound
    · intro bound hbound
      by_cases hearlier : ∃ earlier ∈ progress.actions,
          purse earlier = (intent.side, canonicalSymbol intent.symbol)
      · have hfits := h hearlier (by rw [hsized]; rfl) requested markPrice limits hrequested
          hlimits bound hbound
        rw [← hmax] at hfits
        exact hfits
      · -- the first action of its side and symbol rests on the limits it is sized by
        have hroom := hbefore (intent.side, canonicalSymbol intent.symbol) bound hbound
        have hnone : spent purse SizedAction.notionalTry
            (intent.side, canonicalSymbol intent.symbol) progress.actions = 0 :=
          Spending.spent_none hearlier
        rw [hnone] at hroom
        change spent purse SizedAction.notionalTry (intent.side, canonicalSymbol intent.symbol)
          progress.actions + allocated ≤ bound
        rw [hnone, zero_add]
        exact sizeIntent_room hsized hbound hroom

end Steps

/-- The limits hold of the actions exactly if they hold of the positions at the start, and
every intent that is sized after an action of its side and symbol fits what is left of it. -/
theorem positions_within_iff (intents : List Intent) (balances : Mapping ℚ)
    (positions : Mapping PositionSummary) (markPrices : Mapping ℚ) (knobs : AllocationKnobs) :
    let held := positions.mapKeys canonicalSymbol
    let prices := markPrices.mapKeys canonicalSymbol
    let result := allocate intents balances positions markPrices knobs
    WithinPositions knobs held prices result.actions ↔
      (0 < knobs.maxPositionTryPerSymbol → ∀ symbol,
        positionNotional held prices symbol ≤ knobs.maxPositionTryPerSymbol) ∧
      Runs.Meets (allocateIntent knobs held prices) (FitsPosition knobs held prices)
        { remainingDeployBudgetTry := result.deployBudgetTry
          remainingCycleNotional := knobs.maxTotalNotionalTryPerCycle } intents := by
  intro held prices result
  obtain ⟨hdeploy, -⟩ := budgetsOf_bounds knobs result.cashTry
  rw [← withinPositions_nil]
  have hrun := Runs.run_iff_meets
    (I := fun progress : Progress => 0 ≤ progress.remainingDeployBudgetTry)
    (P := fun progress => WithinPositions knobs held prices progress.actions)
    left_allocateIntent withinPositions_step
    { remainingDeployBudgetTry := result.deployBudgetTry
      remainingCycleNotional := knobs.maxTotalNotionalTryPerCycle } intents hdeploy
  exact hrun

def placeOf (side : Side) : Intent where
  symbol := "BTCTRY"
  side := side
  intentType := .place
  targetNotionalTry := some 80
  rationale := ""
  strategyId := "s"

def heldBitcoin (qty : ℚ) : Mapping PositionSummary :=
  ⟨[("BTCTRY", ⟨"BTCTRY", qty, 100⟩)], List.nodup_singleton _⟩

def bitcoinMark : Mapping ℚ := ⟨[("BTCTRY", 100)], List.nodup_singleton _⟩

/-- Two orders of 80 on one symbol, under a limit of 100. -/
def twoOf (side : Side) (qty : ℚ) : AllocationResult :=
  allocate [placeOf side, placeOf side] ⟨[("TRY", 1000)], List.nodup_singleton _⟩
    (heldBitcoin qty) bitcoinMark { maxPositionTryPerSymbol := 100 }

/-- Two BUY orders pass the limit that each is under, two SELL orders the position. -/
theorem limits_passed_together :
    ¬ WithinPositions { maxPositionTryPerSymbol := 100 }
        ((heldBitcoin 0).mapKeys canonicalSymbol) (bitcoinMark.mapKeys canonicalSymbol)
        (twoOf .buy 0).actions ∧
    ¬ WithinPositions { maxPositionTryPerSymbol := 100 }
        ((heldBitcoin 1).mapKeys canonicalSymbol) (bitcoinMark.mapKeys canonicalSymbol)
        (twoOf .sell 1).actions := by
  constructor
  · rintro ⟨hbuys, -⟩
    have htotal := hbuys (by decide +kernel) "BTCTRY"
    revert htotal
    decide +kernel
  · rintro ⟨-, hsells⟩
    have htotal := hsells "BTCTRY"
    revert htotal
    decide +kernel

end PositionLimits
