import Btcbot.Gathering
import Btcbot.KernelOrders
import Btcbot.Portions
import Mathlib.Algebra.Order.Group.MinMax

/-!
# Purchases of one size

The strategy asks for the same notional for every symbol that is wanted. What the caps of a
cycle leave of each purchase is told by its place among them, and on the grid of its pair it
comes to a quantity that the order is made of.
-/
namespace EqualPurchases

open PyData AllocationService DecisionPipeline CycleCap KernelOrders Gathering Portions
open Stage4Execute (ExchangeRules quantizePrice quantizeQty gridStep)
open Stage4Planning (decisionPipeline)

section Caps

variable (knobs : AllocationKnobs) (asked : ℚ)

/-- A cap that is not positive is none. -/
def capped (cap amount : ℚ) : ℚ := if 0 < cap then min amount cap else amount

/-- What the caps on a single purchase leave of what is asked for. -/
def capEach : ℚ :=
  capped knobs.maxIntentNotionalTry (capped knobs.maxPositionTryPerSymbol asked)

/-- What a purchase takes as long as there is enough. Under the minimum it is raised to it,
but not over the cap of the position, and without a cap of the cycle not over what is asked
for. -/
def each : ℚ :=
  if knobs.minOrderNotionalTry ≤ capEach knobs asked then capEach knobs asked
  else if (0 < knobs.maxPositionTryPerSymbol →
        knobs.minOrderNotionalTry ≤ knobs.maxPositionTryPerSymbol) ∧
      (knobs.maxTotalNotionalTryPerCycle ≤ 0 → knobs.minOrderNotionalTry ≤ asked) then
    knobs.minOrderNotionalTry
  else 0

/-- What there is for the purchases, of the deploy budget and the cap of the cycle. -/
def roomOf (deployBudget cycleNotional : ℚ) : ℚ :=
  if 0 < knobs.maxTotalNotionalTryPerCycle then min deployBudget cycleNotional else deployBudget

/-- The limits of a purchase of what is not held. -/
def purchaseLimits (deployBudget cycleNotional : ℚ) : Limits :=
  [(.cashTarget, some deployBudget),
    (.maxPositionExposureCap, maxNewPositionNotional 0 knobs.maxPositionTryPerSymbol),
    (.cycleNotionalCap, some (applyOptionalCap asked cycleNotional
      knobs.maxTotalNotionalTryPerCycle))] ++ intentCap knobs

variable {knobs asked}

theorem le_capped {bound cap amount : ℚ} :
    bound ≤ capped cap amount ↔ bound ≤ amount ∧ (0 < cap → bound ≤ cap) := by
  unfold capped
  split
  · next hcap => simp [hcap]
  · next hcap => simp [hcap]

theorem le_roomOf {bound deployBudget cycleNotional : ℚ} :
    bound ≤ roomOf knobs deployBudget cycleNotional ↔
      bound ≤ deployBudget ∧
        (0 < knobs.maxTotalNotionalTryPerCycle → bound ≤ cycleNotional) := by
  unfold roomOf
  split
  · next htotal => simp [htotal]
  · next htotal => simp [htotal]

theorem le_applyOptionalCap {bound cycleNotional : ℚ}
    (hcycle : 0 < knobs.maxTotalNotionalTryPerCycle → 0 ≤ cycleNotional) :
    bound ≤ applyOptionalCap asked cycleNotional knobs.maxTotalNotionalTryPerCycle ↔
      (knobs.maxTotalNotionalTryPerCycle ≤ 0 → bound ≤ asked) ∧
        (0 < knobs.maxTotalNotionalTryPerCycle → bound ≤ cycleNotional) := by
  unfold applyOptionalCap
  split
  · next htotal => simp [htotal, not_lt.mpr htotal]
  · next htotal => simp [htotal, not_le.mp htotal, max_eq_left (hcycle (not_le.mp htotal))]

theorem le_tightest {bound requested : ℚ} {limits : Limits} :
    bound ≤ tightest requested limits ↔
      bound ≤ requested ∧ ∀ limit ∈ limits, ∀ value, limit.2 = some value → bound ≤ value := by
  induction limits generalizing requested with
  | nil => simp [tightest]
  | cons limit limits ih =>
    obtain ⟨reason, value⟩ := limit
    have hrest : tightest requested ((reason, value) :: limits) =
        tightest ((value.map (min requested)).getD requested) limits := rfl
    rw [hrest, ih, List.forall_mem_cons]
    cases value with
    | none => simp
    | some value => simp [and_assoc]

theorem mem_purchaseLimits {deployBudget cycleNotional bound : ℚ}
    (hcycle : 0 < knobs.maxTotalNotionalTryPerCycle → 0 ≤ cycleNotional)
    (cap : ReasonCode → Bool) (hcap : cap .cashTarget = true)
    (hposition : cap .maxPositionExposureCap = true) (htotal : cap .cycleNotionalCap = true) :
    (∀ limit ∈ purchaseLimits knobs asked deployBudget cycleNotional, cap limit.1 = true →
        ∀ value, limit.2 = some value → bound ≤ value) ↔
      bound ≤ deployBudget ∧
      (0 < knobs.maxPositionTryPerSymbol → bound ≤ knobs.maxPositionTryPerSymbol) ∧
      ((knobs.maxTotalNotionalTryPerCycle ≤ 0 → bound ≤ asked) ∧
        (0 < knobs.maxTotalNotionalTryPerCycle → bound ≤ cycleNotional)) ∧
      (cap .maxIntentCap = true → 0 < knobs.maxIntentNotionalTry →
        bound ≤ knobs.maxIntentNotionalTry) := by
  have hgrowth : (∀ value, maxNewPositionNotional 0 knobs.maxPositionTryPerSymbol = some value →
        bound ≤ value) ↔
      (0 < knobs.maxPositionTryPerSymbol → bound ≤ knobs.maxPositionTryPerSymbol) := by
    unfold maxNewPositionNotional
    split
    · next hnone => simp [not_lt.mpr hnone]
    · next hsome => simp [not_le.mp hsome, (not_le.mp hsome).le]
  have hintent : (∀ limit ∈ intentCap knobs, cap limit.1 = true → ∀ value,
        limit.2 = some value → bound ≤ value) ↔
      (cap .maxIntentCap = true → 0 < knobs.maxIntentNotionalTry →
        bound ≤ knobs.maxIntentNotionalTry) := by
    unfold intentCap
    split
    · next hpos => simp [hpos]
    · next hnone => simp [hnone]
  have hcycled : (∀ value, some (applyOptionalCap asked cycleNotional
        knobs.maxTotalNotionalTryPerCycle) = some value → bound ≤ value) ↔
      bound ≤ applyOptionalCap asked cycleNotional knobs.maxTotalNotionalTryPerCycle := by
    simp
  rw [purchaseLimits, List.forall_mem_append, hintent]
  simp only [List.forall_mem_cons, hcap, hposition, htotal, forall_const, hgrowth, hcycled,
    le_applyOptionalCap hcycle]
  simp [and_assoc]

theorem tightest_purchase {deployBudget cycleNotional : ℚ}
    (hcycle : 0 < knobs.maxTotalNotionalTryPerCycle → 0 ≤ cycleNotional) :
    tightest asked (purchaseLimits knobs asked deployBudget cycleNotional) =
      min (capEach knobs asked) (roomOf knobs deployBudget cycleNotional) := by
  refine eq_of_forall_le_iff fun bound => ?_
  have hlimits := @mem_purchaseLimits knobs asked deployBudget cycleNotional bound hcycle
    (fun _ => true) rfl rfl rfl
  simp only [forall_const] at hlimits
  rw [le_tightest, hlimits, le_min_iff, le_roomOf, capEach, le_capped, le_capped]
  constructor
  · rintro ⟨hasked, hdeploy, hposition, ⟨-, hcycled⟩, hintent⟩
    exact ⟨⟨⟨hasked, hposition⟩, hintent⟩, hdeploy, hcycled⟩
  · rintro ⟨⟨⟨hasked, hposition⟩, hintent⟩, hdeploy, hcycled⟩
    exact ⟨hasked, hdeploy, hposition, ⟨fun _ => hasked, hcycled⟩, hintent⟩

theorem not_isBelow {limit : Option ℚ} {notional : ℚ} :
    isBelow limit notional = false ↔ ∀ value, limit = some value → notional ≤ value := by
  cases limit with
  | none => simp [isBelow]
  | some value => simp [isBelow]

/-- The minimum is raised to where no cap but that of the intent is under it. -/
theorem raised_purchase {deployBudget cycleNotional : ℚ}
    (hcycle : 0 < knobs.maxTotalNotionalTryPerCycle → 0 ≤ cycleNotional) :
    (purchaseLimits knobs asked deployBudget cycleNotional).all (fun limit =>
        limit.1 = .maxIntentCap || !isBelow limit.2 knobs.minOrderNotionalTry) = true ↔
      knobs.minOrderNotionalTry ≤ roomOf knobs deployBudget cycleNotional ∧
        (0 < knobs.maxPositionTryPerSymbol →
          knobs.minOrderNotionalTry ≤ knobs.maxPositionTryPerSymbol) ∧
        (knobs.maxTotalNotionalTryPerCycle ≤ 0 → knobs.minOrderNotionalTry ≤ asked) := by
  have hlimits := @mem_purchaseLimits knobs asked deployBudget cycleNotional
    knobs.minOrderNotionalTry hcycle (fun reason => reason ≠ .maxIntentCap) rfl rfl rfl
  have hother (limit : ReasonCode × Option ℚ) :
      (limit.1 = .maxIntentCap || !isBelow limit.2 knobs.minOrderNotionalTry) = true ↔
        (decide (limit.1 ≠ .maxIntentCap) = true → ∀ value, limit.2 = some value →
          knobs.minOrderNotionalTry ≤ value) := by
    rw [Bool.or_eq_true, decide_eq_true_eq, Bool.not_eq_true', not_isBelow, decide_eq_true_eq,
      ne_eq, or_iff_not_imp_left]
  simp only [List.all_eq_true, hother]
  rw [hlimits, le_roomOf]
  constructor
  · rintro ⟨hdeploy, hposition, ⟨hasked, hcycled⟩, -⟩
    exact ⟨⟨hdeploy, hcycled⟩, hposition, hasked⟩
  · rintro ⟨⟨hdeploy, hcycled⟩, hposition, hasked⟩
    refine ⟨hdeploy, hposition, ⟨hasked, hcycled⟩, fun hintent => ?_⟩
    cases hintent

/-- A purchase is allocated a portion of the room, or nothing. -/
theorem sizeNotional_purchase {deployBudget cycleNotional : ℚ}
    (hmin : 0 < knobs.minOrderNotionalTry)
    (hcycle : 0 < knobs.maxTotalNotionalTryPerCycle → 0 ≤ cycleNotional) :
    (sizeNotional knobs asked (purchaseLimits knobs asked deployBudget cycleNotional)).toOption.map
        Prod.fst =
      if knobs.minOrderNotionalTry ≤
          min (each knobs asked) (roomOf knobs deployBudget cycleNotional) then
        some (min (each knobs asked) (roomOf knobs deployBudget cycleNotional))
      else none := by
  have hraised := @raised_purchase knobs asked deployBudget cycleNotional hcycle
  unfold sizeNotional
  simp only [tightest_purchase hcycle]
  generalize purchaseLimits knobs asked deployBudget cycleNotional = limits at hraised ⊢
  generalize roomOf knobs deployBudget cycleNotional = room at hraised ⊢
  by_cases htight : knobs.minOrderNotionalTry ≤ min (capEach knobs asked) room
  · have heach : each knobs asked = capEach knobs asked :=
      if_pos (htight.trans (min_le_left _ _))
    rw [if_neg (not_lt.mpr htight), heach, if_pos htight]
    rfl
  · rw [if_pos (not_le.mp htight)]
    by_cases hcap : knobs.minOrderNotionalTry ≤ capEach knobs asked
    · have heach : each knobs asked = capEach knobs asked := if_pos hcap
      have hroom : ¬ knobs.minOrderNotionalTry ≤ room := fun hroom => htight (le_min hcap hroom)
      rw [if_neg fun hall => hroom (hraised.mp hall).1, heach, if_neg htight]
      rfl
    · by_cases hallowed : (0 < knobs.maxPositionTryPerSymbol →
            knobs.minOrderNotionalTry ≤ knobs.maxPositionTryPerSymbol) ∧
          (knobs.maxTotalNotionalTryPerCycle ≤ 0 → knobs.minOrderNotionalTry ≤ asked)
      · have heach : each knobs asked = knobs.minOrderNotionalTry := by
          rw [each, if_neg hcap, if_pos hallowed]
        rw [heach]
        by_cases hroom : knobs.minOrderNotionalTry ≤ room
        · rw [if_pos (hraised.mpr ⟨hroom, hallowed⟩), min_eq_left hroom, if_pos (le_refl _)]
          rfl
        · have hshort : ¬ knobs.minOrderNotionalTry ≤ min knobs.minOrderNotionalTry room :=
            fun hle => hroom (hle.trans (min_le_right _ _))
          rw [if_neg fun hall => hroom (hraised.mp hall).1, if_neg hshort]
          rfl
      · have heach : each knobs asked = 0 := by
          rw [each, if_neg hcap, if_neg hallowed]
        have hshort : ¬ knobs.minOrderNotionalTry ≤ min 0 room :=
          fun hle => not_lt.mpr (hle.trans (min_le_left _ _)) hmin
        rw [heach, if_neg fun hall => hallowed (hraised.mp hall).2, if_neg hshort]
        rfl

end Caps

section Run

variable {knobs : AllocationKnobs} {positions : Mapping PositionSummary} {prices : Mapping ℚ}
  {asked markPrice : ℚ}

def room (knobs : AllocationKnobs) (progress : Progress) : ℚ :=
  roomOf knobs progress.remainingDeployBudgetTry progress.remainingCycleNotional

/-- What the next purchase is allocated. -/
def served (knobs : AllocationKnobs) (asked : ℚ) (progress : Progress) : ℚ :=
  portion (each knobs asked) knobs.minOrderNotionalTry (room knobs progress)

/-- An intent to buy, for the notional asked, what has a mark price and is not held. -/
structure Buys (positions : Mapping PositionSummary) (prices : Mapping ℚ) (asked markPrice : ℚ)
    (intent : Intent) : Prop where
  intentType : intent.intentType = .place
  side : intent.side = .buy
  target : intent.targetNotionalTry = some asked
  asked_pos : 0 < asked
  price : prices.get (canonicalSymbol intent.symbol) = some markPrice
  price_pos : 0 < markPrice
  held : ((positions.get (canonicalSymbol intent.symbol)).map PositionSummary.qty).getD 0 ≤ 0

theorem sizeIntent_purchase {intent : Intent}
    (h : Buys positions prices asked markPrice intent) (hmin : 0 < knobs.minOrderNotionalTry)
    (progress : Progress)
    (hcycle : 0 < knobs.maxTotalNotionalTryPerCycle → 0 ≤ progress.remainingCycleNotional) :
    (served knobs asked progress = 0 ∧
      ∃ reason, sizeIntent knobs positions prices progress intent = .error reason) ∨
    (served knobs asked progress ≠ 0 ∧ ∃ reason,
      sizeIntent knobs positions prices progress intent =
        .ok (served knobs asked progress, markPrice, reason)) := by
  have hsized := @sizeNotional_purchase knobs asked progress.remainingDeployBudgetTry
    progress.remainingCycleNotional hmin hcycle
  have hlimits : limitsOf knobs positions prices progress.remainingDeployBudgetTry
      progress.remainingCycleNotional (canonicalSymbol intent.symbol) intent.side asked =
      .ok (markPrice, purchaseLimits knobs asked progress.remainingDeployBudgetTry
        progress.remainingCycleNotional) := by
    simp only [limitsOf, h.side, h.price, if_neg (not_le.mpr h.price_pos),
      if_neg (not_lt.mpr h.held), purchaseLimits]
  have hkind : ¬ intent.intentType ≠ .place := not_not.mpr h.intentType
  unfold sizeIntent
  simp only [if_neg hkind, h.target, if_neg (not_le.mpr h.asked_pos), hlimits]
  by_cases hleast : knobs.minOrderNotionalTry ≤ min (each knobs asked) (room knobs progress)
  · have hserved : served knobs asked progress = min (each knobs asked) (room knobs progress) :=
      portion_of_le hleast
    rw [← room.eq_1, if_pos hleast, ← hserved] at hsized
    refine .inr ⟨hserved ▸ (hmin.trans_le hleast).ne', ?_⟩
    cases hnotional : sizeNotional knobs asked (purchaseLimits knobs asked
        progress.remainingDeployBudgetTry progress.remainingCycleNotional) with
    | error reason =>
      rw [hnotional] at hsized
      cases hsized
    | ok sized =>
      rw [hnotional] at hsized
      rw [← Option.some.inj hsized]
      exact ⟨sized.2, rfl⟩
  · rw [← room.eq_1, if_neg hleast] at hsized
    refine .inl ⟨portion_of_lt (not_le.mp hleast), ?_⟩
    cases hnotional : sizeNotional knobs asked (purchaseLimits knobs asked
        progress.remainingDeployBudgetTry progress.remainingCycleNotional) with
    | error reason => exact ⟨reason, rfl⟩
    | ok sized =>
      rw [hnotional] at hsized
      cases hsized

/-- The actions of a purchase: one, or none where nothing is served. -/
def actionsFor (progress : Progress) (intent : Intent) (amount markPrice : ℚ)
    (reason : ReasonCode) : List SizedAction :=
  if amount = 0 then [] else [actionOf progress intent amount markPrice reason]

theorem allocateIntent_purchase {intent : Intent}
    (h : Buys positions prices asked markPrice intent) (hmin : 0 < knobs.minOrderNotionalTry)
    (progress : Progress)
    (hcycle : 0 < knobs.maxTotalNotionalTryPerCycle → 0 ≤ progress.remainingCycleNotional) :
    let next := allocateIntent knobs positions prices progress intent
    (∃ reason, next.actions = progress.actions ++
      actionsFor progress intent (served knobs asked progress) markPrice reason) ∧
    room knobs next = serve (each knobs asked) knobs.minOrderNotionalTry (room knobs progress) ∧
    (0 < knobs.maxTotalNotionalTryPerCycle → 0 ≤ next.remainingCycleNotional) ∧
    next.intentIndex = progress.intentIndex + 1 := by
  intro next
  have hserve : serve (each knobs asked) knobs.minOrderNotionalTry (room knobs progress) =
      room knobs progress - served knobs asked progress := rfl
  rw [hserve]
  obtain ⟨hnone, reason, hsized⟩ | ⟨hsome, reason, hsized⟩ :=
    sizeIntent_purchase h hmin progress hcycle
  · have hnext : next = { progress with
        decisions := progress.decisions ++
          [decisionOf progress intent none none .rejected reason]
        intentIndex := progress.intentIndex + 1 } := by
      simp only [next, allocateIntent, hsized]
    rw [hnext, hnone, sub_zero]
    exact ⟨⟨reason, (List.append_nil _).symm⟩, rfl, hcycle, rfl⟩
  · have hnext : next =
        { actions := progress.actions ++
            [actionOf progress intent (served knobs asked progress) markPrice reason]
          decisions := progress.decisions ++
            [decisionOf progress intent (some (served knobs asked progress))
              (some (served knobs asked progress / markPrice))
              (if reason = .ok then .accepted else .scaled) reason]
          remainingDeployBudgetTry :=
            progress.remainingDeployBudgetTry - served knobs asked progress
          remainingCycleNotional :=
            if 0 < knobs.maxTotalNotionalTryPerCycle then
              progress.remainingCycleNotional - served knobs asked progress
            else progress.remainingCycleNotional
          intentIndex := progress.intentIndex + 1 } := by
      simp only [next, allocateIntent, hsized, h.side, if_true]
    have hleast := portion_ne_zero hsome
    rw [hnext]
    refine ⟨⟨reason, ?_⟩, ?_, fun htotal => ?_, rfl⟩
    · rw [actionsFor, if_neg hsome]
    · by_cases htotal : 0 < knobs.maxTotalNotionalTryPerCycle
      · simp only [room, roomOf, if_pos htotal, min_sub_sub_right]
      · simp only [room, roomOf, if_neg htotal]
    · have hle : served knobs asked progress ≤ progress.remainingCycleNotional := by
        have hroom : served knobs asked progress ≤ room knobs progress :=
          hleast.2.trans_le (min_le_right _ _)
        rw [room, roomOf, if_pos htotal] at hroom
        exact hroom.trans (min_le_right _ _)
      simpa [htotal] using hle

/-- What the purchase at a place is allocated. -/
def spentOn (knobs : AllocationKnobs) (asked deployBudget : ℚ) (place : ℕ) : ℚ :=
  portion (each knobs asked) knobs.minOrderNotionalTry
    (roomOf knobs deployBudget knobs.maxTotalNotionalTryPerCycle - place * each knobs asked)

def bare (action : SizedAction) : SizedAction := { action with rationale := "" }

/-- The actions of the purchase at a place, their rationale apart. -/
def bareActions (intent : Intent) (place : ℕ) (amount markPrice : ℚ) : List SizedAction :=
  if amount = 0 then []
  else
    [{ symbol := canonicalSymbol intent.symbol
       side := intent.side
       notionalTry := amount
       qty := amount / markPrice
       rationale := ""
       strategyId := intent.strategyId
       intentIndex := place }]

variable {ι : Type} {intentOf : ι → Intent} {markPriceOf : ι → ℚ}

/-- The loop over the intents, after the purchases made. -/
structure Purchased (knobs : AllocationKnobs) (asked deployBudget : ℚ) (intentOf : ι → Intent)
    (markPriceOf : ι → ℚ) (items : List ι) (progress : Progress) : Prop where
  actions : progress.actions.map bare =
    (items.mapIdx fun place item => bareActions (intentOf item) place
      (spentOn knobs asked deployBudget place) (markPriceOf item)).flatten
  room : room knobs progress =
    (serve (each knobs asked) knobs.minOrderNotionalTry)^[items.length]
      (roomOf knobs deployBudget knobs.maxTotalNotionalTryPerCycle)
  cycle : 0 < knobs.maxTotalNotionalTryPerCycle → 0 ≤ progress.remainingCycleNotional
  index : progress.intentIndex = items.length

theorem purchased_allocateIntent {deployBudget : ℚ} (hmin : 0 < knobs.minOrderNotionalTry)
    (items : List ι) (item : ι) (progress : Progress)
    (hbuys : Buys positions prices asked (markPriceOf item) (intentOf item))
    (h : Purchased knobs asked deployBudget intentOf markPriceOf items progress) :
    Purchased knobs asked deployBudget intentOf markPriceOf (items ++ [item])
      (allocateIntent knobs positions prices progress (intentOf item)) := by
  obtain ⟨⟨reason, hnew⟩, hserve, hleft, hnext⟩ :=
    allocateIntent_purchase hbuys hmin progress h.cycle
  have hserved : served knobs asked progress = spentOn knobs asked deployBudget items.length := by
    rw [served, h.room, portion_iterate hmin, spentOn, nsmul_eq_mul]
  constructor
  · rw [hnew, List.map_append, h.actions, List.mapIdx_concat, List.flatten_append, hserved]
    congr 1
    unfold actionsFor bareActions
    split
    · rfl
    · rw [List.map_singleton, bare, actionOf, h.index]
      rfl
  · rw [hserve, h.room, List.length_append, List.length_singleton, Function.iterate_succ_apply']
  · exact hleft
  · rw [hnext, h.index, List.length_append, List.length_singleton]

/-- The purchases are allocated what their places tell. -/
theorem runIntents_purchases (deployBudget : ℚ) (hmin : 0 < knobs.minOrderNotionalTry)
    (items : List ι)
    (hbuys : ∀ item ∈ items, Buys positions prices asked (markPriceOf item) (intentOf item)) :
    Purchased knobs asked deployBudget intentOf markPriceOf items
      (runIntents knobs positions prices deployBudget (items.map intentOf)) := by
  induction items using List.reverseRecOn with
  | nil => exact ⟨rfl, rfl, le_of_lt, rfl⟩
  | append_singleton items item ih =>
    have hbefore := ih fun other hother => hbuys other (List.mem_append_left _ hother)
    have hnext := purchased_allocateIntent hmin items item _
      (hbuys item (List.mem_append_right _ List.mem_cons_self)) hbefore
    unfold runIntents at hnext ⊢
    rw [List.map_append, Runs.run_append]
    exact hnext

end Run

section Orders

variable (input : CycleInput)

def actionOrders (action : SizedAction) : Except PlanError (List Order) :=
  (mapAction input action).map fun outcome => outcome.toOption.toList

/-- The purchase of a quantity that is on the grid. -/
def purchaseOf (place : ℕ) (symbol : String) (qty : ℚ) : SizedAction where
  symbol := symbol
  side := .buy
  notionalTry := 0
  qty := qty
  rationale := ""
  strategyId := "baseline_mean_reversion_v1"
  intentIndex := place

def orderFor (place : ℕ) (symbol : String) (qty : ℚ) : Except PlanError (List Order) :=
  if qty ≤ 0 then .ok [] else actionOrders input (purchaseOf place symbol qty)

def priceOf (symbol : String) : ℚ :=
  match (pairInfoBySymbol input.pairInfo)[symbol]? with
  | none => 0
  | some pair => quantizePrice (markOf input symbol) (buildExchangeRules pair)

/-- A quantity of a symbol is an order as it is. -/
def isWorth (symbol : String) (qty : ℚ) : Bool :=
  match (pairInfoBySymbol input.pairInfo)[symbol]? with
  | none => false
  | some pair =>
    0 < qty && validateMinNotional (priceOf input symbol) qty (buildExchangeRules pair)

/-- A quantity of a symbol is an order, or can be raised to one. -/
def isPlaced (symbol : String) (qty : ℚ) : Bool :=
  match (pairInfoBySymbol input.pairInfo)[symbol]? with
  | none => false
  | some pair =>
    let raised := raisedQty (priceOf input symbol) (buildExchangeRules pair)
    0 < qty && (isWorth input symbol qty ||
      (priceOf input symbol ≠ 0 && qty < raised &&
        validateMinNotional (priceOf input symbol) raised (buildExchangeRules pair)))

/-- What an amount comes to on the grid of the symbol's pair, nothing without a pair. -/
def coinsFor (symbol : String) (amount : ℚ) : ℚ :=
  match (pairInfoBySymbol input.pairInfo)[symbol]? with
  | none => 0
  | some pair => quantizeQty (amount / markOf input symbol) (buildExchangeRules pair)

variable {input}

theorem quantizeQty_idem (qty : ℚ) (rules : ExchangeRules) :
    quantizeQty (quantizeQty qty rules) rules = quantizeQty qty rules :=
  Grid.isRounding_floor.snap_of_onGrid (gridStep_pos _ _).ne' (Grid.snap_onGrid _ _ _)

theorem get_of_marked {symbol : String} (h : 0 < markOf input symbol) :
    input.markPrices.get symbol = some (markOf input symbol) := by
  unfold markOf at h ⊢
  cases hmark : input.markPrices.get symbol with
  | none =>
    rw [hmark] at h
    exact absurd h (lt_irrefl 0)
  | some mark => rfl

/-- The order of a purchase is that of the quantity it comes to on the grid. -/
theorem actionOrders_coins (place : ℕ) {symbol : String} {amount : ℚ} (hamount : 0 < amount)
    (hmark : 0 < markOf input symbol) (hsymbol : canonicalSymbol symbol = symbol) :
    actionOrders input (purchaseOf place symbol (amount / markOf input symbol)) =
      orderFor input place symbol (coinsFor input symbol amount) := by
  have hmarked := get_of_marked hmark
  have hqty : 0 < amount / markOf input symbol := div_pos hamount hmark
  unfold orderFor coinsFor actionOrders mapAction
  simp only [purchaseOf, hsymbol]
  cases (pairInfoBySymbol input.pairInfo)[symbol]? with
  | none => rfl
  | some pair =>
    simp only [sizedActionToOrder, hmarked, if_neg (not_le.mpr hmark), if_neg (not_le.mpr hqty),
      quantizeQty_idem]
    by_cases hcoins : quantizeQty (amount / markOf input symbol) (buildExchangeRules pair) ≤ 0
    · rw [if_pos hcoins, if_pos hcoins]
      rfl
    · simp only [if_neg hcoins]
      rfl

/-- A quantity on the grid that is an order as it is makes that order. -/
theorem orderFor_worth {symbol : String} (place : ℕ) {amount : ℚ}
    (hmark : 0 < markOf input symbol) (hsymbol : canonicalSymbol symbol = symbol)
    (h : isWorth input symbol (coinsFor input symbol amount) = true) :
    orderFor input place symbol (coinsFor input symbol amount) =
      .ok [orderOf (purchaseOf place symbol (coinsFor input symbol amount)) input.liveMode
        (priceOf input symbol) (coinsFor input symbol amount) input.nowTs] := by
  have hmarked := get_of_marked hmark
  unfold isWorth priceOf coinsFor at h
  unfold orderFor coinsFor priceOf actionOrders mapAction
  cases hpair : (pairInfoBySymbol input.pairInfo)[symbol]? with
  | none =>
    rw [hpair] at h
    cases h
  | some pair =>
    simp only [hpair, Bool.and_eq_true, decide_eq_true_eq] at h
    obtain ⟨hpos, hvalid⟩ := h
    simp only [purchaseOf, hsymbol, hpair, if_neg (not_le.mpr hpos), sizedActionToOrder, hmarked,
      if_neg (not_le.mpr hmark), quantizeQty_idem, if_pos hvalid]
    rfl

theorem orderFor_placed {symbol : String} (place : ℕ) {amount : ℚ}
    (hmark : 0 < markOf input symbol) (hsymbol : canonicalSymbol symbol = symbol)
    (h : isPlaced input symbol (coinsFor input symbol amount) = true) :
    ∃ order, orderFor input place symbol (coinsFor input symbol amount) = .ok [order] := by
  by_cases hworth : isWorth input symbol (coinsFor input symbol amount) = true
  · exact ⟨_, orderFor_worth place hmark hsymbol hworth⟩
  · have hmarked := get_of_marked hmark
    unfold isPlaced at h
    unfold isWorth at h hworth
    unfold priceOf coinsFor at h hworth
    unfold orderFor coinsFor actionOrders mapAction
    cases hpair : (pairInfoBySymbol input.pairInfo)[symbol]? with
    | none =>
      rw [hpair] at h
      cases h
    | some pair =>
      simp only [hpair, Bool.and_eq_true, Bool.or_eq_true, decide_eq_true_eq] at h hworth
      obtain ⟨hpos, hraised⟩ := h
      obtain ⟨⟨hprice, hmore⟩, hvalid⟩ := hraised.resolve_left hworth
      have hbelow := fun hvalid => hworth ⟨hpos, hvalid⟩
      simp only [purchaseOf, hsymbol, hpair, if_neg (not_le.mpr hpos), sizedActionToOrder, hmarked,
        if_neg (not_le.mpr hmark), quantizeQty_idem, if_neg hbelow, if_neg hprice]
      rw [if_neg (not_not.mpr rfl)]
      simp only [hvalid, decide_eq_false (not_le.mpr hmore), Bool.not_true, Bool.or_self,
        Bool.false_eq_true, if_false]
      exact ⟨_, rfl⟩

end Orders

section Mappings

variable {V : Type}

theorem mapping_ext {m n : Mapping V} (h : m.entries = n.entries) : m = n := by
  cases m
  cases n
  cases h
  rfl

theorem mapKeys_fixed {f : String → String} {m : Mapping V}
    (h : ∀ key ∈ KeyedTable.keys m.entries, f key = key) : m.mapKeys f = m := by
  have hmap : (m.entries.map fun entry => (f entry.1, entry.2)) = m.entries := by
    refine (List.map_congr_left fun entry hin => ?_).trans (List.map_id m.entries)
    rw [h entry.1 (List.mem_map.mpr ⟨entry, hin, rfl⟩)]
    rfl
  refine mapping_ext ?_
  exact (congrArg KeyedTable.ofEntries hmap).trans (KeyedTable.ofEntries_of_nodup _ m.nodup)

end Mappings

section Cycle

variable (settings : Settings)
  (universeSelector : List SymbolInfo → List (String × OrderBookSummary) → List String)
  (input : CycleInput)

/-- What a cycle may spend: the cash over its target, as far as the mode of use and the
maximum of cash go, less the fees. -/
def spendable : ℚ :=
  let free := max (cashOf input - settings.tryCashTarget) 0
  let mode := (strip settings.investableUsageMode).toLower
  let used :=
    if mode = "fraction" then free * min (max settings.investableUsageFraction 0) 1
    else if mode = "cap" then min free (max (settings.maxTryPerCycle * scaledMultiplier input) 0)
    else free
  (if 0 < settings.tryCashMax then
      min used (max (settings.tryCashMax - settings.tryCashTarget) 0)
    else used) /
    (1 + resolveFeeBufferRatio settings.feeBufferRatio settings.allocationFeeBufferBps)

/-- What the wanted symbol at a place is allocated. -/
def allotted (place : ℕ) : ℚ :=
  spentOn (knobsOf (decisionPipeline settings universeSelector) input) (buyNotional settings input)
    (spendable settings input) place

def coins (place : ℕ) (symbol : String) : ℚ :=
  coinsFor input symbol (allotted settings universeSelector input place)

/-- The symbols that the strategy has bought, in their order. -/
def purchases (symbols : List String) : List String :=
  if input.bootstrapEnabled then
    (symbols.insertionSort (· ≤ ·)).filter (wanted settings input)
  else []

/-- What the purchases come to, in their order. -/
def quantities (symbols : List String) : List ℚ :=
  (purchases settings input symbols).mapIdx (coins settings universeSelector input)

/-- Some purchase makes an order. -/
def anyPlaced (symbols : List String) : Bool :=
  ((purchases settings input symbols).mapIdx fun place symbol =>
    isPlaced input symbol (coins settings universeSelector input place symbol)).any id

/-- Marks and positions are under symbols that are spelled as they should be. -/
structure Spelled (input : CycleInput) : Prop where
  marks : ∀ key ∈ KeyedTable.keys input.markPrices.entries, canonicalSymbol key = key
  positions : ∀ key ∈ KeyedTable.keys input.positions.entries, canonicalSymbol key = key

variable {settings universeSelector input}

theorem budgetsOf_spendable :
    (budgetsOf (knobsOf (decisionPipeline settings universeSelector) input) (cashOf input)).2.2 =
      spendable settings input := by
  have hpos : 0 < 1 + resolveFeeBufferRatio settings.feeBufferRatio
      settings.allocationFeeBufferBps := by
    have hfee := resolveFeeBufferRatio_nonneg settings.feeBufferRatio
      settings.allocationFeeBufferBps
    linarith
  exact (if_pos hpos).trans rfl

theorem mem_purchases {symbols : List String} {symbol : String}
    (h : symbol ∈ purchases settings input symbols) :
    symbol ∈ symbols ∧ 0 < markOf input symbol ∧ heldQty input symbol ≤ 0 ∧
      0 < buyNotional settings input := by
  unfold purchases at h
  split at h
  · obtain ⟨hsorted, hwanted⟩ := List.mem_filter.mp h
    simp only [wanted, Bool.and_eq_true, decide_eq_true_eq] at hwanted
    exact ⟨(List.mem_insertionSort _).mp hsorted, hwanted.1.1.1, hwanted.1.1.2, hwanted.2⟩
  · cases h

theorem marked_normal (h : Spelled input) {symbol : String} (hmark : 0 < markOf input symbol) :
    canonicalSymbol symbol = symbol := by
  refine h.marks symbol ((KeyedTable.get?_isSome_iff _ _).mp ?_)
  have hsome := get_of_marked hmark
  rw [Mapping.get] at hsome
  rw [hsome]
  exact Option.some_ne_none _

theorem buyIntent_buys (h : Spelled input) {symbols : List String} {symbol : String}
    (hin : symbol ∈ purchases settings input symbols) :
    Buys (input.positions.mapKeys canonicalSymbol) (input.markPrices.mapKeys canonicalSymbol)
      (buyNotional settings input) (markOf input symbol) (buyIntent settings input symbol) := by
  obtain ⟨-, hmark, hheld, hfunds⟩ := mem_purchases hin
  have hsymbol : canonicalSymbol (buyIntent settings input symbol).symbol = symbol := by
    have hnormal := marked_normal h hmark
    simp only [buyIntent, normalizeSymbol, hnormal]
  constructor
  · rfl
  · rfl
  · rfl
  · exact hfunds
  · rw [hsymbol, mapKeys_fixed h.marks]
    exact get_of_marked hmark
  · exact hmark
  · rw [hsymbol, mapKeys_fixed h.positions]
    exact hheld

theorem coinsFor_zero (symbol : String) : coinsFor input symbol 0 = 0 := by
  unfold coinsFor
  cases (pairInfoBySymbol input.pairInfo)[symbol]? with
  | none => rfl
  | some pair =>
    have hgrid : Grid.OnGrid (gridStep (buildExchangeRules pair).stepSize
        (buildExchangeRules pair).qtyPrecision) (0 / markOf input symbol) := by
      rw [zero_div]
      exact Grid.OnGrid.zero _
    exact (Grid.isRounding_floor.snap_of_onGrid (gridStep_pos _ _).ne' hgrid).trans (zero_div _)

/-- The actions of a purchase make the order of the quantity that it comes to. -/
theorem bareActions_order (h : Spelled input) {symbols : List String} {symbol : String}
    (hin : symbol ∈ purchases settings input symbols) (place : ℕ) :
    gather ((bareActions (buyIntent settings input symbol) place
        (allotted settings universeSelector input place) (markOf input symbol)).map
          (actionOrders input)) =
      orderFor input place symbol (coins settings universeSelector input place symbol) := by
  obtain ⟨-, hmark, -, -⟩ := mem_purchases hin
  have hnormal := marked_normal h hmark
  unfold bareActions coins
  split
  · next hnone =>
    rw [hnone, coinsFor_zero, orderFor, if_pos (le_refl 0)]
    rfl
  · next hsome =>
    have hpos : 0 < allotted settings universeSelector input place :=
      lt_of_le_of_ne (portion_nonneg settings.minOrderNotionalTry_pos _) (Ne.symm hsome)
    have hsymbol : canonicalSymbol (buyIntent settings input symbol).symbol = symbol := by
      simp only [buyIntent, normalizeSymbol, hnormal]
    rw [← actionOrders_coins place hpos hmark hnormal, List.map_singleton, gather_singleton,
      hsymbol]
    rfl

/-- The orders of the allocation are those of the quantities that the purchases come to. -/
theorem allocation_orders (h : Spelled input) (symbols : List String) :
    ((allocationOf (decisionPipeline settings universeSelector) input
        (generateIntents (decisionPipeline settings universeSelector) input symbols)).actions.mapM
        (mapAction input)).map (fun outcomes => outcomes.filterMap Except.toOption) =
      gather ((purchases settings input symbols).mapIdx fun place symbol =>
        orderFor input place symbol (coins settings universeSelector input place symbol)) := by
  have hintents : generateIntents (decisionPipeline settings universeSelector) input symbols =
      (purchases settings input symbols).map (buyIntent settings input) := by
    rw [generateIntents_baseline, purchases]
    split
    · rfl
    · rfl
  have hactions := (@runIntents_purchases
    (knobsOf (decisionPipeline settings universeSelector) input)
    (input.positions.mapKeys canonicalSymbol) (input.markPrices.mapKeys canonicalSymbol)
    (buyNotional settings input) String (buyIntent settings input) (markOf input)
    (spendable settings input) settings.minOrderNotionalTry_pos
    (purchases settings input symbols) fun symbol hin => buyIntent_buys h hin).actions
  have hbudget := @budgetsOf_spendable settings universeSelector input
  rw [← hbudget, ← hintents] at hactions
  calc ((allocationOf (decisionPipeline settings universeSelector) input
          (generateIntents (decisionPipeline settings universeSelector) input symbols)).actions.mapM
          (mapAction input)).map (fun outcomes => outcomes.filterMap Except.toOption)
      = gather ((allocationOf (decisionPipeline settings universeSelector) input
          (generateIntents (decisionPipeline settings universeSelector) input symbols)).actions.map
          (actionOrders input)) := mapM_gather _ _
    _ = gather (((allocationOf (decisionPipeline settings universeSelector) input
          (generateIntents (decisionPipeline settings universeSelector) input symbols)).actions.map
          bare).map (actionOrders input)) := by
        rw [List.map_map]
        rfl
    _ = gather ((purchases settings input symbols).mapIdx fun place symbol =>
          gather ((bareActions (buyIntent settings input symbol) place
            (allotted settings universeSelector input place) (markOf input symbol)).map
              (actionOrders input))) := by
        refine (congrArg (fun actions => gather (actions.map (actionOrders input)))
          hactions).trans ?_
        rw [List.map_flatten, gather_flatten, map_mapIdx, map_mapIdx, hbudget]
        rfl
    _ = gather ((purchases settings input symbols).mapIdx fun place symbol =>
          orderFor input place symbol (coins settings universeSelector input place symbol)) := by
        refine congrArg gather (List.mapIdx_eq_mapIdx_iff.mpr fun place hplace => ?_)
        exact bareActions_order h (List.getElem_mem hplace) place

/-- The orders are those of the quantities. -/
theorem gather_quantities {I J : CycleInput} {symbols : List String}
    (h : quantities settings universeSelector I symbols =
      quantities settings universeSelector J symbols)
    (hpurchases : purchases settings I symbols = purchases settings J symbols)
    (horders : orderFor I = orderFor J) :
    gather ((purchases settings I symbols).mapIdx fun place symbol =>
        orderFor I place symbol (coins settings universeSelector I place symbol)) =
      gather ((purchases settings J symbols).mapIdx fun place symbol =>
        orderFor J place symbol (coins settings universeSelector J place symbol)) := by
  unfold quantities at h
  rw [hpurchases] at h ⊢
  rw [horders]
  refine congrArg gather (List.mapIdx_eq_mapIdx_iff.mpr fun place hplace => ?_)
  rw [List.mapIdx_eq_mapIdx_iff.mp h place hplace]

/-- Where a purchase makes an order, there are orders. -/
theorem gather_placed (h : Spelled input) {symbols : List String} {orders : List Order}
    (hplaced : anyPlaced settings universeSelector input symbols = true)
    (horders : gather ((purchases settings input symbols).mapIdx fun place symbol =>
        orderFor input place symbol (coins settings universeSelector input place symbol)) =
      .ok orders) :
    orders ≠ [] := by
  obtain ⟨made, hmade, htrue⟩ := List.any_eq_true.mp hplaced
  obtain ⟨place, hplace, rfl⟩ := List.mem_mapIdx.mp hmade
  have hin := List.getElem_mem hplace
  obtain ⟨-, hmark, -, -⟩ := mem_purchases hin
  obtain ⟨order, horder⟩ := orderFor_placed place hmark (marked_normal h hmark) htrue
  have hmade : (Except.ok [order] : Except PlanError (List Order)) ∈
      (purchases settings input symbols).mapIdx fun place symbol =>
        orderFor input place symbol (coins settings universeSelector input place symbol) :=
    List.mem_mapIdx.mpr ⟨place, hplace, horder⟩
  have hresult := gather_ok horders hmade
  exact List.ne_nil_of_mem (hresult List.mem_cons_self)

end Cycle

end EqualPurchases
