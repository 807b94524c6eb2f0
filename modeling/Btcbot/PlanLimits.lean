import Btcbot.PlanFunding

/-!
# The limits of a plan

The targets share what is investable under the cap of a symbol. A raw action moves its
symbol to its target; the constraints cut it, drop it or keep it, and never bring a symbol
back, so every limit that one pass sets the later ones keep.
-/
namespace PlanLimits

open PyData KeyedTable PortfolioPolicy PlanFunding
open AllocationService (Mapping Side)

section Weights

theorem readWeights_nonneg {entries weights result : List (String × ℚ)}
    (h : readWeights weights entries = .ok result) (hweights : ∀ entry ∈ weights, 0 ≤ entry.2) :
    ∀ entry ∈ result, 0 ≤ entry.2 := by
  induction entries generalizing weights with
  | nil =>
    obtain rfl := Except.ok.inj h
    exact hweights
  | cons entry entries ih =>
    simp only [readWeights] at h
    split at h
    · exact ih h hweights
    · split at h
      · cases h
      · next hpos =>
        refine ih h fun other hin => ?_
        rcases List.mem_append.mp hin with hold | hnew
        · exact hweights other hold
        · obtain rfl := List.mem_singleton.mp hnew
          exact (not_le.mp hpos).le

theorem scaleWeights_nonneg {weights result : List (String × ℚ)}
    (h : scaleWeights weights = .ok result) (hweights : ∀ entry ∈ weights, 0 ≤ entry.2) :
    ∀ entry ∈ result, 0 ≤ entry.2 := by
  simp only [scaleWeights] at h
  split at h
  · obtain rfl := Except.ok.inj h
    exact fun entry hin => hweights entry ((List.mem_insertionSort _).mp hin)
  · split at h
    · next hnear =>
      obtain rfl := Except.ok.inj h
      intro entry hin
      obtain ⟨other, hother, rfl⟩ := List.mem_map.mp ((List.mem_insertionSort _).mp hin)
      refine div_nonneg (hweights other hother) ?_
      linarith [hnear.1]
    · cases h

/-- No target weight is negative. -/
theorem weights_nonneg {targets : Targets} {symbols : List String} {weights : List (String × ℚ)}
    (h : getPortfolioTargetWeights targets symbols = .ok weights) :
    ∀ entry ∈ weights, 0 ≤ entry.2 := by
  simp only [getPortfolioTargetWeights] at h
  split at h
  · obtain rfl := Except.ok.inj h
    exact fun entry hin => (List.not_mem_nil hin).elim
  · split at h
    · obtain rfl := Except.ok.inj h
      intro entry hin
      obtain ⟨symbol, -, rfl⟩ := List.mem_map.mp hin
      exact div_nonneg zero_le_one (Nat.cast_nonneg _)
    · next parsed =>
      obtain ⟨entries, -, h⟩ := Runs.bind_ok h
      obtain ⟨read, hread, h⟩ := Runs.bind_ok h
      have hnonneg := readWeights_nonneg hread fun entry hin => (List.not_mem_nil hin).elim
      split at h
      · cases h
      · split at h
        · cases h
        · exact scaleWeights_nonneg h hnonneg

end Weights

section Targets

variable (settings : Settings) (input : PlanInput)

theorem filteredUniverse_nodup : (filteredUniverse input).Nodup :=
  (List.Perm.nodup (List.perm_insertionSort _ _).symm (List.nodup_dedup _)).filter _

/-- The targets of the symbols of a plan. -/
theorem buildAllocations_ok {weights : List (String × ℚ)} {investable : ℚ}
    (hcap : 0 ≤ settings.maxPositionNotionalTry) (hinvestable : 0 ≤ investable)
    (hweights : ∀ entry ∈ weights, 0 ≤ entry.2) (hsum : totalWeight weights ≤ 1) :
    let allocations := buildAllocations settings (filteredUniverse input) investable weights
    (∀ allocation ∈ allocations, 0 ≤ allocation.targetNotionalTry ∧
      allocation.targetNotionalTry ≤ settings.maxPositionNotionalTry ∧
      allocation.symbol ∈ filteredUniverse input) ∧
    (allocations.map TargetAllocation.targetNotionalTry).sum ≤ investable ∧
    (allocations.map TargetAllocation.symbol).Nodup := by
  intro allocations
  have hnodup := filteredUniverse_nodup input
  have hsorted : ((filteredUniverse input).insertionSort (· ≤ ·)).Perm (filteredUniverse input) :=
    List.perm_insertionSort _ _
  have hunder : ((filteredUniverse input).map fun symbol => (get? weights symbol).getD 0).sum ≤ 1 :=
    (sum_get?_le hweights hnodup).trans hsum
  simp only [allocations, buildAllocations]
  split
  · exact ⟨fun _ hin => (List.not_mem_nil hin).elim, hinvestable, List.nodup_nil⟩
  · refine ⟨fun allocation hin => ?_, ?_, ?_⟩
    · obtain ⟨symbol, hsymbol, rfl⟩ := List.mem_map.mp hin
      have hweight := get?_getD_nonneg hweights symbol
      exact ⟨le_min (mul_nonneg hinvestable hweight) hcap, min_le_right _ _,
        hsorted.mem_iff.mp hsymbol⟩
    · rw [List.map_map, (hsorted.map _).sum_eq]
      exact targets_le settings hinvestable hunder
    · rw [List.map_map]
      have hsymbols : ∀ symbols : List String, symbols.map
          (TargetAllocation.symbol ∘ allocationOf settings investable weights) = symbols :=
        fun symbols => List.map_id symbols
      rw [hsymbols]
      exact hsorted.nodup_iff.mpr hnodup

end Targets

section Actions

/-- An action that moves its symbol from what is held to its target. -/
structure Corrects (positions : List PositionSnapshot) (allocation : TargetAllocation)
    (action : RawAction) : Prop where
  symbol : action.symbol = allocation.symbol
  pos : 0 < action.requestedNotionalTry
  sell : action.side = .sell → action.requestedNotionalTry =
    currentNotional positions allocation.symbol - allocation.targetNotionalTry
  buy : action.side = .buy → action.requestedNotionalTry =
    allocation.targetNotionalTry - currentNotional positions allocation.symbol

theorem rawActionOf_corrects {positions : List PositionSnapshot} {allocation : TargetAllocation}
    {action : RawAction} (h : rawActionOf positions allocation = some action) :
    Corrects positions allocation action := by
  simp only [rawActionOf] at h
  split at h
  · cases h
  · next hmoved =>
    obtain rfl := Option.some.inj h
    constructor
    · rfl
    · exact abs_pos.mpr hmoved
    · intro hside
      dsimp only at hside
      split at hside
      · next hless =>
        dsimp only
        rw [abs_of_neg hless]
        exact neg_sub _ _
      · cases hside
    · intro hside
      dsimp only at hside
      split at hside
      · cases hside
      · next hmore => exact abs_of_nonneg (not_lt.mp hmore)

theorem buildRawActions_corrects {allocations : List TargetAllocation}
    {positions : List PositionSnapshot} {action : RawAction}
    (h : action ∈ buildRawActions allocations positions) :
    ∃ allocation ∈ allocations, Corrects positions allocation action := by
  obtain ⟨allocation, hin, haction⟩ := List.mem_filterMap.mp
    ((buildRawActions_perm allocations positions).mem_iff.mp h)
  exact ⟨allocation, hin, rawActionOf_corrects haction⟩

theorem buildRawActions_nodup {allocations : List TargetAllocation}
    (positions : List PositionSnapshot) (h : (allocations.map TargetAllocation.symbol).Nodup) :
    ((buildRawActions allocations positions).map RawAction.symbol).Nodup := by
  have hsub : ((allocations.filterMap (rawActionOf positions)).map RawAction.symbol).Sublist
      (allocations.map TargetAllocation.symbol) := by
    clear h
    induction allocations with
    | nil => exact .slnil
    | cons allocation allocations ih =>
      cases haction : rawActionOf positions allocation with
      | none =>
        rw [List.filterMap_cons_none haction, List.map_cons]
        exact ih.cons _
      | some action =>
        rw [List.filterMap_cons_some haction, List.map_cons, List.map_cons,
          (rawActionOf_corrects haction).symbol]
        exact ih.cons_cons _
  exact ((buildRawActions_perm allocations positions).map _).nodup_iff.mpr (h.sublist hsub)

end Actions

section Constraints

variable (settings : Settings) (prices : List (String × ℚ))

/-- An action that is part of a raw one, within the minimum and at its symbol's price. -/
structure Cuts (raw : RawAction) (action : RebalanceAction) : Prop where
  symbol : action.symbol = raw.symbol
  side : action.side = raw.side
  min : settings.minOrderNotionalTry ≤ action.targetNotionalTry
  le : action.targetNotionalTry ≤ raw.requestedNotionalTry
  pos : 0 < action.targetNotionalTry
  qty : ∃ price, get? prices action.symbol = some price ∧ 0 < price ∧
    action.estQty * price ≤ action.targetNotionalTry

/-- What the loop did with the raw actions taken so far. -/
structure Taken (taken : List RawAction) (turnover : Turnover) : Prop where
  cuts : ∀ action ∈ turnover.constrained, ∃ raw ∈ taken, Cuts settings prices raw action
  symbols : (turnover.constrained.map RebalanceAction.symbol).Sublist
    (taken.map RawAction.symbol)
  spent : (turnover.constrained.map RebalanceAction.targetNotionalTry).sum +
    turnover.remaining ≤ settings.notionalCapTryPerCycle
  left : 0 ≤ turnover.remaining

/-- A raw action is passed over, uses up turnover for nothing, or is cut to an action. -/
theorem takeAction_cases (turnover : Turnover) (raw : RawAction)
    (hpos : 0 < raw.requestedNotionalTry) :
    takeAction settings prices turnover raw = turnover ∨
    ∃ applied, 0 < applied ∧ applied ≤ turnover.remaining ∧
      (takeAction settings prices turnover raw =
          { turnover with remaining := turnover.remaining - applied } ∨
        ∃ action, Cuts settings prices raw action ∧ action.targetNotionalTry = applied ∧
          takeAction settings prices turnover raw =
            ⟨turnover.remaining - applied, turnover.constrained ++ [action]⟩) := by
  unfold takeAction
  split
  · exact .inl rfl
  · next hleft =>
    cases hprice : get? prices raw.symbol with
    | none => exact .inl rfl
    | some price =>
      dsimp only
      split
      · exact .inl rfl
      · next hmark =>
        split
        · exact .inl rfl
        · next hmin =>
          have happlied : 0 < min raw.requestedNotionalTry turnover.remaining :=
            lt_min hpos (not_le.mp hleft)
          refine .inr ⟨_, happlied, min_le_right _ _, ?_⟩
          split
          · exact .inl rfl
          · refine .inr ⟨
              { symbol := raw.symbol
                side := raw.side
                targetNotionalTry := min raw.requestedNotionalTry turnover.remaining
                estQty := Grid.snap Grid.trunc qtyPrecision
                  (min raw.requestedNotionalTry turnover.remaining / price)
                reason :=
                  { raw.reason with
                    turnoverCapRemaining :=
                      some (turnover.remaining - min raw.requestedNotionalTry turnover.remaining) } },
              ⟨rfl, rfl, not_lt.mp hmin, min_le_left _ _, happlied, ?_⟩, rfl, rfl⟩
            have hmark := not_le.mp hmark
            refine ⟨price, hprice, hmark, ?_⟩
            rw [← le_div_iff₀ hmark]
            exact Grid.snap_trunc_le (by norm_num [qtyPrecision]) (div_pos happlied hmark).le

theorem taken_step (taken : List RawAction) (raw : RawAction) (turnover : Turnover)
    (hpos : 0 < raw.requestedNotionalTry) (hs : Taken settings prices taken turnover) :
    Taken settings prices (taken ++ [raw]) (takeAction settings prices turnover raw) := by
  have hcuts : ∀ action ∈ turnover.constrained, ∃ raw' ∈ taken ++ [raw],
      Cuts settings prices raw' action := by
    intro action hin
    obtain ⟨raw', hraw, hcut⟩ := hs.cuts action hin
    exact ⟨raw', List.mem_append_left _ hraw, hcut⟩
  have hsymbols : (turnover.constrained.map RebalanceAction.symbol).Sublist
      ((taken ++ [raw]).map RawAction.symbol) :=
    hs.symbols.trans ((List.sublist_append_left taken [raw]).map _)
  have hspent := hs.spent
  obtain hsame | ⟨applied, happlied, hfits, hused | ⟨action, hcut, hnotional, htaken⟩⟩ :=
    takeAction_cases settings prices turnover raw hpos
  · rw [hsame]
    exact ⟨hcuts, hsymbols, hspent, hs.left⟩
  · rw [hused]
    exact ⟨hcuts, hsymbols, by dsimp only; linarith, sub_nonneg.mpr hfits⟩
  · rw [htaken]
    constructor
    · intro other hin
      rcases List.mem_append.mp hin with hold | hnew
      · exact hcuts other hold
      · obtain rfl := List.mem_singleton.mp hnew
        exact ⟨raw, List.mem_append_right _ List.mem_cons_self, hcut⟩
    · rw [List.map_append, List.map_append, List.map_singleton, List.map_singleton, hcut.symbol]
      exact hs.symbols.append (List.Sublist.refl _)
    · rw [List.map_append, List.map_singleton, List.sum_append, List.sum_singleton, hnotional]
      dsimp only
      linarith
    · exact sub_nonneg.mpr hfits

theorem taken_run (raws : List RawAction) (hpos : ∀ raw ∈ raws, 0 < raw.requestedNotionalTry)
    (hcap : 0 ≤ settings.notionalCapTryPerCycle) :
    Taken settings prices raws
      (raws.foldl (takeAction settings prices) ⟨settings.notionalCapTryPerCycle, []⟩) := by
  have hrun := Runs.run_induct
    (I := fun taken turnover => (∀ raw ∈ taken, 0 < raw.requestedNotionalTry) →
      Taken settings prices taken turnover)
    (fun taken raw turnover hs htaken => taken_step settings prices taken raw turnover
      (htaken raw (List.mem_append_right _ List.mem_cons_self))
      (hs fun other hin => htaken other (List.mem_append_left _ hin)))
    ⟨settings.notionalCapTryPerCycle, []⟩ raws
    (fun _ => ⟨fun _ hin => (List.not_mem_nil hin).elim, .slnil, by simp, hcap⟩)
  exact hrun hpos

theorem applyConstraints_perm (raws : List RawAction) :
    (applyConstraints settings raws prices).Perm
      (((((raws.filter fun action => settings.minOrderNotionalTry ≤
        action.requestedNotionalTry).insertionSort fun a b =>
          LargerBefore a.side a.requestedNotionalTry a.symbol b.side b.requestedNotionalTry
            b.symbol).foldl (takeAction settings prices)
        ⟨settings.notionalCapTryPerCycle, []⟩).constrained.insertionSort fun a b =>
          LargerBefore a.side |a.targetNotionalTry| a.symbol b.side |b.targetNotionalTry|
            b.symbol).take settings.maxOrdersPerCycle.toNat) :=
  sides_perm RebalanceAction.side _ _ _

/-- The constraints keep actions that the raw ones allow, one of a symbol and within the
turnover and the orders of a cycle. -/
theorem applyConstraints_ok {raws : List RawAction}
    (hpos : ∀ raw ∈ raws, 0 < raw.requestedNotionalTry)
    (hnodup : (raws.map RawAction.symbol).Nodup) (hcap : 0 ≤ settings.notionalCapTryPerCycle) :
    let actions := applyConstraints settings raws prices
    (∀ action ∈ actions, ∃ raw ∈ raws, Cuts settings prices raw action) ∧
    (actions.map RebalanceAction.symbol).Nodup ∧
    (actions.map RebalanceAction.targetNotionalTry).sum ≤ settings.notionalCapTryPerCycle ∧
    actions.length ≤ settings.maxOrdersPerCycle.toNat := by
  intro actions
  have hfinal : actions.Perm _ := applyConstraints_perm settings prices raws
  generalize hsorted : ((raws.filter fun action => settings.minOrderNotionalTry ≤
    action.requestedNotionalTry).insertionSort fun a b => LargerBefore a.side
      a.requestedNotionalTry a.symbol b.side b.requestedNotionalTry b.symbol) = sorted at hfinal
  have hraws : sorted.Perm (raws.filter fun action => settings.minOrderNotionalTry ≤
      action.requestedNotionalTry) := by
    rw [← hsorted]
    exact List.perm_insertionSort _ _
  have hmem : ∀ raw ∈ sorted, raw ∈ raws := fun raw hin =>
    (List.mem_filter.mp (hraws.mem_iff.mp hin)).1
  have hdistinct : (sorted.map RawAction.symbol).Nodup :=
    (hraws.map _).nodup_iff.mpr (hnodup.sublist (List.filter_sublist.map _))
  have htaken := taken_run settings prices sorted (fun raw hin => hpos raw (hmem raw hin)) hcap
  generalize (sorted.foldl (takeAction settings prices)
    ⟨settings.notionalCapTryPerCycle, []⟩) = turnover at hfinal htaken
  generalize hranked : (turnover.constrained.insertionSort fun a b => LargerBefore a.side
    |a.targetNotionalTry| a.symbol b.side |b.targetNotionalTry| b.symbol) = ranked at hfinal
  have hperm : ranked.Perm turnover.constrained := by
    rw [← hranked]
    exact List.perm_insertionSort _ _
  have hsub : (ranked.take settings.maxOrdersPerCycle.toNat).Sublist ranked :=
    List.take_sublist _ _
  have hin : ∀ action ∈ actions, action ∈ turnover.constrained := fun action haction =>
    hperm.mem_iff.mp (hsub.subset (hfinal.mem_iff.mp haction))
  refine ⟨fun action haction => ?_, ?_, ?_, ?_⟩
  · obtain ⟨raw, hraw, hcut⟩ := htaken.cuts action (hin action haction)
    exact ⟨raw, hmem raw hraw, hcut⟩
  · have hconstrained := hdistinct.sublist htaken.symbols
    exact (hfinal.map _).nodup_iff.mpr
      (((hperm.map _).nodup_iff.mpr hconstrained).sublist (hsub.map _))
  · have hnonneg : ∀ value ∈ ranked.map RebalanceAction.targetNotionalTry, 0 ≤ value := by
      intro value hvalue
      obtain ⟨action, haction, rfl⟩ := List.mem_map.mp hvalue
      obtain ⟨raw, -, hcut⟩ := htaken.cuts action (hperm.mem_iff.mp haction)
      exact hcut.pos.le
    calc (actions.map RebalanceAction.targetNotionalTry).sum
        = ((ranked.take settings.maxOrdersPerCycle.toNat).map
            RebalanceAction.targetNotionalTry).sum := (hfinal.map _).sum_eq
      _ ≤ (ranked.map RebalanceAction.targetNotionalTry).sum := (hsub.map _).sum_le_sum hnonneg
      _ = (turnover.constrained.map RebalanceAction.targetNotionalTry).sum :=
          (hperm.map _).sum_eq
      _ ≤ settings.notionalCapTryPerCycle :=
          (le_add_of_nonneg_right htaken.left).trans htaken.spent
  · rw [hfinal.length_eq]
    exact List.length_take_le _ _

end Constraints

section Plan

variable (settings : Settings) (input : PlanInput)

theorem modeActions_sublist (finalMode : Degrade.Mode) (actions : List RebalanceAction) :
    (modeActions finalMode actions).Sublist actions := by
  cases finalMode with
  | normal => exact List.Sublist.refl _
  | reduceRiskOnly => exact List.filter_sublist
  | observeOnly => exact List.nil_sublist _

/-- The position that a plan starts from. -/
def startPosition (symbol : String) : PositionSnapshot :=
  positionOf (priceMap input.markPricesTry) input.balances (quoteCcy settings) symbol

/-- The limits of a plan: on its targets, on its actions together, and on each of them. -/
structure WithinLimits (plan : PortfolioPlan) : Prop where
  capped : ∀ allocation ∈ plan.allocations, 0 ≤ allocation.targetNotionalTry ∧
    allocation.targetNotionalTry ≤ settings.maxPositionNotionalTry
  investable : (plan.allocations.map TargetAllocation.targetNotionalTry).sum ≤
    investableEquity settings (buildSnapshot settings input)
  orders : plan.actions.length ≤ settings.maxOrdersPerCycle.toNat
  symbols : (plan.actions.map RebalanceAction.symbol).Nodup
  minimum : ∀ action ∈ plan.actions, settings.minOrderNotionalTry ≤ action.targetNotionalTry
  turnover : (plan.actions.map RebalanceAction.targetNotionalTry).sum ≤
    settings.notionalCapTryPerCycle
  sells : ∀ action ∈ plan.actions, action.side = .sell →
    action.estQty ≤ (startPosition settings input action.symbol).qty
  buys : ∀ action ∈ plan.actions, action.side = .buy → ∃ allocation ∈ plan.allocations,
    allocation.symbol = action.symbol ∧
    (startPosition settings input action.symbol).notionalTry + action.targetNotionalTry ≤
      allocation.targetNotionalTry ∧
    ((startPosition settings input action.symbol).qty + action.estQty) *
      (startPosition settings input action.symbol).markPriceTry ≤ allocation.targetNotionalTry

variable {settings input}

/-- An action at the price of its symbol's position is worth no more than its notional. -/
theorem estQty_mark {raw : RawAction} {action : RebalanceAction}
    (h : Cuts settings (priceMap input.markPricesTry) raw action) :
    0 < (startPosition settings input action.symbol).markPriceTry ∧
      action.estQty * (startPosition settings input action.symbol).markPriceTry ≤
        action.targetNotionalTry := by
  obtain ⟨price, hprice, hpos, hworth⟩ := h.qty
  have hmark : (startPosition settings input action.symbol).markPriceTry = price := by
    simp [startPosition, positionOf, hprice]
  rw [hmark]
  exact ⟨hpos, hworth⟩

theorem startPosition_notional (symbol : String) :
    (startPosition settings input symbol).notionalTry =
      (startPosition settings input symbol).qty *
        (startPosition settings input symbol).markPriceTry :=
  positionOf_notional _ _ _ symbol

/-- A cut of an action that sells what is over the target sells no more than is held. -/
theorem sell_held {positions : List PositionSnapshot} {allocation : TargetAllocation}
    {raw : RawAction} {action : RebalanceAction}
    (hcut : Cuts settings (priceMap input.markPricesTry) raw action)
    (hcorrect : Corrects positions allocation raw) (htarget : 0 ≤ allocation.targetNotionalTry)
    (hheld : currentNotional positions allocation.symbol =
      (startPosition settings input allocation.symbol).notionalTry) (hside : action.side = .sell) :
    action.estQty ≤ (startPosition settings input action.symbol).qty := by
  have hsymbol : action.symbol = allocation.symbol := hcut.symbol.trans hcorrect.symbol
  have hdelta := hcorrect.sell (hcut.side.symm.trans hside)
  rw [hheld, ← hsymbol, startPosition_notional] at hdelta
  obtain ⟨hmark, hworth⟩ := estQty_mark hcut
  refine le_of_mul_le_mul_right ?_ hmark
  linarith [hcut.le]

/-- A cut of an action that buys up to the target stays under it. -/
theorem buy_target {positions : List PositionSnapshot} {allocation : TargetAllocation}
    {raw : RawAction} {action : RebalanceAction}
    (hcut : Cuts settings (priceMap input.markPricesTry) raw action)
    (hcorrect : Corrects positions allocation raw)
    (hheld : currentNotional positions allocation.symbol =
      (startPosition settings input allocation.symbol).notionalTry) (hside : action.side = .buy) :
    allocation.symbol = action.symbol ∧
    (startPosition settings input action.symbol).notionalTry + action.targetNotionalTry ≤
      allocation.targetNotionalTry ∧
    ((startPosition settings input action.symbol).qty + action.estQty) *
      (startPosition settings input action.symbol).markPriceTry ≤
        allocation.targetNotionalTry := by
  have hsymbol : action.symbol = allocation.symbol := hcut.symbol.trans hcorrect.symbol
  have hdelta := hcorrect.buy (hcut.side.symm.trans hside)
  rw [hheld, ← hsymbol] at hdelta
  obtain ⟨-, hworth⟩ := estQty_mark hcut
  have hunder : (startPosition settings input action.symbol).notionalTry +
      action.targetNotionalTry ≤ allocation.targetNotionalTry := by linarith [hcut.le]
  refine ⟨hsymbol.symm, hunder, ?_⟩
  rw [add_mul, ← startPosition_notional]
  exact (add_le_add_right hworth _).trans hunder

/-- What a plan allocates, and the actions that this comes to. -/
theorem buildPlan_ok {weights : List (String × ℚ)} {plan : PortfolioPlan}
    (hplan : buildPlan settings input = .ok plan)
    (hweights : getPortfolioTargetWeights settings.portfolioTargets (filteredUniverse input) =
      .ok weights) :
    plan.allocations = buildAllocations settings (filteredUniverse input)
      (investableEquity settings (buildSnapshot settings input)) weights ∧
    plan.actions = modeActions input.finalMode (applyConstraints settings
      (buildRawActions plan.allocations (buildSnapshot settings input).positions)
      (priceMap input.markPricesTry)) := by
  obtain ⟨found, hfound, hplan⟩ := Runs.bind_ok hplan
  obtain rfl := Except.ok.inj (hweights.symm.trans hfound)
  obtain rfl := Except.ok.inj hplan
  exact ⟨rfl, rfl⟩

/-- Target weights that sum to no more than one keep a plan within its limits. -/
theorem plan_within_limits {weights : List (String × ℚ)} {plan : PortfolioPlan}
    (hplan : buildPlan settings input = .ok plan)
    (hweights : getPortfolioTargetWeights settings.portfolioTargets (filteredUniverse input) =
      .ok weights)
    (hsum : totalWeight weights ≤ 1) (hposition : 0 ≤ settings.maxPositionNotionalTry)
    (hturnover : 0 ≤ settings.notionalCapTryPerCycle) :
    WithinLimits settings input plan := by
  obtain ⟨hallocations, hactions⟩ := buildPlan_ok hplan hweights
  have hinvestable : 0 ≤ investableEquity settings (buildSnapshot settings input) :=
    le_max_left 0 _
  obtain ⟨htargets, hinvested, hsymbols⟩ :=
    buildAllocations_ok settings input hposition hinvestable (weights_nonneg hweights) hsum
  rw [← hallocations] at htargets hinvested hsymbols
  have hheld : ∀ allocation ∈ plan.allocations,
      currentNotional (buildSnapshot settings input).positions allocation.symbol =
        (startPosition settings input allocation.symbol).notionalTry :=
    fun allocation hin => currentNotional_snapshot settings input (htargets allocation hin).2.2
  have hcorrects : ∀ raw ∈ buildRawActions plan.allocations
      (buildSnapshot settings input).positions, ∃ allocation ∈ plan.allocations,
      Corrects (buildSnapshot settings input).positions allocation raw :=
    fun raw hraw => buildRawActions_corrects hraw
  obtain ⟨hcuts, hdistinct, hspent, hlength⟩ :=
    applyConstraints_ok settings (priceMap input.markPricesTry)
      (fun raw hraw => (hcorrects raw hraw).elim fun _ h => h.2.pos)
      (buildRawActions_nodup (buildSnapshot settings input).positions hsymbols) hturnover
  have hsub := modeActions_sublist input.finalMode (applyConstraints settings
    (buildRawActions plan.allocations (buildSnapshot settings input).positions)
    (priceMap input.markPricesTry))
  rw [← hactions] at hsub
  constructor
  · exact fun allocation hin => ⟨(htargets allocation hin).1, (htargets allocation hin).2.1⟩
  · exact hinvested
  · exact hsub.length_le.trans hlength
  · exact hdistinct.sublist (hsub.map _)
  · intro action hin
    obtain ⟨raw, -, hcut⟩ := hcuts action (hsub.subset hin)
    exact hcut.min
  · refine ((hsub.map _).sum_le_sum fun value hvalue => ?_).trans hspent
    obtain ⟨action, hin, rfl⟩ := List.mem_map.mp hvalue
    obtain ⟨raw, -, hcut⟩ := hcuts action hin
    exact hcut.pos.le
  · intro action hin hside
    obtain ⟨raw, hraw, hcut⟩ := hcuts action (hsub.subset hin)
    obtain ⟨allocation, hallocation, hcorrect⟩ := hcorrects raw hraw
    exact sell_held hcut hcorrect (htargets allocation hallocation).1
      (hheld allocation hallocation) hside
  · intro action hin hside
    obtain ⟨raw, hraw, hcut⟩ := hcuts action (hsub.subset hin)
    obtain ⟨allocation, hallocation, hcorrect⟩ := hcorrects raw hraw
    exact ⟨allocation, hallocation,
      buy_target hcut hcorrect (hheld allocation hallocation) hside⟩

/-- Cash for two symbols, one of them held over its target. -/
def twoSymbols : PlanInput where
  symbols := ["AAATRY", "BBBTRY"]
  markPricesTry := ⟨[("AAATRY", 100), ("BBBTRY", 100)], by decide⟩
  balances := [⟨"TRY", 1000⟩, ⟨"AAA", 20⟩]
  nowUtc := ⟨0, true⟩

theorem two_symbols_within_limits : ∃ plan, buildPlan {} twoSymbols = .ok plan ∧
    plan.actions.map RebalanceAction.side = [.sell, .buy] ∧ WithinLimits {} twoSymbols plan := by
  have hsides : (buildPlan {} twoSymbols).toOption.map
      (fun plan => plan.actions.map RebalanceAction.side) = some [.sell, .buy] := by decide +kernel
  cases hplan : buildPlan {} twoSymbols with
  | error error =>
    rw [hplan] at hsides
    cases hsides
  | ok plan =>
    rw [hplan] at hsides
    have hweights : getPortfolioTargetWeights none (filteredUniverse twoSymbols) =
        .ok [("AAATRY", 1 / 2), ("BBBTRY", 1 / 2)] := by decide +kernel
    exact ⟨plan, rfl, Option.some.inj hsides, plan_within_limits hplan hweights
      (by decide +kernel) (by decide +kernel) (by decide +kernel)⟩

end Plan

end PlanLimits
