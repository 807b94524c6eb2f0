import Btcbot.CycleCap
import Btcbot.RiskPolicy
import Btcbot.SubmittedRow

/-!
# The size of what a submit action sends

Price and quantity are rounded down, and a quantity that this takes under the minimum
notional is rounded up instead: over what the action holds, which a SELL must not send. The
filter before the execution takes the same decision.
-/
namespace SubmitSizing

open PyData Stage4Execute Stage4Submit SubmittedRow
open Stage4Gate (made)
open CycleCap (gridStep_pos quantizeQty_le)
open DecisionPipeline (PairInfo buildExchangeRules pairInfoBySymbol)
open Grid (OnGrid)

section Sizing

def minRequired (settings : Settings) (rules : ExchangeRules) : ℚ :=
  max settings.minOrderNotionalTry rules.minNotionalTry

/-- The grid of quantities, which the unit of the precision is without a step. -/
abbrev qtyStep (rules : ExchangeRules) : ℚ := gridStep rules.stepSize rules.qtyPrecision

abbrev priceTick (rules : ExchangeRules) : ℚ := gridStep rules.tickSize rules.pricePrecision

def isSell (action : LifecycleAction) : Bool := action.side.toUpper = "SELL"

variable {settings : Settings} {rules : ExchangeRules} {action : LifecycleAction} {price qty : ℚ}

theorem sizeSubmit_sized (h : sizeSubmit settings rules action = .sized price qty) :
    0 < action.qty ∧ price = quantizePrice action.price rules ∧
      qty = sizedQty (minRequired settings rules) price action rules ∧
      minRequired settings rules ≤ price * qty ∧
      ∀ cap ∈ settings.riskMaxOrderNotionalTry, 0 < cap → price * qty ≤ cap := by
  unfold sizeSubmit at h
  split at h
  · cases h
  split at h
  · cases h
  next hheld =>
  simp only at h
  split at h
  · cases h
  next hmin =>
    have hworth := not_lt.mp hmin
    split at h
    · next hcap =>
      obtain ⟨rfl, rfl⟩ := Sizing.sized.inj h
      exact ⟨not_le.mp hheld, rfl, rfl, hworth, by simp [hcap]⟩
    · next cap hcap =>
      split at h
      · cases h
      · next hunder =>
        obtain ⟨rfl, rfl⟩ := Sizing.sized.inj h
        refine ⟨not_le.mp hheld, rfl, rfl, hworth, fun other hother hpos => ?_⟩
        obtain rfl := Option.some.inj (hcap.symm.trans (Option.mem_def.mp hother))
        exact not_lt.mp fun hover => hunder ⟨hpos, hover⟩

/-- A sized quantity is the action's rounded down, or one raised to the minimum. -/
theorem sizedQty_cases (minRequired price : ℚ) (action : LifecycleAction)
    (rules : ExchangeRules) :
    sizedQty minRequired price action rules = quantizeQty action.qty rules ∨
      (price * quantizeQty action.qty rules < minRequired ∧ 0 < price ∧
        sizedQty minRequired price action rules = quantizeQtyUp (minRequired / price) rules ∧
        minRequired ≤ price * quantizeQtyUp (minRequired / price) rules) := by
  simp only [sizedQty]
  split
  · next hraise =>
    split
    · next hmeets => exact .inr ⟨hraise.1, hraise.2.2, rfl, hmeets⟩
    · exact .inl rfl
  · exact .inl rfl

theorem quantizeQty_onGrid (qty : ℚ) (rules : ExchangeRules) :
    OnGrid (qtyStep rules) (quantizeQty qty rules) := ⟨_, rfl⟩

theorem quantizeQtyUp_onGrid (qty : ℚ) (rules : ExchangeRules) :
    OnGrid (qtyStep rules) (quantizeQtyUp qty rules) := by
  unfold quantizeQtyUp
  split
  · exact OnGrid.zero _
  · exact ⟨_, rfl⟩

theorem quantizeQtyUp_least {needed other : ℚ} (hneeded : 0 < needed)
    (hgrid : OnGrid (qtyStep rules) other) (h : needed ≤ other) :
    quantizeQtyUp needed rules ≤ other := by
  rw [quantizeQtyUp, if_neg (not_le.mpr hneeded)]
  exact Grid.snap_ceil_le (gridStep_pos _ _) hgrid h

variable (settings rules action price qty) in
/-- What is sent is on the grid, between the minimum and the cap; a raised quantity is the
least that meets the minimum, and a SELL sends no more than it has. -/
structure SizedWell : Prop where
  tick : OnGrid (priceTick rules) price
  step : OnGrid (qtyStep rules) qty
  min : minRequired settings rules ≤ price * qty
  cap : ∀ cap ∈ settings.riskMaxOrderNotionalTry, 0 < cap → price * qty ≤ cap
  least : quantizeQty action.qty rules < qty → ∀ other, OnGrid (qtyStep rules) other →
    minRequired settings rules ≤ price * other → qty ≤ other
  sell : isSell action → qty ≤ action.qty

/-- Rounded up, a quantity is over the action's own. -/
theorem raised_over (hpos : 0 ≤ price) (hunder : price * quantizeQty action.qty rules <
    minRequired settings rules) (hgrid : OnGrid (qtyStep rules) qty)
    (hmeets : minRequired settings rules ≤ price * qty) : action.qty < qty := by
  refine not_le.mp fun hle => ?_
  have hfloor : qty ≤ quantizeQty action.qty rules :=
    Grid.le_snap_floor (gridStep_pos _ _) hgrid hle
  exact absurd (hmeets.trans (mul_le_mul_of_nonneg_left hfloor hpos)) (not_le.mpr hunder)

/-- A sized submission is well sized exactly if a SELL meets the minimum rounded down. -/
theorem sizedWell_iff (h : sizeSubmit settings rules action = .sized price qty) :
    SizedWell settings rules action price qty ↔ (isSell action →
      minRequired settings rules ≤
        quantizePrice action.price rules * quantizeQty action.qty rules) := by
  obtain ⟨hheld, hprice, hqty, hmin, hcap⟩ := sizeSubmit_sized h
  have htick : OnGrid (priceTick rules) price := by
    rw [hprice]
    exact ⟨_, rfl⟩
  rw [← hprice]
  rcases sizedQty_cases (minRequired settings rules) price action rules with hfloor | hraised
  · rw [hfloor] at hqty
    subst hqty
    refine iff_of_true ⟨htick, quantizeQty_onGrid _ _, hmin, hcap, fun hlt => ?_, fun _ => ?_⟩
      fun _ => hmin
    · exact absurd hlt (lt_irrefl _)
    · exact quantizeQty_le rules _
  · obtain ⟨hunder, hpos, hsized, hmeets⟩ := hraised
    rw [hsized] at hqty
    subst hqty
    have hover := raised_over hpos.le hunder (quantizeQtyUp_onGrid _ _) hmeets
    constructor
    · exact fun hwell hsell => absurd (hwell.sell hsell) (not_le.mpr hover)
    · intro hsell
      refine ⟨htick, quantizeQtyUp_onGrid _ _, hmeets, hcap, fun _ other hgrid hother => ?_,
        fun hside => absurd (hsell hside) (not_le.mpr hunder)⟩
      have hfloor : 0 ≤ quantizeQty action.qty rules :=
        Grid.isRounding_floor.snap_nonneg (gridStep_pos _ _) hheld.le
      have hneeded : 0 < minRequired settings rules / price :=
        div_pos ((mul_nonneg hpos.le hfloor).trans_lt hunder) hpos
      refine quantizeQtyUp_least hneeded hgrid ?_
      rwa [div_le_iff₀' hpos]

end Sizing

section Prefilter

/-- What the runner's filter leaves of an action: nothing when its notional stays under the
minimum. -/
def prefilterAction (pairs : Dict PairInfo) (minOrderNotionalTry : ℚ)
    (action : RiskPolicy.LifecycleAction) : Except String (Option RiskPolicy.LifecycleAction) :=
  if action.actionType ≠ .submit then .ok (some action)
  else match pairs[normalizeSymbol action.symbol]? with
    | none => .ok (some action)
    | some pair =>
      let rules := buildExchangeRules pair
      if action.price ≤ 0 then .error "price must be > 0"
      else if action.qty ≤ 0 then .error "qty must be > 0"
      else
        let price := quantizePrice action.price rules
        let qty := quantizeQty action.qty rules
        let minRequired := max minOrderNotionalTry rules.minNotionalTry
        if price * qty < minRequired then
          if minRequired ≤ action.price * action.qty ∧ 0 < price then
            let rescued := quantizeQtyUp (minRequired / price) rules
            if minRequired ≤ price * rescued then
              .ok (some { action with price := price, qty := rescued })
            else .ok none
          else .ok none
        else .ok (some action)

structure Prefiltered where
  filtered : List RiskPolicy.LifecycleAction := []
  dropped : ℕ := 0

def prefilterStep (pairs : Dict PairInfo) (minOrderNotionalTry : ℚ) (progress : Prefiltered)
    (action : RiskPolicy.LifecycleAction) : Except String Prefiltered := do
  let left ← prefilterAction pairs minOrderNotionalTry action
  match left with
  | some action => return { progress with filtered := progress.filtered ++ [action] }
  | none => return { progress with dropped := progress.dropped + 1 }

def prefilterSubmitActionsMinNotional (actions : List RiskPolicy.LifecycleAction)
    (pairInfo : Option (List PairInfo)) (minOrderNotionalTry : ℚ) : Except String Prefiltered :=
  actions.foldlM (prefilterStep (pairInfoBySymbol pairInfo) minOrderNotionalTry) {}

variable (settings : Settings) (pairInfo : Option (List PairInfo))

/-- The execution would reject the action for its notional, under the rules of its pair. -/
def RejectedForMin (action : RiskPolicy.LifecycleAction) : Prop :=
  action.actionType = .submit ∧
    ∃ pair, (pairInfoBySymbol pairInfo)[normalizeSymbol action.symbol]? = some pair ∧
      ∃ price qty, sizeSubmit settings (buildExchangeRules pair) action.toLifecycleAction =
        .rejected "min_notional_violation" price qty true

/-- The filter drops the actions that would be rejected for their notional, and counts them. -/
def FiltersRejected (actions : List RiskPolicy.LifecycleAction) (result : Prefiltered) : Prop :=
  ∃ left : List (Option RiskPolicy.LifecycleAction),
    List.Forall₂ (fun action outcome => outcome = none ↔ RejectedForMin settings pairInfo action)
      actions left ∧
    result.filtered = left.filterMap id ∧ result.dropped = left.count none

theorem sizedQty_under_iff (minRequired price : ℚ) (action : LifecycleAction)
    (rules : ExchangeRules) :
    price * sizedQty minRequired price action rules < minRequired ↔
      price * quantizeQty action.qty rules < minRequired ∧
        ¬ ((minRequired ≤ action.price * action.qty ∧ 0 < price) ∧
          minRequired ≤ price * quantizeQtyUp (minRequired / price) rules) := by
  simp only [sizedQty]
  split
  · next hraise =>
    obtain ⟨hunder, hintent⟩ := hraise
    split
    · next hmeets => exact iff_of_false (not_lt.mpr hmeets) fun h => h.2 ⟨hintent, hmeets⟩
    · next hshort => exact iff_of_true hunder ⟨hunder, fun h => hshort h.2⟩
  · next hkept =>
    exact ⟨fun hunder => ⟨hunder, fun h => hkept ⟨hunder, h.1⟩⟩, fun h => h.1⟩

theorem sizeSubmit_rejected_iff (rules : ExchangeRules) {action : LifecycleAction}
    (hprice : 0 < action.price) (hqty : 0 < action.qty) :
    (∃ price qty, sizeSubmit settings rules action =
        .rejected "min_notional_violation" price qty true) ↔
      quantizePrice action.price rules * sizedQty (minRequired settings rules)
        (quantizePrice action.price rules) action rules < minRequired settings rules := by
  unfold sizeSubmit
  rw [if_neg (not_le.mpr hprice), if_neg (not_le.mpr hqty)]
  dsimp only
  split
  · next hunder => exact iff_of_true ⟨_, _, rfl⟩ hunder
  · next hmeets =>
    refine iff_of_false ?_ hmeets
    rintro ⟨price, qty, h⟩
    split at h
    · cases h
    · split at h
      · obtain ⟨-, -, -, hflag⟩ := Sizing.rejected.inj h
        cases hflag
      · cases h

theorem prefilterAction_drops {action : RiskPolicy.LifecycleAction}
    {left : Option RiskPolicy.LifecycleAction}
    (h : prefilterAction (pairInfoBySymbol pairInfo) settings.minOrderNotionalTry action =
      .ok left) : left = none ↔ RejectedForMin settings pairInfo action := by
  unfold prefilterAction at h
  split at h
  · next hother =>
    obtain rfl := Except.ok.inj h
    exact iff_of_false nofun fun hrejected => hother hrejected.1
  next hsubmit =>
    split at h
    · next hmissing =>
      obtain rfl := Except.ok.inj h
      refine iff_of_false nofun fun hrejected => ?_
      obtain ⟨-, pair, hpair, -⟩ := hrejected
      rw [hmissing] at hpair
      cases hpair
    next pair hpair =>
      simp only at h
      split at h
      · cases h
      next hprice =>
      split at h
      · cases h
      next hqty =>
      have hrejected : RejectedForMin settings pairInfo action ↔ _ :=
        ⟨fun ⟨_, other, hother, hsize⟩ => by
            obtain rfl := Option.some.inj (hpair.symm.trans hother)
            exact hsize,
          fun hsize => ⟨not_not.mp hsubmit, pair, hpair, hsize⟩⟩
      rw [hrejected, sizeSubmit_rejected_iff settings (buildExchangeRules pair)
        (not_le.mp hprice) (not_le.mp hqty), sizedQty_under_iff]
      split at h
      · next hunder =>
        split at h
        · next hintent =>
          split at h
          · next hmeets =>
            obtain rfl := Except.ok.inj h
            exact iff_of_false nofun fun hshort => hshort.2 ⟨hintent, hmeets⟩
          · next hshort =>
            obtain rfl := Except.ok.inj h
            exact iff_of_true rfl ⟨hunder, fun hrescue => hshort hrescue.2⟩
        · next hintent =>
          obtain rfl := Except.ok.inj h
          exact iff_of_true rfl ⟨hunder, fun hrescue => hintent hrescue.1⟩
      · next hmeets =>
        obtain rfl := Except.ok.inj h
        exact iff_of_false nofun fun hshort => hmeets hshort.1

theorem prefilter_rejects {actions : List RiskPolicy.LifecycleAction} {result : Prefiltered}
    (h : prefilterSubmitActionsMinNotional actions pairInfo settings.minOrderNotionalTry =
      .ok result) : FiltersRejected settings pairInfo actions result := by
  refine Runs.foldlM_ok_induct
    (f := prefilterStep (pairInfoBySymbol pairInfo) settings.minOrderNotionalTry)
    (I := FiltersRejected settings pairInfo) ?_ actions ⟨[], .nil, rfl, rfl⟩ h
  rintro taken action before after ⟨left, hleft, hfiltered, hdropped⟩ hstep
  obtain ⟨outcome, houtcome, hafter⟩ := Runs.bind_ok hstep
  have hdrops := prefilterAction_drops settings pairInfo houtcome
  refine ⟨left ++ [outcome], List.rel_append hleft (.cons hdrops .nil), ?_⟩
  cases outcome with
  | some other =>
    obtain rfl := Except.ok.inj hafter
    simp [List.filterMap_append, hfiltered, hdropped]
  | none =>
    obtain rfl := Except.ok.inj hafter
    simp [List.filterMap_append, hfiltered, hdropped]

end Prefilter

section Reach

variable (env : Env) (settings : Settings) (replaces : Option Replaces) (action : LifecycleAction)
  (live : Bool) (w : World)

/-- The exchange calls of a submit action. -/
abbrev sent : List Entry := made (executeSubmitAction env settings replaces action live) w

/-- Every call sends an order that is well sized under the rules read, and the filter drops what
sizing would reject. -/
def SizesWell : Prop :=
  (∀ entry ∈ sent env settings replaces action live w,
    ∃ replaces clientOrderId order answer rules,
      entry.call = .submit replaces clientOrderId order answer ∧
      env.rules (w.ticks + 2) action.symbol = .found rules ∧
      SizedWell settings rules action order.price order.qty) ∧
  ∀ pairInfo actions result,
    prefilterSubmitActionsMinNotional actions pairInfo settings.minOrderNotionalTry =
      .ok result → FiltersRejected settings pairInfo actions result

variable {env settings replaces action live w}

theorem sizedOrder_some {price qty : ℚ} (h : sizedOrder env settings action w = some (price, qty)) :
    ∃ rules, env.rules (w.ticks + 2) action.symbol = .found rules ∧
      sizeSubmit settings rules action = .sized price qty := by
  unfold sizedOrder at h
  split at h
  · next rules hrules =>
    split at h
    · next hsized =>
      cases h
      exact ⟨rules, hrules, hsized⟩
    · cases h
  · cases h

/-- The calls of a submit action are all of one order, sized under the rules read. -/
theorem sent_sized (h : sent env settings replaces action live w ≠ []) :
    ∃ clientOrderId order rules, env.rules (w.ticks + 2) action.symbol = .found rules ∧
      sizeSubmit settings rules action = .sized order.price order.qty ∧
      ∀ entry ∈ sent env settings replaces action live w, ∃ answer,
        entry.call = .submit replaces clientOrderId order answer := by
  rcases @made_submit env settings replaces action live w with hnone | ⟨s, result, hsent, hmade⟩
  · exact absurd hnone h
  · obtain ⟨rules, hrules, hsized⟩ := sizedOrder_some hsent.sized
    refine ⟨s.clientOrderId, s.order, rules, hrules, hsized, fun entry hentry => ?_⟩
    rw [sent, hmade] at hentry
    obtain ⟨given, -, rfl⟩ := List.mem_map.mp hentry
    exact ⟨given, rfl⟩

/-- A submit action is well sized exactly if it makes no call, or is no SELL, or meets the
minimum with its quantity rounded down. -/
theorem submit_sizing_iff (env : Env) (settings : Settings) (replaces : Option Replaces)
    (action : LifecycleAction) (live : Bool) (w : World) :
    SizesWell env settings replaces action live w ↔
      (sent env settings replaces action live w ≠ [] → isSell action →
        ∀ rules, env.rules (w.ticks + 2) action.symbol = .found rules →
          minRequired settings rules ≤
            quantizePrice action.price rules * quantizeQty action.qty rules) := by
  constructor
  · rintro ⟨hwell, -⟩ hreaches hsell rules hrules
    obtain ⟨clientOrderId, order, found, hfound, hsized, hcalls⟩ := sent_sized hreaches
    obtain rfl := RulesRead.found.inj (hrules.symm.trans hfound)
    obtain ⟨entry, hentry⟩ := List.exists_mem_of_ne_nil _ hreaches
    obtain ⟨answer, hcall⟩ := hcalls entry hentry
    obtain ⟨_, _, other, _, read, hother, hread, hsizedWell⟩ := hwell entry hentry
    obtain rfl := RulesRead.found.inj (hrules.symm.trans hread)
    obtain ⟨-, -, rfl, -⟩ := Call.submit.inj (hcall.symm.trans hother)
    exact (sizedWell_iff hsized).mp hsizedWell hsell
  · refine fun h => ⟨fun entry hentry => ?_, fun pairInfo _ _ => prefilter_rejects settings pairInfo⟩
    have hreaches := List.ne_nil_of_mem hentry
    obtain ⟨clientOrderId, order, rules, hrules, hsized, hcalls⟩ := sent_sized hreaches
    obtain ⟨answer, hcall⟩ := hcalls entry hentry
    exact ⟨_, _, order, _, rules, hcall, hrules,
      (sizedWell_iff hsized).mpr fun hsell => h hreaches hsell rules hrules⟩

/-- A tenth of a unit is too little at 99.9, so a SELL of 0.101 sends 0.11. -/
def shortSell : LifecycleAction :=
  { sampleAction .submit "plan" "c1" with side := "sell", price := 999 / 10, qty := 101 / 1000 }

def shortRules : ExchangeRules where
  tickSize := 1 / 10
  stepSize := 1 / 100
  minNotionalTry := 10
  pricePrecision := 8
  qtyPrecision := 8

def shortEnv : Env := { sampleEnv (.ok "ex") (.ok true) with rules := fun _ _ => .found shortRules }

theorem sell_raised_over_holding :
    ¬ ∀ (env : Env) (settings : Settings) (replaces : Option Replaces) (action : LifecycleAction)
        (live : Bool) (w : World), SizesWell env settings replaces action live w := by
  intro h
  have hqty : ((sent shortEnv sampleSettings none shortSell true (sampleWorld [])).filterMap
      placed).map (fun sent => sent.2.qty) = [11 / 100] := by
    decide +kernel
  obtain ⟨⟨id, order⟩, hplaced, horderQty⟩ :=
    List.mem_map.mp (hqty ▸ List.mem_singleton_self ((11 : ℚ) / 100))
  obtain ⟨entry, hentry, horder⟩ := List.mem_filterMap.mp hplaced
  obtain ⟨_, _, other, answer, rules, hcall, -, hwell⟩ :=
    (h shortEnv sampleSettings none shortSell true (sampleWorld [])).1 entry hentry
  rw [placed, hcall] at horder
  cases answer with
  | error exc => cases horder
  | ok exchangeOrderId =>
    cases horder
    have hheld := hwell.sell (by decide +kernel)
    rw [horderQty] at hheld
    exact absurd hheld (by decide +kernel)

end Reach

end SubmitSizing
