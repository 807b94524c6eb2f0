import Btcbot.PlanFunding

/-!
# What the built orders keep to

The buys of a cycle stay under its cap. What is left of the cap also says whether there is
one, so a buy must never take all of it: the rounding buffer keeps the rest.
-/
namespace BuiltOrders

open PyData PortfolioPolicy OrderBuilder PlanFunding
open AllocationService (Side)

section Cap

variable {exchange : ExchangeRules} {settings : Settings} {input : BuildInput}
  {clientOrderId : ClientOrderId}

theorem resolveRoundingBufferTry_pos (settings : Settings) {rules : SymbolRules} {price : ℚ}
    (hlot : 0 < rules.lotSize) (hprice : 0 < price) :
    0 < resolveRoundingBufferTry settings rules price := by
  unfold resolveRoundingBufferTry
  split
  · next hpos => exact hpos
  · exact lt_max_of_lt_left (mul_pos hprice hlot)

/-- A buy leaves some of the cap. -/
theorem worth_lt_cap
    (hlot : ∀ symbol rules, (exchange symbol).rules = some rules → 0 < rules.lotSize)
    {action : RebalanceAction} (hbuy : action.side = .buy) {capRemaining : ℚ}
    (hcap : 0 < capRemaining) :
    worth exchange settings input capRemaining action < capRemaining := by
  unfold worth
  split
  · next price qty hsize =>
    obtain ⟨rules, hsized⟩ := sizeAction_sized hsize
    have hlimit : capRemaining ∈ upperLimits settings input capRemaining := by
      simp [upperLimits, positive, hcap]
    have hbuffer := resolveRoundingBufferTry_pos settings (hlot _ rules hsized.ruled) hsized.pos.1
    have hspend : max 0 (min action.targetNotionalTry capRemaining) ≤ capRemaining :=
      max_le hcap.le (min_le_right _ _)
    calc price * qty
        ≤ maxSpendAfterBuffers settings input action rules price capRemaining :=
          hsized.notional_le exchange settings hbuy
      _ ≤ max 0 (max 0 (min action.targetNotionalTry capRemaining) -
            resolveRoundingBufferTry settings rules price) :=
          maxSpendAfterBuffers_le settings hlimit action rules price
      _ < capRemaining := max_lt hcap (by linarith)
  · exact hcap

/-- A step takes off the cap what its action adds to the buys. -/
theorem stepAction_cap {progress next : Progress} {action : RebalanceAction}
    (h : stepAction exchange settings input clientOrderId progress action = .ok next)
    (hcap : 0 < progress.buyCycleCapRemaining) :
    next.buyCycleCapRemaining = max 0 (progress.buyCycleCapRemaining -
      if action.side = .buy then
        worth exchange settings input progress.buyCycleCapRemaining action
      else 0) := by
  obtain ⟨intent, hintent, hnext⟩ := Runs.bind_ok h
  obtain rfl := Except.ok.inj hnext
  unfold buildActionIntent at hintent
  unfold worth
  split at hintent
  · next price qty hsize =>
    obtain rfl := Except.ok.inj hintent
    by_cases hbuy : action.side = .buy
    · simp [Progress.add, builtIntent, hsize, hbuy, hcap]
    · simp [Progress.add, builtIntent, hbuy, hcap.le]
  · next reason hsize =>
    obtain rfl := Except.ok.inj hintent
    simp [Progress.add, skippedIntent, hsize, hcap.le]
  · cases hintent

variable (settings) in
/-- Some of the cap is left, and with the buys it comes to the cap. -/
structure Under (progress : Progress) : Prop where
  left : 0 < progress.buyCycleCapRemaining
  whole : notionalOf .buy progress.intents + progress.buyCycleCapRemaining =
    settings.notionalCapTryPerCycle

theorem Under.step
    (hlot : ∀ symbol rules, (exchange symbol).rules = some rules → 0 < rules.lotSize)
    {progress next : Progress} {action : RebalanceAction} (hunder : Under settings progress)
    (h : stepAction exchange settings input clientOrderId progress action = .ok next) :
    Under settings next := by
  have hnext := stepAction_cap h hunder.left
  have hbought := stepAction_notional h .buy
  have hwhole := hunder.whole
  have hspent : 0 < progress.buyCycleCapRemaining -
      if action.side = .buy then
        worth exchange settings input progress.buyCycleCapRemaining action
      else 0 := by
    split
    · next hbuy => exact sub_pos.mpr (worth_lt_cap hlot hbuy hunder.left)
    · simpa using hunder.left
  rw [max_eq_right hspent.le] at hnext
  exact ⟨by rw [hnext]; exact hspent, by rw [hnext, hbought]; linarith⟩

theorem run_under (hcap : 0 < settings.notionalCapTryPerCycle)
    (hlot : ∀ symbol rules, (exchange symbol).rules = some rules → 0 < rules.lotSize)
    {actions : List RebalanceAction} {progress : Progress}
    (h : actions.foldlM (stepAction exchange settings input clientOrderId) (start settings) =
      .ok progress) : Under settings progress := by
  refine Runs.foldlM_ok_induct (f := stepAction exchange settings input clientOrderId)
    (I := fun _ progress => Under settings progress) ?_ _ ⟨hcap, zero_add _⟩ h
  intro _ action progress next hunder hstep
  exact hunder.step hlot hstep

/-- The buys of a cycle come to less than its cap, and after any of its actions some of the
cap is left. -/
theorem buys_within_cap (exchange : ExchangeRules) (settings : Settings) (input : BuildInput)
    (clientOrderId : ClientOrderId) (hcap : 0 < settings.notionalCapTryPerCycle)
    (hrules : ∀ symbol rules, (exchange symbol).rules = some rules →
      0 < rules.tickSize ∧ 0 < rules.lotSize) :
    (∀ intents, buildIntents exchange settings input clientOrderId = .ok intents →
      notionalOf .buy intents ≤ settings.notionalCapTryPerCycle) ∧
    ∀ before after, orderedActions input = before ++ after → ∀ progress,
      before.foldlM (stepAction exchange settings input clientOrderId) (start settings) =
        .ok progress →
      0 < progress.buyCycleCapRemaining ∧
        notionalOf .buy progress.intents + progress.buyCycleCapRemaining =
          settings.notionalCapTryPerCycle := by
  have hlot : ∀ symbol rules, (exchange symbol).rules = some rules → 0 < rules.lotSize :=
    fun symbol rules h => (hrules symbol rules h).2
  constructor
  · intro intents h
    obtain ⟨final, hrun, rfl⟩ := buildIntents_run h
    have hunder := run_under hcap hlot hrun
    exact le_of_lt (lt_of_lt_of_eq (lt_add_of_pos_right _ hunder.left) hunder.whole)
  · intro before after _ progress hrun
    have hunder := run_under hcap hlot hrun
    exact ⟨hunder.left, hunder.whole⟩

/-- Two buys of a hundred under a cap of a hundred and fifty. -/
def cappedInput : BuildInput where
  cycleId := "c"
  plan :=
    { timestamp := ⟨0, true⟩
      symbols := ["BBBTRY", "CCCTRY"]
      cashTargetTry := 0
      allocations := []
      actions := ["BBBTRY", "CCCTRY"].map fun symbol =>
        ⟨symbol, .buy, 100, 1, ⟨false, 0, 100, none⟩⟩
      snapshot := none
      balances := [] }
  markPricesTry := ⟨[("BBBTRY", 100), ("CCCTRY", 100)], by decide⟩
  finalMode := .normal

theorem capped_buys_within_cap :
    (0 < (150 : ℚ) ∧ ∀ symbol rules, (heldRules symbol).rules = some rules →
      0 < rules.tickSize ∧ 0 < rules.lotSize) ∧
    (∀ intents, buildIntents heldRules { notionalCapTryPerCycle := 150 } cappedInput
        (fun _ _ _ _ _ _ => "") = .ok intents → notionalOf .buy intents ≤ 150) ∧
    ∀ before after, orderedActions cappedInput = before ++ after → ∀ progress,
      before.foldlM (stepAction heldRules { notionalCapTryPerCycle := 150 } cappedInput
        fun _ _ _ _ _ _ => "") (start { notionalCapTryPerCycle := 150 }) = .ok progress →
      0 < progress.buyCycleCapRemaining ∧
        notionalOf .buy progress.intents + progress.buyCycleCapRemaining = 150 := by
  have hrules : ∀ symbol rules, (heldRules symbol).rules = some rules →
      0 < rules.tickSize ∧ 0 < rules.lotSize := by
    intro symbol rules h
    unfold heldRules at h
    split at h
    · cases h
    · obtain rfl := Option.some.inj h
      norm_num
  exact ⟨⟨by norm_num, hrules⟩, buys_within_cap heldRules { notionalCapTryPerCycle := 150 }
    cappedInput (fun _ _ _ _ _ _ => "") (by norm_num) hrules⟩

end Cap

section Valid

open Grid (OnGrid)

theorem limitPrice_onGrid {settings : Settings} {action : RebalanceAction} {rules : SymbolRules}
    {mark price : ℚ} (h : limitPrice settings action rules mark = .ok price)
    (htick : 0 < rules.tickSize) : OnGrid rules.tickSize price := by
  obtain ⟨quantized, hquantized, hprice⟩ := Runs.bind_ok h
  unfold quantizePrice at hquantized
  split at hquantized
  · cases hquantized
  · obtain rfl := Except.ok.inj hquantized
    split at hprice
    · cases hprice
    · obtain rfl := Except.ok.inj hprice
      exact (Money.quantizeToStep_onGrid_iff _ _ _).mpr fun h => absurd htick (not_lt.mpr h)

theorem quantizeQty_onGrid {rules : SymbolRules} (hlot : 0 < rules.lotSize) (qty : ℚ) :
    OnGrid rules.lotSize (quantizeQty rules qty) :=
  (Money.quantizeToStep_onGrid_iff _ _ _).mpr fun h => absurd hlot (not_lt.mpr h)

theorem buyQty_onGrid {settings : Settings} {input : BuildInput} {action : RebalanceAction}
    {rules : SymbolRules} {price capRemaining qty : ℚ} (hlot : 0 < rules.lotSize)
    (h : buyQty settings input action rules price capRemaining = .ok qty) :
    OnGrid rules.lotSize qty := by
  simp only [buyQty] at h
  split at h
  · cases h
  · split at h
    · obtain rfl := Except.ok.inj h
      exact quantizeQty_onGrid hlot _
    · obtain rfl := Except.ok.inj h
      exact OnGrid.zero _

/-- A sell is what is wanted or held, rounded down: no more than is held. -/
theorem resolveSellQty_ok {input : BuildInput} {action : RebalanceAction} {symbol : String}
    {rules : SymbolRules} {price qty : ℚ}
    (h : resolveSellQty input action symbol rules price = .ok qty) :
    (0 < rules.lotSize → OnGrid rules.lotSize qty) ∧
      ∃ base, resolveBaseAssetForInventory symbol = some base ∧
        qty ≤ (KeyedTable.get? input.plan.balances base).getD 0 := by
  unfold resolveSellQty at h
  split at h
  · cases h
  · next base hbase =>
    simp only at h
    split at h
    · cases h
    · next hheld =>
      generalize (if action.estQty ≤ 0 ∧ 0 < price then action.targetNotionalTry / price
        else action.estQty) = desired at h
      split at h
      · cases h
      · next hdesired =>
        obtain rfl := Except.ok.inj h
        refine ⟨fun hlot => quantizeQty_onGrid hlot _, base, hbase, ?_⟩
        have hbalance : max 0 ((KeyedTable.get? input.plan.balances base).getD 0) =
            (KeyedTable.get? input.plan.balances base).getD 0 := by
          refine max_eq_right (not_lt.mp fun hneg => hheld ?_)
          rw [max_eq_left hneg.le]
        rw [hbalance] at hheld ⊢
        have hleast := le_min (not_le.mp hdesired).le (not_le.mp hheld).le
        exact (quantizeQty_le rules hleast).trans (min_le_right _ _)

theorem checkOrder_bounds {settings : Settings} {side : Side} {rules : SymbolRules}
    {price qty : ℚ} (h : checkOrder settings side rules price qty = .ok ()) :
    (∀ least ∈ rules.minQty, least ≤ qty) ∧ (∀ most ∈ rules.maxQty, qty ≤ most) ∧
      rules.minNotionalTry ≤ price * qty := by
  unfold checkOrder at h
  split at h
  · cases h
  split at h
  · cases h
  split at h
  · cases h
  split at h
  · cases h
  split at h
  · cases h
  · next hleast hworth _ _ hvalid =>
    have hmost : ¬ rules.maxQty.any (· < qty) = true := by
      intro hmax
      grind [validateNotional]
    refine ⟨fun least hin => ?_, fun most hin => ?_, not_lt.mp hworth⟩
    · rw [Option.mem_def.mp hin] at hleast
      simpa using hleast
    · rw [Option.mem_def.mp hin] at hmost
      simpa using hmost

/-- What a built order keeps to besides the grid of its rules. -/
structure WithinRules (input : BuildInput) (rules : SymbolRules) (intent : OrderIntent) : Prop where
  minQty : ∀ least ∈ rules.minQty, least ≤ intent.qty
  maxQty : ∀ most ∈ rules.maxQty, intent.qty ≤ most
  minNotional : rules.minNotionalTry ≤ intent.priceTry * intent.qty
  notional : intent.notionalTry = intent.priceTry * intent.qty
  held : intent.side = .sell → ∃ base, resolveBaseAssetForInventory intent.symbol = some base ∧
    intent.qty ≤ (KeyedTable.get? input.plan.balances base).getD 0

variable {exchange : ExchangeRules} {settings : Settings} {input : BuildInput}
  {clientOrderId : ClientOrderId}

theorem buildActionIntent_valid {capRemaining : ℚ} {action : RebalanceAction}
    {intent : OrderIntent}
    (h : buildActionIntent exchange settings input clientOrderId capRemaining action = .ok intent)
    (hbuilt : intent.skipped = false) :
    ∃ rules, (exchange intent.symbol).rules = some rules ∧
      (0 < rules.tickSize → OnGrid rules.tickSize intent.priceTry) ∧
      (0 < rules.lotSize → OnGrid rules.lotSize intent.qty) ∧ WithinRules input rules intent := by
  unfold buildActionIntent at h
  split at h
  · next price qty hsize =>
    obtain rfl := Except.ok.inj h
    obtain ⟨rules, hsized⟩ := sizeAction_sized hsize
    obtain ⟨mark, -, hprice⟩ := hsized.priced
    obtain ⟨hleast, hmost, hworth⟩ := checkOrder_bounds hsized.checked
    have hqty := hsized.sized
    unfold actionQty at hqty
    refine ⟨rules, hsized.ruled, limitPrice_onGrid hprice, ?_, hleast, hmost, hworth, rfl, ?_⟩
    · intro hlot
      split at hqty
      · exact buyQty_onGrid hlot hqty
      · exact (resolveSellQty_ok hqty).1 hlot
    · intro hsell
      have hside : action.side = .sell := hsell
      rw [hside] at hqty
      exact (resolveSellQty_ok hqty).2
  · obtain rfl := Except.ok.inj h
    cases hbuilt
  · cases h

/-- Where tick and lot are positive a built order is on their grid, and it is within the rules. -/
theorem built_valid (exchange : ExchangeRules) (settings : Settings) (input : BuildInput)
    (clientOrderId : ClientOrderId) :
    ∀ intents, buildIntents exchange settings input clientOrderId = .ok intents →
      ∀ intent ∈ intents, intent.skipped = false →
        ∃ rules, (exchange intent.symbol).rules = some rules ∧
          (0 < rules.tickSize → OnGrid rules.tickSize intent.priceTry) ∧
          (0 < rules.lotSize → OnGrid rules.lotSize intent.qty) ∧
          WithinRules input rules intent := by
  intro intents h
  obtain ⟨final, hrun, rfl⟩ := buildIntents_run h
  have hfrom : ∀ intent ∈ final.intents, ∃ capRemaining action,
      buildActionIntent exchange settings input clientOrderId capRemaining action =
        .ok intent := by
    refine Runs.foldlM_ok_induct (f := stepAction exchange settings input clientOrderId)
      (I := fun _ progress => ∀ intent ∈ progress.intents, ∃ capRemaining action,
        buildActionIntent exchange settings input clientOrderId capRemaining action =
          .ok intent) ?_ _ (fun _ hin => by cases hin) hrun
    intro _ action progress next hprogress hstep intent hin
    obtain ⟨built, hbuilt, hnext⟩ := Runs.bind_ok hstep
    obtain rfl := Except.ok.inj hnext
    rcases List.mem_append.mp hin with hin | hin
    · exact hprogress intent hin
    · obtain rfl := List.mem_singleton.mp hin
      exact ⟨_, action, hbuilt⟩
  intro intent hin hbuilt
  obtain ⟨capRemaining, action, hintent⟩ := hfrom intent hin
  exact buildActionIntent_valid hintent hbuilt

/-- What the two buys come to, each rounded to its grid and less the fees. -/
def builtBuy (symbol : String) : OrderIntent where
  cycleId := "c"
  symbol
  side := .buy
  priceTry := 1999 / 20
  qty := 99849923 / 10 ^ 8
  notionalTry := 199599996077 / (2 * 10 ^ 9)
  clientOrderId := ""
  reason := ⟨false, 0, 100, none⟩

theorem capped_valid :
    ∃ rules, (heldRules "BBBTRY").rules = some rules ∧
      (0 < rules.tickSize → OnGrid rules.tickSize (builtBuy "BBBTRY").priceTry) ∧
      (0 < rules.lotSize → OnGrid rules.lotSize (builtBuy "BBBTRY").qty) ∧
      WithinRules cappedInput rules (builtBuy "BBBTRY") :=
  built_valid heldRules {} cappedInput (fun _ _ _ _ _ _ => "")
    [builtBuy "BBBTRY", builtBuy "CCCTRY"] (by decide +kernel) (builtBuy "BBBTRY")
    List.mem_cons_self rfl

/-- Fallback rules whose tick is configured to be zero. -/
def ticklessRules : ExchangeRules := fun _ =>
  ⟨"fallback", some
    { tickSize := 0
      lotSize := 1 / 10 ^ 8
      minNotionalTry := 10
      lotSize_nonneg := satoshi_nonneg }⟩

theorem tickless_off_grid :
    ¬ ∀ (exchange : ExchangeRules) (settings : Settings) (input : BuildInput)
        (clientOrderId : ClientOrderId) (intents : List OrderIntent),
      buildIntents exchange settings input clientOrderId = .ok intents →
        ∀ intent ∈ intents, intent.skipped = false →
          ∃ rules, (exchange intent.symbol).rules = some rules ∧
            OnGrid rules.tickSize intent.priceTry ∧ OnGrid rules.lotSize intent.qty ∧
            WithinRules input rules intent := by
  intro h
  have hbuilt : (buildIntents ticklessRules {} cappedInput fun _ _ _ _ _ _ => "").toOption.any
      (fun intents => intents.any fun intent =>
        intent.skipped = false && intent.priceTry = 9995 / 100) = true := by decide +kernel
  cases hintents : buildIntents ticklessRules {} cappedInput fun _ _ _ _ _ _ => "" with
  | error message =>
    rw [hintents] at hbuilt
    cases hbuilt
  | ok intents =>
    rw [hintents] at hbuilt
    obtain ⟨intent, hin, hintent⟩ := List.any_eq_true.mp hbuilt
    obtain ⟨hskipped, hprice⟩ := Bool.and_eq_true_iff.mp hintent
    obtain ⟨rules, hrules, ⟨n, hn⟩, -⟩ :=
      h _ _ _ _ intents hintents intent hin (of_decide_eq_true hskipped)
    obtain rfl := Option.some.inj hrules
    rw [of_decide_eq_true hprice, mul_zero] at hn
    norm_num at hn

end Valid

end BuiltOrders
