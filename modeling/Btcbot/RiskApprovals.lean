import Btcbot.Stage3Risk

/-!
# What the stage 3 risk policy approves

The running total is the sum of the approved notional, so the cap of the cycle holds of
every list. The cash bound and the bound on open orders hold as far as the gates look at
what this cycle has approved, and the minimum notional as far as no cap cuts below it.
-/
namespace RiskApprovals

open PyData (normalizeSymbol)
open Stage3Intent (Intent)
open Stage3Risk
open Grid (OnGrid)
open Money (roundPrice roundQty)

variable (policy : RiskPolicy) (context : RiskPolicyContext)

/-- An intent is approved and added up, or blocked and noted. -/
theorem step_cases (s : Loop) (intent : Intent) :
    (∃ approved rules limitPrice,
      judge policy context s.index s.usedNotional intent = .ok approved ∧
      Approval policy context s.usedNotional intent approved rules limitPrice ∧
      (step policy context s intent).usedNotional = s.usedNotional + notionalOf approved ∧
      (step policy context s intent).approved = s.approved ++ [approved]) ∨
    ((∃ reason, judge policy context s.index s.usedNotional intent = .error reason) ∧
      (step policy context s intent).usedNotional = s.usedNotional ∧
      (step policy context s intent).approved = s.approved) := by
  cases hjudge : judge policy context s.index s.usedNotional intent with
  | error reason => exact .inr ⟨⟨reason, rfl⟩, by simp [step, hjudge], by simp [step, hjudge]⟩
  | ok approved =>
    obtain ⟨rules, limitPrice, happroval⟩ := judge_ok hjudge
    exact .inl ⟨approved, rules, limitPrice, rfl, happroval, by simp [step, hjudge],
      by simp [step, hjudge]⟩

theorem approved_extends (s : Loop) (intents : List Intent) :
    ∃ later, (Runs.run (step policy context) s intents).approved = s.approved ++ later := by
  induction intents generalizing s with
  | nil => exact ⟨[], (List.append_nil _).symm⟩
  | cons intent intents ih =>
    obtain ⟨later, hlater⟩ := ih (step policy context s intent)
    rw [Runs.run_cons, hlater]
    rcases step_cases policy context s intent with ⟨approved, -, -, -, -, -, happroved⟩ |
      ⟨-, -, happroved⟩
    · exact ⟨approved :: later, by rw [happroved, List.append_assoc]; rfl⟩
    · exact ⟨later, by rw [happroved]⟩

/-- What is approved in the middle of a run is in the list between what was before and what
comes later. -/
theorem approved_between {before after : List Intent} {intent approved : Intent}
    (h : judge policy context (Runs.run (step policy context) {} before).index
      (Runs.run (step policy context) {} before).usedNotional intent = .ok approved) :
    ∃ later, (Runs.run (step policy context) {} (before ++ intent :: after)).approved =
      (Runs.run (step policy context) {} before).approved ++ approved :: later := by
  obtain ⟨later, hlater⟩ := approved_extends policy context
    (step policy context (Runs.run (step policy context) {} before) intent) after
  have hstep : (step policy context (Runs.run (step policy context) {} before) intent).approved =
      (Runs.run (step policy context) {} before).approved ++ [approved] := by
    simp [step, h]
  rw [hstep, List.append_assoc] at hlater
  exact ⟨later, by rw [Runs.run_append, Runs.run_cons, hlater]; rfl⟩

def total (approved : List Intent) : ℚ := (approved.map notionalOf).sum

def buys (approved : List Intent) : List Intent := approved.filter fun intent => intent.side = .buy

def onSymbol (symbol : String) (approved : List Intent) : ℕ :=
  approved.countP fun intent => normalizeSymbol intent.symbol = symbol

@[simp] theorem total_append (approved more : List Intent) :
    total (approved ++ more) = total approved + total more := by
  simp [total]

@[simp] theorem total_cons (intent : Intent) (approved : List Intent) :
    total (intent :: approved) = notionalOf intent + total approved := by
  simp [total]

@[simp] theorem total_nil : total [] = 0 := rfl

theorem total_nonneg {approved : List Intent} (h : ∀ intent ∈ approved, 0 < notionalOf intent) :
    0 ≤ total approved := by
  refine List.sum_nonneg fun x hx => ?_
  obtain ⟨intent, hin, rfl⟩ := List.mem_map.mp hx
  exact (h intent hin).le

theorem le_total {approved : List Intent} (h : ∀ intent ∈ approved, 0 < notionalOf intent)
    {intent : Intent} (hin : intent ∈ approved) : notionalOf intent ≤ total approved := by
  refine List.single_le_sum (fun x hx => ?_) _ (List.mem_map_of_mem hin)
  obtain ⟨other, hother, rfl⟩ := List.mem_map.mp hx
  exact (h other hother).le

theorem buys_le_total {approved : List Intent} (h : ∀ intent ∈ approved, 0 < notionalOf intent) :
    total (buys approved) ≤ total approved := by
  induction approved with
  | nil => exact le_rfl
  | cons intent approved ih =>
    have hrest := ih fun other hin => h other (List.mem_cons_of_mem _ hin)
    have hfirst := h intent List.mem_cons_self
    rw [buys] at hrest ⊢
    rw [List.filter_cons, total_cons]
    split
    · rw [total_cons]
      linarith only [hrest]
    · linarith only [hrest, hfirst]

/-- The running total beside the list it is the total of. -/
structure Spent (s : Loop) : Prop where
  used : s.usedNotional = total s.approved
  positive : ∀ intent ∈ s.approved, 0 < notionalOf intent
  capped : 0 ≤ policy.notionalCapTryPerCycle → s.usedNotional ≤ policy.notionalCapTryPerCycle

theorem spent_step (s : Loop) (intent : Intent) (h : Spent policy s) :
    Spent policy (step policy context s intent) := by
  rcases step_cases policy context s intent with
    ⟨approved, rules, limitPrice, -, happroval, hused, happroved⟩ | ⟨-, hused, happroved⟩
  · constructor
    · rw [hused, happroved, h.used, total_append, total_cons, total_nil, add_zero]
    · rw [happroved]
      intro other hother
      rcases List.mem_append.mp hother with hold | hnew
      · exact h.positive other hold
      · obtain rfl := List.mem_singleton.mp hnew
        exact happroval.notional_pos
    · rw [hused]
      exact fun _ => happroval.cap
  · constructor
    · rw [hused, happroved, h.used]
    · rw [happroved]
      exact h.positive
    · rw [hused]
      exact h.capped

theorem spent_run (intents : List Intent) :
    Spent policy (Runs.run (step policy context) {} intents) :=
  Runs.run_keeps (spent_step policy context) {} intents
    ⟨rfl, fun _ hin => (List.not_mem_nil hin).elim, fun h => h⟩

/-- The approved intents within the cash, the cap of the cycle and the open orders. -/
structure WithinBudget (approved : List Intent) : Prop where
  cash : total (buys approved) ≤ context.investableTry
  cycle : total approved ≤ policy.notionalCapTryPerCycle
  slots : ∀ symbol, openOrders context symbol + onSymbol symbol approved ≤
    policy.maxOpenOrdersPerSymbol

/-- A BUY finds the cash gate open, and an intent on a symbol that has approvals already a
place left by them. -/
def HasRoom (s : Loop) (intent : Intent) : Prop :=
  (judge policy context s.index s.usedNotional intent).isOk →
    (intent.side = .buy → 0 < context.investableTry) ∧
    (0 < onSymbol (normalizeSymbol intent.symbol) s.approved →
      openOrders context (normalizeSymbol intent.symbol) +
        onSymbol (normalizeSymbol intent.symbol) s.approved < policy.maxOpenOrdersPerSymbol)

theorem onSymbol_concat (symbol : String) (approved : List Intent) (intent : Intent) :
    onSymbol symbol (approved ++ [intent]) =
      onSymbol symbol approved + if normalizeSymbol intent.symbol = symbol then 1 else 0 := by
  simp [onSymbol, List.countP_append, List.countP_cons]

theorem buys_concat (approved : List Intent) (intent : Intent) :
    total (buys (approved ++ [intent])) =
      total (buys approved) + if intent.side = .buy then notionalOf intent else 0 := by
  by_cases hbuy : intent.side = .buy <;> simp [buys, List.filter_append, hbuy]

/-- Room at every approval keeps the list within the budget. -/
theorem within_step (s : Loop) (intent : Intent)
    (h : Spent policy s ∧ total (buys s.approved) ≤ context.investableTry ∧
      ∀ symbol, openOrders context symbol + onSymbol symbol s.approved ≤
        policy.maxOpenOrdersPerSymbol)
    (hroom : HasRoom policy context s intent) :
    Spent policy (step policy context s intent) ∧
      total (buys (step policy context s intent).approved) ≤ context.investableTry ∧
      ∀ symbol, openOrders context symbol +
        onSymbol symbol (step policy context s intent).approved ≤
          policy.maxOpenOrdersPerSymbol := by
  obtain ⟨hspent, hcash, hslots⟩ := h
  refine ⟨spent_step policy context s intent hspent, ?_⟩
  rcases step_cases policy context s intent with
    ⟨approved, rules, limitPrice, hjudge, happroval, -, happroved⟩ | ⟨-, -, happroved⟩
  · obtain ⟨hopen, hlater⟩ := hroom (by rw [hjudge]; rfl)
    have hfree : openOrders context (normalizeSymbol intent.symbol) +
        onSymbol (normalizeSymbol intent.symbol) s.approved < policy.maxOpenOrdersPerSymbol := by
      rcases (onSymbol (normalizeSymbol intent.symbol) s.approved).eq_zero_or_pos with
        hfirst | hmore
      · -- the first approval of the symbol rests on the gate's own check
        rw [hfirst, Nat.cast_zero, add_zero]
        exact happroval.slot
      · exact hlater hmore
    rw [happroved]
    refine ⟨?_, fun symbol => ?_⟩
    · rw [buys_concat]
      split
      · next hbuy =>
        rw [happroval.side] at hbuy
        have hfits := happroval.buy_le hbuy (hopen hbuy)
        have hless := buys_le_total hspent.positive
        rw [hspent.used] at hfits
        linarith only [hfits, hless]
      · rw [add_zero]
        exact hcash
    · have hslot := hslots symbol
      rw [onSymbol_concat, happroval.symbol]
      split
      · next hsymbol =>
        rw [hsymbol] at hfree
        push_cast
        omega
      · simpa using hslot
  · rw [happroved]
    exact ⟨hcash, hslots⟩

/-- The approvals stay within the budget exactly if the investable cash and the cap are not
negative, no symbol starts above its bound, no BUY passes a closed cash gate, and approvals
after the first of a symbol find room beside those before. -/
theorem within_budget_iff (intents : List Intent) :
    WithinBudget policy context (evaluate policy context intents).approved ↔
      0 ≤ context.investableTry ∧ 0 ≤ policy.notionalCapTryPerCycle ∧
      (∀ symbol, openOrders context symbol ≤ policy.maxOpenOrdersPerSymbol) ∧
      Runs.Meets (step policy context) (HasRoom policy context) {}
        (keptIntents policy intents) := by
  rw [evaluate_eq_run]
  have hspent := spent_run policy context (keptIntents policy intents)
  constructor
  · intro h
    have hbuys : ∀ intent ∈ buys
        (Runs.run (step policy context) {} (keptIntents policy intents)).approved,
        0 < notionalOf intent := fun intent hin =>
      hspent.positive intent (List.mem_of_mem_filter hin)
    refine ⟨(total_nonneg hbuys).trans h.cash, (total_nonneg hspent.positive).trans h.cycle,
      fun symbol => ?_, Runs.meets_iff_split.mpr fun before intent after heq hok => ?_⟩
    · have hslot := h.slots symbol
      omega
    · cases hjudge : judge policy context (Runs.run (step policy context) {} before).index
          (Runs.run (step policy context) {} before).usedNotional intent with
      | error reason =>
        rw [hjudge] at hok
        cases hok
      | ok approved =>
        obtain ⟨rules, limitPrice, happroval⟩ := judge_ok hjudge
        obtain ⟨later, hlater⟩ := approved_between policy context hjudge
        rw [← heq] at hlater
        rw [hlater] at h hbuys
        refine ⟨fun hbuy => ?_, fun _ => ?_⟩
        · have hin : approved ∈ buys ((Runs.run (step policy context) {} before).approved ++
              approved :: later) := by
            simp [buys, happroval.side, hbuy]
          exact (hbuys approved hin).trans_le ((le_total hbuys hin).trans h.cash)
        · have hslot := h.slots (normalizeSymbol intent.symbol)
          rw [onSymbol, List.countP_append, List.countP_cons_of_pos
            (by simp [happroval.symbol])] at hslot
          push_cast at hslot
          rw [onSymbol]
          omega
  · rintro ⟨hinvest, hcap, hopen, hmeets⟩
    obtain ⟨-, hcash, hslots⟩ := Runs.run_meets (within_step policy context) {}
      (keptIntents policy intents)
      ⟨⟨rfl, fun _ hin => (List.not_mem_nil hin).elim, fun h => h⟩, hinvest, fun symbol => by
        simpa [onSymbol] using hopen symbol⟩ hmeets
    exact ⟨hcash, hspent.used ▸ hspent.capped hcap, hslots⟩

/-- A property of every approved intent is one of every approval of the run. -/
theorem approved_all_iff (P : Intent → Prop) (s : Loop) (intents : List Intent) :
    (∀ approved ∈ (Runs.run (step policy context) s intents).approved, P approved) ↔
      (∀ approved ∈ s.approved, P approved) ∧
      Runs.Meets (step policy context) (fun s intent => ∀ approved,
        judge policy context s.index s.usedNotional intent = .ok approved → P approved) s
        intents := by
  induction intents generalizing s with
  | nil => exact (and_iff_left trivial).symm
  | cons intent intents ih =>
    rw [Runs.run_cons, ih, Runs.Meets, ← and_assoc]
    refine and_congr_left fun _ => ?_
    rcases step_cases policy context s intent with
      ⟨approved, -, -, hjudge, -, -, happroved⟩ | ⟨⟨reason, hjudge⟩, -, happroved⟩
    · simp [happroved, hjudge, or_imp, forall_and]
    · simp [happroved, hjudge]

/-- A price on the tick, a quantity on the step, and no less than the minimum notional. -/
def ExchangeValid (approved : Intent) : Prop :=
  ∃ rules price, policy.getRules approved.symbol = some rules ∧
    approved.limitPrice = some price ∧ OnGrid rules.priceTick price ∧
    OnGrid rules.qtyStep approved.qty ∧ rules.minNotional ≤ price * approved.qty

/-- The quantity before it is rounded for the last time. -/
def unroundedQty (rules : ExchangeRules) (limitPrice qty : ℚ) : ℚ :=
  if CutByCap policy rules limitPrice qty then
    policy.maxNotionalPerOrderTry / roundPrice limitPrice (moneyPolicy rules)
  else qty

/-- Rules that the rounding can meet, and a cap that leaves the minimum notional. -/
structure FitsRules (rules : ExchangeRules) (limitPrice qty : ℚ) : Prop where
  tick : rules.priceTick ≤ 0 → OnGrid rules.priceTick limitPrice
  step : rules.qtyStep ≤ 0 → OnGrid rules.qtyStep (unroundedQty policy rules limitPrice qty)
  cut : CutByCap policy rules limitPrice qty → rules.minNotional ≤
    roundPrice limitPrice (moneyPolicy rules) *
      roundQty (policy.maxNotionalPerOrderTry / roundPrice limitPrice (moneyPolicy rules))
        (moneyPolicy rules)

theorem exchangeValid_iff {usedNotional : ℚ} {intent approved : Intent} {rules : ExchangeRules}
    {limitPrice : ℚ}
    (h : Approval policy context usedNotional intent approved rules limitPrice) :
    ExchangeValid policy approved ↔ FitsRules policy rules limitPrice intent.qty := by
  have hqty : approved.qty =
      roundQty (unroundedQty policy rules limitPrice intent.qty) (moneyPolicy rules) := by
    rw [unroundedQty]
    split
    · next hcut => exact h.qtyCut hcut
    · next huncut => exact (h.qtyUncut huncut).1
  have htick : OnGrid rules.priceTick (roundPrice limitPrice (moneyPolicy rules)) ↔
      (rules.priceTick ≤ 0 → OnGrid rules.priceTick limitPrice) :=
    Money.quantizeToStep_onGrid_iff _ _ _
  have hstep : OnGrid rules.qtyStep approved.qty ↔ (rules.qtyStep ≤ 0 →
      OnGrid rules.qtyStep (unroundedQty policy rules limitPrice intent.qty)) := by
    rw [hqty]
    exact Money.quantizeToStep_onGrid_iff _ _ _
  have hmin : rules.minNotional ≤ roundPrice limitPrice (moneyPolicy rules) * approved.qty ↔
      (CutByCap policy rules limitPrice intent.qty → rules.minNotional ≤
        roundPrice limitPrice (moneyPolicy rules) *
          roundQty (policy.maxNotionalPerOrderTry / roundPrice limitPrice (moneyPolicy rules))
            (moneyPolicy rules)) := by
    by_cases hcut : CutByCap policy rules limitPrice intent.qty
    · rw [h.qtyCut hcut]
      exact (imp_iff_right hcut).symm
    · exact iff_of_true (h.qtyUncut hcut).2 fun hother => absurd hother hcut
  constructor
  · rintro ⟨known, price, hknown, hprice, hgrid, hqtyGrid, hnotional⟩
    rw [h.symbol, h.known] at hknown
    obtain rfl := Option.some.inj hknown
    rw [h.price] at hprice
    obtain rfl := Option.some.inj hprice
    exact ⟨htick.mp hgrid, hstep.mp hqtyGrid, hmin.mp hnotional⟩
  · rintro ⟨hgrid, hqtyGrid, hcut⟩
    exact ⟨rules, _, by rw [h.symbol, h.known], h.price, htick.mpr hgrid, hstep.mpr hqtyGrid,
      hmin.mpr hcut⟩

/-- What is approved fits the rules it is approved under. -/
def ApprovalFits (s : Loop) (intent : Intent) : Prop :=
  (judge policy context s.index s.usedNotional intent).isOk → ∀ rules limitPrice,
    policy.getRules intent.symbol = some rules → intent.limitPrice = some limitPrice →
      FitsRules policy rules limitPrice intent.qty

/-- Every approved intent is one the exchange takes exactly if every approval fits its rules. -/
theorem exchange_valid_iff (intents : List Intent) :
    (∀ approved ∈ (evaluate policy context intents).approved, ExchangeValid policy approved) ↔
      Runs.Meets (step policy context) (ApprovalFits policy context) {}
        (keptIntents policy intents) := by
  rw [evaluate_eq_run, approved_all_iff]
  refine (and_iff_right fun approved hin => (List.not_mem_nil hin).elim).trans
    (Runs.meets_congr fun s intent => ?_)
  rw [ApprovalFits]
  cases hjudge : judge policy context s.index s.usedNotional intent with
  | error reason => exact iff_of_true (fun _ h => nomatch h) fun h => nomatch h
  | ok approved =>
    obtain ⟨rules, limitPrice, happroval⟩ := judge_ok hjudge
    constructor
    · intro h _ known limit hknown hlimit
      rw [happroval.known] at hknown
      obtain rfl := Option.some.inj hknown
      rw [happroval.limit] at hlimit
      obtain rfl := Option.some.inj hlimit
      exact (exchangeValid_iff policy context happroval).mp (h approved rfl)
    · rintro h other hother
      obtain rfl := Except.ok.inj hother
      exact (exchangeValid_iff policy context happroval).mpr
        (h rfl rules limitPrice happroval.known happroval.limit)

def plainRules : ExchangeRules := ⟨10, 1 / 10, 1 / 100⟩

def plainPolicy (maxNotionalPerOrderTry : ℚ) : RiskPolicy where
  getRules := fun _ => some plainRules
  maxOrdersPerCycle := 5
  maxOpenOrdersPerSymbol := 1
  cooldownSeconds := 0
  notionalCapTryPerCycle := 1000
  maxNotionalPerOrderTry := maxNotionalPerOrderTry
  now := fun _ => 0

def contextOf (investableTry : ℚ) : RiskPolicyContext := ⟨∅, fun _ _ => none, investableTry⟩

def buyOf (intentId symbol : String) (price qty : ℚ) : Intent :=
  ⟨intentId, symbol, .buy, qty, some price, intentId⟩

/-- With the free cash below its target a BUY is approved, and two on one symbol pass the
bound on its open orders. -/
theorem approvals_over_budget :
    ¬ WithinBudget (plainPolicy 0) (contextOf (investableOf 100 300))
      (evaluate (plainPolicy 0) (contextOf (investableOf 100 300))
        [buyOf "i1" "BTCTRY" 100 1]).approved ∧
    ¬ WithinBudget (plainPolicy 0) (contextOf 500)
      (evaluate (plainPolicy 0) (contextOf 500)
        [buyOf "i1" "BTCTRY" 100 1, buyOf "i2" "BTCTRY" 100 1]).approved := by
  constructor
  · intro h
    have hcash := h.cash
    revert hcash
    decide +kernel
  · intro h
    have hslots := h.slots "BTCTRY"
    revert hslots
    decide +kernel

/-- A cap of 9.999 cuts 20 at 100.1 to 0.09, below the minimum notional of 10. -/
theorem cut_below_minimum :
    ¬ ∀ approved ∈ (evaluate (plainPolicy (9999 / 1000)) (contextOf 5000)
      [buyOf "i1" "BTCTRY" (1001 / 10) (2 / 10)]).approved,
        ExchangeValid (plainPolicy (9999 / 1000)) approved := by
  intro h
  have happroved : (evaluate (plainPolicy (9999 / 1000)) (contextOf 5000)
      [buyOf "i1" "BTCTRY" (1001 / 10) (2 / 10)]).approved =
        [buyOf "i1" "BTCTRY" (1001 / 10) (9 / 100)] := by
    decide +kernel
  rw [happroved] at h
  obtain ⟨rules, price, hknown, hprice, -, -, hmin⟩ := h _ (List.mem_singleton.mpr rfl)
  obtain rfl := Option.some.inj hknown
  obtain rfl := Option.some.inj hprice
  revert hmin
  decide +kernel

end RiskApprovals
