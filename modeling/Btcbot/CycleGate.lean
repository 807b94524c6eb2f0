import Btcbot.RiskBudget
import Btcbot.SubmitSizing

/-!
# What a cycle hands to its execution

The actions the risk policy accepted pass the cap of the degraded universe, the shrinking of
buys, the gate of the mode, the minimum notional, and the kill switch and the freeze. The mode
is the stricter of the risk decision and the degrade override.
-/
namespace CycleGate

open PyData RiskBudget
open Degrade (Mode DegradeDecision DegradeInput decideDegrade)
open RiskPolicy (LifecycleAction)
open DecisionPipeline (PairInfo)
open SubmitSizing (Prefiltered prefilterAction prefilterStep prefilterSubmitActionsMinNotional)

section Gate

def combineModes (baseMode : Mode) (override : Option Mode) : Mode :=
  match override with
  | none => baseMode
  | some .observeOnly => .observeOnly
  | some .reduceRiskOnly => if baseMode = .normal then .reduceRiskOnly else baseMode
  | some .normal => baseMode

/-- What a cycle gates its actions by, besides the two decisions. -/
structure Gate where
  activeSymbols : List String
  forceDryRunSubmit : Bool := false
  freezeActive : Bool
  killSwitchFreezeAll : Bool
  pairInfo : Option (List PairInfo)
  minOrderNotionalTry : ℚ

def finalMode (gate : Gate) (riskMode : Mode) (degrade : DegradeDecision) : Mode :=
  if gate.forceDryRunSubmit then .normal else combineModes riskMode degrade.modeOverride

def capUniverse (gate : Gate) (degrade : DegradeDecision) (actions : List LifecycleAction) :
    List LifecycleAction :=
  match degrade.universeCap with
  | none => actions
  | some cap => actions.filter fun action =>
      normalizeSymbol action.symbol ∈ gate.activeSymbols.take cap

def isBuySubmit (action : LifecycleAction) : Bool :=
  action.actionType = .submit ∧ action.side.toUpper = "BUY"

def isSellSubmit (action : LifecycleAction) : Bool :=
  action.actionType = .submit ∧ action.side.toUpper = "SELL"

def isCancel (action : LifecycleAction) : Bool := action.actionType = .cancel

def shrinkAction (factor : ℚ) (action : LifecycleAction) : LifecycleAction :=
  if isBuySubmit action then { action with qty := action.qty * factor } else action

def shrinkBuys (degrade : DegradeDecision) (actions : List LifecycleAction) :
    List LifecycleAction :=
  if degrade.shrinkNotionalFactor < 1 then
    actions.map (shrinkAction degrade.shrinkNotionalFactor)
  else actions

def gateActionsByMode (actions : List LifecycleAction) (mode : Mode) : List LifecycleAction :=
  match mode with
  | .observeOnly => []
  | .reduceRiskOnly => actions.filter fun action => isCancel action || isSellSubmit action
  | .normal => actions

/-- The actions suppressed, by their label. -/
structure Counters where
  submit : ℕ := 0
  replaceSubmit : ℕ := 0
  cancel : ℕ := 0
  deriving DecidableEq, Repr

def Counters.count (counters : Counters) (action : LifecycleAction) : Counters :=
  match action.actionType with
  | .submit => { counters with submit := counters.submit + 1 }
  | .replace => { counters with replaceSubmit := counters.replaceSubmit + 1 }
  | .cancel => { counters with cancel := counters.cancel + 1 }

/-- Only cancels are let through, and those not when everything is frozen. -/
def suppressActions (active freezeAll : Bool) (actions : List LifecycleAction) :
    List LifecycleAction × Counters :=
  if active then
    (actions.filter fun action => isCancel action && !freezeAll,
      (actions.filter fun action => !(isCancel action && !freezeAll)).foldl Counters.count {})
  else (actions, {})

def suppressActionsForKillswitch (gate : Gate) (effectiveKillSwitch : Bool)
    (actions : List LifecycleAction) : List LifecycleAction × Counters :=
  suppressActions effectiveKillSwitch gate.killSwitchFreezeAll actions

def suppressActionsForUnknownFreeze (gate : Gate) (actions : List LifecycleAction) :
    List LifecycleAction × Counters :=
  suppressActions gate.freezeActive gate.killSwitchFreezeAll actions

/-- The actions executed of those accepted. -/
def executedActions (gate : Gate) (effectiveKillSwitch : Bool) (riskMode : Mode)
    (degrade : DegradeDecision) (acceptedActions : List LifecycleAction) :
    Except String (List LifecycleAction) := do
  let degraded := shrinkBuys degrade (capUniverse gate degrade acceptedActions)
  let gatedActions := gateActionsByMode degraded (finalMode gate riskMode degrade)
  let prefiltered ← prefilterSubmitActionsMinNotional gatedActions gate.pairInfo
    gate.minOrderNotionalTry
  let switched := (suppressActionsForKillswitch gate effectiveKillSwitch prefiltered.filtered).1
  return (suppressActionsForUnknownFreeze gate switched).1

/-- What a cycle executes, on its own two decisions. -/
def runOneCycle (settings : Settings) (policy : SelfFinancingPolicy) (deviation : List ℚ → ℚ)
    (world : World) (call : Call) (input : DegradeInput) (gate : Gate)
    (acceptedActions : List LifecycleAction) : Except String (List LifecycleAction) :=
  executedActions gate call.killSwitchActive
    (computeDecision settings policy deviation world call).mode (decideDegrade input)
    acceptedActions

end Gate

section Traces

/-- An action is one of those, with at most its price and quantity changed. -/
def From (actions : List LifecycleAction) (action : LifecycleAction) : Prop :=
  ∃ source ∈ actions, ∃ price qty, action = { source with price := price, qty := qty }

theorem from_self {actions : List LifecycleAction} {action : LifecycleAction}
    (h : action ∈ actions) : From actions action := ⟨action, h, action.price, action.qty, rfl⟩

theorem From.trans {first second : List LifecycleAction} {action : LifecycleAction}
    (h : ∀ a ∈ second, From first a) (hfrom : From second action) : From first action := by
  obtain ⟨source, hsource, price, qty, rfl⟩ := hfrom
  obtain ⟨older, holder, price', qty', rfl⟩ := h source hsource
  exact ⟨older, holder, price, qty, rfl⟩

theorem From.mono {first second : List LifecycleAction} {action : LifecycleAction}
    (h : first ⊆ second) (hfrom : From first action) : From second action := by
  obtain ⟨source, hsource, price, qty, rfl⟩ := hfrom
  exact ⟨source, h hsource, price, qty, rfl⟩

theorem from_capUniverse (gate : Gate) (degrade : DegradeDecision)
    (actions : List LifecycleAction) : capUniverse gate degrade actions ⊆ actions := by
  unfold capUniverse
  split
  · exact fun _ h => h
  · exact List.filter_subset_self _

theorem from_shrinkBuys (degrade : DegradeDecision) (actions : List LifecycleAction) :
    ∀ action ∈ shrinkBuys degrade actions, From actions action := by
  intro action haction
  unfold shrinkBuys at haction
  split at haction
  · obtain ⟨source, hsource, rfl⟩ := List.mem_map.mp haction
    unfold shrinkAction
    split
    · exact ⟨source, hsource, source.price, _, rfl⟩
    · exact from_self hsource
  · exact from_self haction

theorem gateActionsByMode_subset (actions : List LifecycleAction) (mode : Mode) :
    gateActionsByMode actions mode ⊆ actions := by
  cases mode with
  | observeOnly => exact List.nil_subset _
  | reduceRiskOnly => exact List.filter_subset_self _
  | normal => exact fun _ h => h

theorem suppressActions_subset (active freezeAll : Bool) (actions : List LifecycleAction) :
    (suppressActions active freezeAll actions).1 ⊆ actions := by
  unfold suppressActions
  split
  · exact List.filter_subset_self _
  · exact fun _ h => h

theorem from_prefilterAction {pairs : Dict PairInfo} {minOrderNotionalTry : ℚ}
    {action kept : LifecycleAction}
    (h : prefilterAction pairs minOrderNotionalTry action = .ok (some kept)) :
    From [action] kept := by
  unfold prefilterAction at h
  simp only at h
  split at h
  · cases h
    exact from_self (List.mem_singleton_self _)
  · split at h
    · cases h
      exact from_self (List.mem_singleton_self _)
    · split at h
      · cases h
      split at h
      · cases h
      split at h
      · split at h
        · split at h
          · cases h
            exact ⟨action, List.mem_singleton_self _, _, _, rfl⟩
          · cases h
        · cases h
      · cases h
        exact from_self (List.mem_singleton_self _)

theorem from_prefilter {actions : List LifecycleAction} {pairInfo : Option (List PairInfo)}
    {minOrderNotionalTry : ℚ} {result : Prefiltered}
    (h : prefilterSubmitActionsMinNotional actions pairInfo minOrderNotionalTry = .ok result) :
    ∀ action ∈ result.filtered, From actions action := by
  refine Runs.foldlM_ok_induct
    (I := fun taken progress => ∀ action ∈ progress.filtered, From taken action)
    ?_ actions (fun action haction => absurd haction List.not_mem_nil) h
  intro taken action before after hbefore hstep
  obtain ⟨left, hleft, hafter⟩ := Runs.bind_ok hstep
  cases left with
  | none =>
    obtain rfl := Except.ok.inj hafter
    exact fun other hother => (hbefore other hother).mono (List.subset_append_left _ _)
  | some kept =>
    obtain rfl := Except.ok.inj hafter
    intro other hother
    rcases List.mem_append.mp hother with hold | hnew
    · exact (hbefore other hold).mono (List.subset_append_left _ _)
    · rw [List.mem_singleton] at hnew
      subst hnew
      exact (from_prefilterAction hleft).mono (List.subset_append_right _ _)

end Traces

section Degraded

/-- Every decision is one of the level policy. -/
theorem decideDegrade_build (input : DegradeInput) : ∃ level reasons recovery,
    decideDegrade input = Degrade.build input.now level reasons recovery := by
  unfold decideDegrade
  simp only
  split_ifs <;> exact ⟨_, _, _, rfl⟩

theorem override_none {input : DegradeInput} (h : (decideDegrade input).modeOverride = none) :
    (decideDegrade input).universeCap = none ∧ (decideDegrade input).shrinkNotionalFactor = 1 := by
  obtain ⟨level, reasons, recovery, hbuild⟩ := decideDegrade_build input
  rw [hbuild] at h ⊢
  unfold Degrade.build Degrade.levelPolicy at h ⊢
  simp only at h ⊢
  split_ifs at h ⊢
  simp_all

theorem override_cases (input : DegradeInput) :
    (decideDegrade input).modeOverride = none ∨
      (decideDegrade input).modeOverride = some .reduceRiskOnly ∨
      (decideDegrade input).modeOverride = some .observeOnly := by
  obtain ⟨level, reasons, recovery, hbuild⟩ := decideDegrade_build input
  rw [hbuild]
  unfold Degrade.build Degrade.levelPolicy
  simp only
  split_ifs <;> simp

theorem degraded_none {input : DegradeInput} (h : (decideDegrade input).modeOverride = none)
    (gate : Gate) (actions : List LifecycleAction) :
    shrinkBuys (decideDegrade input) (capUniverse gate (decideDegrade input) actions) =
      actions := by
  obtain ⟨hcap, hfactor⟩ := override_none h
  unfold shrinkBuys capUniverse
  rw [hcap, hfactor, if_neg (lt_irrefl 1)]

theorem combineModes_normal {riskMode : Mode} {input : DegradeInput}
    (h : combineModes riskMode (decideDegrade input).modeOverride = .normal) :
    riskMode = .normal ∧ (decideDegrade input).modeOverride = none := by
  rcases override_cases input with hnone | hreduce | hobserve
  · rw [hnone] at h
    exact ⟨h, hnone⟩
  · rw [hreduce, combineModes] at h
    split at h
    · cases h
    · next hne => exact absurd h hne
  · rw [hobserve] at h
    cases h

end Degraded

section Executed

variable {gate : Gate} {killSwitch : Bool} {riskMode : Mode} {degrade : DegradeDecision}
  {accepted executed : List LifecycleAction}

theorem suppressActions_off {freezeAll : Bool} (actions : List LifecycleAction) :
    (suppressActions false freezeAll actions).1 = actions := by
  simp [suppressActions]

theorem suppressActions_cancels {active freezeAll : Bool} {actions : List LifecycleAction}
    {action : LifecycleAction} (h : action ∈ (suppressActions active freezeAll actions).1)
    (hactive : active = true) : isCancel action = true := by
  rw [suppressActions, if_pos hactive] at h
  have hkept := (List.mem_filter.mp h).2
  rw [Bool.and_eq_true] at hkept
  exact hkept.1

theorem executed_eq (h : executedActions gate killSwitch riskMode degrade accepted =
    .ok executed) : ∃ prefiltered,
      prefilterSubmitActionsMinNotional
        (gateActionsByMode (shrinkBuys degrade (capUniverse gate degrade accepted))
          (finalMode gate riskMode degrade)) gate.pairInfo gate.minOrderNotionalTry =
        .ok prefiltered ∧
      executed = (suppressActionsForUnknownFreeze gate
        (suppressActionsForKillswitch gate killSwitch prefiltered.filtered).1).1 := by
  obtain ⟨prefiltered, hprefiltered, hrest⟩ := Runs.bind_ok h
  exact ⟨prefiltered, hprefiltered, (Except.ok.inj hrest).symm⟩

/-- What is executed was accepted, its price and quantity aside. -/
theorem executed_from (h : executedActions gate killSwitch riskMode degrade accepted =
    .ok executed) : ∀ action ∈ executed, From accepted action := by
  obtain ⟨prefiltered, hprefiltered, rfl⟩ := executed_eq h
  intro action haction
  have hkept := suppressActions_subset _ _ _ (suppressActions_subset _ _ _ haction)
  have hgated := from_prefilter hprefiltered action hkept
  have hshrunk := From.trans (from_shrinkBuys degrade (capUniverse gate degrade accepted))
    (hgated.mono (gateActionsByMode_subset _ _))
  exact hshrunk.mono (from_capUniverse gate degrade accepted)

theorem executed_gated (h : executedActions gate killSwitch riskMode degrade accepted =
    .ok executed) {action : LifecycleAction} (haction : action ∈ executed)
    (hcancel : isCancel action = false) (hsell : isSellSubmit action = false) :
    finalMode gate riskMode degrade = .normal ∧ killSwitch = false ∧ gate.freezeActive = false := by
  obtain ⟨prefiltered, hprefiltered, rfl⟩ := executed_eq h
  have hswitched := suppressActions_subset _ _ _ haction
  have hgated := from_prefilter hprefiltered action (suppressActions_subset _ _ _ hswitched)
  refine ⟨?_, ?_, ?_⟩
  · obtain ⟨source, hsource, price, qty, rfl⟩ := hgated
    cases hmode : finalMode gate riskMode degrade with
    | normal => rfl
    | observeOnly =>
      rw [hmode] at hsource
      cases hsource
    | reduceRiskOnly =>
      rw [hmode] at hsource
      have hkept := (List.mem_filter.mp hsource).2
      rw [Bool.or_eq_true] at hkept
      rcases hkept with hkept | hkept
      · exact absurd hkept (Bool.eq_false_iff.mp hcancel)
      · exact absurd hkept (Bool.eq_false_iff.mp hsell)
  · refine Bool.eq_false_iff.mpr fun hactive => ?_
    exact Bool.eq_false_iff.mp hcancel (suppressActions_cancels hswitched hactive)
  · refine Bool.eq_false_iff.mpr fun hactive => ?_
    exact Bool.eq_false_iff.mp hcancel (suppressActions_cancels haction hactive)

end Executed

section Cycles

variable (settings : Settings) (policy : SelfFinancingPolicy) (deviation : List ℚ → ℚ)

/-- A loss too large stops everything, cancels included, and so does the kill switch. -/
def Stopped (equities : List ℚ) (call : Call) (input : DegradeInput) : Prop :=
  MustObserve equities call ∨ (decideDegrade input).modeOverride = some .observeOnly

/-- Nothing holds an order back that opens a position. -/
structure Unhindered (equities : List ℚ) (call : Call) (input : DegradeInput) (gate : Gate) :
    Prop where
  mayOpen : MayOpen equities call
  degrade : (decideDegrade input).modeOverride = none
  freeze : gate.freezeActive = false

variable {start : World} {events : List Event} {call : Call} {input : DegradeInput} {gate : Gate}
  {accepted : List LifecycleAction}

theorem combineModes_observes {riskMode : Mode} {override : Option Mode}
    (h : riskMode = .observeOnly ∨ override = some .observeOnly) :
    combineModes riskMode override = .observeOnly := by
  rcases h with rfl | rfl
  · cases override with
    | none => rfl
    | some mode => cases mode <;> rfl
  · rfl

theorem executed_stopped (hforce : gate.forceDryRunSubmit = false)
    (h : Stopped (heldEquities start events) call input) :
    runOneCycle settings policy deviation (run settings policy deviation start events) call input
      gate accepted = .ok [] := by
  have hobserves := (computeDecision_mode settings policy deviation start events call).2
  have hmode := combineModes_observes (h.imp_left hobserves.mpr)
  rw [runOneCycle, executedActions, finalMode, if_neg (by simp [hforce]), hmode]
  have hnone (active freezeAll : Bool) : (suppressActions active freezeAll []).1 = [] := by
    cases active <;> rfl
  simp only [gateActionsByMode, suppressActionsForKillswitch, suppressActionsForUnknownFreeze]
  change Except.ok _ = _
  rw [hnone, hnone]

theorem executed_unhindered (hforce : gate.forceDryRunSubmit = false)
    (h : Unhindered (heldEquities start events) call input gate) :
    runOneCycle settings policy deviation (run settings policy deviation start events) call input
        gate accepted =
      (prefilterSubmitActionsMinNotional accepted gate.pairInfo gate.minOrderNotionalTry).map
        Prefiltered.filtered := by
  have hnormal := (computeDecision_mode settings policy deviation start events call).1.mpr h.mayOpen
  rw [runOneCycle, executedActions, finalMode, if_neg (by simp [hforce]), hnormal, h.degrade,
    degraded_none h.degrade]
  simp only [gateActionsByMode, combineModes, suppressActionsForKillswitch,
    suppressActionsForUnknownFreeze, h.freeze, h.mayOpen.killSwitch, suppressActions_off]
  cases prefilterSubmitActionsMinNotional accepted gate.pairInfo gate.minOrderNotionalTry <;> rfl

theorem executed_opens (hforce : gate.forceDryRunSubmit = false) {executed : List LifecycleAction}
    (h : runOneCycle settings policy deviation (run settings policy deviation start events) call
      input gate accepted = .ok executed) {action : LifecycleAction} (haction : action ∈ executed)
    (hcancel : isCancel action = false) (hsell : isSellSubmit action = false) :
    Unhindered (heldEquities start events) call input gate := by
  obtain ⟨hmode, hswitch, hfreeze⟩ := executed_gated h haction hcancel hsell
  rw [finalMode, if_neg (by simp [hforce])] at hmode
  obtain ⟨hnormal, hnone⟩ := combineModes_normal hmode
  exact ⟨(computeDecision_mode settings policy deviation start events call).1.mp hnormal, hnone,
    hfreeze⟩

/-- Over any cycles the store has seen: what stops a cycle stops all its actions, what hinders
it leaves only cancels and sells, and otherwise the minimum notional alone decides. -/
theorem cycle_executed (start : World) (events : List Event) (call : Call) (input : DegradeInput)
    (gate : Gate) (hforce : gate.forceDryRunSubmit = false) (accepted : List LifecycleAction) :
    let executed := runOneCycle settings policy deviation
      (run settings policy deviation start events) call input gate accepted
    (Stopped (heldEquities start events) call input → executed = .ok []) ∧
      (Unhindered (heldEquities start events) call input gate →
        executed = (prefilterSubmitActionsMinNotional accepted gate.pairInfo
          gate.minOrderNotionalTry).map Prefiltered.filtered) ∧
      (¬ Unhindered (heldEquities start events) call input gate →
        ∀ actions, executed = .ok actions →
          ∀ action ∈ actions, From accepted action ∧
            (isCancel action = true ∨ isSellSubmit action = true)) := by
  refine ⟨executed_stopped settings policy deviation hforce,
    executed_unhindered settings policy deviation hforce, ?_⟩
  intro hhindered actions hactions action haction
  refine ⟨executed_from hactions action haction, ?_⟩
  by_contra hneither
  rw [not_or, Bool.not_eq_true, Bool.not_eq_true] at hneither
  exact hhindered (executed_opens settings policy deviation hforce hactions haction hneither.1
    hneither.2)

end Cycles

section Samples

def sampleGate : Gate where
  activeSymbols := ["BTCTRY"]
  freezeActive := false
  killSwitchFreezeAll := false
  pairInfo := none
  minOrderNotionalTry := 10

def sampleDegrade : DegradeInput where
  anomalies := []
  now := 0
  currentOverride := none
  cooldownUntil := none
  lastReasons := none
  recentWarnCount := 0
  warnThreshold := 3
  warnCodes := []
  recentWarnCodes := []

def sampleActions : List LifecycleAction :=
  [{ actionType := .cancel, symbol := "BTCTRY", side := "buy", price := 100, qty := 1,
     reason := "replace" },
    { actionType := .submit, symbol := "BTCTRY", side := "buy", price := 100, qty := 1,
      reason := "open" }]

/-- The equity of 1000 was stored, and 880 is more than a hundred below it. -/
theorem fallen_cycle :
    runOneCycle {} {} (fun _ => 0) (run {} {} (fun _ => 0) {} [.cycle (sampleCall 1000) true,
        .cycle (sampleCall 950) true]) (sampleCall 880) sampleDegrade sampleGate sampleActions =
      .ok [] := by
  refine (cycle_executed {} {} (fun _ => 0) {} [.cycle (sampleCall 1000) true,
    .cycle (sampleCall 950) true] (sampleCall 880) sampleDegrade sampleGate rfl
    sampleActions).1 (.inl (.inr (.inr ⟨rfl, fun _ => ?_, .inl (.inr ⟨1000, ?_, ?_⟩)⟩)))
  · simp [sampleCall]
  · simp [heldEquities, storedEquities, Event.storedEquity, sampleCall]
  · norm_num [sampleCall, sampleLimits]

end Samples

end CycleGate
