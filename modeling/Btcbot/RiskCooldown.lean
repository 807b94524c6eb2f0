import Btcbot.Degrade
import Btcbot.Grid
import Btcbot.Runs
import Mathlib.Algebra.Order.Floor.Ring
import Mathlib.Data.List.Pairwise
import Mathlib.Data.Rat.Floor
import Mathlib.Tactic.Linarith

/-!
# The risk budget of a cycle and its cooldown

A decision starts from the limits of the settings, tightens with what it is told, and takes
over the cooldown of the decision before it while that cooldown runs. The deadline taken
over replaces the one a trigger has just set.
-/
namespace RiskCooldown

open Degrade (Mode Instant)

section Decide

structure Settings where
  killSwitch : Bool := true
  stage7MaxDataAgeSec : ℤ := 60
  dailyLossLimitTry : ℚ := 500
  maxDrawdownBps : ℤ := 2500
  feeBurnLimitTry : ℚ := 150
  maxOrderNotionalTry : ℚ := 3000
  notionalCapTryPerCycle : ℚ := 1000
  maxOrdersPerCycle : ℤ := 2
  maxSymbolExposureTry : ℚ := 8000
  highVolThresholdBps : ℚ := 250
  riskCooldownSec : ℤ := 900

structure RiskInputs where
  maxDrawdownPct : ℚ := 0
  dailyPnlTry : ℚ := 0
  marketDataAgeSec : ℤ := 0
  observedSpreadBps : ℚ := 0
  quoteVolumeTry : ℚ := 0
  exposureHash : String := ""
  feeBurnTodayTry : ℚ := 0
  rejectRateWindow : ℚ := 0
  exchangeDegraded : Bool := false
  staleAgeSec : ℤ := 0

structure RiskMetrics where
  lossToday : ℚ
  drawdownBps : ℤ
  feeBurnToday : ℚ
  rejectRateWindow : ℚ
  staleAgeSec : ℤ
  deriving DecidableEq, Repr

structure CycleRiskOutput where
  mode : Mode
  reasons : List String
  maxOrderNotionalTry : ℚ
  maxOrdersPerCycle : ℤ
  maxSymbolExposureTry : ℚ
  dailyLossLimitTry : ℚ
  maxDrawdownBps : ℤ
  feeBurnLimitTry : ℚ
  cooldownUntil : Option Instant
  allowSubmit : Bool
  allowCancel : Bool
  decidedAt : Instant
  inputsHash : String
  metrics : RiskMetrics
  deriving DecidableEq, Repr

/-- What a call is given besides the decision before it. -/
structure Call where
  settings : Settings
  now : Instant
  inputs : RiskInputs

def toIntegralValue (x : ℚ) : ℤ := Grid.halfEven x

/-- The variables that applying a mode writes. -/
structure Verdict where
  mode : Mode := .normal
  reasons : List String := []
  cooldownUntil : Option Instant := none

variable (stableHash : Instant × RiskInputs → String) (call : Call)

/-- When a trigger of the call lets go. -/
def Call.deadline : Instant := call.now + call.settings.riskCooldownSec * 1000000

def applyMode (nextMode : Mode) (reason : String) (verdict : Verdict) : Verdict where
  mode :=
    match nextMode with
    | .observeOnly => .observeOnly
    | .reduceRiskOnly => if verdict.mode = .normal then .reduceRiskOnly else verdict.mode
    | .normal => verdict.mode
  reasons :=
    if reason ∈ verdict.reasons then verdict.reasons else verdict.reasons ++ [reason]
  cooldownUntil :=
    if nextMode = .observeOnly ∧ 0 < call.settings.riskCooldownSec then some call.deadline
    else verdict.cooldownUntil

def applyIf (condition : Bool) (nextMode : Mode) (reason : String) (verdict : Verdict) :
    Verdict :=
  if condition then applyMode call nextMode reason verdict else verdict

def staleAge : ℤ := max call.inputs.marketDataAgeSec call.inputs.staleAgeSec

def drawdownBps : ℤ := toIntegralValue (call.inputs.maxDrawdownPct * 10000)

def highVol : Bool := call.settings.highVolThresholdBps ≤ call.inputs.observedSpreadBps

def noteHighVol (verdict : Verdict) : Verdict :=
  if highVol call then
    applyIf call (call.settings.highVolThresholdBps * 2 ≤ call.inputs.observedSpreadBps)
      .reduceRiskOnly "HIGH_VOL"
      { verdict with
        reasons :=
          if "HIGH_VOL" ∈ verdict.reasons then verdict.reasons
          else verdict.reasons ++ ["HIGH_VOL"] }
  else verdict

/-- What the call says for itself. -/
def assess : Verdict :=
  let observed := applyIf call (staleAge call > call.settings.stage7MaxDataAgeSec)
    .observeOnly "STALE_DATA"
    (applyIf call call.inputs.exchangeDegraded .observeOnly "EXCHANGE_DEGRADED"
      (applyIf call call.settings.killSwitch .observeOnly "KILL_SWITCH" {}))
  let reduced := applyIf call (call.settings.feeBurnLimitTry ≤ call.inputs.feeBurnTodayTry)
    .reduceRiskOnly "FEE_BURN"
    (applyIf call (call.settings.maxDrawdownBps ≤ drawdownBps call)
      .reduceRiskOnly "DRAWDOWN_LIMIT"
      (applyIf call (call.inputs.dailyPnlTry ≤ call.settings.dailyLossLimitTry * -1)
        .reduceRiskOnly "LOSS_LIMIT" observed))
  noteHighVol call reduced

/-- The mode and deadline of a decision whose cooldown runs are taken over. -/
def carryOver (previous : Option CycleRiskOutput) (now : Instant) (verdict : Verdict) : Verdict :=
  match previous with
  | none => verdict
  | some decision =>
    match decision.cooldownUntil with
    | none => verdict
    | some expiry =>
      if now < expiry then
        { verdict with
          mode :=
            match decision.mode with
            | .observeOnly => .observeOnly
            | .reduceRiskOnly => if verdict.mode = .normal then .reduceRiskOnly else verdict.mode
            | .normal => verdict.mode
          cooldownUntil := some expiry }
      else verdict

def decide (previous : Option CycleRiskOutput) : CycleRiskOutput :=
  let verdict := carryOver previous call.now (assess call)
  let halved (limit : ℚ) : ℚ := if highVol call then limit * (1 / 2) else limit
  { mode := verdict.mode
    reasons := if verdict.reasons = [] then ["OK"] else verdict.reasons
    maxOrderNotionalTry :=
      halved (min call.settings.maxOrderNotionalTry call.settings.notionalCapTryPerCycle)
    maxOrdersPerCycle :=
      if highVol call then max 1 (call.settings.maxOrdersPerCycle / 2)
      else call.settings.maxOrdersPerCycle
    maxSymbolExposureTry := halved call.settings.maxSymbolExposureTry
    dailyLossLimitTry := call.settings.dailyLossLimitTry
    maxDrawdownBps := call.settings.maxDrawdownBps
    feeBurnLimitTry := call.settings.feeBurnLimitTry
    cooldownUntil := verdict.cooldownUntil
    allowSubmit := verdict.mode ≠ .observeOnly
    allowCancel := true
    decidedAt := call.now
    inputsHash := stableHash (call.now, { call.inputs with staleAgeSec := staleAge call })
    metrics :=
      { lossToday := call.inputs.dailyPnlTry
        drawdownBps := drawdownBps call
        feeBurnToday := call.inputs.feeBurnTodayTry
        rejectRateWindow := call.inputs.rejectRateWindow
        staleAgeSec := staleAge call } }

end Decide

section Cooldown

variable (call : Call)

/-- The call fires a trigger of observing only. -/
def fires : Bool :=
  call.settings.killSwitch || call.inputs.exchangeDegraded ||
    staleAge call > call.settings.stage7MaxDataAgeSec

section Applied

variable (condition : Bool) (reason : String) (verdict : Verdict)

@[simp] theorem applyIf_reduce_mode :
    (applyIf call condition .reduceRiskOnly reason verdict).mode = .observeOnly ↔
      verdict.mode = .observeOnly := by
  unfold applyIf applyMode
  split
  · by_cases hmode : verdict.mode = .normal <;> simp [hmode]
  · rfl

@[simp] theorem applyIf_reduce_cooldown :
    (applyIf call condition .reduceRiskOnly reason verdict).cooldownUntil =
      verdict.cooldownUntil := by
  unfold applyIf applyMode
  split <;> simp

@[simp] theorem applyIf_observe_mode :
    (applyIf call condition .observeOnly reason verdict).mode = .observeOnly ↔
      condition = true ∨ verdict.mode = .observeOnly := by
  unfold applyIf applyMode
  split <;> simp [*]

@[simp] theorem applyIf_observe_cooldown :
    (applyIf call condition .observeOnly reason verdict).cooldownUntil =
      if condition = true ∧ 0 < call.settings.riskCooldownSec then some call.deadline
      else verdict.cooldownUntil := by
  unfold applyIf applyMode
  split <;> simp [*]

@[simp] theorem noteHighVol_mode :
    (noteHighVol call verdict).mode = .observeOnly ↔ verdict.mode = .observeOnly := by
  unfold noteHighVol
  split
  · simp
  · rfl

@[simp] theorem noteHighVol_cooldown :
    (noteHighVol call verdict).cooldownUntil = verdict.cooldownUntil := by
  unfold noteHighVol
  split <;> simp

end Applied

theorem assess_mode : (assess call).mode = .observeOnly ↔ fires call = true := by
  simp only [assess, noteHighVol_mode, applyIf_reduce_mode, applyIf_observe_mode, fires,
    Bool.or_eq_true, reduceCtorEq, or_false]
  tauto

theorem assess_cooldown : (assess call).cooldownUntil =
    if fires call = true ∧ 0 < call.settings.riskCooldownSec then some call.deadline
    else none := by
  simp only [assess, noteHighVol_cooldown, applyIf_reduce_cooldown, applyIf_observe_cooldown, fires,
    Bool.or_eq_true]
  by_cases hcool : 0 < call.settings.riskCooldownSec
  · simp only [hcool, and_true]
    split_ifs <;> tauto
  · simp [hcool]

end Cooldown

section Runs

variable (stableHash : Instant × RiskInputs → String)

/-- A call of a run, given the decision before it. -/
def step (previous : Option CycleRiskOutput) (call : Call) : Option CycleRiskOutput :=
  some (decide stableHash call previous)

/-- The cooldown of a decision, while it runs. -/
def running (previous : Option CycleRiskOutput) (now : Instant) : Option Instant :=
  (previous.bind CycleRiskOutput.cooldownUntil).filter (now < ·)

def Observing (decision : Option CycleRiskOutput) : Prop :=
  ∃ output, decision = some output ∧ output.mode = .observeOnly ∧ output.allowSubmit = false

theorem carryOver_cooldown (previous : Option CycleRiskOutput) (now : Instant)
    (verdict : Verdict) :
    (carryOver previous now verdict).cooldownUntil =
      (running previous now).or verdict.cooldownUntil := by
  cases previous with
  | none => rfl
  | some decision =>
    cases hcool : decision.cooldownUntil with
    | none => simp [carryOver, running, hcool]
    | some expiry =>
      by_cases hlater : now < expiry
      · simp [carryOver, running, hcool, hlater, Option.filter]
      · simp [carryOver, running, hcool, hlater, Option.filter]

theorem carryOver_observes {previous : Option CycleRiskOutput} {now : Instant} {verdict : Verdict}
    (h : verdict.mode = .observeOnly ∨ Observing previous ∧ running previous now ≠ none) :
    (carryOver previous now verdict).mode = .observeOnly := by
  cases previous with
  | none =>
    rcases h with h | ⟨-, h⟩
    · exact h
    · exact absurd rfl h
  | some decision =>
    cases hcool : decision.cooldownUntil with
    | none => simpa [carryOver, running, hcool] using h
    | some expiry =>
      by_cases hlater : now < expiry
      · simp only [carryOver, hcool, if_pos hlater]
        rcases h with h | ⟨⟨output, houtput, hmode, -⟩, -⟩
        · cases decision.mode <;> simp [h]
        · obtain rfl := Option.some.inj houtput
          rw [hmode]
      · simpa [carryOver, running, hcool, hlater] using h

/-- A call without a trigger observes only where a cooldown running makes it. -/
theorem carryOver_quiet {previous : Option CycleRiskOutput} {now : Instant} {verdict : Verdict}
    (hquiet : verdict.mode ≠ .observeOnly) (hdone : running previous now = none) :
    (carryOver previous now verdict).mode ≠ .observeOnly := by
  cases previous with
  | none => exact hquiet
  | some decision =>
    cases hcool : decision.cooldownUntil with
    | none => simpa [carryOver, hcool] using hquiet
    | some expiry =>
      have hlater : ¬ now < expiry := by simpa [running, hcool] using hdone
      simpa [carryOver, hcool, hlater] using hquiet

/-- The decision observes, under a cooldown that lasts to a time at least. -/
def Held (expiry : Instant) (decision : Option CycleRiskOutput) : Prop :=
  Observing decision ∧ ∃ later ∈ decision.bind CycleRiskOutput.cooldownUntil, expiry ≤ later

theorem observing_step {previous : Option CycleRiskOutput} {call : Call}
    (h : (carryOver previous call.now (assess call)).mode = .observeOnly) :
    Observing (step stableHash previous call) :=
  ⟨_, rfl, h, by simp [decide, h]⟩

/-- While a cooldown runs, every decision takes it over. -/
theorem held_step {expiry : Instant} {previous : Option CycleRiskOutput} (call : Call)
    (hheld : Held expiry previous) (hnow : call.now < expiry) :
    Held expiry (step stableHash previous call) := by
  obtain ⟨hobserving, later, hlater, hle⟩ := hheld
  have hrun : running previous call.now = some later := by
    rw [running, Option.mem_def.mp hlater]
    simp [hnow.trans_le hle]
  have hmode : (carryOver previous call.now (assess call)).mode = .observeOnly :=
    carryOver_observes (.inr ⟨hobserving, by simp [hrun]⟩)
  refine ⟨observing_step stableHash hmode, later, ?_, hle⟩
  simp [step, decide, carryOver_cooldown, hrun]

theorem held_run {expiry : Instant} {previous : Option CycleRiskOutput} (calls : List Call)
    (hheld : Held expiry previous) (hnow : ∀ call ∈ calls, call.now < expiry) :
    Held expiry (Runs.run (step stableHash) previous calls) := by
  induction calls generalizing previous with
  | nil => exact hheld
  | cons call calls ih =>
    refine ih (held_step stableHash call hheld (hnow call List.mem_cons_self)) ?_
    exact fun next hin => hnow next (List.mem_cons_of_mem call hin)

/-- A trigger holds up to its own deadline, unless a cooldown running ends before it. -/
theorem held_trigger {previous : Option CycleRiskOutput} {call : Call}
    (hfires : fires call = true) (hnow : call.now < call.deadline)
    (hrunning : ∀ expiry ∈ running previous call.now, call.deadline ≤ expiry) :
    Held call.deadline (step stableHash previous call) := by
  have hmode : (carryOver previous call.now (assess call)).mode = .observeOnly :=
    carryOver_observes (.inl ((assess_mode call).mpr hfires))
  have hcool : 0 < call.settings.riskCooldownSec := by
    unfold Call.deadline at hnow
    linarith
  refine ⟨observing_step stableHash hmode, ?_⟩
  cases hrun : running previous call.now with
  | none =>
    refine ⟨call.deadline, ?_, le_refl _⟩
    simp [step, decide, carryOver_cooldown, hrun, assess_cooldown, hfires, hcool]
  | some expiry =>
    refine ⟨expiry, ?_, hrunning expiry hrun⟩
    simp [step, decide, carryOver_cooldown, hrun]

/-- In the order of their times. -/
def Chronological (calls : List Call) : Prop := calls.Pairwise fun a b => a.now ≤ b.now

instance (calls : List Call) : Decidable (Chronological calls) :=
  inferInstanceAs (Decidable (calls.Pairwise fun a b => a.now ≤ b.now))

/-- Every decision before the deadline of the trigger, in every run that goes on from it. -/
def Honoured (previous : Option CycleRiskOutput) (trigger : Call) : Prop :=
  ∀ later, Chronological (trigger :: later) →
    ((trigger :: later).getLast (List.cons_ne_nil _ _)).now < trigger.deadline →
    Observing (Runs.run (step stableHash) previous (trigger :: later))

/-- The deadline of a running cooldown is never moved earlier. -/
def NeverEarlier (previous : Option CycleRiskOutput) : Prop :=
  ∀ call, ∀ expiry ∈ running previous call.now,
    ∃ later ∈ (step stableHash previous call).bind CycleRiskOutput.cooldownUntil, expiry ≤ later

theorem neverEarlier (previous : Option CycleRiskOutput) : NeverEarlier stableHash previous := by
  intro call expiry hrun
  refine ⟨expiry, ?_, le_refl _⟩
  simp [step, decide, carryOver_cooldown, Option.mem_def.mp hrun]

def quietCall (now : Instant) : Call := ⟨{ killSwitch := false }, now, {}⟩

/-- Once the cooldown taken over has run out, a quiet call submits again. -/
theorem quiet_step {previous : Option CycleRiskOutput} {now : Instant}
    (hdone : running previous now = none) :
    ¬ Observing (step stableHash previous (quietCall now)) := by
  have hquiet : (assess (quietCall now)).mode ≠ .observeOnly := by
    rw [Ne, assess_mode]
    simp [fires, quietCall, staleAge]
  rintro ⟨output, houtput, hmode, -⟩
  obtain rfl := Option.some.inj houtput
  exact carryOver_quiet hquiet hdone hmode

/-- In any run, from any decision, a trigger is honoured whatever follows it exactly when no
cooldown that ends before its own is running. No deadline is ever moved earlier. -/
theorem cooldown_honoured_iff (start : Option CycleRiskOutput) (before : List Call)
    (trigger : Call) (hfires : fires trigger = true) :
    (Honoured stableHash (Runs.run (step stableHash) start before) trigger ∧
        NeverEarlier stableHash (Runs.run (step stableHash) start before)) ↔
      ∀ expiry ∈ running (Runs.run (step stableHash) start before) trigger.now,
        trigger.deadline ≤ expiry := by
  generalize Runs.run (step stableHash) start before = previous
  constructor
  · rintro ⟨hhonoured, -⟩ expiry hrun
    by_contra hends
    have hnow : trigger.now < expiry := by
      simpa using (Option.filter_eq_some_iff.mp (Option.mem_def.mp hrun)).2
    -- the deadline of the trigger was replaced by the earlier one, at which a quiet call submits
    have hkept : (decide stableHash trigger previous).cooldownUntil = some expiry := by
      simp [decide, carryOver_cooldown, Option.mem_def.mp hrun]
    have hdone : running (step stableHash previous trigger) expiry = none := by
      simp [running, step, hkept]
    refine quiet_step stableHash hdone (hhonoured [quietCall expiry] ?_ ?_)
    · exact List.pairwise_pair.mpr hnow.le
    · exact not_le.mp hends
  · intro hrunning
    refine ⟨fun later hsorted hlast => ?_, neverEarlier stableHash previous⟩
    have hle : ∀ call ∈ trigger :: later, call.now < trigger.deadline := by
      intro call hin
      exact (hsorted.rel_getLast_of_rel_getLast_getLast hin (le_refl _)).trans_lt hlast
    have hheld := held_trigger stableHash hfires (hle trigger List.mem_cons_self) hrunning
    refine (held_run stableHash later hheld fun call hin => ?_).1
    exact hle call (List.mem_cons_of_mem trigger hin)

def degradedCall (now : Instant) : Call :=
  ⟨{ killSwitch := false }, now, { exchangeDegraded := true }⟩

theorem single_trigger_honoured :
    (∀ expiry ∈ running (Runs.run (step fun _ => "") none [quietCall 0]) 60000000,
      (degradedCall 60000000).deadline ≤ expiry) ∧
    Honoured (fun _ => "") (Runs.run (step fun _ => "") none [quietCall 0])
      (degradedCall 60000000) := by
  have hnone : ∀ expiry ∈ running (Runs.run (step fun _ => "") none [quietCall 0]) 60000000,
      (degradedCall 60000000).deadline ≤ expiry := by decide +kernel
  exact ⟨hnone, ((cooldown_honoured_iff (fun _ => "") none [quietCall 0] (degradedCall 60000000)
    rfl).mpr hnone).1⟩

/-- Degraded at the start and ten minutes on, submitting again after a quarter of an hour. -/
theorem second_trigger_dropped :
    ¬ Honoured (fun _ => "") (Runs.run (step fun _ => "") none [degradedCall 0])
      (degradedCall 600000000) := by
  intro h
  have hobserving := h [quietCall 1000000000] (by decide +kernel) (by decide +kernel)
  obtain ⟨output, houtput, hmode, -⟩ := hobserving
  obtain rfl := Option.some.inj houtput
  revert hmode
  decide +kernel

end Runs

end RiskCooldown
