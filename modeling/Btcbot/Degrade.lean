import Btcbot.PyData
import Mathlib.Data.List.Dedup
import Mathlib.Data.List.Sort
import Mathlib.Data.Rat.Defs

/-!
# Degrade decisions

A decision is a row of the level policy. An active cooldown is looked at before
anything else: it renews the level it holds, whatever the anomalies are.
-/
namespace Degrade

inductive Mode where
  | normal
  | reduceRiskOnly
  | observeOnly
  deriving DecidableEq, Repr

inductive AnomalyCode where
  | staleMarketData
  | exchangeLatencySpike
  | orderRejectSpike
  | clockSkew
  | cursorStall
  | pnlDivergence
  | manualOverride
  deriving DecidableEq, Repr

def AnomalyCode.value : AnomalyCode → String
  | .staleMarketData => "STALE_MARKET_DATA"
  | .exchangeLatencySpike => "EXCHANGE_LATENCY_SPIKE"
  | .orderRejectSpike => "ORDER_REJECT_SPIKE"
  | .clockSkew => "CLOCK_SKEW"
  | .cursorStall => "CURSOR_STALL"
  | .pnlDivergence => "PNL_DIVERGENCE"
  | .manualOverride => "MANUAL_OVERRIDE"

inductive Severity where
  | warn
  | error
  deriving DecidableEq, Repr

structure AnomalyEvent where
  code : AnomalyCode
  severity : Severity
  deriving DecidableEq, Repr

/-- Microseconds since the epoch. -/
abbrev Instant := ℤ

structure DegradeDecision where
  modeOverride : Option Mode
  reasons : List String
  cooldownUntil : Option Instant
  level : ℤ
  shrinkNotionalFactor : ℚ
  universeCap : Option ℕ
  recoveryStreak : ℤ
  deriving DecidableEq, Repr

structure DegradeInput where
  anomalies : List AnomalyEvent
  now : Instant
  currentOverride : Option Mode
  cooldownUntil : Option Instant
  lastReasons : Option (List String)
  recentWarnCount : ℤ
  warnThreshold : ℤ
  warnCodes : List AnomalyCode
  recentWarnCodes : List AnomalyCode
  previousLevel : ℤ := 0
  breakerOpen : Bool := false
  freezeActive : Bool := false
  stabilityStreak : ℤ := 0

/-- The sorted texts of a set. -/
def sortedSet (texts : List String) : List String := texts.dedup.insertionSort (· ≤ ·)

structure LevelPolicy where
  mode : Option Mode
  factor : ℚ
  universeCap : Option ℕ
  cooldownSeconds : ℤ

def levelPolicy (level : ℤ) : LevelPolicy :=
  if 3 ≤ level then ⟨some .observeOnly, 0, some 2, 1800⟩
  else if level = 2 then ⟨some .reduceRiskOnly, 1 / 4, some 4, 900⟩
  else if level = 1 then ⟨some .reduceRiskOnly, 1 / 2, some 8, 900⟩
  else ⟨none, 1, none, 0⟩

/-- The cooldown of a level, in microseconds. -/
def cooldown (level : ℤ) : ℤ := (levelPolicy level).cooldownSeconds * 1000000

def build (now : Instant) (level : ℤ) (reasons : List String) (recovery : ℤ) : DegradeDecision where
  modeOverride := (levelPolicy level).mode
  reasons := reasons
  cooldownUntil := if 1 ≤ level then some (now + cooldown level) else none
  level := level
  shrinkNotionalFactor := (levelPolicy level).factor
  universeCap := (levelPolicy level).universeCap
  recoveryStreak := recovery

def levelFromOverride : Option Mode → ℤ
  | some .observeOnly => 3
  | some .reduceRiskOnly => 1
  | _ => 0

/-- An empty set of warn codes allows every code. -/
def allowedWarnCode (input : DegradeInput) (code : AnomalyCode) : Bool :=
  input.warnCodes.isEmpty || code ∈ input.warnCodes

def filteredCurrentWarnCodes (input : DegradeInput) : List AnomalyCode :=
  (input.anomalies.filter fun event =>
    event.severity = .warn ∧ allowedWarnCode input event.code).map AnomalyEvent.code

def filteredRecentWarnCodes (input : DegradeInput) : List AnomalyCode :=
  input.recentWarnCodes.filter (allowedWarnCode input)

def CooldownActive (input : DegradeInput) : Prop :=
  ∃ expiry ∈ input.cooldownUntil, input.now < expiry

instance (input : DegradeInput) : Decidable (CooldownActive input) := by
  unfold CooldownActive
  cases input.cooldownUntil with
  | none => exact .isFalse (by simp)
  | some expiry => exact decidable_of_iff (input.now < expiry) (by simp)

def Critical (input : DegradeInput) : Prop :=
  input.breakerOpen = true ∨ input.freezeActive = true ∨
    ∃ event ∈ input.anomalies, event.severity = .error

instance (input : DegradeInput) : Decidable (Critical input) := by
  unfold Critical
  infer_instance

def criticalReasons (input : DegradeInput) : List String :=
  sortedSet (sortedSet (input.anomalies.map (·.code.value)) ++
    (if input.breakerOpen then ["BREAKER_OPEN"] else []) ++
    (if input.freezeActive then ["STAGE4_FREEZE_ACTIVE"] else []))

def warnCountForThreshold (input : DegradeInput) : ℤ :=
  if filteredCurrentWarnCodes input = [] ∧ filteredRecentWarnCodes input = [] then 0
  else input.recentWarnCount

def warnReasons (input : DegradeInput) : List String :=
  sortedSet ((filteredRecentWarnCodes input).map AnomalyCode.value)

/-- Stable cycles before a level is left. -/
def requiredStability (level : ℤ) : ℤ := if level = 1 then 8 else 4

def decideDegrade (input : DegradeInput) : DegradeDecision :=
  let lastReasons := input.lastReasons.getD []
  if CooldownActive input ∧ 1 ≤ input.previousLevel then
    build input.now input.previousLevel lastReasons input.stabilityStreak
  else if CooldownActive input then
    build input.now (levelFromOverride input.currentOverride) lastReasons input.stabilityStreak
  else if Critical input then build input.now 3 (criticalReasons input) 0
  else if input.warnThreshold * 2 ≤ warnCountForThreshold input then
    build input.now 2 (warnReasons input) 0
  else if input.warnThreshold ≤ warnCountForThreshold input then
    build input.now 1 (if warnReasons input = [] then lastReasons else warnReasons input) 0
  else if 1 ≤ input.previousLevel then
    if input.stabilityStreak + 1 < requiredStability input.previousLevel then
      build input.now input.previousLevel lastReasons (input.stabilityStreak + 1)
    else build input.now (input.previousLevel - 1) [] 0
  else build input.now 0 [] 0

@[simp] theorem build_level (now : Instant) (level : ℤ) (reasons : List String) (recovery : ℤ) :
    (build now level reasons recovery).level = level := rfl

@[simp] theorem build_recoveryStreak (now : Instant) (level : ℤ) (reasons : List String)
    (recovery : ℤ) : (build now level reasons recovery).recoveryStreak = recovery := rfl

theorem build_observeOnly (now : Instant) (level : ℤ) (reasons : List String) (recovery : ℤ) :
    (build now level reasons recovery).modeOverride = some .observeOnly ↔ 3 ≤ level := by
  show (levelPolicy level).mode = _ ↔ _
  unfold levelPolicy
  split
  · next h => exact ⟨fun _ => h, fun _ => rfl⟩
  · next h =>
    refine ⟨fun hm => ?_, fun h' => absurd h' h⟩
    split at hm
    · cases hm
    · split at hm <;> cases hm

section Masking

/-- The level an active cooldown holds. -/
def heldLevel (input : DegradeInput) : ℤ :=
  if 1 ≤ input.previousLevel then input.previousLevel else levelFromOverride input.currentOverride

/-- The level the current conditions ask for. -/
def demandedLevel (input : DegradeInput) : ℤ :=
  if Critical input then 3
  else if input.warnThreshold * 2 ≤ warnCountForThreshold input then 2
  else if input.warnThreshold ≤ warnCountForThreshold input then 1
  else 0

/-- How restrictive a decision is: from level 3 on the policy is the same. -/
def restriction (decision : DegradeDecision) : ℤ := min decision.level 3

theorem levelFromOverride_nonneg (override : Option Mode) : 0 ≤ levelFromOverride override := by
  unfold levelFromOverride
  split <;> omega

theorem heldLevel_nonneg (input : DegradeInput) : 0 ≤ heldLevel input := by
  unfold heldLevel
  split
  · omega
  · exact levelFromOverride_nonneg _

theorem decideDegrade_active {input : DegradeInput} (h : CooldownActive input) :
    decideDegrade input =
      build input.now (heldLevel input) (input.lastReasons.getD []) input.stabilityStreak := by
  unfold decideDegrade heldLevel
  by_cases hlevel : 1 ≤ input.previousLevel
  · simp only [h, hlevel, and_self, if_true]
  · simp only [h, hlevel, and_false, if_false, if_true]

/-- Without a cooldown a decision meets the demand, and does not go past what is held. -/
theorem decideDegrade_inactive {input : DegradeInput} (h : ¬ CooldownActive input) :
    demandedLevel input ≤ (decideDegrade input).level ∧
      (decideDegrade input).level ≤ max (demandedLevel input) (heldLevel input) ∧
      (Critical input → (decideDegrade input).level = 3) := by
  have hheld := heldLevel_nonneg input
  unfold decideDegrade demandedLevel
  simp only [h, false_and, if_false]
  by_cases hcritical : Critical input
  · simp only [hcritical, if_true, build_level]
    exact ⟨le_rfl, le_max_left _ _, fun _ => trivial⟩
  · simp only [hcritical, if_false, false_implies, and_true]
    split
    · exact ⟨le_rfl, le_max_left _ _⟩
    · split
      · exact ⟨le_rfl, le_max_left _ _⟩
      · split
        · next hlevel =>
          have hsame : heldLevel input = input.previousLevel := if_pos hlevel
          split <;> simp only [build_level] <;> omega
        · exact ⟨le_rfl, le_max_left _ _⟩

/-- Critical conditions give the most restrictive mode, and a cooldown never gives
less than the same conditions without it. -/
def NotMasked (input : DegradeInput) : Prop :=
  (Critical input → (decideDegrade input).modeOverride = some .observeOnly) ∧
    restriction (decideDegrade { input with cooldownUntil := none }) ≤
      restriction (decideDegrade input)

/-- A cooldown masks nothing just when it holds what is asked for. -/
theorem not_masked_iff (input : DegradeInput) :
    NotMasked input ↔ (CooldownActive input → demandedLevel input ≤ heldLevel input) := by
  have hnone : ¬ CooldownActive { input with cooldownUntil := none } := by
    rintro ⟨expiry, hexpiry, -⟩
    cases hexpiry
  obtain ⟨hlow, hhigh, -⟩ := decideDegrade_inactive hnone
  have hdemand : demandedLevel { input with cooldownUntil := none } = demandedLevel input := rfl
  have hheld : heldLevel { input with cooldownUntil := none } = heldLevel input := rfl
  rw [hdemand] at hlow hhigh
  rw [hheld] at hhigh
  have hbound : demandedLevel input ≤ 3 := by
    unfold demandedLevel
    split
    · exact le_rfl
    · split
      · omega
      · split <;> omega
  by_cases hactive : CooldownActive input
  · have hresult := decideDegrade_active hactive
    simp only [NotMasked, restriction, hresult, build_observeOnly, build_level, hactive,
      true_implies]
    constructor
    · rintro ⟨-, hmono⟩
      omega
    · intro hle
      refine ⟨fun hcritical => ?_, by omega⟩
      have hthree : demandedLevel input = 3 := if_pos hcritical
      omega
  · obtain ⟨hlow', -, hcritical⟩ := decideDegrade_inactive hactive
    refine ⟨fun _ h => absurd h hactive, fun _ => ⟨fun h => ?_, ?_⟩⟩
    · have hthree := hcritical h
      unfold decideDegrade
      simp only [hactive, false_and, if_false, h, if_true]
      exact (build_observeOnly _ _ _ _).mpr le_rfl
    · have hsame : decideDegrade { input with cooldownUntil := none } = decideDegrade input := by
        unfold decideDegrade
        simp only [hnone, hactive, false_and, if_false]
        rfl
      rw [hsame]

/-- The breaker opens while a cooldown of level 1 runs. -/
def maskedBreaker : DegradeInput where
  anomalies := []
  now := 0
  currentOverride := some .reduceRiskOnly
  cooldownUntil := some 300000000
  lastReasons := some ["ORDER_REJECT_SPIKE"]
  recentWarnCount := 0
  warnThreshold := 3
  warnCodes := [.orderRejectSpike]
  recentWarnCodes := []
  previousLevel := 1
  breakerOpen := true

theorem breaker_masked : Critical maskedBreaker ∧
    (decideDegrade maskedBreaker).modeOverride = some .reduceRiskOnly ∧
    ¬ NotMasked maskedBreaker :=
  ⟨by decide, by decide +kernel, fun h => absurd (h.1 (by decide)) (by decide +kernel)⟩

end Masking

section Recovery

/-- What stays the same from one quiet cycle to the next. -/
structure QuietConfig where
  warnThreshold : ℤ
  warnCodes : List AnomalyCode
  recentWarnCodes : List AnomalyCode
  /-- Microseconds between cycles. -/
  spacing : ℤ

/-- A cycle without anomalies that is fed the last decision. -/
def quietInput (config : QuietConfig) (last : DegradeDecision) (now : Instant) : DegradeInput where
  anomalies := []
  now := now
  currentOverride := last.modeOverride
  cooldownUntil := last.cooldownUntil
  lastReasons := some last.reasons
  recentWarnCount := 0
  warnThreshold := config.warnThreshold
  warnCodes := config.warnCodes
  recentWarnCodes := config.recentWarnCodes
  previousLevel := last.level
  stabilityStreak := last.recoveryStreak

def quietCycle (config : QuietConfig) (last : DegradeDecision) (now : Instant) : DegradeDecision :=
  decideDegrade (quietInput config last now)

/-- The decision after a number of quiet cycles, the first at `now`. -/
def quietRun (config : QuietConfig) : ℕ → Instant → DegradeDecision → DegradeDecision
  | 0, _, last => last
  | cycles + 1, now, last =>
    quietRun config cycles (now + config.spacing) (quietCycle config last now)

/-- Some number of quiet cycles leads to level 0. -/
def Recovers (config : QuietConfig) (now : Instant) (last : DegradeDecision) : Prop :=
  ∃ cycles, (quietRun config cycles now last).level = 0

theorem Recovers.of_next {config : QuietConfig} {now : Instant} {last : DegradeDecision}
    (h : Recovers config (now + config.spacing) (quietCycle config last now)) :
    Recovers config now last := by
  obtain ⟨cycles, hlevel⟩ := h
  exact ⟨cycles + 1, hlevel⟩

theorem Recovers.of_zero {config : QuietConfig} {now : Instant} {last : DegradeDecision}
    (h : last.level = 0) : Recovers config now last := ⟨0, h⟩

/-- A decision as built at a time. -/
structure BuiltAt (now : Instant) (level streak : ℤ) (decision : DegradeDecision) : Prop where
  level_eq : decision.level = level
  cooldown_eq : decision.cooldownUntil = some (now + cooldown level)
  streak_eq : decision.recoveryStreak = streak

theorem build_builtAt (now : Instant) {level : ℤ} (h : 1 ≤ level) (reasons : List String)
    (recovery : ℤ) : BuiltAt now level recovery (build now level reasons recovery) :=
  ⟨rfl, if_pos h, rfl⟩

section Cycle

variable {config : QuietConfig} {last : DegradeDecision} {now : Instant}

theorem quietInput_not_critical : ¬ Critical (quietInput config last now) := by
  simp [Critical, quietInput]

theorem quietInput_warnCount : warnCountForThreshold (quietInput config last now) = 0 := by
  unfold warnCountForThreshold
  split <;> rfl

/-- A running cooldown renews itself. -/
theorem quietCycle_active (hactive : CooldownActive (quietInput config last now))
    (hlevel : 1 ≤ heldLevel (quietInput config last now)) :
    BuiltAt now (heldLevel (quietInput config last now)) last.recoveryStreak
      (quietCycle config last now) := by
  unfold quietCycle
  rw [decideDegrade_active hactive]
  exact build_builtAt now hlevel _ _

/-- Past the cooldown a level is kept until it has been stable long enough. -/
theorem quietCycle_inactive (hthreshold : 1 ≤ config.warnThreshold)
    (hactive : ¬ CooldownActive (quietInput config last now)) :
    quietCycle config last now =
      if 1 ≤ last.level then
        if last.recoveryStreak + 1 < requiredStability last.level then
          build now last.level last.reasons (last.recoveryStreak + 1)
        else build now (last.level - 1) [] 0
      else build now 0 [] 0 := by
  have hdouble : ¬ config.warnThreshold * 2 ≤ 0 := by omega
  have hsingle : ¬ config.warnThreshold ≤ 0 := by omega
  unfold quietCycle decideDegrade
  simp only [hactive, false_and, if_false, quietInput_not_critical, quietInput_warnCount]
  simp only [quietInput, hdouble, hsingle, if_false, Option.getD_some]
  rfl

theorem BuiltAt.active_iff {level streak : ℤ} (h : BuiltAt now level streak last) :
    CooldownActive (quietInput config last (now + config.spacing)) ↔
      config.spacing < cooldown level := by
  simp only [CooldownActive, quietInput, h.cooldown_eq, Option.mem_some_iff, exists_eq_left']
  show now + config.spacing < now + cooldown level ↔ _
  exact ⟨Int.lt_of_add_lt_add_left, fun h => Int.add_lt_add_left h now⟩

end Cycle

section Outcome

variable {config : QuietConfig}

/-- A lower level has no longer cooldown. -/
theorem cooldown_mono {lower level : ℤ} (h : lower ≤ level) : cooldown lower ≤ cooldown level := by
  have hvalue : ∀ level : ℤ, cooldown level =
      if 3 ≤ level then 1800000000 else if level = 2 then 900000000
      else if level = 1 then 900000000 else 0 := by
    intro level
    unfold cooldown levelPolicy
    split
    · rfl
    · split
      · rfl
      · split <;> rfl
  rw [hvalue, hvalue]
  split_ifs <;> omega

/-- Closer cycles than the cooldown of a level never leave it. -/
theorem BuiltAt.stuck {level streak : ℤ} (hlevel : 1 ≤ level)
    (hspacing : config.spacing < cooldown level) (cycles : ℕ) {now : Instant}
    {last : DegradeDecision} (h : BuiltAt now level streak last) :
    (quietRun config cycles (now + config.spacing) last).level = level := by
  induction cycles generalizing now last streak with
  | zero => exact h.level_eq
  | succ cycles ih =>
    have hactive := h.active_iff.mpr hspacing
    have hheld : heldLevel (quietInput config last (now + config.spacing)) = level := by
      show (if 1 ≤ last.level then last.level else _) = level
      rw [h.level_eq, if_pos hlevel]
    have hnext := quietCycle_active hactive (hheld ▸ hlevel)
    rw [hheld] at hnext
    exact ih hnext

theorem BuiltAt.not_recovers {level streak : ℤ} (hlevel : 1 ≤ level)
    (hspacing : config.spacing < cooldown level) {now : Instant} {last : DegradeDecision}
    (h : BuiltAt now level streak last) : ¬ Recovers config (now + config.spacing) last := by
  rintro ⟨cycles, hzero⟩
  rw [h.stuck hlevel hspacing cycles] at hzero
  omega

/-- Past its cooldown a level is left after its stable cycles: by induction on those
still missing. -/
theorem BuiltAt.leaves (hthreshold : 1 ≤ config.warnThreshold) {level : ℤ} (hlevel : 1 ≤ level)
    (hspacing : cooldown level ≤ config.spacing)
    (hlower : ∀ now reasons, Recovers config (now + config.spacing) (build now (level - 1) reasons 0))
    (missing : ℕ) {streak : ℤ} {now : Instant} {last : DegradeDecision}
    (h : BuiltAt now level streak last)
    (hmissing : requiredStability level ≤ streak + 1 + missing) :
    Recovers config (now + config.spacing) last := by
  induction missing generalizing now last streak with
  | zero =>
    have hinactive := h.active_iff.not.mpr (not_lt.mpr hspacing)
    apply Recovers.of_next
    rw [quietCycle_inactive hthreshold hinactive, h.level_eq, h.streak_eq, if_pos hlevel,
      if_neg (by omega)]
    exact hlower _ _
  | succ missing ih =>
    have hinactive := h.active_iff.not.mpr (not_lt.mpr hspacing)
    apply Recovers.of_next
    rw [quietCycle_inactive hthreshold hinactive, h.level_eq, h.streak_eq, if_pos hlevel]
    split
    · exact ih (build_builtAt _ hlevel _ _) (by push_cast at hmissing; omega)
    · exact hlower _ _

/-- From level to level down to 0. -/
theorem build_recovers (hthreshold : 1 ≤ config.warnThreshold) (steps : ℕ) :
    cooldown steps ≤ config.spacing → ∀ (now : Instant) (reasons : List String) (streak : ℤ),
      Recovers config (now + config.spacing) (build now steps reasons streak) := by
  induction steps with
  | zero => exact fun _ now reasons streak => Recovers.of_zero rfl
  | succ steps ih =>
    intro hspacing now reasons streak
    have hlevel : (1 : ℤ) ≤ (steps + 1 : ℕ) := by omega
    have hbelow : ((steps + 1 : ℕ) : ℤ) - 1 = steps := by omega
    have hlower := ih (le_trans (cooldown_mono (by omega)) hspacing)
    have hbuilt := build_builtAt now hlevel reasons streak
    refine hbuilt.leaves hthreshold hlevel hspacing (fun now reasons => ?_)
      (requiredStability (steps + 1 : ℕ) - streak - 1).toNat (by omega)
    rw [hbelow]
    exact hlower _ _ _

/-- What a decision built at a level comes to, by its cooldown. -/
theorem build_recovers_iff (hthreshold : 1 ≤ config.warnThreshold) (hspacing : 0 < config.spacing)
    {level : ℤ} (hlevel : 0 ≤ level) (now : Instant) (reasons : List String) (streak : ℤ) :
    Recovers config (now + config.spacing) (build now level reasons streak) ↔
      cooldown level ≤ config.spacing := by
  constructor
  · intro hrecovers
    by_contra hlong
    have hpos : 1 ≤ level := by
      by_contra hzero
      have : level = 0 := by omega
      rw [this] at hlong
      exact hlong (le_of_lt hspacing)
    exact (build_builtAt now hpos reasons streak).not_recovers hpos (by omega) hrecovers
  · intro hshort
    obtain ⟨steps, rfl⟩ := Int.eq_ofNat_of_zero_le hlevel
    exact build_recovers hthreshold steps hshort now reasons streak

/-- Fed back on quiet cycles, the decisions reach level 0 just when the first of them
is not at a level whose cooldown outlasts the spacing. -/
theorem recovers_iff (hthreshold : 1 ≤ config.warnThreshold) (hspacing : 0 < config.spacing)
    (now : Instant) (last : DegradeDecision) :
    Recovers config (now + config.spacing) (quietCycle config last now) ↔
      (CooldownActive (quietInput config last now) →
        cooldown (heldLevel (quietInput config last now)) ≤ config.spacing) ∧
      (¬ CooldownActive (quietInput config last now) → 1 ≤ last.level →
        if last.recoveryStreak + 1 < requiredStability last.level
        then cooldown last.level ≤ config.spacing
        else cooldown (last.level - 1) ≤ config.spacing) := by
  by_cases hactive : CooldownActive (quietInput config last now)
  · simp only [hactive, true_implies, not_true_eq_false, false_implies, and_true]
    rw [quietCycle, decideDegrade_active hactive]
    exact build_recovers_iff hthreshold hspacing (heldLevel_nonneg _) _ _ _
  · simp only [hactive, false_implies, not_false_eq_true, true_implies, true_and]
    rw [quietCycle_inactive hthreshold hactive]
    by_cases hlevel : 1 ≤ last.level
    · rw [if_pos hlevel]
      simp only [hlevel, true_implies]
      split
      · exact build_recovers_iff hthreshold hspacing (by omega) _ _ _
      · exact build_recovers_iff hthreshold hspacing (by omega) _ _ _
    · rw [if_neg hlevel]
      exact iff_of_true (Recovers.of_zero rfl) (fun h => absurd h hlevel)

end Outcome

/-- A minute between cycles. -/
def minuteCycles : QuietConfig where
  warnThreshold := 3
  warnCodes := []
  recentWarnCodes := []
  spacing := 60000000

/-- Level 1 as just decided. -/
def lastReduced : DegradeDecision := build 0 1 ["ORDER_REJECT_SPIKE"] 0

theorem recovers_iff_reduced :
    Recovers minuteCycles (60000000 + 60000000) (quietCycle minuteCycles lastReduced 60000000) ↔
      (CooldownActive (quietInput minuteCycles lastReduced 60000000) →
        cooldown (heldLevel (quietInput minuteCycles lastReduced 60000000)) ≤ 60000000) ∧
      (¬ CooldownActive (quietInput minuteCycles lastReduced 60000000) → 1 ≤ lastReduced.level →
        if lastReduced.recoveryStreak + 1 < requiredStability lastReduced.level
        then cooldown lastReduced.level ≤ 60000000
        else cooldown (lastReduced.level - 1) ≤ 60000000) :=
  @recovers_iff minuteCycles (by decide) (by decide) 60000000 lastReduced

/-- Every minute renews the quarter of an hour. -/
theorem reduced_never_recovers : lastReduced.level = 1 ∧
    ∀ cycles, (quietRun minuteCycles cycles 60000000 lastReduced).level ≠ 0 := by
  have hbuilt : BuiltAt 0 1 0 lastReduced := build_builtAt 0 le_rfl _ _
  refine ⟨rfl, fun cycles hzero => ?_⟩
  exact @BuiltAt.not_recovers minuteCycles 1 0 le_rfl (by decide) 0 lastReduced hbuilt
    ⟨cycles, hzero⟩

end Recovery

end Degrade
