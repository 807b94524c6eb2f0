import Btcbot.AdaptationService
import Btcbot.Runs
import Mathlib.Tactic.NormNum

/-!
# Versions and checkpoints over a run of adaptations

A version is marked when it is left for a lower one, so no checkpoint above the active
version is good and the last good one is below it. The version an update takes is the one
after the active version, which may name other parameters since a rollback.
-/
namespace AdaptationService

open Decimals

section Bounds

variable (settings : Settings ℚ)

/-- What the bounds of the parameters say. -/
structure WithinParamBounds (params : Stage7Params ℚ) : Prop where
  universeSize : 5 ≤ params.universeSize ∧ params.universeSize ≤ 50
  scoreWeights : ∃ liquidity spread volatility : ℚ, 0 ≤ liquidity ∧ 0 ≤ spread ∧ 0 ≤ volatility ∧
    liquidity + spread + volatility = 1 ∧ params.scoreWeights = weightsOf liquidity spread volatility
  orderOffsetBps : 0 ≤ params.orderOffsetBps ∧ params.orderOffsetBps ≤ 50
  turnoverCapTry : 0 ≤ params.turnoverCapTry ∧
    params.turnoverCapTry ≤ max 0 settings.notionalCapTryPerCycle
  maxOrdersPerCycle : 1 ≤ params.maxOrdersPerCycle ∧ params.maxOrdersPerCycle ≤ 20
  maxSpreadBps : 10 ≤ params.maxSpreadBps ∧ params.maxSpreadBps ≤ 500
  cashTargetTry : min settings.tryCashMax 0 ≤ params.cashTargetTry ∧
    params.cashTargetTry ≤ settings.tryCashMax
  minQuoteVolumeTry : 0 ≤ params.minQuoteVolumeTry

theorem normalizeWeights_spec (weights : PyData.Dict ℚ) :
    ∃ liquidity spread volatility : ℚ, 0 ≤ liquidity ∧ 0 ≤ spread ∧ 0 ≤ volatility ∧
      liquidity + spread + volatility = 1 ∧
      normalizeWeights weights = weightsOf liquidity spread volatility := by
  unfold normalizeWeights
  simp only [lit_zero, lit_one, larger_eq_max, smaller_eq_min, zero_add]
  split
  · exact ⟨lit 5 1, lit 3 1, lit 2 1, by norm_num [lit], by norm_num [lit], by norm_num [lit],
      by norm_num [lit], rfl⟩
  · next htotal =>
    have hpos := (less_iff _ _).mp ((Bool.not_eq_false _).mp (by simpa using htotal))
    have hclipped (value : ℚ) : 0 ≤ min 1 (max 0 value) := le_min zero_le_one (le_max_left 0 value)
    refine ⟨_, _, _, div_nonneg (hclipped _) hpos.le, div_nonneg (hclipped _) hpos.le,
      div_nonneg (hclipped _) hpos.le, ?_, rfl⟩
    rw [← add_div, ← add_div]
    exact div_self hpos.ne'

theorem applyBounds_within (params : Stage7Params ℚ) :
    WithinParamBounds settings (applyBounds settings params) := by
  constructor
  · simp [applyBounds]
  · exact normalizeWeights_spec params.scoreWeights
  · simp [applyBounds]
  · simp only [applyBounds, lit_zero, larger_eq_max, smaller_eq_min]
    exact ⟨le_min (le_max_left _ _) (le_max_left _ _), min_le_left _ _⟩
  · simp [applyBounds]
  · simp [applyBounds]
  · simp only [applyBounds, lit_zero, larger_eq_max, smaller_eq_min]
    exact ⟨min_le_min_left _ (le_max_left _ _), min_le_left _ _⟩
  · simp only [applyBounds, lit_zero, larger_eq_max]
    exact le_max_left 0 _

/-- The bounds do not look at the version or the time. -/
theorem WithinParamBounds.renamed {params : Stage7Params ℚ} (h : WithinParamBounds settings params)
    (version updatedAt : ℤ) :
    WithinParamBounds settings { params with version := version, updatedAt := updatedAt } :=
  ⟨h.1, h.2, h.3, h.4, h.5, h.6, h.7, h.8⟩

end Bounds

section Steps

variable {D : Type} [DecidableEq D] [DecimalOps D]
variable (settings : Settings D) (call : Call D) (world : World D)

/-- The update that a call proposes from the active parameters. -/
def candidate (active : Stage7Params D) : Stage7Params D :=
  (proposeUpdate settings (recent call) active call.nowUtc).1

/-- The call applies its update. -/
def applies (active : Stage7Params D) : Bool :=
  !hasRollbackTrigger (recent call) &&
    (recent call).head?.any (fun latest => latest.modeFinal = .normal &&
      not (["drawdown_breach", "reject_spike", "throttled"].any (flag latest.alertFlags))) &&
    (proposeUpdate settings (recent call) active call.nowUtc).2.changes ≠ []

/-- A call applies its update, goes back to a checkpoint, or leaves the store it read. -/
theorem evaluate_cases :
    let seeded := getActiveStage7Params settings call.nowUtc world
    (applies settings call seeded.2 = true ∧
      (evaluateAndApply settings call world).1 =
        setActiveStage7Params seeded.1 (candidate settings call seeded.2) ∧
      ∃ change, (evaluateAndApply settings call world).2 = .ok (some change) ∧
        change.outcome = .applied) ∨
    applies settings call seeded.2 = false ∧
      (evaluateAndApply settings call world = rollBack call seeded.1 seeded.2 ∨
        evaluateAndApply settings call world = (seeded.1, .ok none)) := by
  intro seeded
  have hseeded : getActiveStage7Params settings call.nowUtc world = seeded := rfl
  unfold evaluateAndApply applies
  simp only [hseeded]
  cases hrecent : recent call with
  | nil => simp
  | cons latest older =>
    simp only
    cases htrigger : hasRollbackTrigger (latest :: older) with
    | true => simp
    | false =>
      simp only [Bool.false_eq_true, if_false]
      unfold applyUpdate
      simp only
      split
      · next hmode => simp [hmode]
      · next hmode =>
        split
        · next hflags =>
          refine .inr ⟨?_, .inr rfl⟩
          simp only [List.head?_cons, Option.any_some, hflags]
          simp
        · next hflags =>
          rw [← hrecent]
          split
          · next hnone => simp [hnone]
          · next hsome =>
            refine .inl ⟨?_, rfl, _, rfl, rfl⟩
            rw [hrecent, List.head?_cons, Option.any_some, ← hrecent]
            simp only [not_not.mp hmode, Bool.eq_false_iff.mpr hflags]
            simpa using hsome

end Steps

section Store

variable {D : Type} {checkpoints : List (Checkpoint D)} {world : World D}

theorem mem_insertOrReplace {row other : Checkpoint D} :
    other ∈ insertOrReplace checkpoints row ↔
      other ∈ checkpoints ∧ other.version ≠ row.version ∨ other = row := by
  simp [insertOrReplace]

/-- A mark changes no parameters, and leaves the rows of other versions. -/
theorem mem_setGoodness {version : ℤ} (h : ∃ row ∈ checkpoints, row.version = version)
    {other : Checkpoint D} {isGood : Bool} :
    other ∈ setStage7CheckpointGoodness checkpoints version isGood ↔
      other ∈ checkpoints ∧ other.version ≠ version ∨
        ∃ row ∈ checkpoints, row.version = version ∧ other = { row with isGood := isGood } := by
  unfold setStage7CheckpointGoodness
  rw [if_pos (by simpa using h)]
  rw [List.mem_map]
  constructor
  · rintro ⟨row, hrow, rfl⟩
    split
    · next hversion => exact .inr ⟨row, hrow, hversion, rfl⟩
    · next hversion => exact .inl ⟨hrow, hversion⟩
  · rintro (⟨hother, hversion⟩ | ⟨row, hrow, hversion, rfl⟩)
    · exact ⟨other, hother, if_neg hversion⟩
    · exact ⟨row, hrow, if_pos hversion⟩

/-- The parameters of some row of a class, of which no row has a higher version. -/
theorem fromDict_newest {rows : List (Checkpoint D)} {params : Stage7Params D}
    (h : fromDict (newest rows) = .ok (some params)) :
    ∃ row ∈ rows, row.params = some params ∧ ∀ other ∈ rows, other.version ≤ row.version := by
  cases hrow : newest rows with
  | none =>
    rw [hrow] at h
    cases h
  | some row =>
    rw [hrow] at h
    obtain ⟨hmem, hmax⟩ := newest_max hrow
    refine ⟨row, hmem, ?_, hmax⟩
    unfold fromDict at h
    cases hparams : row.params with
    | none =>
      simp only [hparams] at h
      cases h
    | some stored =>
      simp only [hparams] at h
      exact Except.ok.inj h

/-- What the store holds between calls. -/
structure Sound (world : World D) : Prop where
  named : ∀ row ∈ world.checkpoints, ∀ params ∈ row.params, params.version = row.version
  stored : ∀ active ∈ world.active, ∃ row ∈ world.checkpoints, row.params = some active
  above : ∀ active ∈ world.active, ∀ row ∈ world.checkpoints, active.version < row.version →
    row.isGood = false
  start : world.active = none → world.checkpoints = []

/-- An activation keeps the store sound where no higher checkpoint is good. -/
theorem setActive_sound
    (hnamed : ∀ row ∈ world.checkpoints, ∀ params ∈ row.params, params.version = row.version)
    {params : Stage7Params D}
    (habove : ∀ row ∈ world.checkpoints, params.version < row.version → row.isGood = false) :
    Sound (setActiveStage7Params world params) := by
  constructor
  · intro row hrow stored hstored
    rcases mem_insertOrReplace.mp hrow with ⟨hrow, -⟩ | rfl
    · exact hnamed row hrow stored hstored
    · obtain rfl := Option.some.inj hstored
      rfl
  · intro active hactive
    obtain rfl := Option.some.inj hactive
    exact ⟨_, mem_insertOrReplace.mpr (.inr rfl), rfl⟩
  · intro active hactive row hrow hlt
    obtain rfl := Option.some.inj hactive
    rcases mem_insertOrReplace.mp hrow with ⟨hrow, -⟩ | rfl
    · exact habove row hrow hlt
    · exact absurd hlt (lt_irrefl _)
  · intro hnone
    cases hnone

theorem getActive_sound [DecimalOps D] (settings : Settings D) (now : Degrade.Instant)
    (h : Sound world) :
    Sound (getActiveStage7Params settings now world).1 ∧
      (getActiveStage7Params settings now world).1.active =
        some (getActiveStage7Params settings now world).2 := by
  unfold getActiveStage7Params
  cases hactive : world.active with
  | some active => exact ⟨h, hactive⟩
  | none =>
    refine ⟨setActive_sound h.named fun row hrow => ?_, rfl⟩
    rw [h.start hactive] at hrow
    cases hrow

/-- The row of the active version. -/
theorem Sound.active_row (h : Sound world) {active : Stage7Params D}
    (hactive : world.active = some active) :
    ∃ row ∈ world.checkpoints, row.version = active.version := by
  obtain ⟨row, hrow, hparams⟩ := h.stored active hactive
  exact ⟨row, hrow, (h.named row hrow active hparams).symm⟩

theorem marked_sound (h : Sound world) {active : Stage7Params D}
    (hactive : world.active = some active) : Sound (marked world active) := by
  have hmem {other : Checkpoint D} :=
    @mem_setGoodness D world.checkpoints active.version (h.active_row hactive) other false
  constructor
  · intro row hrow params hparams
    rcases hmem.mp hrow with ⟨hrow, -⟩ | ⟨old, hold, -, rfl⟩
    · exact h.named row hrow params hparams
    · exact h.named old hold params hparams
  · intro current hcurrent
    obtain rfl := Option.some.inj (hactive.symm.trans hcurrent)
    obtain ⟨row, hrow, hparams⟩ := h.stored active hactive
    have hversion := h.named row hrow active hparams
    exact ⟨_, hmem.mpr (.inr ⟨row, hrow, hversion.symm, rfl⟩), hparams⟩
  · intro current hcurrent row hrow hlt
    rcases hmem.mp hrow with ⟨hrow, -⟩ | ⟨row, -, -, rfl⟩
    · exact h.above current hcurrent row hrow hlt
    · rfl
  · intro hnone
    exact absurd (hactive.symm.trans hnone) (Option.some_ne_none active)

variable [DecidableEq D] [DecimalOps D]

/-- The checkpoint gone back to is good, below the version left, and above any other such. -/
theorem rollBack_cases (call : Call D) (h : Sound world) {active : Stage7Params D}
    (hactive : world.active = some active) :
    (∃ row ∈ world.checkpoints, ∃ checkpoint, row.isGood = true ∧ row.params = some checkpoint ∧
      row.version < active.version ∧
      (∀ other ∈ (marked world active).checkpoints, other.isGood = true →
        other.version ≤ row.version) ∧
      rollBack call world active = rollBackTo call (marked world active) active checkpoint) ∨
    (rollBack call world active).1 = marked world active ∧
      ∀ change, (rollBack call world active).2 ≠ .ok (some change) := by
  unfold rollBack
  simp only
  cases hlast : getLastGoodStage7ParamsCheckpoint (marked world active).checkpoints with
  | error error => exact .inr ⟨rfl, fun change hchange => by cases hchange⟩
  | ok last =>
    cases last with
    | none => exact .inr ⟨rfl, fun change hchange => by cases hchange⟩
    | some checkpoint =>
      obtain ⟨row, hrow, hparams, hmax⟩ := fromDict_newest hlast
      obtain ⟨hrow, hgood⟩ := List.mem_filter.mp hrow
      rcases (mem_setGoodness (h.active_row hactive)).mp hrow with ⟨hrow, hother⟩ | ⟨_, -, -, rfl⟩
      · have hversion : checkpoint.version = row.version := h.named row hrow checkpoint hparams
        have hbelow : row.version < active.version := by
          refine lt_of_le_of_ne (not_lt.mp fun habove => ?_) hother
          rw [h.above active hactive row hrow habove] at hgood
          cases hgood
        refine .inl ⟨row, hrow, checkpoint, hgood, hparams, hbelow, ?_, ?_⟩
        · exact fun other hin hisGood => hmax other (List.mem_filter.mpr ⟨hin, hisGood⟩)
        · exact if_neg (hversion ▸ hother)
      · cases hgood

/-- The version of an update that is applied follows the active one. -/
theorem candidate_version {settings : Settings D} {call : Call D} {active : Stage7Params D}
    (h : applies settings call active = true) :
    (candidate settings call active).version = active.version + 1 := by
  have hchanges : (proposeUpdate settings (recent call) active call.nowUtc).2.changes ≠ [] := by
    simp only [applies, Bool.and_eq_true, decide_eq_true_eq] at h
    exact h.2
  exact congrArg (active.version + ·) (if_pos hchanges)

theorem candidate_within (settings : Settings ℚ) (call : Call ℚ) (active : Stage7Params ℚ) :
    WithinParamBounds settings (candidate settings call active) :=
  (applyBounds_within settings _).renamed settings _ _

theorem evaluate_sound (settings : Settings D) (call : Call D) (h : Sound world) :
    Sound (evaluateAndApply settings call world).1 := by
  obtain ⟨hseeded, hactive⟩ := getActive_sound settings call.nowUtc h
  rcases evaluate_cases settings call world with ⟨happlies, heq, -⟩ | ⟨-, heq | heq⟩
  · rw [heq]
    refine setActive_sound hseeded.named fun row hrow hlt => ?_
    rw [candidate_version happlies] at hlt
    exact hseeded.above _ hactive row hrow (by omega)
  · rw [heq]
    have hmarked := marked_sound hseeded hactive
    rcases rollBack_cases call hseeded hactive with
      ⟨row, hrow, checkpoint, -, hparams, -, hmax, hback⟩ | ⟨hback, -⟩
    · rw [hback]
      refine setActive_sound hmarked.named fun other hother hlt => ?_
      rw [hseeded.named row hrow checkpoint hparams] at hlt
      exact Bool.eq_false_iff.mpr fun hgood => absurd (hmax other hother hgood) (not_le.mpr hlt)
    · rw [hback]
      exact hmarked
  · rw [heq]
    exact hseeded

end Store

section Calls

variable {D : Type} [DecidableEq D] [DecimalOps D]
variable (settings : Settings D) (call : Call D) {world : World D}

omit [DecidableEq D] in
/-- The store that a call reads is the one it is given, or holds the defaults alone. -/
theorem getActive_cases (now : Degrade.Instant) (h : Sound world) :
    let seeded := getActiveStage7Params settings now world
    (world.active = some seeded.2 ∧ seeded.1 = world) ∨
      world.active = none ∧ ∀ row ∈ seeded.1.checkpoints, row.version = seeded.2.version := by
  intro seeded
  cases hactive : world.active with
  | some active =>
    refine .inl ?_
    simp [seeded, getActiveStage7Params, hactive]
  | none =>
    refine .inr ⟨rfl, fun row hrow => ?_⟩
    simp only [seeded, getActiveStage7Params, hactive] at hrow ⊢
    rcases mem_insertOrReplace.mp hrow with ⟨hold, -⟩ | rfl
    · rw [h.start hactive] at hold
      cases hold
    · rfl

/-- A rollback is the outcome of going back, and of nothing else. -/
theorem rollBack_outcome {active : Stage7Params D} {change : ParamChange D} (h : Sound world)
    (hactive : world.active = some active)
    (hchange : (rollBack call world active).2 = .ok (some change)) :
    change.outcome = .rolledBack := by
  rcases rollBack_cases call h hactive with ⟨_, -, checkpoint, -, -, -, -, hback⟩ | ⟨-, hnone⟩
  · rw [hback] at hchange
    obtain rfl := Option.some.inj (Except.ok.inj hchange)
    rfl
  · exact absurd hchange (hnone change)

theorem rolledBack_spec {change : ParamChange D} (h : Sound world)
    (hchange : (evaluateAndApply settings call world).2 = .ok (some change))
    (hrolled : change.outcome = .rolledBack) :
    let seeded := getActiveStage7Params settings call.nowUtc world
    ∃ row ∈ seeded.1.checkpoints, ∃ checkpoint, row.isGood = true ∧
      row.params = some checkpoint ∧ row.version < seeded.2.version ∧
      evaluateAndApply settings call world =
        rollBackTo call (marked seeded.1 seeded.2) seeded.2 checkpoint := by
  intro seeded
  obtain ⟨hseeded, hactive⟩ := getActive_sound settings call.nowUtc h
  rcases evaluate_cases settings call world with ⟨-, -, applied, heq, houtcome⟩ | ⟨-, heq | heq⟩
  · obtain rfl := Option.some.inj (Except.ok.inj (heq.symm.trans hchange))
    rw [houtcome] at hrolled
    cases hrolled
  · rcases rollBack_cases call hseeded hactive with
      ⟨row, hrow, checkpoint, hgood, hparams, hbelow, -, hback⟩ | ⟨-, hnone⟩
    · exact ⟨row, hrow, checkpoint, hgood, hparams, hbelow, heq.trans hback⟩
    · exact absurd (heq ▸ hchange) (hnone change)
  · rw [heq] at hchange
    cases hchange

theorem evaluate_active (h : Sound world) :
    (evaluateAndApply settings call world).1.active.isSome = true := by
  obtain ⟨hseeded, hactive⟩ := getActive_sound settings call.nowUtc h
  rcases evaluate_cases settings call world with ⟨-, heq, -⟩ | ⟨-, heq | heq⟩
  · rw [heq]
    rfl
  · rw [heq]
    rcases rollBack_cases call hseeded hactive with ⟨_, -, _, -, -, -, -, hback⟩ | ⟨hback, -⟩
    · rw [hback]
      rfl
    · rw [hback]
      exact Option.isSome_of_eq_some hactive
  · rw [heq]
    exact Option.isSome_of_eq_some hactive

end Calls

section Runs

variable {D : Type} [DecidableEq D] [DecimalOps D] (settings : Settings D)

/-- The store after a run of calls. -/
abbrev run (calls : List (Call D)) : World D :=
  Runs.run (fun world call => (evaluateAndApply settings call world).1) {} calls

theorem run_sound (calls : List (Call D)) : Sound (run settings calls) := by
  refine Runs.run_keeps (fun world call h => evaluate_sound settings call h) _ calls ?_
  constructor
  · intro row hrow
    cases hrow
  · intro active hactive
    cases hactive
  · intro active hactive
    cases hactive
  · exact fun _ => rfl

/-- A rollback activates a good checkpoint of a lower version, no checkpoint above the active
version is good, and an update that is applied is within the bounds. -/
theorem rollback_safe (settings : Settings ℚ) (before : List (Call ℚ)) (call : Call ℚ) :
    let world := run settings before
    let after := evaluateAndApply settings call world
    (∀ change, after.2 = .ok (some change) → change.outcome = .rolledBack →
      ∃ active ∈ world.active, ∃ row ∈ world.checkpoints, row.isGood = true ∧
        row.version < active.version ∧ change.fromVersion = active.version ∧
        change.toVersion = row.version ∧ after.1.active = row.params) ∧
    (∃ active ∈ after.1.active, ∀ row ∈ after.1.checkpoints, active.version < row.version →
      row.isGood = false) ∧
    ∀ change, after.2 = .ok (some change) → change.outcome = .applied →
      ∃ active ∈ after.1.active, WithinParamBounds settings active := by
  intro world after
  have hworld : Sound world := run_sound settings before
  obtain ⟨hseeded, hactive⟩ := getActive_sound settings call.nowUtc hworld
  have hafter : Sound after.1 := evaluate_sound settings call hworld
  have hsome := evaluate_active settings call hworld
  refine ⟨?_, ?_, ?_⟩
  · intro change hchange hrolled
    obtain ⟨row, hrow, checkpoint, hgood, hparams, hbelow, heq⟩ :=
      rolledBack_spec settings call hworld hchange hrolled
    -- the checkpoint was there before the call, since the defaults have no row below them
    rcases getActive_cases settings call.nowUtc hworld with ⟨hold, hsame⟩ | ⟨-, hfirst⟩
    · rw [hsame] at hrow
      have hnamed := hworld.named row hrow checkpoint hparams
      obtain rfl := Option.some.inj (Except.ok.inj ((congrArg Prod.snd heq).symm.trans hchange))
      refine ⟨_, hold, row, hrow, hgood, hbelow, rfl, hnamed, ?_⟩
      exact (congrArg (World.active ∘ Prod.fst) heq).trans hparams.symm
    · rw [hfirst row hrow] at hbelow
      exact absurd hbelow (lt_irrefl _)
  · obtain ⟨active, hactive⟩ := Option.isSome_iff_exists.mp hsome
    exact ⟨active, hactive, hafter.above active hactive⟩
  · intro change hchange happlied
    rcases evaluate_cases settings call world with ⟨-, heq, -⟩ | ⟨-, heq | heq⟩
    · exact ⟨_, congrArg World.active heq, candidate_within settings call _⟩
    · rw [rollBack_outcome call hseeded hactive ((congrArg Prod.snd heq).symm.trans hchange)]
        at happlied
      cases happlied
    · cases (congrArg Prod.snd heq).symm.trans hchange

end Runs

end AdaptationService
