import Btcbot.AdaptationRuns

/-!
# What a parameter version names

The parameters stored under a version stay the same over a run exactly when no update takes
the number of a version whose stored parameters differ from it.
-/
namespace AdaptationService

open Decimals

section Fields

variable {D : Type} [DecidableEq D]

/-- The same parameters, whatever their version and time: all fields print the same. -/
def SameFields (p q : Stage7Params D) : Prop := diffParams p q = []

instance (p q : Stage7Params D) : Decidable (SameFields p q) :=
  inferInstanceAs (Decidable (diffParams p q = []))

theorem sameFields_iff {p q : Stage7Params D} : SameFields p q ↔ fieldsOf p = fieldsOf q := by
  simp [SameFields, diffParams, fieldsOf, List.filterMap_eq_nil_iff]

theorem SameFields.refl (p : Stage7Params D) : SameFields p p := sameFields_iff.mpr rfl

theorem SameFields.symm {p q : Stage7Params D} (h : SameFields p q) : SameFields q p :=
  sameFields_iff.mpr (sameFields_iff.mp h).symm

theorem SameFields.trans {p q r : Stage7Params D} (h : SameFields p q) (h' : SameFields q r) :
    SameFields p r :=
  sameFields_iff.mpr ((sameFields_iff.mp h).trans (sameFields_iff.mp h'))

end Fields

section Stored

variable {D : Type}

/-- The parameters that a store holds, active or in a checkpoint. -/
def stored (world : World D) : List (Stage7Params D) :=
  world.active.toList ++ world.checkpoints.filterMap Checkpoint.params

/-- No version of the store names two parameter sets. -/
def Coherent [DecidableEq D] (world : World D) : Prop :=
  ∀ p ∈ stored world, ∀ q ∈ stored world, p.version = q.version → SameFields p q

/-- What the first store holds under a version, the second holds too. -/
def Kept [DecidableEq D] (world later : World D) : Prop :=
  ∀ p ∈ stored world, ∃ q ∈ stored later, q.version = p.version ∧ SameFields p q

theorem Kept.refl [DecidableEq D] (world : World D) : Kept world world :=
  fun p hp => ⟨p, hp, rfl, .refl p⟩

theorem Kept.trans [DecidableEq D] {first second third : World D} (h : Kept first second)
    (h' : Kept second third) :
    Kept first third := by
  intro p hp
  obtain ⟨q, hq, hversion, hsame⟩ := h p hp
  obtain ⟨r, hr, hversion', hsame'⟩ := h' q hq
  exact ⟨r, hr, hversion'.trans hversion, hsame.trans hsame'⟩

variable {world : World D}

theorem mem_stored {p : Stage7Params D} :
    p ∈ stored world ↔
      world.active = some p ∨ ∃ row ∈ world.checkpoints, row.params = some p := by
  simp [stored, Option.mem_toList]

/-- What is active is in a checkpoint. -/
theorem sound_stored (h : Sound world) {p : Stage7Params D} :
    p ∈ stored world ↔ ∃ row ∈ world.checkpoints, row.params = some p := by
  rw [mem_stored]
  constructor
  · rintro (hactive | hrow)
    · exact h.stored p hactive
    · exact hrow
  · exact .inr

/-- The parameters that no stored ones of their version differ from. -/
def Fits [DecidableEq D] (world : World D) (params : Stage7Params D) : Prop :=
  ∀ p ∈ stored world, p.version = params.version → SameFields p params

theorem mem_stored_setActive (h : Sound world) {params p : Stage7Params D}
    (hp : p ∈ stored (setActiveStage7Params world params)) :
    p = params ∨ p ∈ stored world := by
  rcases mem_stored.mp hp with hactive | ⟨row, hrow, hparams⟩
  · exact .inl (Option.some.inj hactive).symm
  · rcases mem_insertOrReplace.mp hrow with ⟨hrow, -⟩ | rfl
    · exact .inr ((sound_stored h).mpr ⟨row, hrow, hparams⟩)
    · exact .inl (Option.some.inj hparams).symm

theorem setActive_kept [DecidableEq D] (h : Sound world) {params : Stage7Params D}
    (hfits : Fits world params) :
    Kept world (setActiveStage7Params world params) := by
  intro p hp
  by_cases hversion : p.version = params.version
  · exact ⟨params, mem_stored.mpr (.inl rfl), hversion.symm, hfits p hp hversion⟩
  · obtain ⟨row, hrow, hparams⟩ := (sound_stored h).mp hp
    have hother : row.version ≠ params.version := h.named row hrow p hparams ▸ hversion
    refine ⟨p, mem_stored.mpr (.inr ⟨row, ?_, hparams⟩), rfl, .refl p⟩
    exact mem_insertOrReplace.mpr (.inl ⟨hrow, hother⟩)

theorem setActive_coherent [DecidableEq D] (h : Sound world) {params : Stage7Params D}
    (hfits : Fits world params)
    (hcoherent : Coherent world) : Coherent (setActiveStage7Params world params) := by
  intro p hp q hq hversion
  rcases mem_stored_setActive h hp with hnew | hold
  · rcases mem_stored_setActive h hq with hnew' | hold'
    · rw [hnew, hnew']
      exact .refl params
    · rw [hnew] at hversion ⊢
      exact (hfits q hold' hversion.symm).symm
  · rcases mem_stored_setActive h hq with hnew' | hold'
    · rw [hnew'] at hversion ⊢
      exact hfits p hold hversion
    · exact hcoherent p hold q hold' hversion

/-- A mark changes no parameters. -/
theorem stored_marked (h : Sound world) {active : Stage7Params D}
    (hactive : world.active = some active) {p : Stage7Params D} :
    p ∈ stored (marked world active) ↔ p ∈ stored world := by
  rw [sound_stored h, sound_stored (marked_sound h hactive)]
  constructor
  · rintro ⟨row, hrow, hparams⟩
    rcases (mem_setGoodness (h.active_row hactive)).mp hrow with ⟨hrow, -⟩ | ⟨old, hold, -, rfl⟩
    · exact ⟨row, hrow, hparams⟩
    · exact ⟨old, hold, hparams⟩
  · rintro ⟨row, hrow, hparams⟩
    by_cases hversion : row.version = active.version
    · exact ⟨_, (mem_setGoodness (h.active_row hactive)).mpr (.inr ⟨row, hrow, hversion, rfl⟩),
        hparams⟩
    · exact ⟨row, (mem_setGoodness (h.active_row hactive)).mpr (.inl ⟨hrow, hversion⟩), hparams⟩

end Stored

section Step

variable {D : Type} [DecidableEq D] [DecimalOps D]
variable (settings : Settings D) (call : Call D) {world : World D}

/-- The update that the call applies, if any, fits the versions stored. -/
def TakesFit (world : World D) (call : Call D) : Prop :=
  let seeded := getActiveStage7Params settings call.nowUtc world
  applies settings call seeded.2 = true → Fits seeded.1 (candidate settings call seeded.2)

/-- The defaults are stored into an empty store. -/
theorem seeded_kept (now : Degrade.Instant) (h : Sound world) (hcoherent : Coherent world) :
    let seeded := getActiveStage7Params settings now world
    Kept world seeded.1 ∧ Coherent seeded.1 := by
  intro seeded
  rcases getActive_cases settings now h with ⟨-, hsame⟩ | ⟨hnone, -⟩
  · rw [hsame]
    exact ⟨.refl world, hcoherent⟩
  · have hfits (params : Stage7Params D) : Fits world params := by
      intro p hp
      obtain ⟨row, hrow, -⟩ := (sound_stored h).mp hp
      rw [h.start hnone] at hrow
      cases hrow
    have hseeded : seeded.1 = setActiveStage7Params world (defaultParams settings now) := by
      simp [seeded, getActiveStage7Params, hnone]
    rw [hseeded]
    exact ⟨setActive_kept h (hfits _), setActive_coherent h (hfits _) hcoherent⟩

/-- A call whose update fits keeps what every version names. -/
theorem evaluate_kept (h : Sound world) (hcoherent : Coherent world)
    (hfits : TakesFit settings world call) :
    Kept world (evaluateAndApply settings call world).1 ∧
      Coherent (evaluateAndApply settings call world).1 := by
  obtain ⟨hkept, hseeded⟩ := seeded_kept settings call.nowUtc h hcoherent
  obtain ⟨hsound, hactive⟩ := getActive_sound settings call.nowUtc h
  rcases evaluate_cases settings call world with ⟨happlies, heq, -⟩ | ⟨-, heq | heq⟩
  · rw [heq]
    have hcandidate := hfits happlies
    exact ⟨hkept.trans (setActive_kept hsound hcandidate),
      setActive_coherent hsound hcandidate hseeded⟩
  · rw [heq]
    have hmarked := marked_sound hsound hactive
    have hsame {p : Stage7Params D} := stored_marked hsound hactive (p := p)
    have hkeeps := hkept.trans fun p hp => ⟨p, hsame.mpr hp, rfl, .refl p⟩
    have hcoherent' : Coherent (marked _ _) := fun p hp q hq =>
      hseeded p (hsame.mp hp) q (hsame.mp hq)
    rcases rollBack_cases call hsound hactive with
      ⟨row, hrow, checkpoint, -, hparams, -, -, hback⟩ | ⟨hback, -⟩
    · -- a checkpoint fits the store that it is read from
      have hcheckpoint : checkpoint ∈ stored (marked _ _) :=
        hsame.mpr ((sound_stored hsound).mpr ⟨row, hrow, hparams⟩)
      have hback_fits : Fits (marked _ _) checkpoint := fun p hp hversion =>
        hcoherent' p hp checkpoint hcheckpoint hversion
      rw [hback]
      exact ⟨hkeeps.trans (setActive_kept hmarked hback_fits),
        setActive_coherent hmarked hback_fits hcoherent'⟩
    · rw [hback]
      exact ⟨hkeeps, hcoherent'⟩
  · rw [heq]
    exact ⟨hkept, hseeded⟩

end Step

section Runs

variable {D : Type} [DecidableEq D] [DecimalOps D] (settings : Settings D)

/-- A version names one parameter set over the whole run. -/
def NamesOne (calls : List (Call D)) : Prop :=
  ∀ earlier between rest, calls = earlier ++ between ++ rest →
    ∀ p ∈ stored (run settings earlier), ∀ q ∈ stored (run settings (earlier ++ between)),
      p.version = q.version → SameFields p q

/-- No update takes the number of other parameters. -/
def AllFit (calls : List (Call D)) : Prop :=
  ∀ before call after, calls = before ++ call :: after →
    TakesFit settings (run settings before) call

variable {settings} {calls : List (Call D)}

theorem run_concat (call : Call D) :
    run settings (calls ++ [call]) =
      (evaluateAndApply settings call (run settings calls)).1 := List.foldl_concat ..

theorem AllFit.left {more : List (Call D)} (h : AllFit settings (calls ++ more)) :
    AllFit settings calls := by
  rintro before call after rfl
  exact h before call (after ++ more) (by simp)

theorem run_coherent (h : AllFit settings calls) : Coherent (run settings calls) := by
  induction calls using List.reverseRecOn with
  | nil =>
    intro p hp
    cases hp
  | append_singleton calls call ih =>
    rw [run_concat]
    exact (evaluate_kept settings call (run_sound settings calls) (ih h.left)
      (h calls call [] rfl)).2

theorem run_kept {more : List (Call D)} (h : AllFit settings (calls ++ more)) :
    Kept (run settings calls) (run settings (calls ++ more)) := by
  induction more using List.reverseRecOn with
  | nil =>
    rw [List.append_nil]
    exact .refl _
  | append_singleton more call ih =>
    rw [← List.append_assoc] at h ⊢
    have hstep := evaluate_kept settings call (run_sound settings (calls ++ more))
      (run_coherent h.left) (h (calls ++ more) call [] rfl)
    rw [run_concat]
    exact (ih h.left).trans hstep.1

/-- A version names one parameter set exactly where no update takes the number of other
parameters. -/
theorem versions_name_one_iff (settings : Settings D) (calls : List (Call D)) :
    NamesOne settings calls ↔ AllFit settings calls := by
  constructor
  · intro hnames before call after hcalls happlies p hp hversion
    rcases getActive_cases settings call.nowUtc (run_sound settings before) with
      ⟨-, hsame⟩ | ⟨-, hfirst⟩
    · rw [hsame] at hp
      refine hnames before [call] after (by simpa using hcalls) p hp _ ?_ hversion
      rw [run_concat]
      rcases evaluate_cases settings call (run settings before) with ⟨-, heq, -⟩ | ⟨hnot, -⟩
      · exact mem_stored.mpr (.inl (congrArg World.active heq))
      · rw [happlies] at hnot
        cases hnot
    · -- the defaults are alone in the store, and the update takes the number after theirs
      have hseeded := getActive_sound settings call.nowUtc (run_sound settings before)
      obtain ⟨row, hrow, hparams⟩ := (sound_stored hseeded.1).mp hp
      have hdefault := hfirst row hrow
      rw [← hseeded.1.named row hrow p hparams, hversion, candidate_version happlies] at hdefault
      omega
  · rintro hfit earlier between rest rfl p hp q hq hversion
    obtain ⟨p', hp', hversion', hsame⟩ := run_kept hfit.left p hp
    exact hsame.trans (run_coherent hfit.left p' hp' q hq (hversion'.trans hversion))

/-- A call on a single row of metrics. -/
def callOn (alertFlags qualityFlags : PyData.Dict Bool) : Call PyDecimal :=
  ⟨[⟨.normal, alertFlags, qualityFlags, lit 0 0, lit 0 0, 0, 0⟩], 0⟩

def missingPrice : PyData.Dict Bool := Std.ExtTreeMap.empty.insert "missing_mark_price" true

def breach : PyData.Dict Bool := Std.ExtTreeMap.empty.insert "drawdown_breach" true

/-- The update after a rollback takes the number of the update that was rolled back. -/
theorem version_reused : ¬ NamesOne {} [callOn ∅ missingPrice, callOn breach ∅, callOn ∅ ∅] := by
  intro hnames
  have hreused := hnames [callOn ∅ missingPrice] [callOn breach ∅, callOn ∅ ∅] [] rfl
  revert hreused
  decide +kernel

end Runs

end AdaptationService
