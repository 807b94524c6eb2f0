import Btcbot.Runs
import Mathlib.Data.List.DropRight

/-!
# Counters of what holds without a break

A counter that goes up where a test holds and back to zero where it fails counts the last
inputs that pass it, one after the other.
-/
namespace Streak

section Lists

variable {α : Type} (p : α → Bool)

/-- How many of the last items pass the test, up to the last one that does not. -/
def streak (items : List α) : ℕ := (items.rtakeWhile p).length

@[simp] theorem streak_nil : streak p [] = 0 := by simp [streak]

@[simp] theorem streak_concat (items : List α) (a : α) :
    streak p (items ++ [a]) = if p a then streak p items + 1 else 0 := by
  unfold streak
  rw [List.rtakeWhile_concat]
  split
  · exact List.length_append
  · rfl

/-- A streak is reached just when that many of the last items pass. -/
theorem le_streak_iff {items : List α} {n : ℕ} :
    n ≤ streak p items ↔ ∃ last, last <:+ items ∧ last.length = n ∧ ∀ a ∈ last, p a = true := by
  constructor
  · intro h
    refine ⟨(items.rtakeWhile p).drop ((items.rtakeWhile p).length - n),
      (List.drop_suffix _ _).trans (List.rtakeWhile_suffix p items), ?_, fun a ha => ?_⟩
    · rw [List.length_drop]
      exact Nat.sub_sub_self h
    · exact List.mem_rtakeWhile_imp (List.mem_of_mem_drop ha)
  · rintro ⟨last, ⟨rest, rfl⟩, rfl, hall⟩
    induction last using List.reverseRecOn with
    | nil => exact Nat.zero_le _
    | append_singleton last a ih =>
      have ha := hall a (List.mem_append_right _ (List.mem_singleton_self a))
      rw [← List.append_assoc, streak_concat, if_pos ha, List.length_append]
      exact Nat.succ_le_succ (ih fun b hb => hall b (List.mem_append_left _ hb))

end Lists

section Counters

variable {σ ι : Type} (step : σ → ι → σ)

/-- The inputs of a run, each with the state it is taken in. -/
def visits (s : σ) : List ι → List (σ × ι)
  | [] => []
  | i :: inputs => (s, i) :: visits (step s i) inputs

theorem visits_append (s : σ) (inputs more : List ι) :
    visits step s (inputs ++ more) =
      visits step s inputs ++ visits step (Runs.run step s inputs) more := by
  induction inputs generalizing s with
  | nil => rfl
  | cons i inputs ih => exact congrArg (List.cons (s, i)) (ih (step s i))

variable {step} {count : σ → ℤ} {stores : σ × ι → Bool} {counts : σ × ι → Bool}

/-- A counter that only some inputs write is the streak of those. -/
theorem count_run
    (hstep : ∀ s i, count (step s i) =
      if stores (s, i) then if counts (s, i) then count s + 1 else 0 else count s)
    {s : σ} (hs : count s = 0) (inputs : List ι) :
    count (Runs.run step s inputs) = streak counts ((visits step s inputs).filter stores) := by
  induction inputs using List.reverseRecOn with
  | nil => simpa [visits] using hs
  | append_singleton inputs i ih =>
    rw [Runs.run_append, visits_append, List.filter_append]
    change count (step _ i) = _
    rw [hstep, visits, visits, List.filter_singleton]
    cases hstores : stores (Runs.run step s inputs, i) with
    | false => simpa using ih
    | true =>
      rw [if_pos rfl, Bool.cond_true, streak_concat, ih]
      split <;> simp

end Counters

end Streak
