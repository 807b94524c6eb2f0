/-!
# While loops with fuel

A loop runs while its guard holds, for at most the fuel given. The rule carries
an invariant together with the number of rounds already made; a measure that
falls on every round says how much fuel lets the guard stop the loop.
-/
namespace WhileLoop

variable {σ : Type} (guard : σ → Bool) (body : σ → σ)

def run : Nat → σ → σ
  | 0, s => s
  | fuel + 1, s => if guard s then run fuel (body s) else s

/-- The number of times the body is entered. -/
def rounds : Nat → σ → Nat
  | 0, _ => 0
  | fuel + 1, s => if guard s then rounds fuel (body s) + 1 else 0

variable {guard body}

theorem run_induct {I : Nat → σ → Prop}
    (hstep : ∀ n s, guard s = true → I n s → I (n + 1) (body s)) (fuel n : Nat) (s : σ)
    (h : I n s) : I (n + rounds guard body fuel s) (run guard body fuel s) := by
  induction fuel generalizing n s with
  | zero => exact h
  | succ fuel ih =>
    cases hg : guard s with
    | false =>
      simp only [run, rounds, hg, Bool.false_eq_true, if_false, Nat.add_zero]
      exact h
    | true =>
      have hnext := ih (n + 1) (body s) (hstep n s hg h)
      simp only [run, rounds, hg, if_true]
      rwa [Nat.add_right_comm n 1] at hnext

/-- Two loops whose guards agree on related states run in step. -/
theorem run_related {τ : Type} {guard' : τ → Bool} {body' : τ → τ} {R : σ → τ → Prop}
    (hguard : ∀ s t, R s t → guard s = guard' t) (hstep : ∀ s t, R s t → R (body s) (body' t))
    (fuel : Nat) (s : σ) (t : τ) (h : R s t) :
    R (run guard body fuel s) (run guard' body' fuel t) := by
  induction fuel generalizing s t with
  | zero => exact h
  | succ fuel ih =>
    cases hg : guard s with
    | false => simpa [run, hg, ← hguard s t h] using h
    | true => simpa [run, hg, ← hguard s t h] using ih (body s) (body' t) (hstep s t h)

/-- Nothing is run where the guard fails. -/
theorem run_stopped {s : σ} (h : guard s = false) (fuel : Nat) : run guard body fuel s = s := by
  cases fuel with
  | zero => rfl
  | succ fuel => simp [run, h]

/-- With fuel for its measure, the loop ends because the guard fails. -/
theorem guard_run (size : σ → Nat) (hdec : ∀ s, guard s = true → size (body s) < size s)
    (fuel : Nat) (s : σ) (h : size s ≤ fuel) : guard (run guard body fuel s) = false := by
  induction fuel generalizing s with
  | zero =>
    cases hg : guard s with
    | false => exact hg
    | true =>
      have hlt := hdec s hg
      omega
  | succ fuel ih =>
    cases hg : guard s with
    | false => simp [run, hg]
    | true =>
      have hlt := hdec s hg
      simp only [run, hg, if_true]
      exact ih (body s) (by omega)

/-- No more rounds are made than a measure that falls on each of them allows. -/
theorem rounds_le (size : σ → Nat) (hdec : ∀ s, guard s = true → size (body s) < size s)
    (fuel : Nat) (s : σ) : rounds guard body fuel s ≤ size s := by
  induction fuel generalizing s with
  | zero => exact Nat.zero_le _
  | succ fuel ih =>
    cases hg : guard s with
    | false => simp [rounds, hg]
    | true =>
      have hlt := hdec s hg
      have hrest := ih (body s)
      simp only [rounds, hg, if_true]
      omega

end WhileLoop
