import Mathlib.Data.List.Basic
import Mathlib.Tactic.Common

/-!
# Bounded attempts

A loop of at most so many turns. A turn sees its number and the state; it holds
back, sends for the last time, or sends and asks for another turn.
-/
namespace Attempts

variable {τ σ ρ : Type}

inductive Turn (τ σ ρ : Type) where
  | held (result : ρ) (state : σ)
  | last (sent : τ) (result : ρ) (state : σ)
  | again (sent : τ) (state : σ)

structure Trace (τ σ ρ : Type) where
  sent : List τ
  result : ρ
  state : σ

/-- The turns from number `i` on, at most `left` of them. -/
def attempts (turn : ℕ → σ → Turn τ σ ρ) (exhausted : ρ) : ℕ → ℕ → σ → Trace τ σ ρ
  | 0, _, s => ⟨[], exhausted, s⟩
  | left + 1, i, s =>
    match turn i s with
    | .held result s' => ⟨[], result, s'⟩
    | .last t result s' => ⟨[t], result, s'⟩
    | .again t s' =>
      let rest := attempts turn exhausted left (i + 1) s'
      ⟨t :: rest.sent, rest.result, rest.state⟩

def Turn.Sends : Turn τ σ ρ → Prop
  | .held _ _ => False
  | _ => True

/-- After some turns that ask again on a harmless sending comes one that does so on
another, and the turn after it sends. -/
def Resends (turn : ℕ → σ → Turn τ σ ρ) (harmless : τ → Prop) : ℕ → ℕ → σ → Prop
  | 0, i, s =>
    match turn i s with
    | .again t s' => ¬ harmless t ∧ (turn (i + 1) s').Sends
    | _ => False
  | k + 1, i, s =>
    match turn i s with
    | .again t s' => harmless t ∧ Resends turn harmless k (i + 1) s'
    | _ => False

variable {turn : ℕ → σ → Turn τ σ ρ} {exhausted : ρ} {harmless : τ → Prop}

theorem attempts_sends (left i : ℕ) (s : σ) :
    (attempts turn exhausted (left + 1) i s).sent ≠ [] ↔ (turn i s).Sends := by
  rw [attempts]
  cases turn i s <;> simp [Turn.Sends]

theorem Resends.again {k i : ℕ} {s : σ} (h : Resends turn harmless k i s) :
    ∃ t s', turn i s = .again t s' := by
  cases hturn : turn i s with
  | again t s' => exact ⟨t, s', rfl⟩
  | held => cases k <;> simp [Resends, hturn] at h
  | last => cases k <;> simp [Resends, hturn] at h

theorem not_resends {i : ℕ} {s : σ} (h : ∀ t s', turn i s ≠ .again t s') (k : ℕ) :
    ¬ Resends turn harmless k i s := by
  intro hk
  obtain ⟨t, s', hagain⟩ := hk.again
  exact h t s' hagain

theorem resends_zero {i : ℕ} {s s' : σ} {t : τ} (h : turn i s = .again t s') :
    Resends turn harmless 0 i s ↔ ¬ harmless t ∧ (turn (i + 1) s').Sends := by
  rw [Resends, h]

theorem resends_succ {k i : ℕ} {s s' : σ} {t : τ} (h : turn i s = .again t s') :
    Resends turn harmless (k + 1) i s ↔
      harmless t ∧ Resends turn harmless k (i + 1) s' := by
  rw [Resends, h]

/-- Everything sent before the last time is harmless unless something else is sent again:
by induction on the turns left. -/
theorem dropLast_harmless_iff (left : ℕ) : ∀ (i : ℕ) (s : σ),
    (∀ t ∈ (attempts turn exhausted left i s).sent.dropLast, harmless t) ↔
      ∀ k, k + 1 < left → ¬ Resends turn harmless k i s := by
  induction left with
  | zero =>
    intro i s
    simp [attempts]
  | succ left ih =>
    intro i s
    cases hturn : turn i s with
    | held result s' | last t result s' =>
      have hnone := @not_resends _ _ _ turn harmless i s (by simp [hturn])
      simp [attempts, hturn, hnone]
    | again t s' =>
      rw [attempts, hturn]
      cases left with
      | zero => simp [attempts]
      | succ left =>
        have hsends := @attempts_sends _ _ _ turn exhausted left (i + 1) s'
        have hrest := ih (i + 1) s'
        by_cases hempty : (attempts turn exhausted (left + 1) (i + 1) s').sent = []
        · -- The next turn holds back, so this sending is the last one.
          have hheld : ¬ (turn (i + 1) s').Sends := fun h => hsends.mpr h hempty
          refine iff_of_true (by simp [hempty]) ?_
          intro k hk hresends
          cases k with
          | zero => exact hheld ((resends_zero hturn).mp hresends).2
          | succ k =>
            obtain ⟨t', s'', hagain⟩ := ((resends_succ hturn).mp hresends).2.again
            rw [hagain] at hheld
            exact hheld trivial
        · have hsend := hsends.mp hempty
          simp only [List.dropLast_cons_of_ne_nil hempty, List.forall_mem_cons, hrest]
          constructor
          · rintro ⟨ht, hlater⟩ k hk hresends
            cases k with
            | zero => exact ((resends_zero hturn).mp hresends).1 ht
            | succ k => exact hlater k (by omega) ((resends_succ hturn).mp hresends).2
          · intro hall
            have ht : harmless t := by
              by_contra hbad
              exact hall 0 (by omega) ((resends_zero hturn).mpr ⟨hbad, hsend⟩)
            exact ⟨ht, fun k hk hresends =>
              hall (k + 1) (by omega) ((resends_succ hturn).mpr ⟨ht, hresends⟩)⟩

end Attempts
