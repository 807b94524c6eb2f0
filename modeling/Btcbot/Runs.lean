import Mathlib.Algebra.Order.Group.Defs
import Mathlib.Data.List.Forall2
import Mathlib.Data.List.Induction

/-!
# Runs of a deterministic system

A run folds a step over a list of inputs. An invariant is carried by every
input, by the inputs that meet a condition, or until an input releases it.
-/
namespace Runs

variable {σ ι : Type} (step : σ → ι → σ)

def run (s : σ) (inputs : List ι) : σ := inputs.foldl step s

@[simp] theorem run_nil (s : σ) : run step s [] = s := rfl

@[simp] theorem run_cons (s : σ) (i : ι) (inputs : List ι) :
    run step s (i :: inputs) = run step (step s i) inputs := rfl

theorem run_append (s : σ) (inputs more : List ι) :
    run step s (inputs ++ more) = run step (run step s inputs) more := List.foldl_append

/-- Every input of the run meets a condition on the state it is taken in. -/
def Meets (ok : σ → ι → Prop) : σ → List ι → Prop
  | _, [] => True
  | s, i :: inputs => ok s i ∧ Meets ok (step s i) inputs

variable {step}

theorem Meets.append {ok : σ → ι → Prop} {s : σ} (inputs more : List ι)
    (h : Meets step ok s (inputs ++ more)) :
    Meets step ok s inputs ∧ Meets step ok (run step s inputs) more := by
  induction inputs generalizing s with
  | nil => exact ⟨trivial, h⟩
  | cons i inputs ih =>
    obtain ⟨hi, hrest⟩ := h
    obtain ⟨hfirst, hlast⟩ := ih hrest
    exact ⟨⟨hi, hfirst⟩, hlast⟩

theorem meets_congr {ok ok' : σ → ι → Prop} (h : ∀ s i, ok s i ↔ ok' s i) {s : σ}
    {inputs : List ι} : Meets step ok s inputs ↔ Meets step ok' s inputs := by
  have heq : ok = ok' := by
    funext s i
    exact propext (h s i)
  rw [heq]

/-- Input by input, each one after those before it. -/
theorem meets_iff_split {ok : σ → ι → Prop} {s : σ} {inputs : List ι} :
    Meets step ok s inputs ↔
      ∀ before i after, inputs = before ++ i :: after → ok (run step s before) i := by
  constructor
  · rintro h before i after rfl
    exact (h.append before (i :: after)).2.1
  · intro h
    induction inputs generalizing s with
    | nil => trivial
    | cons i inputs ih =>
      refine ⟨h [] i inputs rfl, ih fun before j after heq => ?_⟩
      rw [heq] at h
      exact h (i :: before) j after rfl

/-- An invariant that every input keeps. -/
theorem run_keeps {I : σ → Prop} (hstep : ∀ s i, I s → I (step s i)) (s : σ) (inputs : List ι)
    (hs : I s) : I (run step s inputs) := by
  induction inputs generalizing s with
  | nil => exact hs
  | cons i inputs ih => exact ih (step s i) (hstep s i hs)

/-- An invariant of the inputs taken so far. -/
theorem run_induct {I : List ι → σ → Prop}
    (hstep : ∀ taken i s, I taken s → I (taken ++ [i]) (step s i)) (s : σ) (inputs : List ι)
    (hs : I [] s) : I inputs (run step s inputs) := by
  induction inputs using List.reverseRecOn with
  | nil => exact hs
  | append_singleton inputs i ih =>
    rw [run_append]
    exact hstep inputs i _ ih

/-- An invariant that every input meeting the condition keeps. -/
theorem run_meets {ok : σ → ι → Prop} {I : σ → Prop}
    (hstep : ∀ s i, I s → ok s i → I (step s i)) (s : σ) (inputs : List ι) (hs : I s)
    (hok : Meets step ok s inputs) : I (run step s inputs) := by
  induction inputs generalizing s with
  | nil => exact hs
  | cons i inputs ih => exact ih (step s i) (hstep s i hs hok.1) hok.2

/-- A property that an input keeps exactly if it meets the condition, and never restores. -/
theorem run_iff_meets {ok : σ → ι → Prop} {I P : σ → Prop} (hkeeps : ∀ s i, I s → I (step s i))
    (hstep : ∀ s i, I s → (P (step s i) ↔ P s ∧ ok s i)) (s : σ) (inputs : List ι) (hs : I s) :
    P (run step s inputs) ↔ P s ∧ Meets step ok s inputs := by
  induction inputs generalizing s with
  | nil => exact (and_iff_left trivial).symm
  | cons i inputs ih => rw [run_cons, ih (step s i) (hkeeps s i hs), hstep s i hs, and_assoc, Meets]

/-- What is held stays held until some input of the run releases it. -/
theorem held_or_released {Held : σ → Prop} {Releases : σ → ι → Prop}
    (hstep : ∀ s i, Held s → ¬ Releases s i → Held (step s i)) (s : σ) (inputs : List ι)
    (hs : Held s) :
    (∃ before i after, inputs = before ++ i :: after ∧ Releases (run step s before) i) ∨
      Held (run step s inputs) := by
  induction inputs generalizing s with
  | nil => exact .inr hs
  | cons i inputs ih =>
    by_cases hr : Releases s i
    · exact .inl ⟨[], i, inputs, rfl, hr⟩
    · rcases ih (step s i) (hstep s i hs hr) with ⟨before, j, after, rfl, hj⟩ | hend
      · exact .inl ⟨i :: before, j, after, rfl, hj⟩
      · exact .inr hend

section Failing

/-- A sequence that succeeds is two steps that do. -/
theorem bind_ok {ε α β : Type} {first : Except ε α} {next : α → Except ε β} {b : β}
    (h : first >>= next = .ok b) : ∃ a, first = .ok a ∧ next a = .ok b := by
  cases first with
  | error e => cases h
  | ok a => exact ⟨a, rfl, h⟩

/-- What succeeds after a check has passed it. -/
theorem guarded_ok {ε α : Type} {c : Prop} [Decidable c] {e : ε} {rest : Except ε α} {a : α} :
    (if c then .error e else rest) = .ok a ↔ ¬ c ∧ rest = .ok a := by
  by_cases hc : c <;> simp [hc]

/-- What succeeds does so under any name of its errors. -/
theorem mapError_ok {ε δ α : Type} {name : ε → δ} {result : Except ε α} {a : α}
    (h : result.mapError name = .ok a) : result = .ok a := by
  cases result with
  | error e => cases h
  | ok b => exact congrArg Except.ok (Except.ok.inj h)

variable {ε : Type} {f : σ → ι → Except ε σ}

/-- An invariant of the inputs taken so far, over a run that may fail. -/
theorem foldlM_ok_induct {I : List ι → σ → Prop}
    (hstep : ∀ taken i s t, I taken s → f s i = .ok t → I (taken ++ [i]) t) {s t : σ}
    (inputs : List ι) (hs : I [] s) (h : inputs.foldlM f s = .ok t) : I inputs t := by
  suffices hgen : ∀ taken s, I taken s → inputs.foldlM f s = .ok t → I (taken ++ inputs) t from
    hgen [] s hs h
  clear hs h
  induction inputs with
  | nil =>
    intro taken s hs h
    obtain rfl := Except.ok.inj h
    simpa using hs
  | cons i inputs ih =>
    intro taken s hs h
    rw [List.foldlM_cons] at h
    obtain ⟨next, hi, hrest⟩ := bind_ok h
    simpa using ih (taken ++ [i]) next (hstep taken i s next hs hi) hrest

variable (f) in
/-- Every input of the run meets a condition on the state it is taken in. -/
def MeetsM (ok : σ → ι → Prop) : σ → List ι → Prop
  | _, [] => True
  | s, i :: inputs => ok s i ∧ ∀ t, f s i = .ok t → MeetsM ok t inputs

/-- A purse that is only paid from is not overdrawn at the end of a run exactly if it is not
at the start and every payment that may overdraw it finds what it takes. -/
theorem paid_iff {K : Type} [AddCommGroup K] [LinearOrder K] [IsOrderedAddMonoid K]
    {left : σ → K} {payment : σ → ι → K} {I : σ → Prop} {ok : σ → ι → Prop} {inputs : List ι}
    {s t : σ}
    (hpays : ∀ i ∈ inputs, ∀ s t, I s → f s i = .ok t → left t = left s - payment s i ∧ I t)
    (hnonneg : ∀ s i, 0 ≤ payment s i)
    (hok : ∀ i ∈ inputs, ∀ s, I s → 0 ≤ left s → (ok s i ↔ payment s i ≤ left s)) (hs : I s)
    (h : inputs.foldlM f s = .ok t) :
    0 ≤ left t ↔ 0 ≤ left s ∧ MeetsM f ok s inputs := by
  induction inputs generalizing s with
  | nil =>
    obtain rfl := Except.ok.inj h
    exact (and_iff_left trivial).symm
  | cons i inputs ih =>
    rw [List.foldlM_cons] at h
    obtain ⟨next, hi, hrest⟩ := bind_ok h
    obtain ⟨hleft, hkept⟩ := hpays i List.mem_cons_self s next hs hi
    have hnext := ih (fun j hj => hpays j (List.mem_cons_of_mem _ hj))
      (fun j hj => hok j (List.mem_cons_of_mem _ hj)) hkept hrest
    have hcovered : 0 ≤ left next ↔ payment s i ≤ left s := by rw [hleft, sub_nonneg]
    have hfits := hok i List.mem_cons_self s hs
    rw [hnext, hcovered]
    constructor
    · rintro ⟨hpaid, hlater⟩
      have hstart := (hnonneg s i).trans hpaid
      refine ⟨hstart, (hfits hstart).mpr hpaid, fun other hother => ?_⟩
      obtain rfl := Except.ok.inj (hi.symm.trans hother)
      exact hlater
    · rintro ⟨hstart, hpaid, hlater⟩
      exact ⟨(hfits hstart).mp hpaid, hlater next hi⟩

end Failing

/-- What a map that may fail made of each input. -/
theorem mapM_ok {ε α β : Type} {f : α → Except ε β} {inputs : List α} {outputs : List β}
    (h : inputs.mapM f = .ok outputs) :
    List.Forall₂ (fun input output => f input = .ok output) inputs outputs := by
  induction inputs generalizing outputs with
  | nil =>
    obtain rfl := Except.ok.inj h
    exact .nil
  | cons input inputs ih =>
    rw [List.mapM_cons] at h
    cases hfirst : f input with
    | error e =>
      rw [hfirst] at h
      cases h
    | ok first =>
      cases hrest : inputs.mapM f with
      | error e =>
        rw [hfirst, hrest] at h
        cases h
      | ok rest =>
        rw [hfirst, hrest] at h
        obtain rfl := Except.ok.inj h
        exact .cons hfirst (ih hrest)

/-- A map that fails on no input. -/
theorem mapM_eq_ok {ε α β : Type} {f : α → Except ε β} {g : α → β} {inputs : List α}
    (h : ∀ input ∈ inputs, f input = .ok (g input)) : inputs.mapM f = .ok (inputs.map g) := by
  induction inputs with
  | nil => rfl
  | cons input inputs ih =>
    rw [List.mapM_cons, h input List.mem_cons_self,
      ih fun other hother => h other (List.mem_cons_of_mem input hother)]
    rfl

/-- Every output is that of an input. -/
theorem mem_of_forall₂ {α β : Type} {R : α → β → Prop} {inputs : List α} {outputs : List β}
    (h : List.Forall₂ R inputs outputs) {output : β} (hin : output ∈ outputs) :
    ∃ input ∈ inputs, R input output := by
  induction h with
  | nil => cases hin
  | @cons input first inputs outputs hfirst _ ih =>
    rcases List.mem_cons.mp hin with rfl | hrest
    · exact ⟨input, List.mem_cons_self, hfirst⟩
    · obtain ⟨other, hother, hR⟩ := ih hrest
      exact ⟨other, List.mem_cons_of_mem _ hother, hR⟩

section Pairs

variable {α : Type}

/-- Each item with the one after it. -/
def pairs (items : List α) : List (α × α) := items.zip items.tail

/-- An item more makes a pair with the last one. -/
theorem pairs_concat (items : List α) (a : α) :
    pairs (items ++ [a]) = pairs items ++ (items.getLast?.map fun last => (last, a)).toList := by
  induction items with
  | nil => rfl
  | cons b items ih =>
    cases items with
    | nil => rfl
    | cons c items =>
      have hrest : pairs (b :: c :: items ++ [a]) = (b, c) :: pairs (c :: items ++ [a]) := rfl
      rw [hrest, ih]
      rfl

end Pairs

end Runs
