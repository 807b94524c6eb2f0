import Btcbot.Runs

/-!
# Results gathered up to the first failure

Each result is a list of items or a failure. Gathering them gives all the items in order, or
the first failure.
-/
namespace Gathering

variable {ε α : Type}

theorem map_mapIdx {β γ : Type} (f : ℕ → α → β) (g : β → γ) (items : List α) :
    (items.mapIdx f).map g = items.mapIdx fun place item => g (f place item) := by
  refine List.ext_getElem? fun place => ?_
  simp [Function.comp_def]

/-- All items, or the first failure. -/
def gather : List (Except ε (List α)) → Except ε (List α)
  | [] => .ok []
  | result :: results => do
    let items ← result
    let rest ← gather results
    return items ++ rest

theorem gather_singleton (result : Except ε (List α)) : gather [result] = result := by
  cases result with
  | error e => rfl
  | ok items => exact congrArg Except.ok (List.append_nil items)

theorem gather_append (results more : List (Except ε (List α))) :
    gather (results ++ more) = do
      let items ← gather results
      let rest ← gather more
      return items ++ rest := by
  induction results with
  | nil =>
    rw [List.nil_append, gather]
    cases gather more with
    | error e => rfl
    | ok rest => rfl
  | cons result results ih =>
    rw [List.cons_append, gather, gather, ih]
    cases result with
    | error e => rfl
    | ok items =>
      cases gather results with
      | error e => rfl
      | ok rest =>
        cases gather more with
        | error e => rfl
        | ok others => exact congrArg Except.ok (List.append_assoc items rest others).symm

theorem gather_flatten (results : List (List (Except ε (List α)))) :
    gather results.flatten = gather (results.map gather) := by
  induction results with
  | nil => rfl
  | cons first results ih => rw [List.flatten_cons, gather_append, ih, List.map_cons, gather]

/-- What one of the results holds is gathered. -/
theorem gather_ok {results : List (Except ε (List α))} {gathered items : List α}
    (h : gather results = .ok gathered) (hin : .ok items ∈ results) : items ⊆ gathered := by
  induction results generalizing gathered with
  | nil => cases hin
  | cons result results ih =>
    rw [gather] at h
    obtain ⟨first, hfirst, hrest⟩ := Runs.bind_ok h
    obtain ⟨rest, hgathered, hall⟩ := Runs.bind_ok hrest
    obtain rfl := Except.ok.inj hall
    rcases List.mem_cons.mp hin with hhere | hlater
    · rw [hfirst] at hhere
      rw [Except.ok.inj hhere]
      exact List.subset_append_left first rest
    · exact fun item hitem => List.mem_append_right first (ih hgathered hlater hitem)

/-- A map that may fail, and may drop an input for a reason. -/
theorem mapM_gather {β δ : Type} (f : β → Except ε (Except δ α)) (inputs : List β) :
    (inputs.mapM f).map (fun outcomes => outcomes.filterMap Except.toOption) =
      gather (inputs.map fun input => (f input).map fun outcome => outcome.toOption.toList) := by
  induction inputs with
  | nil => rfl
  | cons input inputs ih =>
    rw [List.map_cons, gather, ← ih, List.mapM_cons]
    cases f input with
    | error e => rfl
    | ok outcome =>
      cases inputs.mapM f with
      | error e => rfl
      | ok outcomes =>
        cases outcome with
        | error reason => rfl
        | ok item => rfl

/-- What is done to every item is done to the items gathered. -/
theorem gather_map {β : Type} (f : α → β) (results : List (Except ε (List α))) :
    gather (results.map fun result => result.map (List.map f)) =
      (gather results).map (List.map f) := by
  induction results with
  | nil => rfl
  | cons result results ih =>
    rw [List.map_cons, gather, gather, ih]
    cases result with
    | error e => rfl
    | ok items =>
      cases gather results with
      | error e => rfl
      | ok rest => exact congrArg Except.ok List.map_append.symm

/-- Results that each hold their own item or nothing give each item no more than once. -/
theorem gather_sublist {κ : Type} {key : α → κ} {items : List κ}
    {f : ℕ → κ → Except ε (List α)} {gathered : List α}
    (hown : ∀ place item got, f place item = .ok got → (got.map key).Sublist [item])
    (h : gather (items.mapIdx f) = .ok gathered) : (gathered.map key).Sublist items := by
  induction items generalizing f gathered with
  | nil =>
    obtain rfl := Except.ok.inj h
    exact List.Sublist.refl _
  | cons item items ih =>
    rw [List.mapIdx_cons, gather] at h
    obtain ⟨first, hfirst, hrest⟩ := Runs.bind_ok h
    obtain ⟨rest, hgathered, hall⟩ := Runs.bind_ok hrest
    obtain rfl := Except.ok.inj hall
    rw [List.map_append]
    exact (hown 0 item first hfirst).append
      (ih (fun place other got hgot => hown (place + 1) other got hgot) hgathered)

/-- A result told by another that a third tells. -/
theorem told_by {β γ δ τ : Type} {first : Except ε α} {second : Except ε β} {third : Except ε γ}
    {f : α → δ} {g : β → δ} {s : β → τ} {t : γ → τ} (h : first.map f = second.map g)
    (h' : second.map s = third.map t) :
    (∀ e, third = .error e → first = .error e) ∧
      ∀ c, third = .ok c → ∃ a, first = .ok a ∧ ∃ b, f a = g b ∧ s b = t c := by
  constructor
  · rintro e rfl
    cases second with
    | error e' =>
      cases first with
      | error e'' => exact congrArg Except.error ((Except.error.inj h).trans (Except.error.inj h'))
      | ok a => cases h
    | ok b => cases h'
  · rintro c rfl
    cases second with
    | error e => cases h'
    | ok b =>
      cases first with
      | error e => cases h
      | ok a => exact ⟨a, rfl, b, Except.ok.inj h, Except.ok.inj h'⟩

end Gathering
