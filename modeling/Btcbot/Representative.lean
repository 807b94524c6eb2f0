import Mathlib.Order.Lattice
import Mathlib.Tactic.Common
import Std.Data.ExtTreeMap

/-!
# One representative a key

A fold over a list keeps, of the elements with one key, the first of least rank.
Which element that is may depend on the order of the list; its rank does not,
and neither does anything that key and rank determine.
-/
namespace Representative

variable {α β κ ρ : Type} [Ord κ] [Std.TransOrd κ] [Std.LawfulEqOrd κ] [LinearOrder ρ]
variable (key : α → κ) (rank : α → ρ)

abbrev Table (κ α : Type) [Ord κ] := Std.ExtTreeMap κ α compare

def keep (kept : Table κ α) (a : α) : Table κ α :=
  match kept[key a]? with
  | none => kept.insert (key a) a
  | some current => if rank a < rank current then kept.insert (key a) a else kept

def ofList (l : List α) : Table κ α := l.foldl (keep key rank) ∅

/-- What is kept is in the list, and of least rank among the elements of its key. -/
structure Represents (l : List α) (kept : Table κ α) : Prop where
  mem : ∀ {k : κ} {a : α}, kept[k]? = some a → a ∈ l ∧ key a = k
  least : ∀ {a : α}, a ∈ l → ∃ b, kept[key a]? = some b ∧ rank b ≤ rank a

variable {key rank}

theorem Represents.insert {l : List α} {kept : Table κ α} (h : Represents key rank l kept) (a : α)
    (hrank : ∀ b, kept[key a]? = some b → rank a ≤ rank b) :
    Represents key rank (l ++ [a]) (kept.insert (key a) a) := by
  constructor
  · intro k b hb
    rw [Std.ExtTreeMap.getElem?_insert] at hb
    split at hb
    · next hk =>
      obtain rfl := Option.some.inj hb
      exact ⟨by simp, Std.LawfulEqOrd.eq_of_compare hk⟩
    · obtain ⟨hmem, hkey⟩ := h.mem hb
      exact ⟨List.mem_append_left _ hmem, hkey⟩
  · intro b hb
    rw [Std.ExtTreeMap.getElem?_insert]
    split
    · next hk =>
      have hkey : key a = key b := Std.LawfulEqOrd.eq_of_compare hk
      rcases List.mem_append.mp hb with hold | hnew
      · obtain ⟨c, hc, hle⟩ := h.least hold
        rw [← hkey] at hc
        exact ⟨a, rfl, (hrank c hc).trans hle⟩
      · rw [List.mem_singleton.mp hnew]
        exact ⟨a, rfl, le_refl _⟩
    · next hk =>
      rcases List.mem_append.mp hb with hold | hnew
      · exact h.least hold
      · rw [List.mem_singleton.mp hnew] at hk
        exact absurd (Std.ReflOrd.compare_self) hk

theorem Represents.keep {l : List α} {kept : Table κ α} (h : Represents key rank l kept) (a : α) :
    Represents key rank (l ++ [a]) (keep key rank kept a) := by
  unfold Representative.keep
  split
  · next hnone => exact h.insert a fun b hb => by rw [hnone] at hb; cases hb
  · next current hsome =>
    split
    · next hlt =>
      refine h.insert a fun b hb => ?_
      rw [hsome] at hb
      exact Option.some.inj hb ▸ hlt.le
    · next hge =>
      refine ⟨fun hb => ?_, fun hb => ?_⟩
      · obtain ⟨hmem, hkey⟩ := h.mem hb
        exact ⟨List.mem_append_left _ hmem, hkey⟩
      · rcases List.mem_append.mp hb with hold | hnew
        · exact h.least hold
        · rw [List.mem_singleton.mp hnew]
          exact ⟨current, hsome, not_lt.mp hge⟩

theorem represents_ofList (l : List α) : Represents key rank l (ofList key rank l) := by
  have hfold (rest seen : List α) (kept : Table κ α) (h : Represents key rank seen kept) :
      Represents key rank (seen ++ rest) (rest.foldl (Representative.keep key rank) kept) := by
    induction rest generalizing seen kept with
    | nil => simpa using h
    | cons a rest ih => simpa using ih (seen ++ [a]) _ (h.keep a)
  have hempty : Represents key rank [] (∅ : Table κ α) :=
    ⟨fun hb => by simp at hb, fun hb => by cases hb⟩
  simpa [ofList] using hfold l [] ∅ hempty

omit [Std.LawfulEqOrd κ] in
/-- Two tables of the same elements keep elements of equal rank at every key. -/
theorem Represents.rank_eq {l m : List α} {kept other : Table κ α}
    (h : Represents key rank l kept) (g : Represents key rank m other)
    (hsame : ∀ a, a ∈ m ↔ a ∈ l) {k : κ} {a : α} (ha : kept[k]? = some a) :
    ∃ b, other[k]? = some b ∧ key b = key a ∧ rank b = rank a := by
  obtain ⟨hmem, hkey⟩ := h.mem ha
  obtain ⟨b, hb, hle⟩ := g.least ((hsame a).mpr hmem)
  obtain ⟨hbmem, hbkey⟩ := g.mem hb
  obtain ⟨c, hc, hge⟩ := h.least ((hsame b).mp hbmem)
  rw [hbkey, hkey, ha] at hc
  obtain rfl := Option.some.inj hc
  exact ⟨b, hkey ▸ hb, hbkey, le_antisymm hle hge⟩

/-- What key and rank determine is the same in both tables. -/
theorem Represents.map_eq {l m : List α} {kept other : Table κ α}
    (h : Represents key rank l kept) (g : Represents key rank m other)
    (hsame : ∀ a, a ∈ m ↔ a ∈ l) {f : α → β}
    (hf : ∀ a b, key a = key b → rank a = rank b → f a = f b) :
    (other.toList.map Prod.snd).map f = (kept.toList.map Prod.snd).map f := by
  have hmap : other.map (fun _ => f) = kept.map (fun _ => f) := by
    refine Std.ExtTreeMap.ext_getElem? fun k => ?_
    rw [Std.ExtTreeMap.getElem?_map, Std.ExtTreeMap.getElem?_map]
    cases hk : kept[k]? with
    | some a =>
      obtain ⟨b, hb, hkey, hrank⟩ := h.rank_eq g hsame hk
      rw [hb]
      simp [hf b a hkey hrank]
    | none =>
      cases ho : other[k]? with
      | none => rfl
      | some b =>
        obtain ⟨a, ha, -⟩ := g.rank_eq h (fun a => (hsame a).symm) ho
        rw [hk] at ha
        cases ha
  have hlist (t : Table κ α) : (t.toList.map Prod.snd).map f =
      (t.map fun _ => f).toList.map Prod.snd := by
    rw [Std.ExtTreeMap.toList_map]
    simp [Function.comp_def]
  rw [hlist, hlist, hmap]

variable (key rank) in
theorem ofList_map_eq {l m : List α} (hsame : ∀ a, a ∈ m ↔ a ∈ l) {f : α → β}
    (hf : ∀ a b, key a = key b → rank a = rank b → f a = f b) :
    ((ofList key rank m).toList.map Prod.snd).map f =
      ((ofList key rank l).toList.map Prod.snd).map f :=
  (represents_ofList l).map_eq (represents_ofList m) hsame hf

end Representative
