import Mathlib.Data.List.Sort
import Mathlib.Data.List.TakeWhile

/-!
# Folding a list in sorted order, in one pass or in batches

A partial fold over a sorted list may be split in two passes, each sorted on
its own, as soon as every element of the second batch that sorts before an
element of the first commutes with it. Steps may fail; only the successful
result is compared. The state invariant may be any property the steps keep.
-/
namespace SortedFold

variable {α σ : Type}

/-- The two orders succeed together, with the same state. -/
def Commute (f : σ → α → Option σ) (I : σ → Prop) (a b : α) : Prop :=
  ∀ s, I s → (f s a).bind (fun t => f t b) = (f s b).bind (fun t => f t a)

/-- Every successful step keeps the invariant. -/
def Keeps (f : σ → α → Option σ) (I : σ → Prop) : Prop :=
  ∀ s a t, I s → f s a = some t → I t

/-- Two folds side by side. -/
def both {τ : Type} (f : σ → α → Option σ) (g : τ → α → Option τ) (s : σ × τ) (a : α) :
    Option (σ × τ) :=
  (f s.1 a).bind fun x => (g s.2 a).map fun y => (x, y)

theorem both_bind {τ : Type} (f : σ → α → Option σ) (g : τ → α → Option τ) (s : σ × τ)
    (a b : α) : (both f g s a).bind (fun t => both f g t b) =
      ((f s.1 a).bind fun x => f x b).bind fun x =>
        ((g s.2 a).bind fun y => g y b).map fun y => (x, y) := by
  cases hf : f s.1 a with
  | none => simp [both, hf]
  | some x =>
    cases hg : g s.2 a with
    | none => cases hx : f x b <;> simp [both, hf, hg]
    | some y => simp [both, hf, hg]

theorem Commute.both {τ : Type} {f : σ → α → Option σ} {g : τ → α → Option τ} {I : σ → Prop}
    {J : τ → Prop} {a b : α} (hf : Commute f I a b) (hg : Commute g J a b) :
    Commute (both f g) (fun s => I s.1 ∧ J s.2) a b := by
  intro s hs
  rw [both_bind, both_bind, hf s.1 hs.1, hg s.2 hs.2]

theorem foldlM_induct {f : σ → α → Option σ} {I : σ → Prop} (l : List α)
    (hk : ∀ a ∈ l, ∀ s t, I s → f s a = some t → I t) (s t : σ) (hs : I s)
    (h : l.foldlM f s = some t) : I t := by
  induction l generalizing s with
  | nil =>
    simp only [List.foldlM_nil, Option.pure_def, Option.some.injEq] at h
    exact h ▸ hs
  | cons a l ih =>
    simp only [List.foldlM_cons, Option.bind_eq_bind, Option.bind_eq_some_iff] at h
    obtain ⟨u, hu, hrest⟩ := h
    exact ih (fun b hb => hk b (List.mem_cons_of_mem a hb)) u
      (hk a List.mem_cons_self s u hs hu) hrest

/-- An element moves to the front of everything it commutes with. -/
theorem foldlM_move_front {f : σ → α → Option σ} {I : σ → Prop} (hk : Keeps f I) (a : α)
    (l m : List α) (hc : ∀ b ∈ l, Commute f I a b) (s : σ) (hs : I s) :
    (l ++ a :: m).foldlM f s = (a :: (l ++ m)).foldlM f s := by
  induction l generalizing s with
  | nil => rfl
  | cons b l ih =>
    have hab := hc b List.mem_cons_self s hs
    have htail : ∀ t, f s b = some t →
        (l ++ a :: m).foldlM f t = (f t a).bind (fun u => (l ++ m).foldlM f u) := by
      intro t ht
      simpa [List.foldlM_cons] using
        ih (fun c hmem => hc c (List.mem_cons_of_mem b hmem)) t (hk s b t hs ht)
    have hleft : (b :: l ++ a :: m).foldlM f s =
        ((f s b).bind (fun t => f t a)).bind (fun u => (l ++ m).foldlM f u) := by
      cases hb : f s b with
      | none => simp [List.foldlM_cons, hb]
      | some t =>
        have h := htail t hb
        simp only [List.cons_append, List.foldlM_cons, hb, Option.bind_eq_bind, Option.bind_some]
        exact h
    rw [hleft, ← hab, List.foldlM_cons, Option.bind_assoc]
    rfl

variable (r : α → α → Prop) [DecidableRel r]

theorem foldlM_insertionSort_sorted {f : σ → α → Option σ} {I : σ → Prop} (hk : Keeps f I)
    (l m : List α) (hl : l.Pairwise r)
    (hc : ∀ a ∈ l, ∀ b ∈ m, ¬ r a b → Commute f I a b) (s : σ) (hs : I s) :
    ((l ++ m).insertionSort r).foldlM f s = (l ++ m.insertionSort r).foldlM f s := by
  induction l generalizing s with
  | nil => rfl
  | cons a l ih =>
    obtain ⟨hle, hl⟩ := List.pairwise_cons.mp hl
    have hrest := ih hl (fun x hx => hc x (List.mem_cons_of_mem a hx))
    have hbefore : ∀ b ∈ ((l ++ m).insertionSort r).takeWhile (fun b => ¬ r a b),
        Commute f I a b := by
      intro b hb
      have hnot : ¬ r a b := by simpa using List.mem_takeWhile_imp hb
      have hmem : b ∈ l ++ m := by
        have h := (List.takeWhile_sublist (fun b => decide (¬ r a b))).subset hb
        rwa [List.mem_insertionSort] at h
      rcases List.mem_append.mp hmem with h | h
      · exact absurd (hle b h) hnot
      · exact hc a List.mem_cons_self b h hnot
    rw [List.cons_append, List.insertionSort_cons_eq_take_drop,
      foldlM_move_front hk a _ _ hbefore s hs, List.takeWhile_append_dropWhile,
      List.cons_append, List.foldlM_cons, List.foldlM_cons]
    cases ha : f s a with
    | none => rfl
    | some t => exact hrest t (hk s a t hs ha)

variable [Std.Total r] [IsTrans α r]

/-- Sorting is the only sorted permutation when ties are equal. -/
theorem insertionSort_perm_eq {l m : List α} (hp : l.Perm m)
    (hanti : ∀ a ∈ l, ∀ b ∈ l, r a b → r b a → a = b) :
    l.insertionSort r = m.insertionSort r := by
  refine List.Perm.eq_of_pairwise ?_ (List.pairwise_insertionSort r l)
    (List.pairwise_insertionSort r m)
    ((List.perm_insertionSort r l).trans (hp.trans (List.perm_insertionSort r m).symm))
  intro a b ha hb
  rw [List.mem_insertionSort] at ha hb
  exact hanti a ha b (hp.mem_iff.mpr hb)

omit [Std.Total r] in
/-- A selection of a sorted list takes a new element in at the same place. -/
theorem filter_orderedInsert (p : α → Bool) (a : α) (l : List α) (hl : l.Pairwise r) :
    (l.orderedInsert r a).filter p =
      if p a then (l.filter p).orderedInsert r a else l.filter p := by
  induction l with
  | nil => by_cases ha : p a <;> simp [ha]
  | cons b l ih =>
    obtain ⟨hb, hl⟩ := List.pairwise_cons.mp hl
    by_cases hab : r a b
    · have hfront : (l.filter p).orderedInsert r a = a :: l.filter p := by
        cases hf : l.filter p with
        | nil => rfl
        | cons c rest =>
          have hc : c ∈ l.filter p := hf ▸ List.mem_cons_self
          exact List.orderedInsert_cons_of_le r rest
            (IsTrans.trans _ _ _ hab (hb c (List.mem_of_mem_filter hc)))
      rw [List.orderedInsert_cons_of_le r l hab]
      by_cases ha : p a <;> by_cases hpb : p b <;> simp [ha, hpb, hab, hfront]
    · rw [List.orderedInsert_of_not_le r l hab, List.filter_cons, List.filter_cons, ih hl]
      by_cases ha : p a <;> by_cases hpb : p b <;> simp [ha, hpb, hab]

/-- Selecting from the sorted list is sorting the selection. -/
theorem filter_insertionSort (p : α → Bool) (l : List α) :
    (l.insertionSort r).filter p = (l.filter p).insertionSort r := by
  induction l with
  | nil => rfl
  | cons a l ih =>
    rw [List.insertionSort_cons, filter_orderedInsert r p a _ (List.pairwise_insertionSort r l), ih,
      List.filter_cons]
    split <;> rfl

/-- One sorted pass over both batches is a sorted pass over each in turn. -/
theorem foldlM_insertionSort_append {f : σ → α → Option σ} {I : σ → Prop} (hk : Keeps f I)
    (l m : List α) (hanti : ∀ a ∈ l ++ m, ∀ b ∈ l ++ m, r a b → r b a → a = b)
    (hc : ∀ a ∈ l, ∀ b ∈ m, ¬ r a b → Commute f I a b) (s : σ) (hs : I s) :
    ((l ++ m).insertionSort r).foldlM f s =
      (l.insertionSort r ++ m.insertionSort r).foldlM f s := by
  have hp : (l ++ m).Perm (l.insertionSort r ++ m) :=
    (List.perm_insertionSort r l).symm.append_right m
  rw [insertionSort_perm_eq r hp hanti]
  refine foldlM_insertionSort_sorted r hk _ m (List.pairwise_insertionSort r l) ?_ s hs
  intro a ha
  rw [List.mem_insertionSort] at ha
  exact hc a ha

/-- Which error stops a fold is forgotten together with the errors of its steps. -/
theorem toOption_foldlM {ε : Type} (f : σ → α → Except ε σ) (l : List α) (s : σ) :
    (l.foldlM f s).toOption = l.foldlM (fun t a => (f t a).toOption) s := by
  induction l generalizing s with
  | nil => rfl
  | cons a l ih =>
    rw [List.foldlM_cons, List.foldlM_cons]
    cases h : f s a with
    | error e => rfl
    | ok t => exact ih t

end SortedFold
