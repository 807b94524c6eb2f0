import Mathlib.Algebra.BigOperators.Group.List.Basic
import Mathlib.Algebra.Order.BigOperators.Group.List
import Mathlib.Data.List.Basic
import Mathlib.Data.List.Induction
import Mathlib.Data.List.Nodup
import Mathlib.Tactic.Common

/-!
# Insertion ordered tables

A table keeps its keys in the order they came first; setting a key that is there
replaces its value in place.
-/
namespace KeyedTable

variable {κ α : Type} [DecidableEq κ]

def setItem : List (κ × α) → κ → α → List (κ × α)
  | [], k, a => [(k, a)]
  | (k', a') :: table, k, a =>
    if k' = k then (k, a) :: table else (k', a') :: setItem table k a

def ofEntries (entries : List (κ × α)) : List (κ × α) :=
  entries.foldl (fun table entry => setItem table entry.1 entry.2) []

def keys (table : List (κ × α)) : List κ := table.map Prod.fst

def get? (table : List (κ × α)) (k : κ) : Option α :=
  (table.find? fun entry => entry.1 = k).map Prod.snd

theorem get?_cons (entry : κ × α) (table : List (κ × α)) (k : κ) :
    get? (entry :: table) k = if entry.1 = k then some entry.2 else get? table k := by
  by_cases h : entry.1 = k <;> simp [get?, h]

theorem get?_isSome_iff (table : List (κ × α)) (k : κ) :
    get? table k ≠ none ↔ k ∈ keys table := by
  simp [get?, keys]

theorem mem_keys_setItem (table : List (κ × α)) (k : κ) (a : α) (k' : κ) :
    k' ∈ keys (setItem table k a) ↔ k' ∈ keys table ∨ k' = k := by
  induction table with
  | nil => simp [setItem, keys]
  | cons entry table ih =>
    obtain ⟨key, value⟩ := entry
    simp only [setItem]
    split
    · next h =>
      subst h
      simp only [keys, List.map_cons, List.mem_cons]
      tauto
    · simp only [keys, List.map_cons, List.mem_cons] at ih ⊢
      rw [ih]
      tauto

theorem mem_setItem {table : List (κ × α)} {k : κ} {a : α} {entry : κ × α}
    (h : entry ∈ setItem table k a) : entry ∈ table ∨ entry = (k, a) := by
  induction table with
  | nil => exact .inr (List.mem_singleton.mp h)
  | cons first table ih =>
    obtain ⟨key, value⟩ := first
    simp only [setItem] at h
    split at h
    · rcases List.mem_cons.mp h with rfl | hin
      · exact .inr rfl
      · exact .inl (List.mem_cons_of_mem _ hin)
    · rcases List.mem_cons.mp h with rfl | hin
      · exact .inl List.mem_cons_self
      · exact (ih hin).imp_left (List.mem_cons_of_mem _)

theorem setItem_new {table : List (κ × α)} {k : κ} (h : k ∉ keys table) (a : α) :
    setItem table k a = table ++ [(k, a)] := by
  induction table with
  | nil => rfl
  | cons first table ih =>
    obtain ⟨key, value⟩ := first
    simp only [keys, List.map_cons, List.mem_cons, not_or] at h
    rw [setItem, if_neg (Ne.symm h.1), ih h.2]
    rfl

theorem get?_setItem (table : List (κ × α)) (k k' : κ) (a : α) :
    get? (setItem table k a) k' = if k = k' then some a else get? table k' := by
  induction table with
  | nil => simp [setItem, get?]
  | cons entry table ih =>
    obtain ⟨key, value⟩ := entry
    simp only [setItem]
    split
    · next hsame =>
      subst hsame
      simp only [get?_cons]
      split <;> rfl
    · next hother =>
      simp only [get?_cons, ih]
      by_cases hkey : key = k'
      · subst hkey
        simp [Ne.symm hother]
      · simp [hkey]

theorem setItem_same {table : List (κ × α)} {k : κ} {a : α} (h : get? table k = some a) :
    setItem table k a = table := by
  induction table with
  | nil => cases h
  | cons entry table ih =>
    obtain ⟨key, value⟩ := entry
    rw [get?_cons] at h
    simp only [setItem]
    split
    · next hkey =>
      rw [if_pos hkey] at h
      obtain rfl := Option.some.inj h
      rw [← hkey]
    · next hkey =>
      rw [if_neg hkey] at h
      rw [ih h]

theorem mem_iff_get? {table : List (κ × α)} (h : (keys table).Nodup) (entry : κ × α) :
    entry ∈ table ↔ get? table entry.1 = some entry.2 := by
  induction table with
  | nil => simp [get?]
  | cons first table ih =>
    obtain ⟨hnew, hrest⟩ := List.nodup_cons.mp h
    rw [List.mem_cons, get?_cons, ih hrest]
    split
    · next hkey =>
      have hnone : get? table entry.1 = none := by
        by_contra hsome
        exact hnew (hkey ▸ (get?_isSome_iff table entry.1).mp hsome)
      rw [hnone]
      constructor
      · rintro (rfl | hin)
        · rfl
        · cases hin
      · intro heq
        exact .inl (Prod.ext hkey.symm (Option.some.inj heq).symm)
    · next hkey => exact or_iff_right fun heq => hkey (heq ▸ rfl)

/-- Setting an item trades what was under its key for what is. -/
theorem flatMap_setItem_perm {β : Type} (table : List (κ × List β)) (k : κ) (bs : List β) :
    ((setItem table k bs).flatMap Prod.snd ++ (get? table k).getD []).Perm
      (table.flatMap Prod.snd ++ bs) := by
  induction table with
  | nil => simp [setItem, get?]
  | cons entry table ih =>
    obtain ⟨key, value⟩ := entry
    simp only [setItem]
    split
    · next hkey =>
      simp only [get?_cons, hkey, if_true, List.flatMap_cons, Option.getD_some]
      rw [List.append_assoc value]
      exact List.perm_append_comm.trans (List.perm_append_comm.append_left value)
    · next hkey =>
      simp only [get?_cons, hkey, if_false, List.flatMap_cons, List.append_assoc]
      exact ih.append_left value

section Entries

variable (entries : List (κ × α))

private theorem mem_keys_fold (table : List (κ × α)) (k : κ) :
    k ∈ keys (entries.foldl (fun table entry => setItem table entry.1 entry.2) table) ↔
      k ∈ keys table ∨ k ∈ keys entries := by
  induction entries generalizing table with
  | nil => simp [keys]
  | cons entry entries ih =>
    rw [List.foldl_cons, ih, mem_keys_setItem]
    simp only [keys, List.map_cons, List.mem_cons]
    tauto

theorem mem_keys_ofEntries (k : κ) : k ∈ keys (ofEntries entries) ↔ k ∈ keys entries := by
  rw [ofEntries, mem_keys_fold]
  simp [keys]

private theorem mem_fold (table : List (κ × α)) {entry : κ × α}
    (h : entry ∈ entries.foldl (fun table entry => setItem table entry.1 entry.2) table) :
    entry ∈ table ∨ entry ∈ entries := by
  induction entries generalizing table with
  | nil => exact .inl h
  | cons first entries ih =>
    rcases ih _ h with hin | hin
    · rcases mem_setItem hin with hin | rfl
      · exact .inl hin
      · exact .inr List.mem_cons_self
    · exact .inr (List.mem_cons_of_mem _ hin)

/-- What is in a table was entered. -/
theorem mem_of_mem_ofEntries {entry : κ × α} (h : entry ∈ ofEntries entries) :
    entry ∈ entries := by
  rcases mem_fold entries [] h with hin | hin
  · cases hin
  · exact hin

private theorem fold_nodup (table : List (κ × α)) (h : (keys (table ++ entries)).Nodup) :
    entries.foldl (fun table entry => setItem table entry.1 entry.2) table = table ++ entries := by
  induction entries generalizing table with
  | nil => exact (List.append_nil table).symm
  | cons entry entries ih =>
    have hnew : entry.1 ∉ keys table := by
      simp only [keys, List.map_append, List.map_cons] at h
      exact fun hin => List.disjoint_of_nodup_append h hin List.mem_cons_self
    rw [List.foldl_cons, setItem_new hnew, ih _ (by simpa using h)]
    simp

/-- Entries with different keys are the table. -/
theorem ofEntries_of_nodup (h : (keys entries).Nodup) : ofEntries entries = entries :=
  fold_nodup entries [] h

theorem ofEntries_concat (entry : κ × α) :
    ofEntries (entries ++ [entry]) = setItem (ofEntries entries) entry.1 entry.2 := by
  simp [ofEntries]

theorem keys_setItem_nodup {table : List (κ × α)} (h : (keys table).Nodup) (k : κ) (a : α) :
    (keys (setItem table k a)).Nodup := by
  induction table with
  | nil => exact List.nodup_singleton k
  | cons entry table ih =>
    obtain ⟨key, value⟩ := entry
    obtain ⟨hnew, hrest⟩ := List.nodup_cons.mp h
    simp only [setItem]
    split
    · next hkey =>
      subst hkey
      exact List.nodup_cons.mpr ⟨hnew, hrest⟩
    · next hkey =>
      refine List.nodup_cons.mpr ⟨fun hin => ?_, ih hrest⟩
      rcases (mem_keys_setItem table k a key).mp hin with h' | h'
      · exact hnew h'
      · exact hkey h'

private theorem setItem_map {β : Type} (f : α → β) (table : List (κ × α)) (k : κ) (a : α) :
    setItem (table.map fun entry => (entry.1, f entry.2)) k (f a) =
      (setItem table k a).map fun entry => (entry.1, f entry.2) := by
  induction table with
  | nil => rfl
  | cons entry table ih =>
    obtain ⟨key, value⟩ := entry
    simp only [List.map_cons, setItem]
    split
    · rfl
    · rw [ih, List.map_cons]

/-- Values may be converted before or after they are entered. -/
theorem ofEntries_map {β : Type} (f : α → β) :
    ofEntries (entries.map fun entry => (entry.1, f entry.2)) =
      (ofEntries entries).map fun entry => (entry.1, f entry.2) := by
  induction entries using List.reverseRecOn with
  | nil => rfl
  | append_singleton entries entry ih =>
    simp only [ofEntries, List.map_append, List.foldl_append, List.map_cons, List.map_nil,
      List.foldl_cons, List.foldl_nil] at ih ⊢
    rw [ih, setItem_map]

theorem keys_ofEntries_nodup : (keys (ofEntries entries)).Nodup := by
  have hfold : ∀ table : List (κ × α), (keys table).Nodup →
      (keys (entries.foldl (fun table entry => setItem table entry.1 entry.2) table)).Nodup := by
    induction entries with
    | nil => exact fun _ h => h
    | cons entry entries ih => exact fun table h => ih _ (keys_setItem_nodup h _ _)
  exact hfold [] List.nodup_nil

end Entries

section Sums

variable {K : Type} [AddCommMonoid K] [PartialOrder K]

theorem get?_getD_nonneg {table : List (κ × K)} (h : ∀ entry ∈ table, 0 ≤ entry.2) (k : κ) :
    0 ≤ (get? table k).getD 0 := by
  unfold get?
  cases hfind : table.find? fun entry => entry.1 = k with
  | none => exact le_refl 0
  | some entry => exact h entry (List.mem_of_find?_eq_some hfind)

omit [PartialOrder K] in
private theorem sum_own {ks : List κ} (hks : ks.Nodup) (k : κ) (a : K) :
    (ks.map fun k' => if k = k' then a else 0).sum = if k ∈ ks then a else 0 := by
  induction ks with
  | nil => rfl
  | cons first ks ih =>
    obtain ⟨hfirst, hrest⟩ := List.nodup_cons.mp hks
    rw [List.map_cons, List.sum_cons, ih hrest]
    by_cases hsame : k = first
    · subst hsame
      simp [hfirst]
    · simp [hsame]

variable [IsOrderedAddMonoid K]

/-- Looked up at different keys, the values come to no more than the whole table. -/
theorem sum_get?_le {table : List (κ × K)} (h : ∀ entry ∈ table, 0 ≤ entry.2) {ks : List κ}
    (hks : ks.Nodup) :
    (ks.map fun k => (get? table k).getD 0).sum ≤ (table.map Prod.snd).sum := by
  induction table with
  | nil => simp [get?]
  | cons entry table ih =>
    have hentry := h entry List.mem_cons_self
    have hrest := fun other hin => h other (List.mem_cons_of_mem entry hin)
    calc (ks.map fun k => (get? (entry :: table) k).getD 0).sum
        ≤ (ks.map fun k => (if entry.1 = k then entry.2 else 0) + (get? table k).getD 0).sum := by
          refine List.sum_le_sum fun k _ => ?_
          by_cases hsame : entry.1 = k
          · have hlater := get?_getD_nonneg hrest k
            simpa [get?_cons, hsame] using le_add_of_nonneg_right hlater
          · simp [get?_cons, hsame]
      _ = (if entry.1 ∈ ks then entry.2 else 0) + (ks.map fun k => (get? table k).getD 0).sum := by
          rw [List.sum_map_add, sum_own hks]
      _ ≤ ((entry :: table).map Prod.snd).sum := by
          rw [List.map_cons, List.sum_cons]
          refine add_le_add ?_ (ih hrest)
          split
          · exact le_refl _
          · exact hentry

end Sums

end KeyedTable
