import Btcbot.KeyedTable
import Mathlib.Data.List.Induction
import Mathlib.Order.Defs.LinearOrder

/-!
# Deliveries that are repeated

Of a list whose items may be delivered again later, the first item of each key and the
latest item of each key are those of the list without the repeats.
-/
namespace Redelivery

variable {α β κ τ : Type}

/-- The items of the first list in their order, some of them delivered again after that. -/
inductive Repeats : List α → List α → Prop where
  | refl (l : List α) : Repeats l l
  | again {l before after : List α} {a : α} (h : Repeats l (before ++ after)) (ha : a ∈ before) :
    Repeats l (before ++ a :: after)

theorem Repeats.mem_iff {l m : List α} (h : Repeats l m) (a : α) : a ∈ m ↔ a ∈ l := by
  induction h with
  | refl => exact Iff.rfl
  | again h hb ih =>
    rw [← ih]
    simp only [List.mem_append, List.mem_cons]
    constructor
    · rintro (hin | rfl | hin)
      exacts [.inl hin, .inl hb, .inr hin]
    · rintro (hin | hin)
      exacts [.inl hin, .inr (.inr hin)]

theorem Repeats.filterMap {l m : List α} (h : Repeats l m) (f : α → Option β) :
    Repeats (l.filterMap f) (m.filterMap f) := by
  induction h with
  | refl => exact .refl _
  | @again before after a h ha ih =>
    rw [List.filterMap_append] at ih ⊢
    cases hf : f a with
    | none => rwa [List.filterMap_cons_none hf]
    | some b =>
      rw [List.filterMap_cons_some hf]
      exact ih.again (List.mem_filterMap.mpr ⟨a, ha, hf⟩)

/-- Where an item that was already taken changes nothing, its repeats change nothing. -/
theorem Repeats.foldl_eq {σ : Type} {step : σ → α → σ} {s : σ} {l m : List α} (h : Repeats l m)
    (hidle : ∀ taken : List α, (∀ b ∈ taken, b ∈ l) → ∀ a ∈ taken,
      step (taken.foldl step s) a = taken.foldl step s) :
    m.foldl step s = l.foldl step s := by
  induction h with
  | refl => rfl
  | @again before after a h ha ih =>
    have hin : ∀ b ∈ before, b ∈ l := fun b hb => (h.mem_iff b).mp (List.mem_append_left _ hb)
    rw [← ih, List.foldl_append, List.foldl_cons, hidle before hin a ha, List.foldl_append]

section First

variable [DecidableEq κ] (key : α → κ)

def takeFirst (taken : List α) (a : α) : List α :=
  if key a ∈ taken.map key then taken else taken ++ [a]

/-- The items whose key was not there before. -/
def firsts (l : List α) : List α := l.foldl (takeFirst key) []

theorem firsts_concat (l : List α) (a : α) :
    firsts key (l ++ [a]) = takeFirst key (firsts key l) a := by
  rw [firsts, firsts, List.foldl_append, List.foldl_cons, List.foldl_nil]

theorem mem_keys_firsts (l : List α) (k : κ) : k ∈ (firsts key l).map key ↔ k ∈ l.map key := by
  induction l using List.reverseRecOn with
  | nil => exact Iff.rfl
  | append_singleton l a ih =>
    rw [firsts_concat, takeFirst, List.map_append, List.mem_append, ← ih]
    split
    · next hin =>
      refine (or_iff_left_of_imp fun hk => ?_).symm
      rwa [List.mem_singleton.mp hk]
    · rw [List.map_append, List.mem_append]

theorem Repeats.firsts_eq {l m : List α} (h : Repeats l m) : firsts key m = firsts key l :=
  h.foldl_eq fun taken _ _ ha =>
    if_pos ((mem_keys_firsts key taken _).mpr (List.mem_map_of_mem ha))

end First

section Latest

variable [DecidableEq κ] [LinearOrder τ] (key : α → κ) (time : α → τ)

open KeyedTable

/-- An item replaces what is under its key unless that is later. -/
def takeLatest (table : List (κ × α)) (a : α) : List (κ × α) :=
  match get? table (key a) with
  | some prior => if time prior ≤ time a then setItem table (key a) a else table
  | none => setItem table (key a) a

def latest (l : List α) : List (κ × α) := l.foldl (takeLatest key time) []

theorem latest_concat (l : List α) (a : α) :
    latest key time (l ++ [a]) = takeLatest key time (latest key time l) a := by
  rw [latest, latest, List.foldl_append, List.foldl_cons, List.foldl_nil]

theorem get?_takeLatest (table : List (κ × α)) (a : α) (k : κ) :
    get? (takeLatest key time table a) k =
      if key a = k ∧ ∀ prior ∈ get? table k, time prior ≤ time a then some a
      else get? table k := by
  by_cases hk : key a = k
  · subst hk
    unfold takeLatest
    split
    · next prior hprior =>
      by_cases hle : time prior ≤ time a <;> simp [hle, hprior, get?_setItem]
    · next hnone => simp [hnone, get?_setItem]
  · have hother : get? (takeLatest key time table a) k = get? table k := by
      unfold takeLatest
      split
      · split
        · rw [get?_setItem, if_neg hk]
        · rfl
      · rw [get?_setItem, if_neg hk]
    rw [hother, if_neg fun h => hk h.1]

theorem latest_of_mem {l : List α} {a : α} (h : a ∈ l) :
    ∃ found, get? (latest key time l) (key a) = some found := by
  induction l using List.reverseRecOn with
  | nil => cases h
  | append_singleton l c ih =>
    rw [latest_concat, get?_takeLatest]
    split
    · exact ⟨c, rfl⟩
    · next hc =>
      rcases List.mem_append.mp h with hin | hin
      · exact ih hin
      · obtain rfl := List.mem_singleton.mp hin
        push Not at hc
        obtain ⟨prior, hprior, -⟩ := hc rfl
        exact ⟨prior, hprior⟩

/-- What is under a key is an item of that key, and none of that key is later. -/
theorem latest_some {l : List α} {k : κ} {a : α} (h : get? (latest key time l) k = some a) :
    a ∈ l ∧ key a = k ∧ ∀ b ∈ l, key b = k → time b ≤ time a := by
  induction l using List.reverseRecOn generalizing a with
  | nil => cases h
  | append_singleton l c ih =>
    rw [latest_concat, get?_takeLatest] at h
    split at h
    · next hc =>
      obtain rfl := Option.some.inj h
      refine ⟨List.mem_append_right _ (List.mem_singleton_self _), hc.1, fun b hb hk => ?_⟩
      rcases List.mem_append.mp hb with hin | hin
      · obtain ⟨prior, hprior⟩ := latest_of_mem key time hin
        rw [hk] at hprior
        exact ((ih hprior).2.2 b hin hk).trans (hc.2 prior hprior)
      · rw [List.mem_singleton.mp hin]
    · next hc =>
      obtain ⟨hin, hk, hlatest⟩ := ih h
      refine ⟨List.mem_append_left _ hin, hk, fun b hb hbk => ?_⟩
      rcases List.mem_append.mp hb with hbin | hbin
      · exact hlatest b hbin hbk
      · obtain rfl := List.mem_singleton.mp hbin
        refine le_of_not_ge fun hle => hc ⟨hbk, fun prior hprior => ?_⟩
        cases h.symm.trans hprior
        exact hle

/-- Items of one key with different times are told apart, whatever is repeated. -/
theorem Repeats.latest_eq {l m : List α} (h : Repeats l m)
    (hdistinct : ∀ a ∈ l, ∀ b ∈ l, key a = key b → time a = time b → a = b) :
    latest key time m = latest key time l := by
  refine h.foldl_eq fun taken hin a ha => ?_
  obtain ⟨prior, hprior⟩ := latest_of_mem key time ha
  obtain ⟨hmem, hkey, hlatest⟩ := latest_some key time hprior
  rw [latest] at hprior
  rw [takeLatest, hprior]
  dsimp only
  split
  · next hle =>
    have heq := hdistinct prior (hin prior hmem) a (hin a ha) hkey
      (le_antisymm hle (hlatest a ha rfl))
    rw [← heq] at hprior ⊢
    exact setItem_same hprior
  · rfl

/-- The items that are kept are those under their keys. -/
theorem mem_latest_iff {l : List α} {entry : κ × α} :
    entry ∈ latest key time l ↔ get? (latest key time l) entry.1 = some entry.2 := by
  refine mem_iff_get? ?_ entry
  induction l using List.reverseRecOn with
  | nil => exact List.nodup_nil
  | append_singleton l a ih =>
    rw [latest_concat, takeLatest]
    split
    · split
      · exact keys_setItem_nodup ih _ _
      · exact ih
    · exact keys_setItem_nodup ih _ _

end Latest

end Redelivery
