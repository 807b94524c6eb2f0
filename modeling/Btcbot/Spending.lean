import Mathlib.Algebra.BigOperators.Group.List.Basic
import Mathlib.Algebra.Order.BigOperators.Group.List
import Mathlib.Algebra.Order.Group.Defs
import Mathlib.Data.List.Induction

/-!
# Spending from several purses

Items of a list each take an amount from the purse of their key. Where a purse covers each
item alone, it covers all that is taken from it exactly if it covers every item after its
first beside those before, as long as it is not both paid from and paid into.
-/
namespace Spending

variable {α κ K : Type} [DecidableEq κ] [AddCommGroup K] (key : α → κ) (amount : α → K)

def spent (k : κ) (items : List α) : K := ((items.filter fun a => key a = k).map amount).sum

@[simp] theorem spent_nil (k : κ) : spent key amount k [] = 0 := rfl

@[simp] theorem spent_append (k : κ) (items more : List α) :
    spent key amount k (items ++ more) = spent key amount k items + spent key amount k more := by
  simp [spent]

theorem spent_cons (k : κ) (a : α) (items : List α) :
    spent key amount k (a :: items) =
      (if key a = k then amount a else 0) + spent key amount k items := by
  by_cases h : key a = k <;> simp [spent, h]

theorem spent_own (a : α) (items : List α) :
    spent key amount (key a) (a :: items) = amount a + spent key amount (key a) items := by
  rw [spent_cons, if_pos rfl]

variable [LinearOrder K] [IsOrderedAddMonoid K] {key amount}

theorem spent_nonneg {k : κ} {items : List α} (h : ∀ a ∈ items, key a = k → 0 ≤ amount a) :
    0 ≤ spent key amount k items := by
  refine List.sum_nonneg fun x hx => ?_
  obtain ⟨a, ha, rfl⟩ := List.mem_map.mp hx
  obtain ⟨hin, hkey⟩ := List.mem_filter.mp ha
  exact h a hin (of_decide_eq_true hkey)

theorem spent_nonpos {k : κ} {items : List α} (h : ∀ a ∈ items, key a = k → amount a ≤ 0) :
    spent key amount k items ≤ 0 := by
  induction items with
  | nil => exact le_rfl
  | cons a items ih =>
    have hrest := ih fun b hb => h b (List.mem_cons_of_mem _ hb)
    rw [spent_cons]
    split
    · next hkey => exact add_nonpos (h a List.mem_cons_self hkey) hrest
    · rw [zero_add]
      exact hrest

/-- With bounds on some purses, an item more stays within them exactly if its own holds it. -/
theorem bounded_concat {bounds : κ → Option K} {items : List α} {a : α} (ha : 0 ≤ amount a) :
    (∀ k, ∀ bound ∈ bounds k, spent key amount k (items ++ [a]) ≤ bound) ↔
      (∀ k, ∀ bound ∈ bounds k, spent key amount k items ≤ bound) ∧
        ∀ bound ∈ bounds (key a), spent key amount (key a) items + amount a ≤ bound := by
  constructor
  · intro h
    refine ⟨fun k bound hbound => le_trans ?_ (h k bound hbound), fun bound hbound => ?_⟩
    · rw [spent_append]
      refine le_add_of_nonneg_right (spent_nonneg fun b hb _ => ?_)
      obtain rfl := List.mem_singleton.mp hb
      exact ha
    · have hown := h (key a) bound hbound
      rwa [spent_append, spent_own, spent_nil, add_zero] at hown
  · rintro ⟨hbefore, hown⟩ k bound hbound
    rw [spent_append, spent_cons, spent_nil, add_zero]
    split
    · next hkey =>
      subst hkey
      exact hown bound hbound
    · rw [add_zero]
      exact hbefore k bound hbound

variable (key amount) in
/-- Every item whose purse has been taken from, or that was not checked alone, finds what it
takes in what is left. -/
def LaterCovered (checked : α → Prop) (free : κ → K) : List α → List α → Prop
  | _, [] => True
  | earlier, a :: items =>
    ((∃ b ∈ earlier, key b = key a) ∨ ¬ checked a →
      spent key amount (key a) earlier + amount a ≤ free (key a)) ∧
      LaterCovered checked free (earlier ++ [a]) items

variable {checked : α → Prop}

omit [IsOrderedAddMonoid K] in
theorem laterCovered_append {free : κ → K} (earlier items more : List α) :
    LaterCovered key amount checked free earlier (items ++ more) ↔
      LaterCovered key amount checked free earlier items ∧
        LaterCovered key amount checked free (earlier ++ items) more := by
  induction items generalizing earlier with
  | nil => simp [LaterCovered]
  | cons a items ih => simp [LaterCovered, ih, and_assoc]

omit [IsOrderedAddMonoid K] in
theorem laterCovered_iff_split {free : κ → K} (earlier items : List α) :
    LaterCovered key amount checked free earlier items ↔
      ∀ before a after, items = before ++ a :: after →
        (∃ b ∈ earlier ++ before, key b = key a) ∨ ¬ checked a →
          spent key amount (key a) (earlier ++ before) + amount a ≤ free (key a) := by
  constructor
  · rintro h before a after rfl
    exact ((laterCovered_append earlier before (a :: after)).mp h).2.1
  · intro h
    induction items generalizing earlier with
    | nil => trivial
    | cons a items ih =>
      refine ⟨fun hlater => ?_, ih (earlier ++ [a]) fun before b after heq => ?_⟩
      · have hfirst := h [] a items rfl
        rw [List.append_nil] at hfirst
        exact hfirst hlater
      · rw [List.append_assoc, List.singleton_append]
        exact h (a :: before) b after (by rw [heq]; rfl)

omit [LinearOrder K] [IsOrderedAddMonoid K] in
theorem spent_none {k : κ} {items : List α} (h : ¬ ∃ a ∈ items, key a = k) :
    spent key amount k items = 0 := by
  have hnone : items.filter (fun a => key a = k) = [] :=
    List.filter_eq_nil_iff.mpr fun a ha hkey => h ⟨a, ha, of_decide_eq_true hkey⟩
  rw [spent, hnone, List.map_nil, List.sum_nil]

omit [IsOrderedAddMonoid K] in
/-- The last item of a purse brings its total. -/
theorem covered_of_later {free : κ → K} {items : List α}
    (hown : ∀ a ∈ items, checked a → amount a ≤ free (key a))
    (h : LaterCovered key amount checked free [] items) :
    ∀ a ∈ items, spent key amount (key a) items ≤ free (key a) := by
  induction items using List.reverseRecOn with
  | nil => exact fun a ha => (List.not_mem_nil ha).elim
  | append_singleton items last ih =>
    obtain ⟨hitems, hlast, -⟩ := (laterCovered_append [] items [last]).mp h
    have hbefore := ih (fun a ha => hown a (List.mem_append_left _ ha)) hitems
    have htotal : spent key amount (key last) items + amount last ≤ free (key last) := by
      by_cases hlater : (∃ b ∈ items, key b = key last) ∨ ¬ checked last
      · exact hlast hlater
      · obtain ⟨hnone, hchecked⟩ := not_or.mp hlater
        rw [spent_none hnone, zero_add]
        exact hown last (List.mem_append_right _ List.mem_cons_self) (not_not.mp hchecked)
    intro a ha
    rw [spent_append, spent_cons, spent_nil, add_zero]
    by_cases hkey : key last = key a
    · rw [if_pos hkey, ← hkey]
      exact htotal
    · rw [if_neg hkey, add_zero]
      rcases List.mem_append.mp ha with hin | hin
      · exact hbefore a hin
      · obtain rfl := List.mem_singleton.mp hin
        exact absurd rfl hkey

/-- A purse covers each item that was checked alone. When it is either only paid from, or only
paid into by such items, it covers all of them exactly if it covers those after its first. -/
theorem covered_iff {free : κ → K} {items : List α}
    (hown : ∀ a ∈ items, checked a → amount a ≤ free (key a))
    (hsign : ∀ k, (∀ a ∈ items, key a = k → 0 ≤ amount a) ∨
      (∀ a ∈ items, key a = k → amount a ≤ 0 ∧ checked a)) :
    (∀ a ∈ items, spent key amount (key a) items ≤ free (key a)) ↔
      LaterCovered key amount checked free [] items := by
  refine ⟨fun h => (laterCovered_iff_split [] items).mpr fun before a after heq _ => ?_,
    covered_of_later hown⟩
  subst heq
  have htotal := h a (List.mem_append_right _ List.mem_cons_self)
  rw [spent_append, spent_own] at htotal
  rw [List.nil_append]
  rcases hsign (key a) with hpay | hback
  · have hlater : 0 ≤ spent key amount (key a) after := spent_nonneg fun b hb =>
      hpay b (List.mem_append_right _ (List.mem_cons_of_mem _ hb))
    exact (add_le_add_right (le_add_of_nonneg_right hlater) _).trans htotal
  · have hearlier : spent key amount (key a) before ≤ 0 := spent_nonpos fun b hb hkey =>
      (hback b (List.mem_append_left _ hb) hkey).1
    have ha := List.mem_append_right before (List.mem_cons_self (a := a) (l := after))
    exact (add_le_of_nonpos_left hearlier).trans (hown a ha (hback a ha rfl).2)

end Spending
