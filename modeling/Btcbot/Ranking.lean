import Mathlib.Algebra.Order.Field.Basic
import Mathlib.Algebra.Order.Group.MinMax
import Mathlib.Data.List.Sort
import Mathlib.Order.Bounds.Basic
import Mathlib.Tactic.Linarith
import Mathlib.Tactic.Ring

/-!
# Ranking by scores between the least and the greatest value

A value is scored by where it stands between the bounds of all the values present, and a
missing one scores below them all. A value moves the bounds as well, so the scores of the
others change with it. The gap to each of them still only widens when the value improves.
-/
namespace Ranking

section Bounds

variable {K : Type} [LinearOrder K]

/-- The bounds of the values, if there are any. -/
def Bounded (values : Set K) (low high : K) : Prop :=
  values.Nonempty → IsLeast values low ∧ IsGreatest values high

def joined (others : Set K) : Option K → Set K
  | none => others
  | some value => insert value others

/-- No value is less than a missing one. -/
def AtLeast (before after : Option K) : Prop := ∀ v ∈ before, ∃ w ∈ after, v ≤ w

theorem Bounded.low_le {values : Set K} {low high v : K} (h : Bounded values low high)
    (hv : v ∈ values) : low ≤ v := (h ⟨v, hv⟩).1.2 hv

theorem Bounded.le_high {values : Set K} {low high v : K} (h : Bounded values low high)
    (hv : v ∈ values) : v ≤ high := (h ⟨v, hv⟩).2.2 hv

theorem Bounded.unique {values : Set K} {low high low' high' : K} (h : Bounded values low high)
    (h' : Bounded values low' high') (hne : values.Nonempty) : low = low' ∧ high = high' :=
  ⟨(h hne).1.unique (h' hne).1, (h hne).2.unique (h' hne).2⟩

/-- One value more moves a bound only to itself. -/
theorem Bounded.insert {others : Set K} {least greatest low high v : K}
    (hothers : Bounded others least greatest) (hne : others.Nonempty)
    (h : Bounded (insert v others) low high) : low = min v least ∧ high = max v greatest := by
  have hmem : (Insert.insert v others : Set K).Nonempty := ⟨v, Set.mem_insert v others⟩
  exact ⟨(h hmem).1.unique ((hothers hne).1.insert v), (h hmem).2.unique ((hothers hne).2.insert v)⟩

variable [Zero K]

def bounds (values : List K) : K × K := (values.min?.getD 0, values.max?.getD 0)

theorem bounds_bounded (values : List K) :
    Bounded {v | v ∈ values} (bounds values).1 (bounds values).2 := by
  rintro ⟨v, hv⟩
  constructor
  · cases hmin : values.min? with
    | none =>
      rw [List.min?_eq_none_iff] at hmin
      rw [hmin] at hv
      exact absurd hv List.not_mem_nil
    | some low =>
      obtain ⟨hmem, hleast⟩ := List.min?_eq_some_iff.mp hmin
      simp only [bounds, hmin, Option.getD_some]
      exact ⟨hmem, fun w hw => hleast w hw⟩
  · cases hmax : values.max? with
    | none =>
      rw [List.max?_eq_none_iff] at hmax
      rw [hmax] at hv
      exact absurd hv List.not_mem_nil
    | some high =>
      obtain ⟨hmem, hgreatest⟩ := List.max?_eq_some_iff.mp hmax
      simp only [bounds, hmax, Option.getD_some]
      exact ⟨hmem, fun w hw => hgreatest w hw⟩

theorem bounds_perm {vs ws : List K} (h : vs.Perm ws) : bounds vs = bounds ws := by
  cases vs with
  | nil => rw [h.nil_eq]
  | cons v vs =>
    have hset : {u | u ∈ v :: vs} = {u | u ∈ ws} := Set.ext fun u => h.mem_iff
    have hbounded := bounds_bounded ws
    rw [← hset] at hbounded
    have hunique := (bounds_bounded (v :: vs)).unique hbounded ⟨v, List.mem_cons_self⟩
    exact Prod.ext hunique.1 hunique.2

end Bounds

section Scores

variable {K : Type} [Field K] [LinearOrder K]

/-- The values all level are at the top together. -/
def standing (low high value : K) : K :=
  if high ≤ low then 1 else (value - low) / (high - low)

def score (missing low high : K) : Option K → K
  | none => missing
  | some value => standing low high value

/-- The scale alone decides how far apart two values stand. -/
theorem standing_sub {low high x a : K} (hle : low ≤ high) :
    standing low high x - standing low high a = (x - a) / (high - low) := by
  unfold standing
  split_ifs with hlevel
  · rw [le_antisymm hlevel hle, sub_self, sub_self, div_zero]
  · rw [← sub_div, sub_sub_sub_cancel_right]

variable [IsStrictOrderedRing K]

theorem standing_bounds {low high v : K} (hlow : low ≤ v) (hhigh : v ≤ high) :
    0 ≤ standing low high v ∧ standing low high v ≤ 1 := by
  unfold standing
  split_ifs with hlevel
  · exact ⟨zero_le_one, le_rfl⟩
  · have hpos : 0 < high - low := sub_pos.mpr (not_le.mp hlevel)
    refine ⟨div_nonneg (sub_nonneg.mpr hlow) hpos.le, (div_le_one hpos).mpr ?_⟩
    exact sub_le_sub_right hhigh low

theorem missing_le_score {values : Set K} {missing low high : K} (hmissing : missing ≤ 0)
    (h : Bounded values low high) {value : Option K} (hv : ∀ v ∈ value, v ∈ values) :
    missing ≤ score missing low high value := by
  cases value with
  | none => exact le_rfl
  | some v =>
    exact hmissing.trans (standing_bounds (h.low_le (hv v rfl)) (h.le_high (hv v rfl))).1

/-- A score counted from the top is one of the values negated. -/
theorem standing_neg {low high v : K} :
    standing (-high) (-low) (-v) =
      if high ≤ low then 1 else 1 - (v - low) / (high - low) := by
  unfold standing
  by_cases hlevel : high ≤ low
  · rw [if_pos hlevel, if_pos (neg_le_neg hlevel)]
  · rw [if_neg hlevel, if_neg (fun h => hlevel (neg_le_neg_iff.mp h))]
    have hne : high - low ≠ 0 := sub_ne_zero.mpr fun heq => hlevel heq.le
    rw [eq_sub_iff_add_eq, neg_sub_neg, neg_sub_neg, ← add_div, sub_add_sub_cancel, div_self hne]

/-- Above a value, what a raise gains is more than what it widens the scale by. -/
theorem gap_above {least greatest a x y : K} (hl : least ≤ a) (hax : a ≤ x) (hxy : x ≤ y) :
    (x - a) / (max x greatest - least) ≤ (y - a) / (max y greatest - least) := by
  have hy : 0 ≤ y - a := sub_nonneg.mpr (hax.trans hxy)
  rcases hax.eq_or_lt with rfl | hlt
  · rw [sub_self, zero_div]
    exact div_nonneg hy (sub_nonneg.mpr (hl.trans (hxy.trans (le_max_left y greatest))))
  · have hx : 0 < max x greatest - least :=
      sub_pos.mpr (hl.trans_lt (hlt.trans_le (le_max_left x greatest)))
    have hscale : max y greatest - least ≤ max x greatest - least + (y - x) := by
      have hmax : max y greatest ≤ max x greatest + (y - x) :=
        max_le (by linarith [le_max_left x greatest])
          (by linarith [le_max_right x greatest])
      linarith
    have hmono : max x greatest - least ≤ max y greatest - least :=
      sub_le_sub_right (max_le_max_right greatest hxy) least
    have hwithin : x - a ≤ max x greatest - least := sub_le_sub (le_max_left x greatest) hl
    rw [div_le_div_iff₀ hx (hx.trans_le hmono)]
    calc (x - a) * (max y greatest - least)
        ≤ (x - a) * (max x greatest - least + (y - x)) :=
          mul_le_mul_of_nonneg_left hscale (sub_nonneg.mpr hax)
      _ = (x - a) * (max x greatest - least) + (x - a) * (y - x) := mul_add _ _ _
      _ ≤ (x - a) * (max x greatest - least) + (max x greatest - least) * (y - x) :=
          add_le_add_right (mul_le_mul_of_nonneg_right hwithin (sub_nonneg.mpr hxy)) _
      _ = (y - a) * (max x greatest - least) := by ring

theorem gap_below {least greatest a x y : K} (hg : a ≤ greatest) (hya : y ≤ a) (hxy : x ≤ y) :
    (x - a) / (greatest - min x least) ≤ (y - a) / (greatest - min y least) := by
  have h : (-y - -a) / (max (-y) (-least) - -greatest) ≤
      (-x - -a) / (max (-x) (-least) - -greatest) :=
    gap_above (neg_le_neg hg) (neg_le_neg hya) (neg_le_neg hxy)
  rw [max_neg_neg, max_neg_neg, neg_sub_neg, neg_sub_neg, neg_sub_neg, neg_sub_neg] at h
  rw [← neg_sub a x, ← neg_sub a y, neg_div, neg_div]
  exact neg_le_neg h

theorem gap_mono {least greatest a x y : K} (hl : least ≤ a) (hg : a ≤ greatest) (hxy : x ≤ y) :
    (x - a) / (max x greatest - min x least) ≤ (y - a) / (max y greatest - min y least) := by
  have hscale (z : K) : 0 ≤ max z greatest - min z least :=
    sub_nonneg.mpr ((min_le_left z least).trans (le_max_left z greatest))
  rcases le_total a x with hax | hxa
  · rw [min_eq_right (hl.trans hax), min_eq_right (hl.trans (hax.trans hxy))]
    exact gap_above hl hax hxy
  · rcases le_total a y with hay | hya
    · exact (div_nonpos_of_nonpos_of_nonneg (sub_nonpos.mpr hxa) (hscale x)).trans
        (div_nonneg (sub_nonneg.mpr hay) (hscale y))
    · rw [max_eq_right (hxa.trans hg), max_eq_right (hya.trans hg)]
      exact gap_below hg hya hxy

/-- A raise takes no value further from the top. -/
theorem standing_raise {others : Set K} {least greatest low high low' high' v w : K}
    (hothers : Bounded others least greatest) (h : Bounded (insert v others) low high)
    (h' : Bounded (insert w others) low' high') (hvw : v ≤ w) :
    standing low high v ≤ standing low' high' w := by
  have hv := standing_bounds (h.low_le (Set.mem_insert v others))
    (h.le_high (Set.mem_insert v others))
  have hw := standing_bounds (h'.low_le (Set.mem_insert w others))
    (h'.le_high (Set.mem_insert w others))
  -- at the top of the values the score is one, below the others it is nothing
  by_cases htop : high' ≤ w
  · refine hv.2.trans_eq ?_
    rw [standing, le_antisymm (h'.le_high (Set.mem_insert w others)) htop]
    split_ifs with hlevel
    · rfl
    · exact (div_self (sub_ne_zero.mpr fun heq => hlevel heq.le)).symm
  · have hne : others.Nonempty := by
      by_contra hempty
      rw [Set.not_nonempty_iff_eq_empty.mp hempty] at h'
      have hmem := (h' ⟨w, Set.mem_insert w ∅⟩).2.1
      exact htop (Set.mem_singleton_iff.mp (by simpa using hmem)).le
    obtain ⟨rfl, rfl⟩ := hothers.insert hne h
    obtain ⟨rfl, rfl⟩ := hothers.insert hne h'
    have hgreatest : w < greatest := by
      by_contra hge
      exact htop (max_le le_rfl (not_lt.mp hge))
    rw [max_eq_right hgreatest.le] at hw ⊢
    rw [max_eq_right (hvw.trans hgreatest.le)]
    rcases le_total v least with hbelow | habove
    · rw [min_eq_left hbelow]
      have hlevel : ¬ greatest ≤ v := not_le.mpr (hvw.trans_lt hgreatest)
      rw [standing, if_neg hlevel, sub_self, zero_div]
      exact hw.1
    · rw [min_eq_right habove, min_eq_right (habove.trans hvw)]
      have hlevel : ¬ greatest ≤ least :=
        not_le.mpr (habove.trans_lt (hvw.trans_lt hgreatest))
      rw [standing, standing, if_neg hlevel, if_neg hlevel]
      exact div_le_div_of_nonneg_right (sub_le_sub_right hvw least)
        (sub_nonneg.mpr (le_of_lt (not_le.mp hlevel)))

/-- What improves a value takes none of its lead over another. -/
theorem score_gap_mono {others : Set K} {missing least greatest low high low' high' : K}
    {x y a : Option K} (hmissing : missing ≤ -1) (hothers : Bounded others least greatest)
    (hx : Bounded (joined others x) low high) (hy : Bounded (joined others y) low' high')
    (ha : ∀ v ∈ a, v ∈ others) (hxy : AtLeast x y) :
    score missing low high x - score missing low high a ≤
      score missing low' high' y - score missing low' high' a := by
  cases x with
  | none =>
    cases a with
    | none =>
      rw [sub_self, sub_nonneg]
      exact missing_le_score (hmissing.trans (neg_nonpos.mpr zero_le_one)) hy (by
        intro v hv
        rw [Option.mem_def] at hv
        subst hv
        exact Set.mem_insert v others)
    | some u =>
      have hu := ha u rfl
      have hbefore := standing_bounds (hx.low_le hu) (hx.le_high hu)
      cases y with
      | none =>
        obtain ⟨rfl, rfl⟩ := hx.unique hy ⟨u, hu⟩
        exact le_rfl
      | some w =>
        have hw := standing_bounds (hy.low_le (Set.mem_insert w others))
          (hy.le_high (Set.mem_insert w others))
        have hu' : u ∈ joined others (some w) := Set.mem_insert_of_mem w hu
        have hafter := standing_bounds (hy.low_le hu') (hy.le_high hu')
        simp only [score]
        linarith [hbefore.1, hafter.2, hw.1]
  | some v =>
    obtain ⟨w, hw, hvw⟩ := hxy v rfl
    rw [Option.mem_def] at hw
    subst hw
    cases a with
    | none => exact sub_le_sub_right (standing_raise hothers hx hy hvw) missing
    | some u =>
      have hu := ha u rfl
      obtain ⟨rfl, rfl⟩ := hothers.insert ⟨u, hu⟩ hx
      obtain ⟨rfl, rfl⟩ := hothers.insert ⟨u, hu⟩ hy
      simp only [score]
      rw [standing_sub ((min_le_left v least).trans (le_max_left v greatest)),
        standing_sub ((min_le_left w least).trans (le_max_left w greatest))]
      exact gap_mono (hothers.low_le hu) (hothers.le_high hu) hvw

end Scores

section Places

variable {α κ : Type} [LinearOrder κ] (key : α → κ)

/-- The first places go to the items with few items ahead. -/
theorem mem_take_iff {l : List α} (hsorted : l.Pairwise fun a b => key a < key b) (n : ℕ) (a : α) :
    a ∈ l.take n ↔ a ∈ l ∧ l.countP (fun b => key b < key a) < n := by
  induction l generalizing n with
  | nil => simp
  | cons b l ih =>
    obtain ⟨hhead, htail⟩ := List.pairwise_cons.mp hsorted
    cases n with
    | zero => simp
    | succ n =>
      by_cases heq : a = b
      · subst heq
        have hnone : l.countP (fun b => key b < key a) = 0 := by
          rw [List.countP_eq_zero]
          intro c hc hlt
          exact lt_asymm (hhead c hc) (of_decide_eq_true hlt)
        simp [hnone]
      · rw [List.take_succ_cons, List.mem_cons, List.mem_cons, ih htail n, List.countP_cons]
        constructor
        · rintro (habs | ⟨hmem, hcount⟩)
          · exact absurd habs heq
          · refine ⟨.inr hmem, ?_⟩
            rw [if_pos (decide_eq_true (hhead a hmem))]
            omega
        · rintro ⟨habs | hmem, hcount⟩
          · exact absurd habs heq
          · rw [if_pos (decide_eq_true (hhead a hmem))] at hcount
            exact .inr ⟨hmem, by omega⟩

end Places

end Ranking
