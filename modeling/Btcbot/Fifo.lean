import Mathlib.Algebra.BigOperators.Group.List.Basic
import Mathlib.Algebra.Order.Field.Basic
import Mathlib.Tactic.Linarith
import Mathlib.Tactic.LinearCombination
import Mathlib.Tactic.Ring

/-!
# First-in first-out lots

Lots are opened at the back and closed from the front. A sale matches the front
lot with what it still has to sell; its gain is taken at the lot's own cost.
The book, gain less the cost of what is held plus the worth of what is still to
be sold, does not move while a sale is matched.
-/
namespace Fifo

variable {L K : Type} [Field K]

/-- How a lot shows its quantity and its cost, and takes another quantity. -/
structure Lots (L K : Type) where
  qty : L → K
  cost : L → K
  put : L → K → L
  qty_put : ∀ l q, qty (put l q) = q
  cost_put : ∀ l q, cost (put l q) = cost l
  put_put : ∀ l p q, put (put l p) q = put l q

def total (v : Lots L K) (lots : List L) : K := (lots.map v.qty).sum

def value (v : Lots L K) (lots : List L) : K := (lots.map fun l => v.cost l * v.qty l).sum

@[simp] theorem total_nil (v : Lots L K) : total v [] = 0 := rfl

@[simp] theorem total_cons (v : Lots L K) (l : L) (lots : List L) :
    total v (l :: lots) = v.qty l + total v lots := by simp [total]

@[simp] theorem total_append (v : Lots L K) (lots more : List L) :
    total v (lots ++ more) = total v lots + total v more := by simp [total]

@[simp] theorem value_nil (v : Lots L K) : value v [] = 0 := rfl

@[simp] theorem value_cons (v : Lots L K) (l : L) (lots : List L) :
    value v (l :: lots) = v.cost l * v.qty l + value v lots := by simp [value]

@[simp] theorem value_append (v : Lots L K) (lots more : List L) :
    value v (lots ++ more) = value v lots + value v more := by simp [value]

variable [LinearOrder K]

/-- The lots held are a suffix of the lots opened, the first one possibly reduced. -/
def Remains (v : Lots L K) (opened lots : List L) : Prop :=
  ∃ gone, opened = gone ++ lots ∨
    ∃ l q rest, opened = gone ++ l :: rest ∧ lots = v.put l q :: rest ∧ 0 < q ∧ q < v.qty l

theorem Remains.refl (v : Lots L K) (opened : List L) : Remains v opened opened :=
  ⟨[], .inl rfl⟩

theorem Remains.open {v : Lots L K} {opened lots : List L} (h : Remains v opened lots) (l : L) :
    Remains v (opened ++ [l]) (lots ++ [l]) := by
  obtain ⟨gone, rfl | ⟨k, q, rest, rfl, rfl, hpos, hlt⟩⟩ := h
  · exact ⟨gone, .inl (by simp)⟩
  · exact ⟨gone, .inr ⟨k, q, rest ++ [l], by simp, by simp, hpos, hlt⟩⟩

theorem Remains.close {v : Lots L K} {opened lots : List L} {l : L}
    (h : Remains v opened (l :: lots)) : Remains v opened lots := by
  obtain ⟨gone, rfl | ⟨k, q, rest, rfl, he, -, -⟩⟩ := h
  · exact ⟨gone ++ [l], .inl (by simp)⟩
  · obtain ⟨rfl, rfl⟩ := List.cons.inj he
    exact ⟨gone ++ [k], .inl (by simp)⟩

theorem Remains.reduce {v : Lots L K} {opened lots : List L} {l : L}
    (h : Remains v opened (l :: lots)) {q : K} (hpos : 0 < q) (hlt : q < v.qty l) :
    Remains v opened (v.put l q :: lots) := by
  obtain ⟨gone, rfl | ⟨k, p, rest, rfl, he, -, hp⟩⟩ := h
  · exact ⟨gone, .inr ⟨l, q, lots, rfl, rfl, hpos, hlt⟩⟩
  · obtain ⟨rfl, rfl⟩ := List.cons.inj he
    rw [v.qty_put] at hlt
    exact ⟨gone, .inr ⟨k, q, lots, rfl, by rw [v.put_put], hpos, hlt.trans hp⟩⟩

/-- A sale in progress. -/
structure Sale (L K : Type) where
  remaining : K
  lots : List L
  gain : K

/-- One match of the front lot at the sale's price. -/
def matchHead (v : Lots L K) (price : K) (s : Sale L K) : Sale L K :=
  match s.lots with
  | [] => s
  | l :: rest =>
    let matched := min s.remaining (v.qty l)
    { remaining := s.remaining - matched
      lots := if v.qty l - matched ≤ 0 then rest else v.put l (v.qty l - matched) :: rest
      gain := s.gain + (price - v.cost l) * matched }

def book (v : Lots L K) (price : K) (s : Sale L K) : K :=
  s.gain - value v s.lots + price * s.remaining

variable [IsStrictOrderedRing K]

theorem matchHead_remaining_nonneg (v : Lots L K) (price : K) (s : Sale L K)
    (h : 0 ≤ s.remaining) : 0 ≤ (matchHead v price s).remaining := by
  unfold matchHead
  split
  · exact h
  · exact sub_nonneg.mpr (min_le_left _ _)

/-- A lot whose leftover is not positive is sold out exactly. -/
theorem leftover_eq_zero {r q : K} (h : q - min r q ≤ 0) : min r q = q :=
  le_antisymm (min_le_right r q) (sub_nonpos.mp h)

theorem matchHead_balance (v : Lots L K) (price : K) (s : Sale L K) :
    total v (matchHead v price s).lots - (matchHead v price s).remaining =
      total v s.lots - s.remaining := by
  unfold matchHead
  split
  · rfl
  · next l rest hl =>
    rw [hl]
    simp only [total_cons]
    split
    · next hout =>
      rw [leftover_eq_zero hout]
      ring
    · simp only [total_cons, v.qty_put]
      ring

theorem matchHead_book (v : Lots L K) (price : K) (s : Sale L K) :
    book v price (matchHead v price s) = book v price s := by
  unfold matchHead
  split
  · rfl
  · next l rest hl =>
    simp only [book, hl, value_cons]
    split
    · next hout =>
      rw [leftover_eq_zero hout]
      ring
    · simp only [value_cons, v.qty_put, v.cost_put]
      ring

theorem matchHead_remains (v : Lots L K) (price : K) (s : Sale L K) (opened : List L)
    (hr : 0 < s.remaining) (h : Remains v opened s.lots) :
    Remains v opened (matchHead v price s).lots := by
  unfold matchHead
  split
  · exact h
  · next l rest hl =>
    rw [hl] at h
    simp only
    split
    · exact h.close
    · next hleft =>
      have hpos : 0 < v.qty l - min s.remaining (v.qty l) := not_le.mp hleft
      have hmatched : 0 < min s.remaining (v.qty l) := by
        rcases min_choice s.remaining (v.qty l) with he | he
        · rwa [he]
        · rw [he, sub_self] at hpos
          exact absurd hpos (lt_irrefl 0)
      exact h.reduce hpos (sub_lt_self _ hmatched)

section Whole

variable {M : Type} [Field M] [LinearOrder M]

/-- A finished sale: the gain of each match in order, the lots left and what was not sold. -/
structure Closed (L K : Type) where
  gains : List K
  lots : List L
  remaining : K

/-- Sell a quantity from the front, one match a lot. -/
def sell (v : Lots L M) (price : M) : M → List L → Closed L M
  | qty, [] => ⟨[], [], qty⟩
  | qty, l :: rest =>
    if qty ≤ 0 then ⟨[], l :: rest, qty⟩
    else
      let matched := min qty (v.qty l)
      let gain := (price - v.cost l) * matched
      if v.qty l - matched ≤ 0 then
        let closed := sell v price (qty - matched) rest
        { closed with gains := gain :: closed.gains }
      else ⟨[gain], v.put l (v.qty l - matched) :: rest, qty - matched⟩

variable [IsStrictOrderedRing M]

theorem sell_remaining_nonneg (v : Lots L M) (price qty : M) (lots : List L) (h : 0 ≤ qty) :
    0 ≤ (sell v price qty lots).remaining := by
  induction lots generalizing qty with
  | nil => exact h
  | cons l rest ih =>
    have hleft : 0 ≤ qty - min qty (v.qty l) := sub_nonneg.mpr (min_le_left _ _)
    unfold sell
    split
    · exact h
    · simp only
      split
      · exact ih _ hleft
      · exact hleft

/-- The gains are what the sale brings in less the cost of what it closes. -/
theorem sell_book (v : Lots L M) (price qty : M) (lots : List L) :
    (sell v price qty lots).gains.sum - value v (sell v price qty lots).lots +
        price * (sell v price qty lots).remaining = price * qty - value v lots := by
  induction lots generalizing qty with
  | nil => simp [sell]
  | cons l rest ih =>
    unfold sell
    split
    · simp only [List.sum_nil]
      ring
    · simp only
      split
      · next hout =>
        have hrest := ih (qty - min qty (v.qty l))
        have hwhole := leftover_eq_zero hout
        rw [hwhole] at hrest ⊢
        simp only [List.sum_cons, value_cons]
        linear_combination hrest
      · simp only [List.sum_cons, List.sum_nil, value_cons, v.qty_put, v.cost_put]
        ring

end Whole

end Fifo
