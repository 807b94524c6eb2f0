import Btcbot.AggressivePlan
import Mathlib.Algebra.Order.BigOperators.Group.List

/-!
# The two passes of the shares

Dropping symbols only raises the weights of those kept, so a share that is large enough in
the first pass is large enough to the end. The second pass therefore drops none, and the plan
of the scored symbols is that of sharing once among those the first pass keeps.
-/
namespace FirstShares

open PyData AllocationService DecisionPipeline CycleCap AggressivePlan
open Stage4Execute (ExchangeRules quantizePrice quantizeQty gridStep)

section Weights

variable {scores : Mapping ℚ}

theorem weightScore_nonneg (symbol : String) : 0 ≤ weightScore scores symbol := le_max_left _ _

theorem weightOf_nonneg (kept : List String) (symbol : String) :
    0 ≤ weightOf scores kept symbol := by
  simp only [weightOf]
  split
  · next htotal => exact div_nonneg (weightScore_nonneg symbol) htotal.le
  · positivity

/-- A symbol that weighs something weighs no less among fewer. -/
theorem weightOf_sublist {kept kept' : List String} {symbol : String} (h : kept'.Sublist kept)
    (hin : symbol ∈ kept') (hpos : 0 < weightOf scores kept symbol) :
    weightOf scores kept symbol ≤ weightOf scores kept' symbol := by
  have hscore (other : String) : 0 ≤ weightScore scores other := weightScore_nonneg other
  have htotals : (kept'.map (weightScore scores)).sum ≤ (kept.map (weightScore scores)).sum :=
    (h.map _).sum_le_sum fun score hscored => by
      obtain ⟨other, -, rfl⟩ := List.mem_map.mp hscored
      exact hscore other
  have hown : weightScore scores symbol ≤ (kept'.map (weightScore scores)).sum :=
    List.single_le_sum (fun score hscored => by
      obtain ⟨other, -, rfl⟩ := List.mem_map.mp hscored
      exact hscore other) _ (List.mem_map_of_mem hin)
  simp only [weightOf] at hpos ⊢
  by_cases htotal : 0 < (kept.map (weightScore scores)).sum
  · rw [if_pos htotal] at hpos ⊢
    have hweighs : 0 < weightScore scores symbol := by
      by_contra hnone
      rw [le_antisymm (not_lt.mp hnone) (hscore symbol), zero_div] at hpos
      exact lt_irrefl 0 hpos
    rw [if_pos (hweighs.trans_le hown)]
    exact div_le_div_of_nonneg_left hweighs.le (hweighs.trans_le hown) htotals
  · rw [if_neg htotal, if_neg fun hless => htotal (hless.trans_le htotals)]
    have hlength : (0 : ℚ) < kept'.length := by
      exact_mod_cast List.length_pos_of_mem hin
    refine one_div_le_one_div_of_le hlength ?_
    exact_mod_cast h.length_le

theorem weightOf_perm {kept kept' : List String} (h : kept.Perm kept') (symbol : String) :
    weightOf scores kept symbol = weightOf scores kept' symbol := by
  have htotal := (h.map (weightScore scores)).sum_eq
  simp only [weightOf, htotal, h.length_eq]

end Weights

section Shares

variable {service : Service} {input : CycleInput} {scores : Mapping ℚ}

theorem quantizeQty_mono (rules : ExchangeRules) {qty qty' : ℚ} (h : qty ≤ qty') :
    quantizeQty qty rules ≤ quantizeQty qty' rules :=
  Grid.le_snap_floor (gridStep_pos _ _) (Grid.snap_onGrid _ _ _)
    ((quantizeQty_le rules qty).trans h)

/-- A larger share is planned where a smaller one is. -/
theorem planShare_mono {deployBudget weight weight' mark : ℚ} {pair : PairInfo}
    (hbudget : 0 ≤ deployBudget) (hweight : weight ≤ weight')
    (h : (planShare deployBudget weight mark pair).isOk = true) :
    (planShare deployBudget weight' mark pair).isOk = true := by
  cases hplan : planShare deployBudget weight mark pair with
  | error reason =>
    rw [hplan] at h
    cases h
  | ok plan =>
    obtain ⟨hprice, hqty, hpriced, hquantized, -, hmin⟩ := planShare_cases hplan
    have hlarger : deployBudget * weight / plan.1 ≤ deployBudget * weight' / plan.1 :=
      div_le_div_of_nonneg_right (mul_le_mul_of_nonneg_left hweight hbudget) hprice.le
    have hgrown : plan.2.1 ≤ quantizeQty (deployBudget * weight' / plan.1)
        (buildExchangeRules pair) := by
      rw [hquantized]
      exact quantizeQty_mono _ hlarger
    have hsome : 0 < deployBudget * weight' / plan.1 :=
      (hqty.trans_le hgrown).trans_le (quantizeQty_le _ _)
    have hworth : validateMinNotional plan.1 (quantizeQty (deployBudget * weight' / plan.1)
        (buildExchangeRules pair)) (buildExchangeRules pair) = true := by
      rw [validateMinNotional, decide_eq_true_eq]
      exact hmin.trans (mul_le_mul_of_nonneg_left hgrown hprice.le)
    simp only [planShare, ← hpriced, if_neg (not_le.mpr hprice), if_neg (not_le.mpr hsome), hworth,
      decide_eq_false (not_le.mpr (hqty.trans_le hgrown)), Bool.not_true, Bool.or_self,
      Bool.false_eq_true, if_false]
    rfl

theorem weightOf_pos {kept : List String} {symbol : String}
    (h : (shareOf service input scores kept symbol).isOk = true) :
    0 < weightOf scores kept symbol := by
  unfold shareOf at h
  split at h
  · cases h
  · next pair _ =>
    cases hplan : planShare (aggressiveDeployBudget service input) (weightOf scores kept symbol)
        ((input.markPrices.get symbol).getD 0) pair with
    | error reason =>
      rw [hplan] at h
      cases h
    | ok plan =>
      obtain ⟨hprice, hqty, -, hquantized, -, -⟩ := planShare_cases hplan
      refine lt_of_le_of_ne (weightOf_nonneg kept symbol) fun hzero => ?_
      rw [hquantized, ← hzero, mul_zero, zero_div] at hqty
      exact not_lt.mpr (quantizeQty_le _ 0) hqty

/-- A share that is planned is planned among fewer symbols. -/
theorem shareOf_sublist {kept kept' : List String} {symbol : String} (hkept : kept'.Sublist kept)
    (hin : symbol ∈ kept') (h : (shareOf service input scores kept symbol).isOk = true) :
    (shareOf service input scores kept' symbol).isOk = true := by
  have hweight := weightOf_sublist hkept hin (weightOf_pos h)
  unfold shareOf at h ⊢
  split at h
  · cases h
  · next pair _ => exact planShare_mono (aggressiveDeployBudget_nonneg service input) hweight h

theorem foldl_sublist (sharing : Sharing) (kept symbols : List String) :
    (symbols.foldl (shareSymbol service input scores kept) sharing).kept.Sublist sharing.kept := by
  induction symbols generalizing sharing with
  | nil => exact List.Sublist.refl _
  | cons symbol symbols ih =>
    refine (ih _).trans ?_
    unfold shareSymbol
    split
    · exact List.erase_sublist
    · exact List.Sublist.refl _

theorem shareOf_perm {kept kept' : List String} (h : kept.Perm kept') (symbol : String) :
    shareOf service input scores kept symbol = shareOf service input scores kept' symbol := by
  simp only [shareOf, weightOf_perm h]

theorem foldl_again (sharing : Sharing) (kept symbols : List String) :
    (symbols.foldl (shareSymbol service input scores kept) sharing).again =
      (sharing.again ||
        symbols.any fun symbol => !(shareOf service input scores kept symbol).isOk) := by
  induction symbols generalizing sharing with
  | nil => simp
  | cons symbol symbols ih =>
    rw [List.foldl_cons, ih, List.any_cons]
    cases hshare : shareOf service input scores kept symbol with
    | error reason => simp [shareSymbol, hshare, Except.isOk, Except.toBool]
    | ok plan => simp [shareSymbol, hshare, Except.isOk, Except.toBool]

/-- Another pass follows exactly if one of the shares failed. -/
theorem sharePass_again (sharing : Sharing) :
    (sharePass service input scores sharing).again = false ↔
      ∀ symbol ∈ sharing.kept, (shareOf service input scores sharing.kept symbol).isOk = true := by
  rw [sharePass, foldl_again, Bool.false_or, List.any_eq_false]
  simp only [Bool.not_eq_true', Bool.not_eq_false]

theorem sharePass_filter (sharing : Sharing) :
    (sharePass service input scores sharing).kept.Perm
      (sharing.kept.filter fun symbol =>
        (shareOf service input scores sharing.kept symbol).isOk) := by
  refine List.perm_iff_count.mpr fun symbol => ?_
  rw [sharePass, foldl_kept]
  by_cases hok : (shareOf service input scores sharing.kept symbol).isOk = true
  · rw [if_pos hok, List.count_filter (p := fun symbol =>
      (shareOf service input scores sharing.kept symbol).isOk) hok]
    rfl
  · have hdropped : symbol ∉ sharing.kept.filter fun symbol =>
        (shareOf service input scores sharing.kept symbol).isOk :=
      fun hin => hok (List.mem_filter.mp hin).2
    rw [if_neg hok, List.count_eq_zero_of_not_mem hdropped]
    exact Nat.sub_self _

/-- The symbols that the first pass keeps. -/
def firstKept (service : Service) (input : CycleInput) (scores : Mapping ℚ)
    (symbols : List String) : List String :=
  (eligible input symbols).filter fun symbol =>
    (shareOf service input scores (eligible input symbols) symbol).isOk

/-- What the first pass keeps it keeps again. -/
theorem firstKept_ok {symbols : List String} {symbol : String}
    (h : symbol ∈ firstKept service input scores symbols) :
    (shareOf service input scores (firstKept service input scores symbols) symbol).isOk = true :=
  shareOf_sublist List.filter_sublist h (List.mem_filter.mp h).2

/-- The plans are the shares of the symbols that the first pass keeps, among themselves. -/
theorem share_plans (symbols : List String) (symbol : String) :
    (share service input scores symbols).plans[symbol]? =
      if symbol ∈ firstKept service input scores symbols then
        (shareOf service input scores (firstKept service input scores symbols) symbol).toOption
      else none := by
  have hkept := @sharePass_filter service input scores { kept := eligible input symbols }
  have hsub : (sharePass service input scores { kept := eligible input symbols }).kept.Sublist
      (eligible input symbols) := foldl_sublist _ _ _
  have hagain := @sharePass_again service input scores { kept := eligible input symbols }
  have hplans := sharePass_plans service input scores { kept := eligible input symbols } symbol
  rw [share]
  cases hsymbols : eligible input symbols with
  | nil =>
    have hnone : firstKept service input scores symbols = [] := by
      rw [firstKept, hsymbols]
      rfl
    simp [WhileLoop.run, hnone]
  | cons first rest =>
    -- the guard holds before the first pass
    have hfirst : WhileLoop.run (fun sharing : Sharing => sharing.again && sharing.kept ≠ [])
        (sharePass service input scores) ((first :: rest).length + 1)
        { kept := first :: rest } =
      WhileLoop.run (fun sharing : Sharing => sharing.again && sharing.kept ≠ [])
        (sharePass service input scores) (rest.length + 1)
        (sharePass service input scores { kept := first :: rest }) := rfl
    rw [hfirst, ← hsymbols]
    change List.Perm _ (firstKept service input scores symbols) at hkept
    generalize sharePass service input scores { kept := eligible input symbols } = passed at *
    by_cases hguard : (passed.again && decide (passed.kept ≠ [])) = true
    · have hall (symbol : String) (hin : symbol ∈ passed.kept) :
          (shareOf service input scores passed.kept symbol).isOk = true :=
        shareOf_sublist hsub hin (List.mem_filter.mp (hkept.subset hin)).2
      have hlast := (sharePass_again passed).mpr hall
      have hstopped : ((sharePass service input scores passed).again &&
          decide ((sharePass service input scores passed).kept ≠ [])) = false := by
        rw [hlast, Bool.false_and]
      rw [WhileLoop.run, if_pos hguard, @WhileLoop.run_stopped _
        (fun sharing : Sharing => sharing.again && sharing.kept ≠ []) _ _ hstopped,
        sharePass_plans, shareOf_perm hkept]
      simp only [hkept.mem_iff]
    · rw [@WhileLoop.run_stopped _ (fun sharing : Sharing => sharing.again && sharing.kept ≠ []) _
        _ (Bool.eq_false_iff.mpr hguard), hplans]
      rcases Bool.and_eq_false_iff.mp (Bool.eq_false_iff.mpr hguard) with hstop | hnone
      · have hsame : firstKept service input scores symbols = eligible input symbols :=
          List.filter_eq_self.mpr (hagain.mp hstop)
        rw [hsame]
      · have hempty : firstKept service input scores symbols = [] := by
          rw [not_not.mp (of_decide_eq_false hnone)] at hkept
          exact hkept.symm.eq_nil
        rw [hempty, if_neg List.not_mem_nil]
        split
        · next hin =>
          have hfails := List.filter_eq_nil_iff.mp hempty symbol hin
          cases hshare : shareOf service input scores (eligible input symbols) symbol with
          | error reason => rfl
          | ok plan =>
            rw [hshare] at hfails
            exact absurd rfl hfails
        · rfl

theorem share_isSome (symbols : List String) (symbol : String) :
    (share service input scores symbols).plans[symbol]?.isSome = true ↔
      symbol ∈ firstKept service input scores symbols := by
  rw [share_plans]
  split
  · next hin =>
    have hok := firstKept_ok hin
    cases hshare : shareOf service input scores (firstKept service input scores symbols) symbol with
    | error reason =>
      rw [hshare] at hok
      cases hok
    | ok plan => exact iff_of_true rfl hin
  · next hout => exact iff_of_false Bool.false_ne_true hout

end Shares

end FirstShares
