import Btcbot.CycleBids

/-!
# Which cycles keep to their cap

No way over the cap is taken, or what the largest bids are worth is within it all the same.
-/
namespace CapBids

open PyData AllocationService DecisionPipeline CycleCap
open EqualPurchases CycleBids

section Cap

variable {service : Service} {input : CycleInput}

/-- The largest bids are worth no more than the scaled cap, and at multiplier zero there are
none. -/
def BidsWithin (settings : Settings) (input : CycleInput)
    (bought : Except PlanError (List (String × ℚ))) : Prop :=
  match bought with
  | .error _ => True
  | .ok bids =>
    (0 < settings.notionalCapTryPerCycle → selectedWorth settings input bids ≤
        settings.notionalCapTryPerCycle * input.budgetNotionalMultiplier) ∧
      (input.budgetNotionalMultiplier = 0 → settings.maxOrdersPerCycle ≤ 0 ∨ bids = [])

instance (settings : Settings) (input : CycleInput)
    (bought : Except PlanError (List (String × ℚ))) :
    Decidable (BidsWithin settings input bought) :=
  match bought with
  | .error _ => .isTrue trivial
  | .ok _ => inferInstanceAs (Decidable (_ ∧ _))

/-- The orders selected are within the cap exactly if the bids are. -/
theorem selected_within {settings : Settings} {bids : List (String × ℚ)} {selected : List Order}
    (h : SelectedOf settings input bids selected) :
    WithinCap settings input.budgetNotionalMultiplier selected ↔
      BidsWithin settings input (.ok bids) := by
  have hnone : (∀ order ∈ selected, order.side ≠ "buy") ↔ selected = [] := by
    constructor
    · intro hsides
      exact List.eq_nil_iff_forall_not_mem.mpr fun order hin => hsides order hin (h.buys order hin)
    · rintro rfl
      exact fun order hin => nomatch hin
  rw [WithinCap, h.worth, hnone, h.eq_nil]
  exact Iff.rfl

/-- A cycle keeps to its cap where no way over it is taken; with the strategy of the program it
does exactly where its bids keep to it. -/
theorem cycle_capped (hnonneg : 0 ≤ input.budgetNotionalMultiplier) {report : CycleDecisionReport}
    (h : runCycle service input = .ok report) :
    (CapBinds service input →
      WithinCap service.settings input.budgetNotionalMultiplier report.orderRequests) ∧
    (Built service input →
      (WithinCap service.settings input.budgetNotionalMultiplier report.orderRequests ↔
        BidsWithin service.settings input (bids service.settings service.universeSelector input
          (selectUniverse service input)))) := by
  refine ⟨fun hbinds => cycle_within_cap service input hnonneg hbinds h, fun hbuilt => ?_⟩
  cases hbids : bids service.settings service.universeSelector input
      (selectUniverse service input) with
  | error e =>
    rw [runCycle_fails hbuilt hbids] at h
    cases h
  | ok bought =>
    obtain ⟨found, hfound, hselected⟩ := runCycle_buys hbuilt hbids
    rw [h] at hfound
    obtain rfl := Except.ok.inj hfound
    exact selected_within hselected

/-- Half of the budget pays for one order as it is allotted. Of the whole the order is raised
to 60, which a cap of 100 covers. -/
theorem cycle_capped_order : (∃ report,
    runCycle (baseline { symbols := [] }) (flatCycle bitcoin (1 / 2)) = .ok report ∧
      report.orderRequests.length = 1 ∧
      WithinCap { symbols := [] } (1 / 2) report.orderRequests) ∧
    ∃ report, runCycle (baseline { symbols := [], notionalCapTryPerCycle := 100 })
        (flatCycle { bitcoin with stepSize := some (3 / 10), minTotalAmount := some 50 } 1) =
        .ok report ∧
      valueOf report.orderRequests = 60 ∧
      WithinCap { symbols := [], notionalCapTryPerCycle := 100 } 1 report.orderRequests := by
  constructor
  · have hlength : (runCycle (baseline { symbols := [] }) (flatCycle bitcoin (1 / 2))).toOption.map
        (fun report => report.orderRequests.length) = some 1 := by decide +kernel
    have hactions : ∀ action ∈ actionsOf (baseline { symbols := [] }) (flatCycle bitcoin (1 / 2)),
        raises (flatCycle bitcoin (1 / 2)) action = false ∧
          dearer (flatCycle bitcoin (1 / 2)) action = false := by decide +kernel
    cases hreport : runCycle (baseline { symbols := [] }) (flatCycle bitcoin (1 / 2)) with
    | error e =>
      rw [hreport] at hlength
      cases hlength
    | ok report =>
      rw [hreport] at hlength
      refine ⟨report, rfl, Option.some.inj hlength, (cycle_capped (by decide +kernel) hreport).1 ?_⟩
      constructor
      · exact fun hscores => absurd rfl hscores
      · intro _ hzero
        exact absurd hzero (by decide +kernel)
      · exact fun _ _ _ action hin _ => hactions action hin
  · have hvalue : (runCycle (baseline { symbols := [], notionalCapTryPerCycle := 100 })
        (flatCycle { bitcoin with stepSize := some (3 / 10), minTotalAmount := some 50 }
          1)).toOption.map (fun report => valueOf report.orderRequests) = some 60 := by
      decide +kernel
    cases hreport : runCycle (baseline { symbols := [], notionalCapTryPerCycle := 100 })
        (flatCycle { bitcoin with stepSize := some (3 / 10), minTotalAmount := some 50 } 1) with
    | error e =>
      rw [hreport] at hvalue
      cases hvalue
    | ok report =>
      rw [hreport] at hvalue
      refine ⟨report, rfl, Option.some.inj hvalue,
        ((cycle_capped (by decide +kernel) hreport).2 fun _ => ⟨rfl, ?_⟩).mpr ?_⟩
      · exact ⟨by decide +kernel, by decide +kernel⟩
      · decide +kernel

end Cap

end CapBids
