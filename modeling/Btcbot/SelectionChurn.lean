import Btcbot.Runs
import Btcbot.UniverseSelection
import Mathlib.Algebra.Order.BigOperators.Group.List

/-!
# The churn of a rolling day

The guard adds the churn desired to that of the latest snapshot, which is the only one
stored. Where every change it lets pass finds no other churn in the day before it, no window
of a day holds more than the limit.
-/
namespace UniverseSelection

section Governed

variable (settings : Settings) (world : World) (call : Call)

theorem govern_spec (governed : Governed) (symbol : String) :
    (govern settings world call governed symbol).2 = governed.2 ∨
      (govern settings world call governed symbol).2 = governed.2 ++ [symbol] := by
  unfold govern
  simp only
  split_ifs <;> simp

/-- Governance lets through some of the symbols desired, in their order. -/
theorem filtered_sublist : (filtered settings world call).Sublist (desired settings call) := by
  suffices hgen : ∀ (symbols : List String) (governed : Governed),
      ∃ passed, passed.Sublist symbols ∧
        (symbols.foldl (govern settings world call) governed).2 = governed.2 ++ passed by
    obtain ⟨passed, hsublist, heq⟩ := hgen (desired settings call) (world.symbols, [])
    have hpassed : filtered settings world call = passed := heq
    rw [hpassed]
    exact hsublist
  intro symbols
  induction symbols with
  | nil => exact fun governed => ⟨[], List.Sublist.slnil, (List.append_nil _).symm⟩
  | cons symbol symbols ih =>
    intro governed
    obtain ⟨passed, hsublist, heq⟩ := ih (govern settings world call governed symbol)
    rw [List.foldl_cons, heq]
    rcases govern_spec settings world call governed symbol with hsame | hadded
    · exact ⟨passed, hsublist.cons symbol, by rw [hsame]⟩
    · exact ⟨symbol :: passed, hsublist.cons_cons symbol, by rw [hadded, List.append_assoc]; rfl⟩

theorem desired_length : (desired settings call).length ≤ maxSize settings := by
  unfold desired
  rw [List.length_map]
  exact List.length_take_le _ _

theorem desired_canonical {symbol : String} (h : symbol ∈ desired settings call) :
    PyData.canonicalSymbol symbol = symbol := by
  obtain ⟨candidate, hin, rfl⟩ := List.mem_map.mp h
  exact call.canonical candidate (List.mem_of_mem_filter (List.mem_of_mem_take hin))

end Governed

section Churn

@[simp] theorem newIn_self (symbols : List String) : newIn symbols symbols = [] := by
  simp [newIn]

@[simp] theorem churnTotal_self (symbols : List String) : churnTotal symbols symbols = 0 := by
  simp [churnTotal, additions, removals]

/-- Each symbol once is no more than each occurrence. -/
theorem additions_length (before after : List String) :
    (additions before after).length ≤ (newIn before after).length := by
  unfold additions
  rw [List.length_insertionSort]
  exact (List.dedup_sublist _).length_le

/-- The churn of consecutive selections between two times, but from an empty one. -/
def churnBetween (results : List UniverseSelectionResult) (since until_ : Instant) : ℕ :=
  ((Runs.pairs results).map fun pair =>
    if since ≤ pair.2.timestamp ∧ pair.2.timestamp ≤ until_ ∧ pair.1.selectedSymbols ≠ [] then
      churnTotal pair.1.selectedSymbols pair.2.selectedSymbols
    else 0).sum

variable {results : List UniverseSelectionResult} {result : UniverseSelectionResult}

/-- What a selection adds to the churn of a window. -/
def stepChurn (last : Option UniverseSelectionResult) (result : UniverseSelectionResult)
    (since until_ : Instant) : ℕ :=
  match last with
  | none => 0
  | some last =>
    if since ≤ result.timestamp ∧ result.timestamp ≤ until_ ∧ last.selectedSymbols ≠ [] then
      churnTotal last.selectedSymbols result.selectedSymbols
    else 0

theorem churnBetween_concat (since until_ : Instant) :
    churnBetween (results ++ [result]) since until_ =
      churnBetween results since until_ + stepChurn results.getLast? result since until_ := by
  unfold churnBetween stepChurn
  rw [Runs.pairs_concat]
  cases results.getLast? with
  | none => simp
  | some last => simp

/-- A wider window holds no less, when all the selections were made by its end. -/
theorem churnBetween_mono {since since' until_ until' : Instant} (hsince : since' ≤ since)
    (huntil : ∀ result ∈ results, result.timestamp ≤ until') :
    churnBetween results since until_ ≤ churnBetween results since' until' := by
  unfold churnBetween
  refine List.sum_le_sum fun pair hpair => ?_
  have hin : pair.2 ∈ results := List.mem_of_mem_tail (List.of_mem_zip hpair).2
  split
  · next h => rw [if_pos ⟨hsince.trans h.1, huntil _ hin, h.2.2⟩]
  · exact Nat.zero_le _

end Churn

section Runs

variable (settings : Settings)

/-- The store, and the selections made, of which the store keeps the last. -/
structure Ran where
  world : World
  results : List UniverseSelectionResult := []

def step (ran : Ran) (call : Call) : Ran where
  world := (selectUniverse settings ran.world call).1
  results := ran.results ++ [(selectUniverse settings ran.world call).2]

abbrev run (world : World) (calls : List Call) : Ran := Runs.run (step settings) ⟨world, []⟩ calls

/-- A change that the guard lets pass finds no churn in the day before it but that of the
latest selection. -/
def Counted (ran : Ran) (call : Call) : Prop :=
  prevSymbols ran.world ≠ [] → frozen ran.world call = false →
    guarded settings ran.world call = false →
      churnTotal (prevSymbols ran.world) (filtered settings ran.world call) ≠ 0 →
        churnBetween ran.results.dropLast (call.now - hours 24) call.now = 0

instance (ran : Ran) (call : Call) : Decidable (Counted settings ran call) :=
  inferInstanceAs (Decidable (prevSymbols ran.world ≠ [] → frozen ran.world call = false →
    guarded settings ran.world call = false →
      churnTotal (prevSymbols ran.world) (filtered settings ran.world call) ≠ 0 →
        churnBetween ran.results.dropLast (call.now - hours 24) call.now = 0))

/-- The snapshot is that of the last selection, and no window of a day is over the limit. -/
structure Within (calls : List Call) (ran : Ran) : Prop where
  times : ran.results.map UniverseSelectionResult.timestamp = calls.map Call.now
  latest : ran.world.snapshots[role]?.map resultOf = ran.results.getLast?
  canonical : ∀ last ∈ ran.results.getLast?, ∀ symbol ∈ last.selectedSymbols,
    PyData.canonicalSymbol symbol = symbol
  size : ∀ last ∈ ran.results.getLast?, last.selectedSymbols.length ≤ maxSize settings
  churn : ∀ older last, ran.results = older ++ [last] → ∀ since until_,
    stepChurn older.getLast? last since until_ ≤ last.churnCount
  bound : ∀ since, (churnBetween ran.results since (since + hours 24) : ℤ) ≤
    settings.stage7UniverseGovernanceMaxChurnPerDay

variable {settings} {calls : List Call} {ran : Ran}

/-- The previous symbols are those of the last selection. -/
theorem Within.prevSymbols_eq (h : Within settings calls ran) :
    prevSymbols ran.world =
      (ran.results.getLast?.map UniverseSelectionResult.selectedSymbols).getD [] := by
  have hlatest := h.latest
  unfold prevSymbols
  cases hrow : ran.world.snapshots[role]? with
  | none =>
    rw [hrow] at hlatest
    simp [← hlatest]
  | some snapshot =>
    rw [hrow, Option.map_some] at hlatest
    have hcanonical := h.canonical (resultOf snapshot) hlatest.symm
    rw [← hlatest]
    simpa [resultOf] using List.map_congr_left (g := id) hcanonical

theorem Within.take_previous (h : Within settings calls ran) :
    (prevSymbols ran.world).take (maxSize settings) = prevSymbols ran.world := by
  refine List.take_of_length_le ?_
  rw [h.prevSymbols_eq]
  cases hlast : ran.results.getLast? with
  | none => simp
  | some last => exact h.size last hlast

/-- A selection is the previous one, or what governance let through. -/
theorem Within.selected_cases (h : Within settings calls ran) (call : Call) :
    selected settings ran.world call = prevSymbols ran.world ∨
      frozen ran.world call = false ∧ guarded settings ran.world call = false ∧
        selected settings ran.world call = filtered settings ran.world call := by
  unfold selected applyGovernance
  cases hfrozen : frozen ran.world call with
  | true => exact .inl h.take_previous
  | false =>
    cases hguarded : guarded settings ran.world call with
    | true => exact .inl h.take_previous
    | false => exact .inr ⟨rfl, rfl, rfl⟩

/-- What the guard lets pass is within the limit, with the churn it counts. -/
theorem unguarded_le {world : World} {call : Call} (h : guarded settings world call = false)
    (hprevious : prevSymbols world ≠ []) :
    ((getStage7UniverseChurnCountSince world (call.now - hours 24) +
      churnTotal (prevSymbols world) (filtered settings world call) : ℕ) : ℤ) ≤
        settings.stage7UniverseGovernanceMaxChurnPerDay := by
  have hlimit : ((getStage7UniverseChurnCountSince world (call.now - hours 24) +
      ((newIn (prevSymbols world) (filtered settings world call)).length +
        (newIn (filtered settings world call) (prevSymbols world)).length) : ℕ) : ℤ) ≤
          settings.stage7UniverseGovernanceMaxChurnPerDay := by
    by_contra hover
    have hguarded : guarded settings world call = true := by
      simpa [guarded, hprevious] using not_le.mp hover
    rw [h] at hguarded
    cases hguarded
  refine le_trans ?_ hlimit
  have hadded := additions_length (prevSymbols world) (filtered settings world call)
  have hremoved := additions_length (filtered settings world call) (prevSymbols world)
  exact_mod_cast Nat.add_le_add_left (Nat.add_le_add hadded hremoved) _

/-- The churn of a selection is at most the total stored with it. -/
theorem Within.stepChurn_le (h : Within settings calls ran) (call : Call) (since until_ : Instant) :
    stepChurn ran.results.getLast? (resultOf (snapshotOf settings ran.world call)) since until_ ≤
      churnTotal (prevSymbols ran.world) (selected settings ran.world call) := by
  rw [h.prevSymbols_eq]
  unfold stepChurn
  cases ran.results.getLast? with
  | none => exact Nat.zero_le _
  | some last =>
    simp only
    split
    · exact le_refl _
    · exact Nat.zero_le _

/-- The churn of the latest selection, where a window of the day before a time has it. -/
theorem Within.latest_le (h : Within settings calls ran) {older : List UniverseSelectionResult}
    {last : UniverseSelectionResult} (hresults : ran.results = older ++ [last])
    {since start : Instant} (hstart : start ≤ since) (until_ : Instant) :
    stepChurn older.getLast? last since until_ ≤
      getStage7UniverseChurnCountSince ran.world start := by
  have hlatest := h.latest
  rw [hresults, List.getLast?_concat] at hlatest
  obtain ⟨snapshot, hsnapshot, rfl⟩ := Option.map_eq_some_iff.mp hlatest
  unfold getStage7UniverseChurnCountSince
  rw [hsnapshot]
  simp only
  split
  · next hold =>
    have hout : ¬ since ≤ (resultOf snapshot).timestamp := not_le.mpr (hold.trans_le hstart)
    unfold stepChurn
    cases older.getLast? with
    | none => exact le_refl 0
    | some before => simp [hout]
  · exact h.churn older _ hresults since until_

/-- A call whose change is counted leaves the windows of a day within the limit. -/
theorem Within.bound_step (h : Within settings calls ran) (call : Call)
    (hbefore : ∀ result ∈ ran.results, result.timestamp ≤ call.now)
    (hcounted : Counted settings ran call) (since : Instant) :
    (churnBetween (ran.results ++ [resultOf (snapshotOf settings ran.world call)]) since
      (since + hours 24) : ℤ) ≤ settings.stage7UniverseGovernanceMaxChurnPerDay := by
  rw [churnBetween_concat]
  by_cases hzero : stepChurn ran.results.getLast?
      (resultOf (snapshotOf settings ran.world call)) since (since + hours 24) = 0
  · rw [hzero, Nat.add_zero]
    exact h.bound since
  · -- a change: the window has the call, so what it holds is of the day before the call
    have hle := h.stepChurn_le call since (since + hours 24)
    rcases h.selected_cases call with hkept | ⟨hfrozen, hguarded, hfiltered⟩
    · rw [hkept, churnTotal_self] at hle
      exact absurd (Nat.le_zero.mp hle) hzero
    · rw [hfiltered] at hle
      have hprevious := h.prevSymbols_eq
      rcases ran.results.eq_nil_or_concat' with hnil | ⟨older, last, holder⟩
      · simp [hnil, stepChurn] at hzero
      · rw [holder, List.getLast?_concat] at hzero hprevious
        obtain ⟨-, hin, hsome⟩ : since ≤ call.now ∧ call.now ≤ since + hours 24 ∧
            last.selectedSymbols ≠ [] := by
          by_contra hout
          exact hzero (if_neg hout)
        have hne : prevSymbols ran.world ≠ [] := by simpa [hprevious] using hsome
        have hstart : call.now - hours 24 ≤ since := sub_le_iff_le_add.mpr hin
        have hnone := hcounted hne hfrozen hguarded fun hsame =>
          hzero (by rw [hsame, holder, List.getLast?_concat] at hle; exact Nat.le_zero.mp hle)
        rw [holder, List.dropLast_concat] at hnone
        have hearlier : churnBetween older since (since + hours 24) = 0 := by
          refine Nat.le_zero.mp (hnone ▸ churnBetween_mono hstart fun result hresult => ?_)
          exact hbefore result (holder ▸ List.mem_append_left [last] hresult)
        have hlatest := h.latest_le holder hstart (since + hours 24)
        have htotal : churnBetween ran.results since (since + hours 24) ≤
            getStage7UniverseChurnCountSince ran.world (call.now - hours 24) := by
          rw [holder, churnBetween_concat, hearlier, Nat.zero_add]
          exact hlatest
        refine le_trans ?_ (unguarded_le hguarded hne)
        exact_mod_cast Nat.add_le_add htotal hle

theorem Within.step (h : Within settings calls ran) (call : Call)
    (htimes : (calls ++ [call]).Pairwise fun a b => a.now ≤ b.now)
    (hcounted : Counted settings ran call) :
    Within settings (calls ++ [call]) (UniverseSelection.step settings ran call) := by
  have hbefore : ∀ result ∈ ran.results, result.timestamp ≤ call.now := by
    intro result hin
    have hstamp : result.timestamp ∈ calls.map Call.now := h.times ▸ List.mem_map_of_mem hin
    obtain ⟨earlier, hearlier, heq⟩ := List.mem_map.mp hstamp
    rw [← heq]
    exact (List.pairwise_append.mp htimes).2.2 earlier hearlier call (by simp)
  have hresults : (UniverseSelection.step settings ran call).results =
      ran.results ++ [resultOf (snapshotOf settings ran.world call)] := rfl
  have hsublist := filtered_sublist settings ran.world call
  constructor
  · simp [hresults, h.times, resultOf, snapshotOf]
  · rw [hresults, List.getLast?_concat]
    simp [UniverseSelection.step, selectUniverse]
  · intro last hlast symbol hsymbol
    rw [hresults, List.getLast?_concat] at hlast
    obtain rfl := Option.some.inj hlast
    have hselected : symbol ∈ selected settings ran.world call := hsymbol
    rcases h.selected_cases call with hkept | ⟨-, -, hfiltered⟩
    · rw [hkept, h.prevSymbols_eq] at hselected
      cases hprevious : ran.results.getLast? with
      | none => simp [hprevious] at hselected
      | some previous =>
        rw [hprevious] at hselected
        exact h.canonical previous hprevious symbol hselected
    · rw [hfiltered] at hselected
      exact desired_canonical settings call (hsublist.subset hselected)
  · intro last hlast
    rw [hresults, List.getLast?_concat] at hlast
    obtain rfl := Option.some.inj hlast
    change (selected settings ran.world call).length ≤ maxSize settings
    rcases h.selected_cases call with hkept | ⟨-, -, hfiltered⟩
    · rw [hkept, ← h.take_previous]
      exact List.length_take_le _ _
    · rw [hfiltered]
      exact hsublist.length_le.trans (desired_length settings call)
  · intro older last heq since until_
    obtain ⟨rfl, hlast⟩ := List.append_inj' (hresults.symm.trans heq) rfl
    obtain rfl := List.singleton_inj.mp hlast
    exact h.stepChurn_le call since until_
  · intro since
    rw [hresults]
    exact h.bound_step call hbefore hcounted since

/-- Where every change is counted, a window of a day holds no more than the limit. -/
theorem rolling_churn_bounded {world : World} (hempty : world.snapshots[role]? = none)
    (calls : List Call) (htimes : calls.Pairwise fun a b => a.now ≤ b.now)
    (hcounted : Runs.Meets (UniverseSelection.step settings) (Counted settings) ⟨world, []⟩ calls)
    (since : Instant) :
    (churnBetween (run settings world calls).results since (since + hours 24) : ℤ) ≤
      settings.stage7UniverseGovernanceMaxChurnPerDay := by
  suffices hall : Within settings calls (run settings world calls) from hall.bound since
  induction calls using List.reverseRecOn with
  | nil =>
    constructor
    · rfl
    · simp [hempty]
    · intro last hlast
      cases hlast
    · intro last hlast
      cases hlast
    · intro older last heq
      simp at heq
    · exact fun _ => zero_le_one.trans settings.maxChurnPerDay_pos
  | append_singleton calls call ih =>
    obtain ⟨hbefore, hlast, -⟩ := Runs.Meets.append calls [call] hcounted
    have hrun : run settings world (calls ++ [call]) =
        UniverseSelection.step settings (run settings world calls) call := List.foldl_concat ..
    rw [hrun]
    exact (ih (List.pairwise_append.mp htimes).1 hbefore).step call htimes hlast

theorem sizeOne_pos : (1 : ℤ) ≤ 1 := le_rfl

def sizeOne : Settings := { stage7UniverseSize := 1, stage7UniverseSize_pos := sizeOne_pos }

/-- A market that ranks a single symbol, some hours on. -/
def soleCall (hour : ℤ) (symbol : String) (h : PyData.canonicalSymbol symbol = symbol) : Call where
  now := hours hour
  freezeReasons := []
  discoveryExclusions := ∅
  scored := [⟨symbol, 1, 1, 1, 1, some 0, some 0⟩]
  canonical := by simpa using h
  distinct := by simp

theorem two_swaps_a_day :
    let calls := [soleCall 0 "ATRY" (by decide +kernel), soleCall 1 "BTRY" (by decide +kernel),
      soleCall 2 "CTRY" (by decide +kernel)]
    churnBetween (run sizeOne {} calls).results 0 (0 + hours 24) = 4 ∧
      (churnBetween (run sizeOne {} calls).results 0 (0 + hours 24) : ℤ) ≤
        sizeOne.stage7UniverseGovernanceMaxChurnPerDay := by
  intro calls
  have hcounted : Runs.Meets (step sizeOne) (Counted sizeOne) ⟨{}, []⟩ calls :=
    ⟨by decide +kernel, by decide +kernel, by decide +kernel, trivial⟩
  exact ⟨by decide +kernel, rolling_churn_bounded (by decide) calls (by decide) hcounted 0⟩

/-- Every swap is weighed against the one before it alone. -/
theorem third_swap_passes :
    ¬ (churnBetween (run sizeOne {} [soleCall 0 "ATRY" (by decide +kernel),
      soleCall 1 "BTRY" (by decide +kernel), soleCall 2 "CTRY" (by decide +kernel),
      soleCall 3 "DTRY" (by decide +kernel)]).results 0 (0 + hours 24) : ℤ) ≤
        sizeOne.stage7UniverseGovernanceMaxChurnPerDay := by
  decide +kernel

end Runs

end UniverseSelection
