import Btcbot.UniverseRefresh

/-!
# The daily changes of the dynamic universe

The changes of a day are counted between the rows of that day, so the first row of a day is
compared with none. Where that row keeps the selection of the day before, the limit holds.
-/
namespace DynamicUniverse

section Counts

variable {cycles : List CycleRow} {row : CycleRow}

/-- The later row changes a selection that is not empty. -/
def changed (pair : CycleRow × CycleRow) : Bool :=
  pair.2.selectedSymbols ≠ pair.1.selectedSymbols && pair.1.selectedSymbols ≠ []

/-- The changes stored on a day, each against the row stored before it. -/
def churnOfDay (cycles : List CycleRow) (day : ℤ) : ℕ :=
  (Runs.pairs cycles).countP fun pair => dayOf pair.2.ts = day && changed pair

theorem latest_concat (h : ∀ stored ∈ cycles, stored.ts ≤ row.ts) :
    getLatestDynamicUniverseSelection (cycles ++ [row]) = some row := by
  induction cycles with
  | nil => rfl
  | cons first cycles ih =>
    have hrest := ih fun stored hin => h stored (List.mem_cons_of_mem first hin)
    rw [List.cons_append, getLatestDynamicUniverseSelection, hrest]
    exact if_pos (h first List.mem_cons_self)

/-- In the order of their times, the latest row is the last. -/
theorem latest_sorted (h : cycles.Pairwise fun a b => a.ts < b.ts) :
    getLatestDynamicUniverseSelection cycles = cycles.getLast? := by
  rcases cycles.eq_nil_or_concat' with rfl | ⟨older, last, rfl⟩
  · rfl
  · rw [List.getLast?_concat]
    refine latest_concat fun stored hin => ?_
    exact ((List.pairwise_append.mp h).2.2 stored hin last (List.mem_singleton_self last)).le

theorem save_fresh (h : row.cycleId ∉ cycles.map CycleRow.cycleId) :
    saveDynamicUniverseSelection cycles row = cycles ++ [row] := by
  unfold saveDynamicUniverseSelection
  refine if_neg ?_
  rw [List.any_eq_true]
  rintro ⟨stored, hstored, hid⟩
  exact h (List.mem_map.mpr ⟨stored, hstored, by simpa using hid⟩)

theorem churnOfDay_concat (day : ℤ) :
    churnOfDay (cycles ++ [row]) day = churnOfDay cycles day +
      if ∃ last ∈ cycles.getLast?, dayOf row.ts = day ∧ changed (last, row) = true then 1
      else 0 := by
  unfold churnOfDay
  rw [Runs.pairs_concat, List.countP_append]
  cases cycles.getLast? with
  | none => simp
  | some last => simp [List.countP_cons]

/-- The changes that the guard counts, in the order of their times. -/
def countedOfDay (cycles : List CycleRow) (day : ℤ) : ℕ :=
  (Runs.pairs ((cycles.filter fun stored => dayOf stored.ts = day).map
    CycleRow.selectedSymbols)).countP fun pair => pair.2 ≠ pair.1

theorem churnCount_sorted (h : cycles.Pairwise fun a b => a.ts < b.ts) (now : Instant) :
    getDynamicUniverseChurnCountForDay cycles now = countedOfDay cycles (dayOf now) := by
  unfold getDynamicUniverseChurnCountForDay countedOfDay
  have hsorted : (cycles.filter fun stored => dayOf stored.ts = dayOf now).Pairwise
      fun a b => a.ts ≤ b.ts := (h.filter _).imp le_of_lt
  simp only [hsorted.insertionSort_eq]

/-- A row is compared with the last one when that is of its day. -/
theorem countedOfDay_concat {last : CycleRow} (hlast : cycles.getLast? = some last)
    (hday : dayOf last.ts = dayOf row.ts) :
    countedOfDay (cycles ++ [row]) (dayOf row.ts) = countedOfDay cycles (dayOf row.ts) +
      if row.selectedSymbols ≠ last.selectedSymbols then 1 else 0 := by
  obtain ⟨older, rfl⟩ := List.getLast?_eq_some_iff.mp hlast
  simp only [countedOfDay, List.filter_append, List.map_append, List.filter_cons, hday,
    List.filter_nil, decide_true, if_true, List.map_cons, List.map_nil]
  rw [Runs.pairs_concat, List.countP_append, List.getLast?_concat]
  simp [List.countP_cons]

theorem countedOfDay_mono (day : ℤ) :
    countedOfDay cycles day ≤ countedOfDay (cycles ++ [row]) day := by
  simp only [countedOfDay, List.filter_append, List.map_append, List.filter_cons, List.filter_nil]
  split
  · rw [List.map_singleton, Runs.pairs_concat, List.countP_append]
    exact Nat.le_add_right _ _
  · simp

theorem dayOf_mono {a b : Instant} (h : a ≤ b) : dayOf a ≤ dayOf b :=
  Int.ediv_le_ediv (by decide) h

end Counts

section Bounded

variable (log : ℚ → ℚ) (settings : Settings)

/-- The store after a run of calls. -/
abbrev selects (world : World) (calls : List Call) : World :=
  Runs.run (fun world call => (select log settings world call).1) world calls

/-- The first row of a day keeps the selection before it, unless that is empty. -/
def FirstKept (world : World) (call : Call) : Prop :=
  (∀ row ∈ world.cycles, dayOf row.ts ≠ dayOf call.now) → previousSymbols world ≠ [] →
    (cachedRow settings world call).isSome = true ∨
      desired log settings world call = previousSymbols world

instance (world : World) (call : Call) : Decidable (FirstKept log settings world call) :=
  inferInstanceAs (Decidable ((∀ row ∈ world.cycles, dayOf row.ts ≠ dayOf call.now) →
    previousSymbols world ≠ [] → (cachedRow settings world call).isSome = true ∨
      desired log settings world call = previousSymbols world))

/-- The rows are those of the calls, and every day's changes are counted and within the
limit. -/
structure Bounded (calls : List Call) (cycles : List CycleRow) : Prop where
  ids : cycles.map CycleRow.cycleId = calls.map Call.cycleId
  times : cycles.map CycleRow.ts = calls.map Call.now
  counted : ∀ day, churnOfDay cycles day ≤ countedOfDay cycles day
  bound : ∀ day, (churnOfDay cycles day : ℤ) ≤ settings.universeChurnMaxPerDay

variable {log settings} {world : World} {call : Call}

/-- A selection that differs from the one before was desired, and within the limit. -/
theorem changed_unguarded
    (h : selected log settings world call ≠ previousSymbols world)
    (hprevious : previousSymbols world ≠ []) :
    desired log settings world call ≠ previousSymbols world ∧
      ((getDynamicUniverseChurnCountForDay world.cycles call.now + 1 : ℕ) : ℤ) ≤
        settings.universeChurnMaxPerDay := by
  have hfree : guarded log settings world call = false := by
    by_contra hguarded
    exact h (if_pos (by simpa using hguarded))
  have hdesired : desired log settings world call ≠ previousSymbols world := by
    simpa [selected, hfree] using h
  refine ⟨hdesired, ?_⟩
  by_contra hover
  have hguarded : guarded log settings world call = true := by
    simpa [guarded, hprevious, hdesired] using not_le.mp hover
  rw [hfree] at hguarded
  cases hguarded

/-- A row that changes the selection is one that the guard counted and let pass. -/
theorem changed_counted {row last : CycleRow} (hts : row.ts = call.now)
    (hrow : row.selectedSymbols = previousSymbols world ∨
      cachedRow settings world call = none ∧
        row.selectedSymbols = selected log settings world call)
    (hnew : world.cycles.Pairwise fun a b => a.ts < b.ts)
    (hlater : ∀ stored ∈ world.cycles, stored.ts < call.now)
    (hkept : FirstKept log settings world call) (hlast : world.cycles.getLast? = some last)
    (hchanged : changed (last, row) = true) :
    dayOf last.ts = dayOf row.ts ∧ row.selectedSymbols ≠ last.selectedSymbols ∧
      ((countedOfDay world.cycles (dayOf row.ts) + 1 : ℕ) : ℤ) ≤
        settings.universeChurnMaxPerDay := by
  have hprevious : previousSymbols world = last.selectedSymbols := by
    simp [previousSymbols, latest_sorted hnew, hlast]
  obtain ⟨hne, hsome⟩ : row.selectedSymbols ≠ last.selectedSymbols ∧
      last.selectedSymbols ≠ [] := by simpa [changed] using hchanged
  rw [← hprevious] at hne hsome
  obtain ⟨hcached, hselected⟩ := hrow.resolve_left hne
  rw [hselected] at hne
  obtain ⟨hdesired, hmax⟩ := changed_unguarded hne hsome
  rw [churnCount_sorted hnew] at hmax
  refine ⟨?_, hselected.trans_ne (hprevious ▸ hne), hts ▸ hmax⟩
  by_contra hother
  have hfirst : ∀ stored ∈ world.cycles, dayOf stored.ts ≠ dayOf call.now := by
    intro stored hin hday
    have hlastMax := (latest_max ((latest_sorted hnew).trans hlast)).2 stored hin
    have hlower : dayOf stored.ts ≤ dayOf last.ts := dayOf_mono hlastMax
    have hupper : dayOf last.ts ≤ dayOf call.now :=
      dayOf_mono (hlater last (List.mem_of_getLast? hlast)).le
    rw [hts] at hother
    omega
  rcases hkept hfirst hsome with hserved | hkeeps
  · rw [hcached] at hserved
    cases hserved
  · exact hdesired hkeeps

theorem bounded_step (henabled : settings.dynamicUniverseEnabled = true) {calls : List Call}
    (h : Bounded settings calls world.cycles)
    (hids : ((calls ++ [call]).map Call.cycleId).Nodup)
    (htimes : (calls ++ [call]).Pairwise fun a b => a.now < b.now)
    (hkept : FirstKept log settings world call) :
    Bounded settings (calls ++ [call]) (select log settings world call).1.cycles := by
  obtain ⟨row, hts, hid, hsaved, hrow⟩ := select_saves log settings henabled world call
  have hfresh : row.cycleId ∉ world.cycles.map CycleRow.cycleId := by
    rw [h.ids, hid]
    rw [List.map_append, List.nodup_append] at hids
    intro hin
    exact hids.2.2 _ hin _ (by simp) rfl
  have hnew : world.cycles.Pairwise fun a b => a.ts < b.ts := by
    have hcalls := (List.pairwise_append.mp htimes).1
    rw [← List.pairwise_map (f := CycleRow.ts) (R := (· < ·)), h.times, List.pairwise_map]
    exact hcalls
  have hlater : ∀ stored ∈ world.cycles, stored.ts < call.now := by
    intro stored hin
    have hstored : stored.ts ∈ calls.map Call.now := h.times ▸ List.mem_map_of_mem hin
    obtain ⟨earlier, hearlier, heq⟩ := List.mem_map.mp hstored
    rw [← heq]
    exact (List.pairwise_append.mp htimes).2.2 earlier hearlier call (by simp)
  rw [hsaved, save_fresh hfresh]
  constructor
  · simp [h.ids, hid]
  · simp [h.times, hts]
  · intro day
    rw [churnOfDay_concat]
    split
    · next hchange =>
      obtain ⟨last, hlast, rfl, hchanged⟩ := hchange
      obtain ⟨hday, hne, -⟩ := changed_counted hts hrow hnew hlater hkept hlast hchanged
      rw [countedOfDay_concat hlast hday, if_pos hne]
      exact Nat.add_le_add_right (h.counted _) 1
    · exact (h.counted day).trans (countedOfDay_mono day)
  · intro day
    rw [churnOfDay_concat]
    split
    · next hchange =>
      obtain ⟨last, hlast, rfl, hchanged⟩ := hchange
      obtain ⟨-, -, hmax⟩ := changed_counted hts hrow hnew hlater hkept hlast hchanged
      refine le_trans ?_ hmax
      exact_mod_cast Nat.add_le_add_right (h.counted _) 1
    · exact h.bound day

/-- Where no day begins with a change, every day changes the selection within the limit. -/
theorem daily_churn_bounded (hempty : world.cycles = []) (calls : List Call)
    (hids : (calls.map Call.cycleId).Nodup) (htimes : calls.Pairwise fun a b => a.now < b.now)
    (hkept : Runs.Meets (fun world call => (select log settings world call).1)
      (FirstKept log settings) world calls) (day : ℤ) :
    (churnOfDay (selects log settings world calls).cycles day : ℤ) ≤
      settings.universeChurnMaxPerDay := by
  cases henabled : settings.dynamicUniverseEnabled with
  | false =>
    have hoff : (selects log settings world calls).cycles = [] := by
      refine Runs.run_keeps (I := fun world : World => world.cycles = []) ?_ world calls hempty
      intro world call h
      simp [select, henabled, h]
    rw [hoff]
    exact zero_le_one.trans settings.universeChurnMaxPerDay_pos
  | true =>
    suffices hall : Bounded settings calls (selects log settings world calls).cycles from
      hall.bound day
    induction calls using List.reverseRecOn with
    | nil =>
      rw [selects, Runs.run_nil, hempty]
      refine ⟨rfl, rfl, fun _ => le_refl 0, fun _ => ?_⟩
      exact zero_le_one.trans settings.universeChurnMaxPerDay_pos
    | append_singleton calls call ih =>
      obtain ⟨hbefore, hlast, -⟩ := Runs.Meets.append calls [call] hkept
      have hearlier : (calls.map Call.cycleId).Nodup := by
        rw [List.map_append] at hids
        exact hids.of_append_left
      have hrun : selects log settings world (calls ++ [call]) =
          (select log settings (selects log settings world calls) call).1 :=
        List.foldl_concat ..
      rw [hrun]
      exact bounded_step henabled (ih hearlier (List.pairwise_append.mp htimes).1 hbefore) hids
        htimes hlast

/-- Two pairs at given prices, some hours on. -/
def quoteCall (hour : ℤ) (a b : ℚ) : Call where
  exchange :=
    { pairSymbols := ["ATRY", "BTRY"]
      orderbookMetrics := fun symbol =>
        (some ⟨if symbol = "ATRY" then a else b, 10, some 60000, minutes (60 * hour)⟩, []) }
  now := minutes (60 * hour)
  cycleId := toString hour

/-- The best pair alone, one change a day. -/
def topOne : Settings := { universeTopN := 1 }

theorem one_change_a_day :
    let calls := [quoteCall 12 100 100, quoteCall 36 110 100, quoteCall 39 110 120]
    churnOfDay (selects id topOne {} calls).cycles 1 = 1 ∧
      (churnOfDay (selects id topOne {} calls).cycles 1 : ℤ) ≤ topOne.universeChurnMaxPerDay := by
  intro calls
  have hkept : Runs.Meets (fun world call => (select id topOne world call).1)
      (FirstKept id topOne) {} calls :=
    ⟨by decide +kernel, by decide +kernel, by decide +kernel, trivial⟩
  exact ⟨by decide +kernel, daily_churn_bounded rfl calls (by decide) (by decide) hkept 1⟩

/-- The change that begins the third day is not counted against the one that follows it. -/
theorem first_change_uncounted :
    ¬ (churnOfDay (selects id topOne {} [quoteCall 12 100 100, quoteCall 36 110 100,
      quoteCall 60 110 120, quoteCall 63 110 100]).cycles 2 : ℤ) ≤
        topOne.universeChurnMaxPerDay := by
  decide +kernel

end Bounded

end DynamicUniverse
