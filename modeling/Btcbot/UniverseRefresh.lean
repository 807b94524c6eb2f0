import Btcbot.DynamicUniverse
import Mathlib.Data.List.Chain
import Mathlib.Data.List.Infix
import Mathlib.Data.List.Pairwise

/-!
# When the dynamic universe is computed again

A call is served from the store when the call before it was less than the refresh interval
ago. Calls that follow each other more closely than that are all served, however long they
go on.
-/
namespace DynamicUniverse

section Latest

variable {cycles : List CycleRow}

theorem latest_eq_none : getLatestDynamicUniverseSelection cycles = none ↔ cycles = [] := by
  cases cycles with
  | nil => simp [getLatestDynamicUniverseSelection]
  | cons row cycles =>
    simp only [getLatestDynamicUniverseSelection, reduceCtorEq, iff_false]
    split
    · simp
    · split <;> simp

theorem latest_max {row : CycleRow} (h : getLatestDynamicUniverseSelection cycles = some row) :
    row ∈ cycles ∧ ∀ other ∈ cycles, other.ts ≤ row.ts := by
  induction cycles generalizing row with
  | nil => cases h
  | cons first cycles ih =>
    rw [getLatestDynamicUniverseSelection] at h
    cases hrest : getLatestDynamicUniverseSelection cycles with
    | none =>
      rw [hrest] at h
      obtain rfl := Option.some.inj h
      obtain rfl := latest_eq_none.mp hrest
      simp
    | some other =>
      obtain ⟨hin, hmax⟩ := ih hrest
      simp only [hrest] at h
      split at h
      · next hle =>
        obtain rfl := Option.some.inj h
        refine ⟨List.mem_cons_of_mem first hin, fun stored hstored => ?_⟩
        rcases List.mem_cons.mp hstored with rfl | hstored
        · exact hle
        · exact hmax stored hstored
      · next hlt =>
        obtain rfl := Option.some.inj h
        refine ⟨List.mem_cons_self, fun stored hstored => ?_⟩
        rcases List.mem_cons.mp hstored with rfl | hstored
        · exact le_refl _
        · exact (hmax stored hstored).trans (not_le.mp hlt).le

theorem mem_save (cycles : List CycleRow) (row : CycleRow) :
    row ∈ saveDynamicUniverseSelection cycles row ∧
    ∀ stored ∈ saveDynamicUniverseSelection cycles row, stored ∈ cycles ∨ stored = row := by
  unfold saveDynamicUniverseSelection
  split
  · next hany =>
    obtain ⟨stored, hstored, hid⟩ := List.any_eq_true.mp hany
    refine ⟨List.mem_map.mpr ⟨stored, hstored, if_pos (by simpa using hid)⟩, fun other hother => ?_⟩
    obtain ⟨old, hold, rfl⟩ := List.mem_map.mp hother
    split
    · exact .inr rfl
    · exact .inl hold
  · simp

/-- A row saved no earlier than the others gives the latest time. -/
theorem latest_save {row : CycleRow} (h : ∀ stored ∈ cycles, stored.ts ≤ row.ts) :
    (getLatestDynamicUniverseSelection (saveDynamicUniverseSelection cycles row)).map CycleRow.ts =
      some row.ts := by
  obtain ⟨hrow, hmem⟩ := mem_save cycles row
  cases hlatest : getLatestDynamicUniverseSelection (saveDynamicUniverseSelection cycles row) with
  | none =>
    rw [latest_eq_none.mp hlatest] at hrow
    cases hrow
  | some last =>
    obtain ⟨hin, hmax⟩ := latest_max hlatest
    have hle : last.ts ≤ row.ts := by
      rcases hmem last hin with hold | rfl
      · exact h last hold
      · exact le_refl _
    exact congrArg some (le_antisymm hle (hmax row hrow))

end Latest

section Scanned

variable (log : ℚ → ℚ) (settings : Settings) (call : Call)

@[simp] theorem drop_world (scan : Scan) (reason : String) : (scan.drop reason).world = scan.world :=
  rfl

theorem weigh_cycles (symbol : String) (metrics : OrderbookMetrics) (depth : ℚ) (scan : Scan) :
    (weigh log settings call symbol metrics depth scan).world.cycles = scan.world.cycles := by
  unfold weigh
  simp only
  split
  · rfl
  · split
    · rfl
    · split
      · rfl
      · split
        · rfl
        · split <;> rfl

theorem scanSymbol_cycles (scan : Scan) (symbol : String) :
    (scanSymbol log settings call scan symbol).world.cycles = scan.world.cycles := by
  unfold scanSymbol
  simp only
  split_ifs
  · rfl
  · rfl
  · rfl
  · rfl
  · rfl
  · unfold readOrderbook
    simp only
    split
    · rfl
    · split
      · rfl
      · split
        · rfl
        · exact weigh_cycles log settings call symbol _ _ _

/-- The scan leaves the stored selections alone. -/
theorem scanCandidates_cycles (world : World) :
    (scanCandidates log settings call world).world.cycles = world.cycles := by
  have hscan (symbols : List String) :
      (symbols.foldl (scanSymbol log settings call) { world := world }).world.cycles =
        world.cycles :=
    Runs.run_keeps (I := fun scan => scan.world.cycles = world.cycles)
      (fun scan symbol h => (scanSymbol_cycles log settings call scan symbol).trans h) _ symbols rfl
  unfold scanCandidates
  simp only
  split
  · exact hscan _
  · exact hscan _

end Scanned

section Ran

variable (log : ℚ → ℚ) (settings : Settings)

/-- The call computes the selection. -/
def recomputes (world : World) (call : Call) : Bool :=
  settings.dynamicUniverseEnabled && (cachedRow settings world call).isNone

/-- The store, and when a selection was last computed, which no code reads. -/
structure Ran where
  world : World := {}
  recomputedAt : Option Instant := none

def step (ran : Ran) (call : Call) : Ran where
  world := (select log settings ran.world call).1
  recomputedAt := if recomputes settings ran.world call then some call.now else ran.recomputedAt

abbrev run (calls : List Call) : Ran := Runs.run (step log settings) {} calls

/-- A call saves one row, at its own time and under its own id, with the latest selection or
the one it computes. -/
theorem select_saves (henabled : settings.dynamicUniverseEnabled = true) (world : World)
    (call : Call) :
    ∃ row : CycleRow, row.ts = call.now ∧ row.cycleId = call.cycleId ∧
      (select log settings world call).1.cycles =
        saveDynamicUniverseSelection world.cycles row ∧
      (row.selectedSymbols = previousSymbols world ∨
        cachedRow settings world call = none ∧
          row.selectedSymbols = selected log settings world call) := by
  unfold select
  rw [if_pos henabled]
  cases hcached : cachedRow settings world call with
  | some row =>
    have hlatest := Option.eq_some_of_filter_eq_some hcached
    refine ⟨servedRow call row, rfl, rfl, rfl, .inl ?_⟩
    simp [previousSymbols, hlatest, servedRow]
  | none =>
    refine ⟨computedRow log settings world call, rfl, rfl, ?_, .inr ⟨rfl, rfl⟩⟩
    simp only [World.save, scanCandidates_cycles]

/-- What the store and the log say of the calls made. -/
structure Settled (history : List Call) (ran : Ran) : Prop where
  latest : (getLatestDynamicUniverseSelection ran.world.cycles).map CycleRow.ts =
    history.getLast?.map Call.now
  upper : ∀ row ∈ ran.world.cycles, ∀ last ∈ history.getLast?, row.ts ≤ last.now
  since : history ≠ [] → ∃ segment first, segment <:+ history ∧ segment.head? = some first ∧
    segment.IsChain (fun a b => b.now - a.now < minutes settings.universeRefreshMinutes) ∧
    ran.recomputedAt = some first.now

def Chronological (calls : List Call) : Prop := calls.Pairwise fun a b => a.now ≤ b.now

instance (calls : List Call) : Decidable (Chronological calls) :=
  inferInstanceAs (Decidable (calls.Pairwise fun a b => a.now ≤ b.now))

/-- A call is served from the store exactly when the call before it is near. -/
theorem recomputes_iff (henabled : settings.dynamicUniverseEnabled = true) {history : List Call}
    {ran : Ran} (h : Settled settings history ran) (call : Call) :
    recomputes settings ran.world call = true ↔
      ∀ last ∈ history.getLast?, minutes settings.universeRefreshMinutes ≤ call.now - last.now := by
  have hlatest := h.latest
  unfold recomputes cachedRow
  rw [henabled, Bool.true_and]
  cases hrow : getLatestDynamicUniverseSelection ran.world.cycles with
  | none =>
    rw [hrow] at hlatest
    have hnone : history.getLast? = none := by simpa using hlatest.symm
    simp [hnone]
  | some row =>
    rw [hrow] at hlatest
    obtain ⟨last, hlast, hts⟩ := Option.map_eq_some_iff.mp hlatest.symm
    simp [hlast, hts, Option.filter]

theorem settled_step (henabled : settings.dynamicUniverseEnabled = true) {history : List Call}
    {ran : Ran} (h : Settled settings history ran) (call : Call)
    (hsorted : Chronological (history ++ [call])) :
    Settled settings (history ++ [call]) (step log settings ran call) := by
  obtain ⟨row, hts, -, hsaved, -⟩ := select_saves log settings henabled ran.world call
  have hcycles : (step log settings ran call).world.cycles =
      saveDynamicUniverseSelection ran.world.cycles row := hsaved
  have hbefore : ∀ last ∈ history, last.now ≤ call.now := fun last hin =>
    (List.pairwise_append.mp hsorted).2.2 last hin call (List.mem_singleton_self call)
  have hupper : ∀ stored ∈ ran.world.cycles, stored.ts ≤ row.ts := by
    intro stored hstored
    cases hlast : history.getLast? with
    | none =>
      have hlatest := h.latest
      rw [hlast, Option.map_none, Option.map_eq_none_iff, latest_eq_none] at hlatest
      rw [hlatest] at hstored
      cases hstored
    | some last =>
      rw [hts]
      exact (h.upper stored hstored last hlast).trans
        (hbefore last (List.mem_of_getLast? hlast))
  constructor
  · rw [hcycles, latest_save hupper, hts]
    simp
  · intro stored hstored last hlast
    obtain rfl : call = last := by simpa using hlast
    rw [hcycles] at hstored
    rcases (mem_save ran.world.cycles row).2 stored hstored with hold | rfl
    · exact (hupper stored hold).trans_eq hts
    · exact hts.le
  · intro _
    by_cases hcomputes : recomputes settings ran.world call = true
    · refine ⟨[call], call, List.suffix_append history [call], rfl, .singleton call, ?_⟩
      simp [step, hcomputes]
    · have hnear := mt (recomputes_iff settings henabled h call).mpr hcomputes
      push Not at hnear
      obtain ⟨last, hlast, hclose⟩ := hnear
      have hne : history ≠ [] := by
        rintro rfl
        cases hlast
      obtain ⟨segment, first, hsuffix, hhead, hchain, hat⟩ := h.since hne
      have hsegment : segment ≠ [] := by
        rintro rfl
        cases hhead
      refine ⟨segment ++ [call], first, ?_, ?_, ?_, ?_⟩
      · obtain ⟨older, rfl⟩ := hsuffix
        exact ⟨older, (List.append_assoc _ _ _).symm⟩
      · rw [List.head?_append, hhead]
        rfl
      · refine hchain.append (.singleton call) fun a ha b hb => ?_
        obtain rfl : call = b := by simpa using hb
        obtain ⟨older, rfl⟩ := hsuffix
        rw [List.getLast?_append_of_ne_nil _ hsegment] at hlast
        obtain rfl := Option.some.inj (ha.symm.trans hlast)
        exact hclose
      · simpa [step, hcomputes] using hat

/-- Over calls in the order of their times. -/
theorem settled_run (henabled : settings.dynamicUniverseEnabled = true) (calls : List Call)
    (hsorted : Chronological calls) : Settled settings calls (run log settings calls) := by
  induction calls using List.reverseRecOn with
  | nil =>
    constructor
    · rfl
    · intro row hrow
      cases hrow
    · intro hne
      exact absurd rfl hne
  | append_singleton calls call ih =>
    have hprefix := (List.pairwise_append.mp hsorted).1
    have hrun : run log settings (calls ++ [call]) =
        step log settings (run log settings calls) call := List.foldl_concat ..
    rw [hrun]
    exact settled_step log settings henabled (ih hprefix) call hsorted

theorem refresh_pos : 0 < minutes settings.universeRefreshMinutes := by
  have hpos := settings.universeRefreshMinutes_pos
  unfold minutes
  omega

/-- Every call at least the refresh interval after the last computed selection computes one. -/
def OnSchedule (calls : List Call) : Prop :=
  ∀ before call after, calls = before ++ call :: after →
    ∀ last ∈ (run log settings before).recomputedAt,
      minutes settings.universeRefreshMinutes ≤ call.now - last →
      recomputes settings (run log settings before).world call = true

/-- Calls that each follow the one before within the refresh interval end within it. -/
def ShortBursts (calls : List Call) : Prop :=
  ∀ burst, burst <:+: calls →
    burst.IsChain (fun a b => b.now - a.now < minutes settings.universeRefreshMinutes) →
    ∀ first ∈ burst.head?, ∀ last ∈ burst.getLast?,
      last.now - first.now < minutes settings.universeRefreshMinutes

/-- A call that goes on a burst is served. -/
theorem served_in_burst (henabled : settings.dynamicUniverseEnabled = true)
    {history burst : List Call} {call : Call} (hsorted : Chronological (history ++ burst))
    (hne : burst ≠ [])
    (hchain : (burst ++ [call]).IsChain
      (fun a b => b.now - a.now < minutes settings.universeRefreshMinutes)) :
    recomputes settings (run log settings (history ++ burst)).world call = false := by
  refine Bool.eq_false_iff.mpr ?_
  rw [Ne, recomputes_iff settings henabled (settled_run log settings henabled _ hsorted) call]
  push Not
  refine ⟨burst.getLast hne, ?_, hchain.rel_getLast_head_of_append hne (List.cons_ne_nil _ _)⟩
  rw [List.getLast?_append_of_ne_nil _ hne, List.getLast?_eq_some_getLast hne]
  rfl

/-- Nothing is computed after the first call of a burst. -/
theorem burst_served (henabled : settings.dynamicUniverseEnabled = true) (history : List Call)
    (first : Call) (rest : List Call) (hsorted : Chronological (history ++ first :: rest))
    (hchain : (first :: rest).IsChain
      (fun a b => b.now - a.now < minutes settings.universeRefreshMinutes)) :
    (run log settings (history ++ first :: rest)).recomputedAt =
      (run log settings (history ++ [first])).recomputedAt := by
  induction rest using List.reverseRecOn with
  | nil => rfl
  | append_singleton rest call ih =>
    have hsplit : history ++ first :: (rest ++ [call]) = (history ++ first :: rest) ++ [call] := by
      simp
    rw [hsplit] at hsorted ⊢
    have hprefix := (List.pairwise_append.mp hsorted).1
    have hserved := served_in_burst log settings henabled hprefix (List.cons_ne_nil _ _) hchain
    rw [← List.cons_append] at hchain
    have hearlier := hchain.left_of_append
    have hrun : run log settings ((history ++ first :: rest) ++ [call]) =
        step log settings (run log settings (history ++ first :: rest)) call :=
      List.foldl_concat ..
    rw [hrun, ← ih hprefix hearlier]
    simp [step, hserved]

/-- Some selection was computed by the time of the first call of a burst. -/
theorem computed_by (henabled : settings.dynamicUniverseEnabled = true) {history : List Call}
    {first : Call} (hsorted : Chronological (history ++ [first])) :
    ∃ last ∈ (run log settings (history ++ [first])).recomputedAt, last ≤ first.now := by
  obtain ⟨segment, earliest, hsuffix, hhead, -, hat⟩ :=
    (settled_run log settings henabled _ hsorted).since (by simp)
  refine ⟨earliest.now, hat, ?_⟩
  have hin : earliest ∈ history ++ [first] := hsuffix.subset (List.mem_of_head? hhead)
  rcases List.mem_append.mp hin with hin | hin
  · exact (List.pairwise_append.mp hsorted).2.2 earliest hin first (List.mem_singleton_self first)
  · exact (congrArg Call.now (List.mem_singleton.mp hin)).le

/-- Where the service is off, nothing is computed. -/
theorem off_run (hoff : settings.dynamicUniverseEnabled = false) (calls : List Call) :
    (run log settings calls).recomputedAt = none := by
  refine Runs.run_keeps (I := fun ran : Ran => ran.recomputedAt = none) ?_ _ calls rfl
  intro ran call h
  simp [step, recomputes, hoff, h]

/-- Selections are computed on schedule exactly when no burst of calls outlasts the refresh
interval. -/
theorem on_schedule_iff (calls : List Call) (hsorted : Chronological calls) :
    OnSchedule log settings calls ↔
      (settings.dynamicUniverseEnabled = true → ShortBursts settings calls) := by
  constructor
  · intro hschedule henabled burst hburst hchain first hfirst last hlast
    obtain ⟨history, after, rfl⟩ := hburst
    obtain ⟨rest, rfl⟩ : ∃ rest, burst = first :: rest := List.head?_eq_some_iff.mp hfirst
    rcases rest.eq_nil_or_concat' with rfl | ⟨middle, call, rfl⟩
    · obtain rfl : first = last := by simpa using hlast
      rw [sub_self]
      exact refresh_pos settings
    · have hend : (first :: (middle ++ [call])).getLast? = some call :=
        List.getLast?_concat (l := first :: middle)
      obtain rfl := Option.some.inj (hend.symm.trans hlast)
      -- everything since the first call was served, so this one has to be in time
      have hsplit : (history ++ first :: (middle ++ [call])) ++ after =
          (history ++ first :: middle) ++ call :: after := by simp
      rw [hsplit] at hschedule hsorted
      have hprefix : Chronological (history ++ first :: middle) :=
        (List.pairwise_append.mp hsorted).1
      have hstart : Chronological (history ++ [first]) := by
        refine hprefix.sublist ?_
        exact List.Sublist.append_left (List.Sublist.cons_cons first (List.nil_sublist middle)) _
      obtain ⟨at_, hat, hle⟩ := computed_by log settings henabled hstart
      have hserved := served_in_burst log settings henabled hprefix (List.cons_ne_nil _ _) hchain
      rw [← List.cons_append] at hchain
      rw [← burst_served log settings henabled history first middle hprefix
        hchain.left_of_append] at hat
      by_contra hlate
      have hdue : minutes settings.universeRefreshMinutes ≤ call.now - at_ :=
        (not_lt.mp hlate).trans (sub_le_sub_left hle _)
      have hcomputes := hschedule _ call after rfl at_ hat hdue
      rw [hserved] at hcomputes
      cases hcomputes
  · intro hshort before call after hcalls last hlast hdue
    cases henabled : settings.dynamicUniverseEnabled with
    | false =>
      rw [off_run log settings henabled before] at hlast
      cases hlast
    | true =>
      subst hcalls
      have hprefix := (List.pairwise_append.mp hsorted).1
      have hsettled := settled_run log settings henabled before hprefix
      rw [recomputes_iff settings henabled hsettled call]
      intro previous hprevious
      by_contra hnear
      have hne : before ≠ [] := by
        rintro rfl
        cases hprevious
      obtain ⟨segment, first, ⟨older, rfl⟩, hhead, hchain, hat⟩ := hsettled.since hne
      obtain rfl : first.now = last := by simpa [hat] using hlast
      have hsegment : segment ≠ [] := by
        rintro rfl
        cases hhead
      rw [List.getLast?_append_of_ne_nil _ hsegment] at hprevious
      have hburst : (segment ++ [call]).IsChain
          (fun a b => b.now - a.now < minutes settings.universeRefreshMinutes) := by
        refine hchain.append (.singleton call) fun a ha b hb => ?_
        obtain rfl : call = b := by simpa using hb
        obtain rfl := Option.some.inj (ha.symm.trans hprevious)
        exact not_le.mp hnear
      have hshorter := hshort henabled (segment ++ [call]) ⟨older, after, by simp⟩ hburst first
        (by simp [List.head?_append, hhead]) call (by simp)
      exact absurd hdue (not_le.mpr hshorter)

/-- A call some minutes on, to an exchange that lists nothing. -/
def emptyCall (minute : ℤ) : Call := ⟨⟨[], fun _ => (none, [])⟩, minutes minute, toString minute⟩

theorem hourly_calls_on_schedule : OnSchedule id {} [emptyCall 0, emptyCall 60] := by
  refine (on_schedule_iff id {} [emptyCall 0, emptyCall 60] (by decide)).mpr fun _ => ?_
  intro burst hburst hchain first hfirst last hlast
  have hlength := hburst.length_le
  match burst with
  | [] => cases hfirst
  | [call] =>
    obtain rfl : call = first := by simpa using hfirst
    obtain rfl : call = last := by simpa using hlast
    rw [sub_self]
    exact refresh_pos {}
  | [a, b] =>
    -- the two calls are too far apart to be a burst
    obtain ⟨rfl, rfl⟩ : a = emptyCall 0 ∧ b = emptyCall 60 := by
      simpa using hburst.eq_of_length rfl
    exact absurd hchain (by decide)
  | _ :: _ :: _ :: _ => simp at hlength

/-- Calls forty minutes apart: the third is served, eighty minutes after the selection. -/
theorem frequent_calls_starve : ¬ OnSchedule id {} [emptyCall 0, emptyCall 40, emptyCall 80] := by
  intro h
  have hcomputes := h [emptyCall 0, emptyCall 40] (emptyCall 80) [] rfl 0 (by decide +kernel)
    (by decide)
  revert hcomputes
  decide +kernel

end Ran

end DynamicUniverse
