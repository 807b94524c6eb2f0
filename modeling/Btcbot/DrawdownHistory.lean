import Btcbot.CycleGate
import Btcbot.Drawdown
import Btcbot.LedgerMetrics
import Btcbot.RiskCooldown
import Btcbot.StableSort
import Btcbot.Stage4Accounting
import Mathlib.Data.List.MinMax

/-!
# A fall of the equity from cycle to cycle

The ledger snapshot of a stage 7 cycle measures the drawdown over every equity that was ever
stored, and the next cycle decides its risk by the drawdown stored last. Nothing is taken from
the history, so a fall is measured again in every later cycle.
-/
namespace DrawdownHistory

open scoped List
open PyData Drawdown
open Degrade (Mode Instant)
open LedgerMetrics (FinancialBreakdown)
open RiskCooldown (CycleRiskOutput RiskInputs drawdownBps assess applyIf applyMode noteHighVol
  carryOver)
open Stage4Accounting (PnLSnapshot)

section Data

/-- A row of the stage 7 ledger metrics, as far as it is read again. -/
structure MetricsRow where
  cycleId : String
  ts : Instant
  netPnlTry : ℚ
  equityTry : ℚ
  maxDrawdownRatio : ℚ
  deriving DecidableEq, Repr

structure Store where
  pnlSnapshots : List PnLSnapshot := []
  ledgerMetrics : List MetricsRow := []
  riskDecisions : List CycleRiskOutput := []

/-- What a stage 7 cycle reads on its way to its decision and its ledger snapshot. -/
structure Cycle where
  cycleId : String
  now : Instant
  settings : RiskCooldown.Settings
  stage7MaxDrawdownPct : ℚ := 1 / 4
  dataAgeSec : ℤ
  spreadBps : ℚ
  quoteVolumeTry : ℚ
  exposureHash : String
  breakdown : FinancialBreakdown

/-- The row of the greatest instant, the first of those that share it. -/
def latestBy {α : Type} (instant : α → Instant) (rows : List α) : Option α :=
  @List.argmax α ℤ Int.instLinearOrder.toPreorder Int.decLt instant rows

def Store.getLatestLedgerMetrics (store : Store) : Option MetricsRow :=
  latestBy MetricsRow.ts store.ledgerMetrics

def Store.getLatestRiskDecision (store : Store) : Option CycleRiskOutput :=
  latestBy CycleRiskOutput.decidedAt store.riskDecisions.reverse

def equityPoint (row : PnLSnapshot) : EquityPoint := ⟨row.ts, row.totalEquityTry⟩

variable (stableHash : Instant × RiskInputs → String) (store : Store) (cycle : Cycle)

/-- The latest metrics are read without their fees, so no fee burn is ever seen. -/
def riskInputs : RiskInputs where
  maxDrawdownPct := (store.getLatestLedgerMetrics.map MetricsRow.maxDrawdownRatio).getD 0
  dailyPnlTry := (store.getLatestLedgerMetrics.map MetricsRow.netPnlTry).getD 0
  marketDataAgeSec := cycle.dataAgeSec
  observedSpreadBps := cycle.spreadBps
  quoteVolumeTry := cycle.quoteVolumeTry
  exposureHash := cycle.exposureHash
  staleAgeSec := cycle.dataAgeSec

def riskCall : RiskCooldown.Call where
  settings := { cycle.settings with killSwitch := false }
  now := cycle.now
  inputs := riskInputs store cycle

def riskDecision : CycleRiskOutput :=
  RiskCooldown.decide stableHash (riskCall store cycle) store.getLatestRiskDecision

/-- The drawdown over the stored equities and the one of now. -/
def maxDrawdown : ℚ :=
  computeMaxDrawdown (store.pnlSnapshots.map equityPoint ++
    [⟨⟨cycle.now, true⟩, cycle.breakdown.equityTry⟩])

def drawdownBreach : Bool := cycle.stage7MaxDrawdownPct ≤ maxDrawdown store cycle

/-- The metrics of a cycle are stored under its id, with its decision. -/
def saveStage7Cycle : Store :=
  { store with
    ledgerMetrics := store.ledgerMetrics.filter (·.cycleId ≠ cycle.cycleId) ++
      [⟨cycle.cycleId, cycle.now, cycle.breakdown.netPnlTry, cycle.breakdown.equityTry,
        maxDrawdown store cycle⟩]
    riskDecisions := store.riskDecisions ++ [riskDecision stableHash store cycle] }

/-- Stage 4 stores an equity, or a stage 7 cycle ends, its rows stored or not. -/
inductive Event where
  | snapshot (row : PnLSnapshot)
  | stage7 (cycle : Cycle) (saved : Bool)

def step : Event → Store
  | .snapshot row => { store with pnlSnapshots := store.pnlSnapshots ++ [row] }
  | .stage7 cycle saved => if saved then saveStage7Cycle stableHash store cycle else store

abbrev run (events : List Event) : Store := Runs.run (step stableHash) store events

end Data

section Falls

/-- A fall is one of a positive value to itself, or to a later one. -/
theorem falls_iff {values : List ℚ} {fall : ℚ} : fall ∈ Falls values ↔
    (∃ x ∈ values, 0 < x ∧ fall = 0) ∨
      ∃ x y, [x, y] <+ values ∧ 0 < x ∧ fall = (x - y) / x := by
  constructor
  · rintro ⟨i, j, x, y, hij, hi, hj, hx, rfl⟩
    rcases Nat.eq_or_lt_of_le hij with rfl | hlt
    · rw [hi] at hj
      obtain rfl := Option.some.inj hj
      exact .inl ⟨x, List.mem_of_getElem? hi, hx, by rw [sub_self, zero_div]⟩
    · exact .inr ⟨x, y, StableSort.pair_sublist_iff.mpr ⟨i, j, hlt, hi, hj⟩, hx, rfl⟩
  · rintro (⟨x, hin, hx, rfl⟩ | ⟨x, y, hpair, hx, rfl⟩)
    · obtain ⟨i, hi⟩ := List.mem_iff_getElem?.mp hin
      exact ⟨i, i, x, x, le_rfl, hi, hi, hx, by rw [sub_self, zero_div]⟩
    · obtain ⟨i, j, hij, hi, hj⟩ := StableSort.pair_sublist_iff.mp hpair
      exact ⟨i, j, x, y, hij.le, hi, hj, hx, rfl⟩

instance : Std.Total SortsBefore where
  total a b := le_total (ensureUtc a.ts).micros (ensureUtc b.ts).micros

instance : IsTrans EquityPoint SortsBefore where
  trans _ _ _ hab hbc := Int.le_trans hab hbc

/-- More points take no fall away. -/
theorem falls_mono {points more : List EquityPoint} (h : points <+ more) :
    Falls (inOrder points) ⊆ Falls (inOrder more) := by
  intro fall hfall
  rcases falls_iff.mp hfall with ⟨x, hin, hx, rfl⟩ | ⟨x, y, hpair, hx, rfl⟩
  · obtain ⟨point, hpoint, rfl⟩ := List.mem_map.mp hin
    have hmore := h.mem ((List.mem_insertionSort SortsBefore).mp hpoint)
    exact falls_iff.mpr (.inl ⟨_, List.mem_map_of_mem
      ((List.mem_insertionSort SortsBefore).mpr hmore), hx, rfl⟩)
  · obtain ⟨pair, hsub, heq⟩ := List.sublist_map_iff.mp hpair
    obtain ⟨a, rest, rfl, rfl, hrest⟩ := List.map_eq_cons_iff.mp heq.symm
    obtain ⟨b, none, rfl, rfl, hnone⟩ := List.map_eq_cons_iff.mp hrest
    obtain rfl := List.map_eq_nil_iff.mp hnone
    have hlarger := (StableSort.pair_insertionSort_of_sublist h hsub).map EquityPoint.equityTry
    exact falls_iff.mpr (.inr ⟨_, _, hlarger, hx, rfl⟩)

theorem drawdown_greatest {points : List EquityPoint} (h : ∀ point ∈ points, 0 ≤ point.equityTry) :
    IsGreatest (insert 0 (Falls (inOrder points))) (computeMaxDrawdown points) := by
  refine (scanned_foldl fun y hin => ?_).greatest
  obtain ⟨point, hpoint, rfl⟩ := List.mem_map.mp hin
  exact h point ((List.mem_insertionSort _).mp hpoint)

theorem drawdown_mono {points more : List EquityPoint} (hsub : points <+ more)
    (h : ∀ point ∈ more, 0 ≤ point.equityTry) :
    computeMaxDrawdown points ≤ computeMaxDrawdown more := by
  have hpoints := drawdown_greatest fun point hin => h point (hsub.mem hin)
  exact (drawdown_greatest h).2 (Set.insert_subset_insert (falls_mono hsub) hpoints.1)

end Falls

section Decisions

variable {call : RiskCooldown.Call} {verdict : RiskCooldown.Verdict}

theorem applyIf_not_normal {condition : Bool} {nextMode : Mode} {reason : String}
    (h : verdict.mode ≠ .normal) :
    (applyIf call condition nextMode reason verdict).mode ≠ .normal := by
  unfold applyIf applyMode
  split
  · cases nextMode with
    | observeOnly => exact fun hmode => by cases hmode
    | reduceRiskOnly => simp [h]
    | normal => exact h
  · exact h

theorem applyIf_reduced {condition : Bool} {reason : String} (h : condition = true) :
    (applyIf call condition .reduceRiskOnly reason verdict).mode ≠ .normal := by
  rw [applyIf, if_pos h]
  unfold applyMode
  by_cases hmode : verdict.mode = .normal <;> simp [hmode]

theorem noteHighVol_not_normal (h : verdict.mode ≠ .normal) :
    (noteHighVol call verdict).mode ≠ .normal := by
  unfold noteHighVol
  split
  · exact applyIf_not_normal h
  · exact h

theorem carryOver_not_normal {previous : Option CycleRiskOutput} {now : Instant}
    (h : verdict.mode ≠ .normal) : (carryOver previous now verdict).mode ≠ .normal := by
  unfold carryOver
  split
  · exact h
  · next decision =>
    split
    · exact h
    · split
      · cases decision.mode with
        | observeOnly => exact fun hmode => by cases hmode
        | reduceRiskOnly => simp [h]
        | normal => exact h
      · exact h

/-- A drawdown at the limit of the settings is never decided as normal. -/
theorem decide_not_normal (stableHash : Instant × RiskInputs → String)
    (previous : Option CycleRiskOutput) (h : call.settings.maxDrawdownBps ≤ drawdownBps call) :
    (RiskCooldown.decide stableHash call previous).mode ≠ .normal := by
  refine carryOver_not_normal (noteHighVol_not_normal (applyIf_not_normal ?_))
  exact applyIf_reduced (decide_eq_true h)

theorem combineModes_not_normal {mode : Mode} (h : mode ≠ .normal) (base : Mode) :
    CycleGate.combineModes base (some mode) ≠ .normal := by
  cases mode with
  | observeOnly => exact fun hmode => by cases hmode
  | reduceRiskOnly =>
    unfold CycleGate.combineModes
    dsimp only
    split
    · exact fun hmode => by cases hmode
    · next hbase => exact hbase
  | normal => exact absurd rfl h

end Decisions

section Remembered

variable {stableHash : Instant × RiskInputs → String} {start store : Store} {cycle : Cycle}

/-- The drawdown of the equities that are stored. -/
def storedDrawdown (store : Store) : ℚ :=
  computeMaxDrawdown (store.pnlSnapshots.map equityPoint)

/-- A cycle that is stored is later than those stored before it, and no equity is negative. -/
def Sound (store : Store) : Event → Prop
  | .snapshot row => 0 ≤ row.totalEquityTry
  | .stage7 cycle saved => 0 ≤ cycle.breakdown.equityTry ∧
      (saved = true → ∀ row ∈ store.ledgerMetrics, row.ts < cycle.now)

def Solvent (store : Store) : Prop := ∀ row ∈ store.pnlSnapshots, 0 ≤ row.totalEquityTry

/-- No stored equity was taken away. -/
structure Kept (start store : Store) : Prop where
  solvent : Solvent store
  snapshots : start.pnlSnapshots <+ store.pnlSnapshots

/-- The metrics stored last know the fall. -/
def Known (start store : Store) : Prop :=
  ∃ row, store.getLatestLedgerMetrics = some row ∧ storedDrawdown start ≤ row.maxDrawdownRatio

theorem step_kept (event : Event) (h : Kept start store) (hsound : Sound store event) :
    Kept start (step stableHash store event) := by
  cases event with
  | snapshot row =>
    refine ⟨fun other hother => ?_, h.snapshots.trans (List.sublist_append_left _ _)⟩
    rcases List.mem_append.mp hother with hold | hnew
    · exact h.solvent other hold
    · exact List.mem_singleton.mp hnew ▸ hsound
  | stage7 cycle saved =>
    cases saved with
    | true => exact ⟨h.solvent, h.snapshots⟩
    | false => exact h

/-- The cycle measures the fall again. -/
theorem Kept.drawdown (h : Kept start store) (hequity : 0 ≤ cycle.breakdown.equityTry) :
    storedDrawdown start ≤ maxDrawdown store cycle := by
  refine drawdown_mono ((h.snapshots.map _).trans (List.sublist_append_left _ _)) ?_
  intro point hpoint
  rcases List.mem_append.mp hpoint with hold | hnew
  · obtain ⟨row, hrow, rfl⟩ := List.mem_map.mp hold
    exact h.solvent row hrow
  · exact List.mem_singleton.mp hnew ▸ hequity

theorem latest_saved (hlater : ∀ row ∈ store.ledgerMetrics, row.ts < cycle.now) :
    (saveStage7Cycle stableHash store cycle).getLatestLedgerMetrics =
      some ⟨cycle.cycleId, cycle.now, cycle.breakdown.netPnlTry, cycle.breakdown.equityTry,
        maxDrawdown store cycle⟩ := by
  change @List.argmax _ ℤ Int.instLinearOrder.toPreorder Int.decLt MetricsRow.ts (_ ++ [_]) = _
  rw [List.argmax_concat]
  cases hbest : @List.argmax _ ℤ Int.instLinearOrder.toPreorder Int.decLt MetricsRow.ts
      (store.ledgerMetrics.filter (·.cycleId ≠ cycle.cycleId)) with
  | none => rfl
  | some row =>
    have hold := hlater row (List.mem_filter.mp (List.argmax_mem hbest)).1
    exact if_pos hold

theorem step_saved (h : Kept start store) (hsound : Sound store (.stage7 cycle true)) :
    Known start (step stableHash store (.stage7 cycle true)) :=
  ⟨_, latest_saved (hsound.2 rfl), h.drawdown hsound.1⟩

theorem step_known (event : Event) (h : Kept start store) (hknown : Known start store)
    (hsound : Sound store event) : Known start (step stableHash store event) := by
  cases event with
  | snapshot row => exact hknown
  | stage7 cycle saved =>
    cases saved with
    | true => exact step_saved h hsound
    | false => exact hknown

theorem run_kept {events : List Event} (h : Kept start store)
    (hsound : Runs.Meets (step stableHash) Sound store events) :
    Kept start (run stableHash store events) :=
  Runs.run_meets (fun _ event hkept => step_kept event hkept) store events h hsound

theorem run_known {events : List Event} (h : Kept start store)
    (hsound : Runs.Meets (step stableHash) Sound store events) {saved : Cycle}
    (hsaved : .stage7 saved true ∈ events) : Known start (run stableHash store events) := by
  obtain ⟨before, after, rfl⟩ := List.append_of_mem hsaved
  obtain ⟨hbefore, hstep, hafter⟩ := hsound.append before (.stage7 saved true :: after)
  have hkept := run_kept h hbefore
  rw [run, Runs.run_append, Runs.run_cons]
  exact (Runs.run_meets (I := fun t => Kept start t ∧ Known start t)
    (fun _ event ht hok => ⟨step_kept event ht.1 hok, step_known event ht.1 ht.2 hok⟩) _ after
    ⟨step_kept _ hkept hstep, step_saved hkept hstep⟩ hafter).2

/-- Once the stored equities have fallen by the limit and a later cycle was stored, no cycle is
ever decided as normal again under that limit, whatever the other modes; and every cycle
raises the breach of a limit that they have fallen by. -/
theorem fall_remembered (stableHash : Instant × RiskInputs → String) (store : Store)
    (hsolvent : Solvent store) (events : List Event)
    (hsound : Runs.Meets (step stableHash) Sound store events) {saved : Cycle}
    (hsaved : .stage7 saved true ∈ events) (cycle : Cycle)
    (hequity : 0 ≤ cycle.breakdown.equityTry) :
    (cycle.settings.maxDrawdownBps ≤ RiskCooldown.toIntegralValue (storedDrawdown store * 10000) →
      ∀ base, CycleGate.combineModes base
        (some (riskDecision stableHash (run stableHash store events) cycle).mode) ≠ .normal) ∧
      (cycle.stage7MaxDrawdownPct ≤ storedDrawdown store →
        drawdownBreach (run stableHash store events) cycle = true) := by
  have hstart : Kept store store := ⟨hsolvent, List.Sublist.refl _⟩
  have hkept := run_kept hstart hsound
  refine ⟨fun hlimit base => combineModes_not_normal (decide_not_normal stableHash _ ?_) base,
    fun hlimit => decide_eq_true (hlimit.trans (hkept.drawdown hequity))⟩
  obtain ⟨row, hrow, hfallen⟩ := run_known hstart hsound hsaved
  refine hlimit.trans (Grid.halfEven_mono ?_)
  change _ ≤ ((run stableHash store events).getLatestLedgerMetrics.map
    MetricsRow.maxDrawdownRatio).getD 0 * 10000
  rw [hrow]
  exact mul_le_mul_of_nonneg_right hfallen (by norm_num)

def sampleCycle (cycleId : String) (now : Instant) : Cycle where
  cycleId := cycleId
  now := now
  settings := {}
  dataAgeSec := 0
  spreadBps := 0
  quoteVolumeTry := 1
  exposureHash := ""
  breakdown := ⟨1000, 0, 0, 0, 0, 0, 0, 0, 1000, 0⟩

def sampleRow (ts : Instant) (equity : ℚ) : PnLSnapshot := ⟨equity, 0, 0, ⟨ts, true⟩, 0⟩

/-- From 1000 to 700, more than the quarter that is allowed. -/
def fallenStore : Store := { pnlSnapshots := [sampleRow 0 1000, sampleRow 1 700] }

/-- All of the loss was made good again before the cycle. -/
theorem recovered_not_normal : (riskDecision (fun _ => "") (run (fun _ => "") fallenStore
    [.stage7 (sampleCycle "c1" 2) true, .snapshot (sampleRow 3 1200)])
      (sampleCycle "c2" 4)).mode ≠ .normal := by
  have hsolvent : ∀ row ∈ fallenStore.pnlSnapshots, 0 ≤ row.totalEquityTry := by decide +kernel
  have hequity : (0 : ℚ) ≤ 1200 := by norm_num
  have hremembered := (fall_remembered (fun _ => "") fallenStore hsolvent
    [.stage7 (sampleCycle "c1" 2) true, .snapshot (sampleRow 3 1200)]
    ⟨⟨by decide +kernel, fun _ _ hrow => absurd hrow List.not_mem_nil⟩, hequity, trivial⟩
    List.mem_cons_self (sampleCycle "c2" 4) (by decide +kernel)).1 (by decide +kernel) .normal
  intro hmode
  rw [hmode] at hremembered
  exact hremembered rfl

end Remembered

end DrawdownHistory
