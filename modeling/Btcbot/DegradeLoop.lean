import Btcbot.AnomalyDetector
import Btcbot.CycleExecution
import Btcbot.Streak

/-!
# Degrading from cycle to cycle

A cycle detects what is off, decides how far to degrade, executes under that decision and
stores it with the counts of warnings and of cursors that stand still. The next cycle starts
from what was stored. A cycle that raises, or whose write fails, stores nothing.
-/
namespace DegradeLoop

open PyData Stage4Execute AnomalyDetector
open Degrade (AnomalyCode AnomalyEvent Mode Instant DegradeInput DegradeDecision decideDegrade
  sortedSet)
open CycleGate (Gate runOneCycle)

section Data

/-- The row the next cycle starts from; without one it starts from the defaults. -/
structure DegradeState where
  cooldownUntil : Option Instant := none
  currentOverrideMode : Option Mode := none
  lastReasons : List String := []
  level : ℤ := 0
  recoveryStreak : ℤ := 0
  warnWindowCount : ℤ := 0
  lastWarnCodes : List String := []
  cursorStallCycles : Dict ℤ := ∅
  lastRejectCount : ℤ := 0

/-- The cursor of a symbol before and after its fills, and the fills in between. -/
structure CursorRead where
  before : Option String
  after : Option String
  ingestedCount : ℤ := 0
  persistedCount : ℤ := 0

structure Config where
  risk : RiskBudget.Settings := {}
  policy : RiskBudget.SelfFinancingPolicy := {}
  deviation : List ℚ → ℚ
  detector : AnomalyDetectorConfig := {}
  degradeWarnThreshold : ℤ := 3
  degradeWarnCodes : List AnomalyCode

/-- What a cycle reads on its way. -/
structure Cycle where
  now : Instant
  observedAt : Instant
  endedAt : Instant
  cycleDurationMs : ℤ
  updatedCycleDurationMs : ℤ
  marketDataAgeSeconds : List (String × ℚ)
  cursors : Dict CursorRead
  eventsInserted : ℤ
  eventsIgnored : ℤ
  snapshotTs : Instant
  totalEquityTry : ℚ
  breakerOpen : Bool
  call : RiskBudget.Call
  riskStored : Bool
  gate : Gate
  acceptedActions : List RiskPolicy.LifecycleAction
  env : Env
  execution : Settings
  orders : List Stage4Store.OrderRow
  freeze : FreezeState
  degradeStored : Bool

structure System where
  risk : RiskBudget.World := {}
  degrade : DegradeState := {}
  exchange : World

end Data

section Cycle

variable (config : Config) (s : System) (cycle : Cycle)

def CursorRead.dedupeOnly (read : CursorRead) : Bool :=
  0 < read.ingestedCount ∧ read.persistedCount = 0 ∧ cycle.eventsInserted = 0 ∧
    0 < cycle.eventsIgnored

def CursorRead.standsStill (read : CursorRead) : Bool :=
  read.before ≠ none ∧ read.before = read.after ∧ ¬ read.dedupeOnly cycle

def cursorStallBySymbol : Dict ℤ :=
  if cycle.execution.dryRun then ∅
  else cycle.cursors.map fun symbol read =>
    if read.standsStill cycle then s.degrade.cursorStallCycles[symbol]?.getD 0 + 1 else 0

def observation (rejectCount cycleDurationMs : ℤ) : Observation where
  marketDataAgeSeconds := some cycle.marketDataAgeSeconds
  rejectCount := rejectCount
  cycleDurationMs := some cycleDurationMs
  cursorStallBySymbol := cursorStallBySymbol s cycle
  snapshotTs := cycle.snapshotTs
  totalEquityTry := cycle.totalEquityTry
  equityEstimate := cycle.call.pnlReport.equityEstimate

/-- What is detected before the cycle executes, with the rejections of the one before. -/
def anomalies : List AnomalyEvent :=
  detect config.detector cycle.observedAt
    (observation s cycle s.degrade.lastRejectCount cycle.cycleDurationMs)

/-- What is detected after it, with its own. -/
def updatedAnomalies (rejected : ℤ) : List AnomalyEvent :=
  detect config.detector cycle.endedAt
    (observation s cycle rejected cycle.updatedCycleDurationMs)

def warnCodesOf (events : List AnomalyEvent) : List AnomalyCode :=
  (events.filter fun event =>
    event.severity = .warn ∧ event.code ∈ config.degradeWarnCodes).map AnomalyEvent.code

def allCodes : List AnomalyCode :=
  [.staleMarketData, .exchangeLatencySpike, .orderRejectSpike, .clockSkew, .cursorStall,
    .pnlDivergence, .manualOverride]

def parseWarnCodes (rawCodes : List String) : List AnomalyCode :=
  rawCodes.filterMap fun raw => allCodes.find? (·.value = raw)

def recentWarnCodes (current : List AnomalyCode) : List AnomalyCode :=
  if current = [] then parseWarnCodes s.degrade.lastWarnCodes else current

def windowCount (current : List AnomalyCode) : ℤ :=
  if current = [] then 0 else s.degrade.warnWindowCount + 1

def degradeInput : DegradeInput where
  anomalies := anomalies config s cycle
  now := cycle.now
  currentOverride := s.degrade.currentOverrideMode
  cooldownUntil := s.degrade.cooldownUntil
  lastReasons := some s.degrade.lastReasons
  recentWarnCount := windowCount s (warnCodesOf config (anomalies config s cycle))
  warnThreshold := config.degradeWarnThreshold
  warnCodes := config.degradeWarnCodes
  recentWarnCodes := recentWarnCodes s (warnCodesOf config (anomalies config s cycle))
  previousLevel := s.degrade.level
  breakerOpen := cycle.breakerOpen
  freezeActive := false
  stabilityStreak := s.degrade.recoveryStreak

def degradeDecision : DegradeDecision := decideDegrade (degradeInput config s cycle)

/-- The actions handed to the execution, or what the cycle raises before it. -/
def executedActions : Except String (List RiskPolicy.LifecycleAction) :=
  runOneCycle config.risk config.policy config.deviation s.risk cycle.call
    (degradeInput config s cycle) cycle.gate cycle.acceptedActions

/-- The world the execution starts in. -/
def openingWorld : World := { s.exchange with orders := cycle.orders, freeze := cycle.freeze }

/-- The report of the execution, when the cycle comes to one. -/
def executionReport : Option Totals :=
  match executedActions config s cycle with
  | .ok actions =>
    match executeWithReport cycle.env cycle.execution (actions.map (·.toLifecycleAction))
        (openingWorld s cycle) with
    | .ok report _ => some report
    | .error _ _ => none
  | .error _ => none

/-- The row the cycle stores. -/
def persistDegrade (rejected : ℤ) : DegradeState :=
  let updatedWarnCodes := warnCodesOf config (updatedAnomalies config s cycle rejected)
  let decision := degradeDecision config s cycle
  { cooldownUntil := decision.cooldownUntil
    currentOverrideMode := decision.modeOverride
    lastReasons := decision.reasons
    level := decision.level
    recoveryStreak := decision.recoveryStreak
    warnWindowCount := windowCount s updatedWarnCodes
    lastWarnCodes := sortedSet ((recentWarnCodes s updatedWarnCodes).map AnomalyCode.value)
    cursorStallCycles := cursorStallBySymbol s cycle
    lastRejectCount := rejected }

def degradeAfter : DegradeState :=
  match executionReport config s cycle with
  | some report =>
    if cycle.degradeStored then persistDegrade config s cycle report.rejected else s.degrade
  | none => s.degrade

def step : System where
  risk := RiskBudget.step config.risk config.policy config.deviation s.risk
    (.cycle cycle.call cycle.riskStored)
  degrade := degradeAfter config s cycle
  exchange := CycleExecution.executeCycle cycle.env cycle.execution (openingWorld s cycle)
    (executedActions config s cycle)

abbrev run (cycles : List Cycle) : System := Runs.run (step config) s cycles

end Cycle

section Held

open CycleGate (Stopped Unhindered isSellSubmit)
open CycleExecution (Names)
open RiskBudget (heldEquities)

variable {config : Config} {s : System} {cycle : Cycle}

/-- The cycle comes before the stored cooldown is over. -/
def Cooling (s : System) (cycle : Cycle) : Prop :=
  ∃ expiry, s.degrade.cooldownUntil = some expiry ∧ cycle.now < expiry

theorem decision_cooling (hcooling : Cooling s cycle) (hlevel : 1 ≤ s.degrade.level) :
    degradeDecision config s cycle =
      Degrade.build cycle.now s.degrade.level s.degrade.lastReasons s.degrade.recoveryStreak := by
  have hactive : Degrade.CooldownActive (degradeInput config s cycle) := hcooling
  have hheld : Degrade.heldLevel (degradeInput config s cycle) = s.degrade.level := if_pos hlevel
  rw [degradeDecision, Degrade.decideDegrade_active hactive, hheld]
  rfl

theorem step_level (hcooling : Cooling s cycle) (hlevel : 1 ≤ s.degrade.level) :
    (step config s cycle).degrade.level = s.degrade.level := by
  change (degradeAfter config s cycle).level = _
  unfold degradeAfter
  split
  · split
    · change (degradeDecision config s cycle).level = _
      rw [decision_cooling hcooling hlevel, Degrade.build_level]
    · rfl
  · rfl

theorem override_held (hcooling : Cooling s cycle) (hlevel : 1 ≤ s.degrade.level) :
    (degradeDecision config s cycle).modeOverride ≠ none := by
  rw [decision_cooling hcooling hlevel]
  change (Degrade.levelPolicy s.degrade.level).mode ≠ none
  unfold Degrade.levelPolicy
  split
  · exact Option.some_ne_none _
  · split
    · exact Option.some_ne_none _
    · have hone : s.degrade.level = 1 := by omega
      rw [if_pos hone]
      exact Option.some_ne_none _

/-- The calls of one cycle under a cooldown. -/
theorem step_made (hcooling : Cooling s cycle) (hlevel : 1 ≤ s.degrade.level)
    (hforce : cycle.gate.forceDryRunSubmit = false) :
    ∃ made, (step config s cycle).exchange.calls = s.exchange.calls ++ made ∧
      (3 ≤ s.degrade.level → made = []) ∧
      ∀ entry ∈ made, ∀ replaces clientOrderId order answer,
        entry.call = .submit replaces clientOrderId order answer →
          ∃ source ∈ cycle.acceptedActions, isSellSubmit source = true ∧
            Names cycle.env source.toLifecycleAction clientOrderId order := by
  have hcycle := @CycleExecution.executeCycle_made config.risk config.policy config.deviation
    s.risk [] cycle.call (degradeInput config s cycle) cycle.gate cycle.acceptedActions cycle.env
    cycle.execution (openingWorld s cycle) hforce
  obtain ⟨made, hmade, hof⟩ := hcycle
  refine ⟨made, hmade, fun hthree => ?_, ?_⟩
  · have hobserve : (degradeDecision config s cycle).modeOverride = some .observeOnly := by
      rw [decision_cooling hcooling hlevel, Degrade.build_observeOnly]
      exact hthree
    have hstopped : Stopped (heldEquities s.risk []) cycle.call (degradeInput config s cycle) :=
      .inr hobserve
    have hsame := @CycleExecution.executeCycle_stopped config.risk config.policy
      config.deviation s.risk [] cycle.call (degradeInput config s cycle) cycle.gate
      cycle.acceptedActions cycle.env cycle.execution (openingWorld s cycle) hforce hstopped
    rw [hmade] at hsame
    exact List.append_right_eq_self.mp hsame
  · intro entry hentry replaces clientOrderId order answer hcall
    obtain ⟨source, hsource, -, hnames, hsell⟩ :=
      hof entry hentry replaces clientOrderId order answer hcall
    exact ⟨source, hsource, hsell fun hfree => override_held hcooling hlevel hfree.degrade, hnames⟩

theorem run_level {cycles : List Cycle} (hlevel : 1 ≤ s.degrade.level)
    (hcooling : Runs.Meets (step config) Cooling s cycles) :
    (run config s cycles).degrade.level = s.degrade.level := by
  refine Runs.run_meets (I := fun t => t.degrade.level = s.degrade.level) ?_ s cycles rfl hcooling
  intro t cycle hsame hcool
  rw [step_level hcool (hsame ▸ hlevel), hsame]

theorem run_made {cycles : List Cycle} (hlevel : 1 ≤ s.degrade.level)
    (hcooling : Runs.Meets (step config) Cooling s cycles)
    (hforce : ∀ cycle ∈ cycles, cycle.gate.forceDryRunSubmit = false) :
    ∃ made, (run config s cycles).exchange.calls = s.exchange.calls ++ made ∧
      (3 ≤ s.degrade.level → made = []) ∧
      ∀ entry ∈ made, ∀ replaces clientOrderId order answer,
        entry.call = .submit replaces clientOrderId order answer →
          ∃ cycle ∈ cycles, ∃ source ∈ cycle.acceptedActions, isSellSubmit source = true ∧
            Names cycle.env source.toLifecycleAction clientOrderId order := by
  induction cycles generalizing s with
  | nil =>
    exact ⟨[], (List.append_nil _).symm, fun _ => rfl, fun _ h => absurd h List.not_mem_nil⟩
  | cons cycle cycles ih =>
    obtain ⟨hcool, hrest⟩ := hcooling
    have hsame := @step_level config s cycle hcool hlevel
    obtain ⟨first, hfirst, hnone, hofFirst⟩ :=
      @step_made config s cycle hcool hlevel (hforce cycle List.mem_cons_self)
    obtain ⟨later, hlater, hnone', hofLater⟩ := ih (hsame ▸ hlevel) hrest
      fun other hother => hforce other (List.mem_cons_of_mem _ hother)
    refine ⟨first ++ later, ?_, fun hthree => ?_, ?_⟩
    · rw [run, Runs.run_cons, hlater, hfirst, List.append_assoc]
    · rw [hnone hthree, hnone' (hsame ▸ hthree)]
      rfl
    · intro entry hentry replaces clientOrderId order answer hcall
      rcases List.mem_append.mp hentry with hin | hin
      · exact ⟨cycle, List.mem_cons_self, hofFirst entry hin _ _ _ _ hcall⟩
      · obtain ⟨other, hother, hsource⟩ := hofLater entry hin _ _ _ _ hcall
        exact ⟨other, List.mem_cons_of_mem _ hother, hsource⟩

/-- While every cycle comes before the stored cooldown is over, no anomaly and no calm changes
the level: at the highest no call is made, and below it only accepted sells are submitted. -/
theorem cooldown_holds (config : Config) (s : System) (cycles : List Cycle)
    (hlevel : 1 ≤ s.degrade.level) (hcooling : Runs.Meets (step config) Cooling s cycles)
    (hforce : ∀ cycle ∈ cycles, cycle.gate.forceDryRunSubmit = false) :
    (∀ before cycle after, cycles = before ++ cycle :: after →
      (degradeDecision config (run config s before) cycle).level = s.degrade.level) ∧
      ∃ made, (run config s cycles).exchange.calls = s.exchange.calls ++ made ∧
        (3 ≤ s.degrade.level → made = []) ∧
        ∀ entry ∈ made, ∀ replaces clientOrderId order answer,
          entry.call = .submit replaces clientOrderId order answer →
            ∃ cycle ∈ cycles, ∃ source ∈ cycle.acceptedActions, isSellSubmit source = true ∧
              Names cycle.env source.toLifecycleAction clientOrderId order := by
  refine ⟨?_, run_made hlevel hcooling hforce⟩
  rintro before cycle after rfl
  obtain ⟨hbefore, hcool, -⟩ := hcooling.append before (cycle :: after)
  have hsame := run_level hlevel hbefore
  rw [decision_cooling hcool (hsame ▸ hlevel), Degrade.build_level, hsame]

/-- A cycle in which nothing is off. -/
def sampleCycle (now : Instant) : Cycle where
  now := now
  observedAt := now
  endedAt := now
  cycleDurationMs := 0
  updatedCycleDurationMs := 0
  marketDataAgeSeconds := []
  cursors := ∅
  eventsInserted := 0
  eventsIgnored := 0
  snapshotTs := now
  totalEquityTry := 1000
  breakerOpen := false
  call := RiskBudget.sampleCall 1000
  riskStored := true
  gate := CycleGate.sampleGate
  acceptedActions := [CycleExecution.sampleSubmit "SELL" "s"]
  env := sampleEnv (.ok "ex") (.ok true)
  execution := sampleSettings
  orders := []
  freeze := ⟨false, none⟩
  degradeStored := true

def sampleConfig : Config where
  deviation _ := 0
  degradeWarnCodes := [.staleMarketData, .orderRejectSpike]

/-- The highest level, for ten minutes more. -/
def lockedSystem : System where
  degrade := { level := 3, cooldownUntil := some 600000000 }
  exchange := sampleWorld []

/-- A cycle a minute before the end makes it thirty minutes more, and the next one comes within
them. -/
theorem locked_holds :
    (run sampleConfig lockedSystem
      [sampleCycle 540000000, sampleCycle 1200000000]).exchange.calls = [] := by
  have hstored : (step sampleConfig lockedSystem (sampleCycle 540000000)).degrade.cooldownUntil =
      some 2340000000 := by decide +kernel
  obtain ⟨-, made, hmade, hnone, -⟩ := cooldown_holds sampleConfig lockedSystem
    [sampleCycle 540000000, sampleCycle 1200000000] (by decide)
    ⟨⟨600000000, rfl, by decide⟩, ⟨2340000000, hstored, by decide⟩, trivial⟩
    (fun cycle hcycle => by
      rcases List.mem_cons.mp hcycle with rfl | hcycle
      · rfl
      · obtain rfl := List.mem_singleton.mp hcycle
        rfl)
  rw [hmade, hnone (by decide)]
  rfl

end Held

section Counts

variable {config : Config} {s : System} {cycle : Cycle}

/-- The cursor of the symbol stands still in the cycle. -/
def stillAt (symbol : String) (cycle : Cycle) : Bool :=
  !cycle.execution.dryRun && (cycle.cursors[symbol]?).any (·.standsStill cycle)

/-- The cycle came to its end, and what it decided was stored. -/
def stored (config : Config) (visit : System × Cycle) : Bool :=
  (executionReport config visit.1 visit.2).isSome && visit.2.degradeStored

/-- The cycles of a run that were stored, each with the state it was run in. -/
def storedCycles (config : Config) (s : System) (cycles : List Cycle) : List (System × Cycle) :=
  (Streak.visits (step config) s cycles).filter (stored config)

/-- A cycle that ends with a warning that counts. -/
def endsWarned (config : Config) (visit : System × Cycle) : Bool :=
  (executionReport config visit.1 visit.2).any fun report =>
    warnCodesOf config (updatedAnomalies config visit.1 visit.2 report.rejected) ≠ []

def stallCount (symbol : String) (s : System) : ℤ := s.degrade.cursorStallCycles[symbol]?.getD 0

theorem cursorStall_get (symbol : String) :
    (cursorStallBySymbol s cycle)[symbol]?.getD 0 =
      if stillAt symbol cycle then stallCount symbol s + 1 else 0 := by
  unfold cursorStallBySymbol stillAt
  cases hdry : cycle.execution.dryRun with
  | true => simp
  | false =>
    rw [if_neg Bool.false_ne_true, Std.ExtTreeMap.getElem?_map]
    cases cycle.cursors[symbol]? with
    | none => rfl
    | some read => rfl

/-- What is stored of a step, or what was stored before it. -/
theorem degradeAfter_eq {α : Type} (f : DegradeState → α) (g : ℤ → α)
    (hpersisted : ∀ rejected, f (persistDegrade config s cycle rejected) = g rejected) :
    f (step config s cycle).degrade =
      match executionReport config s cycle with
      | some report => if cycle.degradeStored then g report.rejected else f s.degrade
      | none => f s.degrade := by
  change f (degradeAfter config s cycle) = _
  unfold degradeAfter
  cases executionReport config s cycle with
  | none => rfl
  | some report =>
    dsimp only
    split
    · exact hpersisted report.rejected
    · rfl

theorem stallCount_step (symbol : String) : stallCount symbol (step config s cycle) =
    if stored config (s, cycle) then
      if stillAt symbol cycle then stallCount symbol s + 1 else 0
    else stallCount symbol s := by
  have hstep := @degradeAfter_eq config s cycle ℤ (fun state =>
    state.cursorStallCycles[symbol]?.getD 0) _ fun _ => cursorStall_get symbol
  refine hstep.trans ?_
  unfold stored
  cases executionReport config s cycle with
  | none => rfl
  | some report => rfl

/-- A stored stall is counted by the stored cycles in which the cursor stood still. -/
theorem stallCount_run (symbol : String) (hs : stallCount symbol s = 0) (cycles : List Cycle) :
    stallCount symbol (run config s cycles) =
      Streak.streak (fun visit => stillAt symbol visit.2) (storedCycles config s cycles) :=
  Streak.count_run (fun _ _ => stallCount_step symbol) hs cycles

theorem warnWindowCount_step : (step config s cycle).degrade.warnWindowCount =
    if stored config (s, cycle) then
      if endsWarned config (s, cycle) then s.degrade.warnWindowCount + 1 else 0
    else s.degrade.warnWindowCount := by
  have hstep := @degradeAfter_eq config s cycle ℤ DegradeState.warnWindowCount (fun rejected =>
    windowCount s (warnCodesOf config (updatedAnomalies config s cycle rejected))) fun _ => rfl
  refine hstep.trans ?_
  unfold stored endsWarned
  cases executionReport config s cycle with
  | none => rfl
  | some report => simp [windowCount]

theorem warnWindowCount_run (hs : s.degrade.warnWindowCount = 0) (cycles : List Cycle) :
    (run config s cycles).degrade.warnWindowCount =
      Streak.streak (endsWarned config) (storedCycles config s cycles) :=
  @Streak.count_run System Cycle (step config) (fun t => t.degrade.warnWindowCount)
    (stored config) (endsWarned config) (fun _ _ => warnWindowCount_step) s hs cycles

theorem cursorStallBySymbol_run (symbol : String) (hs : s.degrade.cursorStallCycles = ∅)
    (cycles : List Cycle) :
    (cursorStallBySymbol (run config s cycles) cycle)[symbol]?.getD 0 =
      if stillAt symbol cycle then
        (Streak.streak (fun visit => stillAt symbol visit.2) (storedCycles config s cycles) : ℤ) + 1
      else 0 := by
  rw [cursorStall_get, stallCount_run symbol (by simp [stallCount, hs])]

/-- A positive threshold is met by a symbol the table has. -/
theorem stall_reached {stalls : Dict ℤ} {threshold : ℤ} (h : 1 ≤ threshold) :
    (∃ (symbol : String) (count : ℤ), stalls[symbol]? = some count ∧ threshold ≤ count) ↔
      ∃ symbol : String, threshold ≤ stalls[symbol]?.getD 0 := by
  constructor
  · rintro ⟨symbol, count, hget, hlong⟩
    exact ⟨symbol, by rwa [hget]⟩
  · rintro ⟨symbol, hlong⟩
    cases hget : stalls[symbol]? with
    | none =>
      rw [hget] at hlong
      exact absurd (h.trans hlong) (by decide)
    | some count =>
      rw [hget] at hlong
      exact ⟨symbol, count, hget, hlong⟩

/-- A stalled cursor is detected just where some cursor stands still in this cycle and in the
last stored ones, as many in all as are configured. -/
theorem cursorStall_detected (config : Config) (hcycles : 1 ≤ config.detector.cursorStallCycles)
    (s : System) (hs : s.degrade.cursorStallCycles = ∅) (cycles : List Cycle) (cycle : Cycle) :
    ⟨.cursorStall, .warn⟩ ∈ anomalies config (run config s cycles) cycle ↔
      ∃ symbol, stillAt symbol cycle = true ∧
        ∃ last, last <:+ storedCycles config s cycles ∧
          (last.length : ℤ) + 1 = config.detector.cursorStallCycles ∧
          ∀ visit ∈ last, stillAt symbol visit.2 = true := by
  obtain ⟨n, hn⟩ : ∃ n : ℕ, config.detector.cursorStallCycles = n + 1 :=
    ⟨(config.detector.cursorStallCycles - 1).toNat, by omega⟩
  rw [anomalies, cursorStall_mem_detect, cursorStall_iff, stall_reached hcycles]
  refine exists_congr fun symbol => ?_
  change _ ≤ (cursorStallBySymbol (run config s cycles) cycle)[symbol]?.getD 0 ↔ _
  rw [cursorStallBySymbol_run symbol hs, hn]
  split
  · next hstill =>
    have hlast := @Streak.le_streak_iff _ (fun visit : System × Cycle => stillAt symbol visit.2)
      (storedCycles config s cycles) n
    rw [and_iff_right hstill]
    refine Iff.trans (by omega) (hlast.trans (exists_congr fun last => ?_))
    refine and_congr Iff.rfl (and_congr ?_ Iff.rfl)
    omega
  · next hmoved => exact iff_of_false (by omega) fun h => hmoved h.1

/-- A cycle with a cursor that stands still and data a minute old. -/
def stuckCycle (now : Instant) : Cycle :=
  { sampleCycle now with
    cursors := (∅ : Dict CursorRead).insert "BTCTRY" { before := some "7", after := some "7" }
    marketDataAgeSeconds := [("BTCTRY", 60)] }

/-- Two cycles are enough for a stall and for a first degrade. -/
def shortConfig : Config :=
  { sampleConfig with detector := { cursorStallCycles := 2 }, degradeWarnThreshold := 2 }

def freshSystem : System where exchange := sampleWorld []

theorem stuck_detected : ⟨.cursorStall, .warn⟩ ∈
    anomalies shortConfig (run shortConfig freshSystem [stuckCycle 0]) (stuckCycle 60000000) :=
  (cursorStall_detected shortConfig (by decide) freshSystem rfl [stuckCycle 0]
    (stuckCycle 60000000)).mpr ⟨"BTCTRY", by decide +kernel,
      storedCycles shortConfig freshSystem [stuckCycle 0], List.suffix_refl _, by decide +kernel,
      by decide +kernel⟩

end Counts

section Calm

variable {config : Config} {s : System} {cycle : Cycle}

/-- Below level one nothing is cooling down. -/
def LevelSound (s : System) : Prop :=
  s.degrade.level < 1 → s.degrade.cooldownUntil = none

theorem decision_sound : (degradeDecision config s cycle).level < 1 →
    (degradeDecision config s cycle).cooldownUntil = none := by
  obtain ⟨level, reasons, recovery, hbuild⟩ :=
    CycleGate.decideDegrade_build (degradeInput config s cycle)
  intro hlevel
  change (decideDegrade _).level < 1 at hlevel
  change (decideDegrade _).cooldownUntil = none
  rw [hbuild, Degrade.build_level] at hlevel
  rw [hbuild]
  exact if_neg (by omega)

theorem step_sound (h : LevelSound s) : LevelSound (step config s cycle) := by
  change (degradeAfter config s cycle).level < 1 → _
  change _ → (degradeAfter config s cycle).cooldownUntil = none
  unfold degradeAfter
  split
  · split
    · exact decision_sound
    · exact h
  · exact h

/-- The warnings that count are those the decision counts. -/
theorem warnCount_degradeInput :
    Degrade.warnCountForThreshold (degradeInput config s cycle) =
      windowCount s (warnCodesOf config (anomalies config s cycle)) := by
  unfold Degrade.warnCountForThreshold
  split
  · next hnone =>
    have hcodes : warnCodesOf config (anomalies config s cycle) = [] := by
      have hfiltered := List.map_eq_nil_iff.mp hnone.1
      rw [warnCodesOf, List.map_eq_nil_iff, List.filter_eq_nil_iff]
      intro event hevent hwarn
      have hin := List.filter_eq_nil_iff.mp hfiltered event hevent
      refine hin (decide_eq_true ⟨(of_decide_eq_true hwarn).1, ?_⟩)
      rw [Degrade.allowedWarnCode, Bool.or_eq_true]
      exact .inr (decide_eq_true (of_decide_eq_true hwarn).2)
    rw [windowCount, if_pos hcodes]
  · rfl

theorem decision_calm (hcalm : s.degrade.level < 1) (hsound : LevelSound s) :
    (degradeDecision config s cycle).level =
      Degrade.demandedLevel (degradeInput config s cycle) := by
  have hidle : ¬ Degrade.CooldownActive (degradeInput config s cycle) := by
    rintro ⟨expiry, hexpiry, -⟩
    rw [show (degradeInput config s cycle).cooldownUntil = none from hsound hcalm] at hexpiry
    cases hexpiry
  have hlevel : ¬ 1 ≤ (degradeInput config s cycle).previousLevel := not_le.mpr hcalm
  unfold degradeDecision decideDegrade Degrade.demandedLevel
  simp only [hidle, hlevel, false_and, if_false]
  split_ifs <;> rfl

theorem critical_iff : Degrade.Critical (degradeInput config s cycle) ↔
    cycle.breakerOpen = true ∨ config.detector.pnlDivergenceTryError ≤
      |cycle.totalEquityTry - cycle.call.pnlReport.equityEstimate| := by
  have herror := error_mem_detect config.detector cycle.observedAt
    (observation s cycle s.degrade.lastRejectCount cycle.cycleDurationMs)
  unfold Degrade.Critical
  refine or_congr Iff.rfl ?_
  rw [or_iff_right (by simp [degradeInput])]
  exact herror

/-- A cycle that follows a calm one degrades to the top for an open breaker or equities that
differ by an error, and else by how many stored cycles before it ended with a warning. -/
theorem degraded_level (config : Config) (hthreshold : 1 ≤ config.degradeWarnThreshold)
    (s : System) (hs : s.degrade = {}) (cycles : List Cycle) (cycle : Cycle)
    (hcalm : (run config s cycles).degrade.level < 1) :
    (degradeDecision config (run config s cycles) cycle).level =
      if cycle.breakerOpen = true ∨ config.detector.pnlDivergenceTryError ≤
        |cycle.totalEquityTry - cycle.call.pnlReport.equityEstimate| then 3
      else if warnCodesOf config (anomalies config (run config s cycles) cycle) = [] then 0
      else if 2 * config.degradeWarnThreshold ≤
        Streak.streak (endsWarned config) (storedCycles config s cycles) + 1 then 2
      else if config.degradeWarnThreshold ≤
        Streak.streak (endsWarned config) (storedCycles config s cycles) + 1 then 1
      else 0 := by
  have hsound : LevelSound (run config s cycles) :=
    Runs.run_keeps (fun _ _ h => step_sound h) s cycles fun _ => by rw [hs]
  have hwindow := @warnWindowCount_run config s (by rw [hs]) cycles
  have hwarns : (degradeInput config (run config s cycles) cycle).warnThreshold =
    config.degradeWarnThreshold := rfl
  rw [decision_calm hcalm hsound, Degrade.demandedLevel, warnCount_degradeInput, hwarns,
    windowCount, hwindow]
  by_cases hcritical : Degrade.Critical (degradeInput config (run config s cycles) cycle)
  · rw [if_pos hcritical, if_pos (critical_iff.mp hcritical)]
  · rw [if_neg hcritical, if_neg (mt critical_iff.mpr hcritical)]
    split_ifs <;> first | rfl | omega

theorem stuck_degraded : (degradeDecision shortConfig
    (run shortConfig freshSystem [stuckCycle 0]) (stuckCycle 60000000)).level = 1 :=
  (degraded_level shortConfig (by decide) freshSystem rfl [stuckCycle 0] (stuckCycle 60000000)
    (by decide +kernel)).trans (by decide +kernel)

end Calm

end DegradeLoop
