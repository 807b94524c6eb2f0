import Btcbot.Decimals
import Btcbot.Degrade

/-!
# The adaptation of the stage 7 parameters

A call reads the latest run metrics. It goes back to the last good checkpoint when they call
for it, and otherwise applies a small change of the active parameters under the version that
follows theirs. Every activation writes a checkpoint. A change is a field that prints
otherwise, even where its number is the same.
-/
namespace AdaptationService

open PyData Decimals
open Degrade (Mode Instant)

section Data

/-- The settings that the parameters start from and are bounded by, as validated. -/
structure Settings (D : Type) [DecimalOps D] where
  stage7UniverseSize : ℤ := 20
  stage7ScoreWeights : Option (Dict D) := none
  stage7OrderOffsetBps : D := lit 5 0
  notionalCapTryPerCycle : D := lit 1000 0
  maxOrdersPerCycle : ℤ := 2
  stage7MaxSpreadBps : D := lit 1000000 0
  tryCashTarget : D := lit 300 0
  tryCashMax : D := lit 600 0
  stage7MinQuoteVolumeTry : D := lit 0 0
  stage7MaxDrawdownPct : D := lit 25 2

structure Stage7Params (D : Type) where
  universeSize : ℤ
  scoreWeights : Dict D
  orderOffsetBps : ℤ
  turnoverCapTry : D
  maxOrdersPerCycle : ℤ
  maxSpreadBps : ℤ
  cashTargetTry : D
  minQuoteVolumeTry : D
  version : ℤ
  updatedAt : Instant
  deriving DecidableEq

/-- The values of `to_dict`, where a decimal is its text. -/
inductive ParamValue (D : Type) where
  | int (value : ℤ)
  | decimal (value : D)
  | weights (value : Dict D)
  deriving DecidableEq

/-- A field with its old and its new value. -/
abbrev FieldChange (D : Type) := String × ParamValue D × ParamValue D

inductive Outcome where
  | applied
  | rejected
  | rolledBack
  deriving DecidableEq, Repr

structure MetricsSummary (D : Type) where
  cycles : ℕ
  avgNetPnlTry : D
  maxDrawdownPct : D
  rejectsTotal : ℤ
  throttledTotal : ℤ
  deriving DecidableEq, Repr

structure ParamChange (D : Type) where
  ts : Instant
  fromVersion : ℤ
  toVersion : ℤ
  changes : List (FieldChange D)
  reason : String
  metricsWindow : Option (MetricsSummary D)
  outcome : Outcome
  notes : List String
  deriving DecidableEq

/-- The columns of a run's metrics that adaptation reads. -/
structure RunMetrics (D : Type) where
  modeFinal : Mode
  alertFlags : Dict Bool
  qualityFlags : Dict Bool
  netPnlTry : D
  maxDrawdownPct : D
  omsRejectedCount : ℤ
  omsThrottledCount : ℤ

/-- The metrics stored when a call is made, the newest first. -/
structure Call (D : Type) where
  metrics : List (RunMetrics D)
  nowUtc : Instant

def flag (flags : Dict Bool) (name : String) : Bool := flags[name]?.getD false

end Data

section Bounds

variable {D : Type} [DecimalOps D] (settings : Settings D)

def weightsOf (liquidity spread volatility : D) : Dict D :=
  ((Std.ExtTreeMap.empty.insert "liquidity" liquidity).insert "spread" spread).insert
    "volatility" volatility

def defaultWeights : Dict D := weightsOf (lit 5 1) (lit 3 1) (lit 2 1)

def normalizeWeights (weights : Dict D) : Dict D :=
  let clipped (key : String) : D :=
    smaller (lit 1 0) (larger (lit 0 0) (weights[key]?.getD (lit 0 0)))
  let total := lit 0 0 + clipped "liquidity" + clipped "spread" + clipped "volatility"
  if !less (lit 0 0) total then defaultWeights
  else weightsOf (clipped "liquidity" / total) (clipped "spread" / total)
    (clipped "volatility" / total)

def applyBounds (params : Stage7Params D) : Stage7Params D :=
  { params with
    universeSize := min 50 (max 5 params.universeSize)
    scoreWeights := normalizeWeights params.scoreWeights
    orderOffsetBps := min 50 (max 0 params.orderOffsetBps)
    turnoverCapTry := smaller (larger (lit 0 0) settings.notionalCapTryPerCycle)
      (larger (lit 0 0) params.turnoverCapTry)
    maxOrdersPerCycle := min 20 (max 1 params.maxOrdersPerCycle)
    maxSpreadBps := min 500 (max 10 params.maxSpreadBps)
    cashTargetTry := smaller settings.tryCashMax (larger (lit 0 0) params.cashTargetTry)
    minQuoteVolumeTry := larger (lit 0 0) params.minQuoteVolumeTry }

def hasRollbackTrigger (recent : List (RunMetrics D)) : Bool :=
  recent.any (fun item => flag item.alertFlags "drawdown_breach") ||
  recent.any (fun item => flag item.alertFlags "reject_spike") ||
  (3 ≤ recent.length && (recent.take 3).all fun item => flag item.alertFlags "throttled") ||
  (3 ≤ recent.length && (recent.take 3).all fun item => less item.netPnlTry (lit (-50) 0))

end Bounds

section Store

variable {D : Type}

structure Checkpoint (D : Type) where
  version : ℤ
  /-- The stored parameters, none for the empty object. -/
  params : Option (Stage7Params D)
  isGood : Bool

structure World (D : Type) where
  active : Option (Stage7Params D) := none
  checkpoints : List (Checkpoint D) := []

def defaultParams [DecimalOps D] (settings : Settings D) (nowUtc : Instant) : Stage7Params D where
  universeSize := settings.stage7UniverseSize
  scoreWeights :=
    match settings.stage7ScoreWeights with
    | none => defaultWeights
    | some weights => if weights.isEmpty then defaultWeights else weights
  orderOffsetBps := toInt settings.stage7OrderOffsetBps
  turnoverCapTry := settings.notionalCapTryPerCycle
  maxOrdersPerCycle := settings.maxOrdersPerCycle
  maxSpreadBps := toInt settings.stage7MaxSpreadBps
  cashTargetTry := settings.tryCashTarget
  minQuoteVolumeTry := settings.stage7MinQuoteVolumeTry
  version := 1
  updatedAt := nowUtc

def insertOrReplace (checkpoints : List (Checkpoint D)) (row : Checkpoint D) :
    List (Checkpoint D) :=
  checkpoints.filter (·.version ≠ row.version) ++ [row]

def setActiveStage7Params (world : World D) (params : Stage7Params D) : World D where
  active := some params
  checkpoints := insertOrReplace world.checkpoints ⟨params.version, some params, true⟩

/-- The defaults are stored when nothing is. -/
def getActiveStage7Params [DecimalOps D] (settings : Settings D) (nowUtc : Instant)
    (world : World D) : World D × Stage7Params D :=
  match world.active with
  | some params => (world, params)
  | none =>
    let defaults := defaultParams settings nowUtc
    (setActiveStage7Params world defaults, defaults)

def setStage7CheckpointGoodness (checkpoints : List (Checkpoint D)) (version : ℤ) (isGood : Bool) :
    List (Checkpoint D) :=
  if checkpoints.any (·.version = version) then
    checkpoints.map fun row => if row.version = version then { row with isGood := isGood } else row
  else checkpoints ++ [⟨version, none, isGood⟩]

/-- The parameters of a row; an empty object has no such key. -/
def fromDict : Option (Checkpoint D) → Except String (Option (Stage7Params D))
  | none => .ok none
  | some row =>
    match row.params with
    | none => .error "universe_size"
    | some params => .ok (some params)

def NewerBefore (a b : Checkpoint D) : Prop := b.version ≤ a.version

instance (a b : Checkpoint D) : Decidable (NewerBefore a b) :=
  inferInstanceAs (Decidable (b.version ≤ a.version))

instance : Std.Total (@NewerBefore D) := ⟨fun a b => Int.le_total b.version a.version⟩

instance : IsTrans (Checkpoint D) NewerBefore := ⟨fun _ _ _ hab hbc => Int.le_trans hbc hab⟩

/-- The row of the highest version. -/
def newest (rows : List (Checkpoint D)) : Option (Checkpoint D) :=
  (rows.insertionSort NewerBefore).head?

theorem newest_max {rows : List (Checkpoint D)} {row : Checkpoint D} (h : newest rows = some row) :
    row ∈ rows ∧ ∀ other ∈ rows, other.version ≤ row.version := by
  have hsorted := List.pairwise_insertionSort NewerBefore rows
  have hmem : ∀ other, other ∈ rows.insertionSort NewerBefore ↔ other ∈ rows := fun other =>
    List.mem_insertionSort NewerBefore
  obtain ⟨rest, hrest⟩ := List.head?_eq_some_iff.mp h
  rw [hrest] at hsorted hmem
  refine ⟨(hmem row).mp List.mem_cons_self, fun other hother => ?_⟩
  rcases List.mem_cons.mp ((hmem other).mpr hother) with rfl | hin
  · exact Int.le_refl _
  · exact List.rel_of_pairwise_cons hsorted hin

def getLastGoodStage7ParamsCheckpoint (checkpoints : List (Checkpoint D)) :
    Except String (Option (Stage7Params D)) :=
  fromDict (newest (checkpoints.filter (·.isGood)))

def getPreviousGoodStage7ParamsCheckpoint (checkpoints : List (Checkpoint D))
    (beforeVersion : ℤ) : Except String (Option (Stage7Params D)) :=
  fromDict (newest (checkpoints.filter fun row => row.isGood ∧ row.version < beforeVersion))

end Store

section Propose

variable {D : Type} [DecidableEq D] [DecimalOps D] (settings : Settings D)

/-- The variables of a proposal. -/
structure Proposal (D : Type) where
  proposed : Stage7Params D
  reasons : List String := []
  changed : ℕ := 0

def Proposal.change (applies : Bool) (reason : String)
    (update : Stage7Params D → Stage7Params D) (proposal : Proposal D) : Proposal D :=
  if applies ∧ proposal.changed < 3 then
    ⟨update proposal.proposed, proposal.reasons ++ [reason], proposal.changed + 1⟩
  else proposal

def healthyWindow (recent : List (RunMetrics D)) : Bool :=
  (recent.take 3).length = 3 && (recent.take 3).all fun item =>
    item.modeFinal = .normal && !(item.alertFlags.values.any id)

def propose (recent : List (RunMetrics D)) (active : Stage7Params D) : Proposal D :=
  match recent with
  | [] => { proposed := active, reasons := ["insufficient_metrics"] }
  | latest :: _ =>
    let reacted : Proposal D := Proposal.mk active [] 0
      |>.change (flag latest.alertFlags "reject_spike") "reject_spike_reduce_offset"
        (fun p => { p with orderOffsetBps := max 0 (p.orderOffsetBps - 2) })
      |>.change (flag latest.alertFlags "throttled") "throttled_reduce_order_count"
        (fun p => { p with maxOrdersPerCycle := max 1 (p.maxOrdersPerCycle - 1) })
      |>.change (!less latest.maxDrawdownPct (settings.stage7MaxDrawdownPct * lit 8 1))
        "high_drawdown_reduce_turnover"
        (fun p => { p with turnoverCapTry := p.turnoverCapTry * lit 95 2 })
      |>.change (flag latest.qualityFlags "missing_mark_price") "low_liquidity_tighten_filters"
        (fun p => { p with
          maxSpreadBps := max 10 (p.maxSpreadBps - 10)
          minQuoteVolumeTry := p.minQuoteVolumeTry + lit 100 0 })
    reacted.change (healthyWindow recent && reacted.changed = 0) "healthy_window_expand_small"
      (fun p => { p with
        universeSize := p.universeSize + 1
        turnoverCapTry := p.turnoverCapTry * lit 105 2 })

/-- The fields of the parameters, but the version and the time. -/
def fieldsOf (params : Stage7Params D) : List (String × ParamValue D) :=
  [("universe_size", .int params.universeSize), ("score_weights", .weights params.scoreWeights),
    ("order_offset_bps", .int params.orderOffsetBps),
    ("turnover_cap_try", .decimal params.turnoverCapTry),
    ("max_orders_per_cycle", .int params.maxOrdersPerCycle),
    ("max_spread_bps", .int params.maxSpreadBps), ("cash_target_try", .decimal params.cashTargetTry),
    ("min_quote_volume_try", .decimal params.minQuoteVolumeTry)]

/-- A decimal that prints otherwise is a change, whatever its value. -/
def diffParams (old new : Stage7Params D) : List (FieldChange D) :=
  ((fieldsOf old).zip (fieldsOf new)).filterMap fun ((field, before), (_, after)) =>
    if before ≠ after then some (field, before, after) else none

/-- `==` of the parameters, which compares the values of decimals. -/
def sameParams (a b : Stage7Params D) : Bool :=
  a.universeSize = b.universeSize &&
  a.scoreWeights.keys = b.scoreWeights.keys &&
  (a.scoreWeights.values.zip b.scoreWeights.values).all (fun (v, w) => sameValue v w) &&
  a.orderOffsetBps = b.orderOffsetBps && sameValue a.turnoverCapTry b.turnoverCapTry &&
  a.maxOrdersPerCycle = b.maxOrdersPerCycle && a.maxSpreadBps = b.maxSpreadBps &&
  sameValue a.cashTargetTry b.cashTargetTry &&
  sameValue a.minQuoteVolumeTry b.minQuoteVolumeTry &&
  a.version = b.version && a.updatedAt = b.updatedAt

def metricsSummary (recent : List (RunMetrics D)) : Option (MetricsSummary D) :=
  match recent with
  | [] => none
  | first :: rest => some
    { cycles := recent.length
      avgNetPnlTry := (recent.map RunMetrics.netPnlTry).foldl (· + ·) (lit 0 0) /
        lit recent.length 0
      maxDrawdownPct := (rest.map RunMetrics.maxDrawdownPct).foldl larger first.maxDrawdownPct
      rejectsTotal := (recent.map RunMetrics.omsRejectedCount).sum
      throttledTotal := (recent.map RunMetrics.omsThrottledCount).sum }

def proposeUpdate (recent : List (RunMetrics D)) (active : Stage7Params D) (nowUtc : Instant) :
    Stage7Params D × ParamChange D :=
  let proposal := propose settings recent active
  let bounded := applyBounds settings proposal.proposed
  let changes := diffParams active bounded
  let nextVersion := active.version + if changes ≠ [] then 1 else 0
  ({ bounded with version := nextVersion, updatedAt := nowUtc },
    { ts := nowUtc
      fromVersion := active.version
      toVersion := nextVersion
      changes := changes
      reason :=
        if sameParams bounded active then "no_change"
        else proposal.reasons.head?.getD "heuristic_update"
      metricsWindow := metricsSummary recent
      outcome := .rejected
      notes := proposal.reasons })

end Propose

section Evaluate

variable {D : Type} [DecidableEq D] [DecimalOps D] (settings : Settings D) (call : Call D)

def recent : List (RunMetrics D) := call.metrics.take 5

def rollBackTo (world : World D) (active checkpoint : Stage7Params D) :
    World D × Except String (Option (ParamChange D)) :=
  (setActiveStage7Params world checkpoint, .ok (some
    { ts := call.nowUtc
      fromVersion := active.version
      toVersion := checkpoint.version
      changes := diffParams active checkpoint
      reason := "guardrail_breach_rollback"
      metricsWindow := metricsSummary (recent call)
      outcome := .rolledBack
      notes := ["rollback_triggered"] }))

/-- The active version marked not good. -/
def marked (world : World D) (active : Stage7Params D) : World D :=
  { world with
    checkpoints := setStage7CheckpointGoodness world.checkpoints active.version false }

/-- The last good checkpoint takes the place of the active one. -/
def rollBack (world : World D) (active : Stage7Params D) :
    World D × Except String (Option (ParamChange D)) :=
  let world := marked world active
  match getLastGoodStage7ParamsCheckpoint world.checkpoints with
  | .error error => (world, .error error)
  | .ok none => (world, .ok none)
  | .ok (some checkpoint) =>
    if checkpoint.version = active.version then
      match getPreviousGoodStage7ParamsCheckpoint world.checkpoints active.version with
      | .error error => (world, .error error)
      | .ok none => (world, .ok none)
      | .ok (some checkpoint) => rollBackTo call world active checkpoint
    else rollBackTo call world active checkpoint

def applyUpdate (world : World D) (active : Stage7Params D) (latest : RunMetrics D) :
    World D × Except String (Option (ParamChange D)) :=
  let (candidate, change) := proposeUpdate settings (recent call) active call.nowUtc
  if latest.modeFinal ≠ .normal then (world, .ok none)
  else if ["drawdown_breach", "reject_spike", "throttled"].any (flag latest.alertFlags) then
    (world, .ok none)
  else if change.changes = [] then (world, .ok none)
  else
    (setActiveStage7Params world { candidate with updatedAt := call.nowUtc },
      .ok (some { change with outcome := .applied, ts := call.nowUtc }))

def evaluateAndApply (world : World D) : World D × Except String (Option (ParamChange D)) :=
  let (world, active) := getActiveStage7Params settings call.nowUtc world
  match recent call with
  | [] => (world, .ok none)
  | latest :: _ =>
    if hasRollbackTrigger (recent call) then rollBack call world active
    else applyUpdate settings call world active latest

end Evaluate

end AdaptationService
