import Btcbot.PyData
import Mathlib.Algebra.Field.Rat
import Mathlib.Algebra.Order.Ring.Rat
import Mathlib.Data.List.Dedup
import Mathlib.Data.List.Sort

/-!
# The selection of the stage 7 universe

A call ranks the symbols it scored, lets governance hold back newcomers, and keeps the
stored selection when the change is more than the day allows. One snapshot is stored for the
role, with the churn of the selection it holds.
-/
namespace UniverseSelection

open PyData

section Data

/-- Microseconds since the epoch. -/
abbrev Instant := ℤ

def seconds (n : ℤ) : ℤ := n * 1000000

def hours (n : ℤ) : ℤ := seconds (n * 3600)

/-- The settings of the selection, as validated. -/
structure Settings where
  stage7UniverseSize : ℤ := 20
  stage7MinQuoteVolumeTry : ℚ := 0
  stage7MaxSpreadBps : ℚ := 1000000
  stage7UniverseGovernanceProbationCycles : ℤ := 1
  stage7UniverseGovernanceCooldownSec : ℤ := 21600
  stage7UniverseGovernanceMaxChurnPerDay : ℤ := 4
  stage7UniverseSize_pos : 1 ≤ stage7UniverseSize := by decide
  maxChurnPerDay_pos : 1 ≤ stage7UniverseGovernanceMaxChurnPerDay := by decide

inductive FreezeReason where
  | exchangeDegraded
  | observeOnly
  | staleData
  deriving DecidableEq, Repr

def FreezeReason.human : FreezeReason → String
  | .exchangeDegraded => "exchange_degraded"
  | .observeOnly => "observe_only"
  | .staleData => "stale_market_data"

/-- A scored symbol, with what its exclusion reads of the breakdown. -/
structure UniverseCandidate where
  symbol : String
  liquidityScore : ℚ
  spreadScore : ℚ
  volatilityScore : ℚ
  totalScore : ℚ
  volumeTry : Option ℚ
  spreadBps : Option ℚ
  deriving DecidableEq, Repr

/-- What a call finds at the exchange: the candidates as they are ranked, under the
canonical symbols it discovered. -/
structure Call where
  now : Instant
  freezeReasons : List FreezeReason
  discoveryExclusions : Dict ℕ
  scored : List UniverseCandidate
  canonical : ∀ candidate ∈ scored, canonicalSymbol candidate.symbol = candidate.symbol
  distinct : (scored.map UniverseCandidate.symbol).Nodup

structure SymbolState where
  probationPasses : ℤ := 0
  lastSeenTs : Option Instant := none
  lastAddedTs : Option Instant := none
  lastRemovedTs : Option Instant := none
  cooldownUntilTs : Option Instant := none
  updatedAtTs : Option Instant := none

/-- The row of a role. -/
structure Snapshot where
  ts : Instant
  selectedSymbols : List String
  scored : List UniverseCandidate
  reasons : List String
  freezeReason : Option FreezeReason
  freezeReasons : List FreezeReason
  excludedCounts : Dict ℕ
  churnCount : ℕ

structure World where
  snapshots : Dict Snapshot := ∅
  symbols : Dict SymbolState := ∅

structure UniverseSelectionResult where
  selectedSymbols : List String
  scored : List UniverseCandidate
  reasons : List String
  timestamp : Instant
  freezeReason : Option FreezeReason
  freezeReasons : List FreezeReason
  excludedCounts : Dict ℕ
  churnCount : ℕ

end Data

section Governance

variable (settings : Settings) (world : World) (call : Call)

def role : String := "STAGE7"

def symbolState (symbols : Dict SymbolState) (symbol : String) : SymbolState :=
  symbols[symbol]?.getD {}

/-- The stored churn, unless the snapshot is older. -/
def getStage7UniverseChurnCountSince (since : Instant) : ℕ :=
  match world.snapshots[role]? with
  | none => 0
  | some snapshot => if snapshot.ts < since then 0 else snapshot.churnCount

def prevSymbols : List String :=
  ((world.snapshots[role]?.map Snapshot.selectedSymbols).getD []).map canonicalSymbol

/-- The comparison is exact; the source compares the decimal text of the nearest float of each
metric, which can differ from it past the fifteenth digit. -/
def candidateExclusions (candidate : UniverseCandidate) : List String :=
  (match candidate.spreadBps with
    | none => ["excluded_by_missing_spread"]
    | some spread =>
      if 0 < settings.stage7MaxSpreadBps ∧ settings.stage7MaxSpreadBps < spread then
        ["excluded_by_max_spread_bps"]
      else []) ++
  (match candidate.volumeTry with
    | none => ["excluded_by_missing_volume"]
    | some volume =>
      if volume < settings.stage7MinQuoteVolumeTry then ["excluded_by_min_quote_volume_try"]
      else [])

def eligible : List UniverseCandidate :=
  call.scored.filter fun candidate => (candidateExclusions settings candidate).isEmpty

def maxSize : ℕ := settings.stage7UniverseSize.toNat

def desired : List String :=
  ((eligible settings call).take (maxSize settings)).map UniverseCandidate.symbol

/-- The symbol states and the symbols let through so far. -/
abbrev Governed := Dict SymbolState × List String

/-- A newcomer waits out its cooldown, and then its probation. -/
def govern (governed : Governed) (symbol : String) : Governed :=
  let (symbols, filtered) := governed
  let state := symbolState symbols symbol
  let newcomer := symbol ∉ prevSymbols world
  if state.cooldownUntilTs.any (call.now < ·) ∧ newcomer then governed
  else
    let passes := if newcomer then state.probationPasses + 1 else state.probationPasses
    let seen := { state with
      probationPasses := passes
      lastSeenTs := some call.now
      updatedAtTs := some call.now }
    if newcomer ∧ passes < settings.stage7UniverseGovernanceProbationCycles then
      (symbols.insert symbol seen, filtered)
    else
      let added := if newcomer then some call.now else state.lastAddedTs
      (symbols.insert symbol { seen with lastAddedTs := added }, filtered ++ [symbol])

def governed : Governed :=
  (desired settings call).foldl (govern settings world call) (world.symbols, [])

def filtered : List String := (governed settings world call).2

/-- The symbols of the second list that the first does not have. -/
def newIn (before after : List String) : List String := after.filter (· ∉ before)

/-- The change desired is more than the stored churn leaves. -/
def guarded : Bool :=
  let previous := prevSymbols world
  let after := filtered settings world call
  let churnTotal := (newIn previous after).length + (newIn after previous).length
  let churn24h := getStage7UniverseChurnCountSince world (call.now - hours 24)
  settings.stage7UniverseGovernanceMaxChurnPerDay < ((churn24h + churnTotal : ℕ) : ℤ) &&
    previous ≠ []

def markRemoved (symbols : Dict SymbolState) (symbol : String) : Dict SymbolState :=
  symbols.insert symbol
    { symbolState symbols symbol with
      probationPasses := 0
      lastRemovedTs := some call.now
      cooldownUntilTs :=
        some (call.now + seconds settings.stage7UniverseGovernanceCooldownSec)
      updatedAtTs := some call.now }

def applyGovernance : Governed :=
  let (symbols, filtered) := governed settings world call
  let previous := prevSymbols world
  if guarded settings world call then (symbols, previous.take (maxSize settings))
  else ((newIn filtered previous).foldl (markRemoved settings call) symbols, filtered)

end Governance

section Select

variable (settings : Settings) (world : World) (call : Call)

def additions (before after : List String) : List String :=
  (newIn before after).dedup.insertionSort (· ≤ ·)

def removals (before after : List String) : List String := additions after before

def churnTotal (before after : List String) : ℕ :=
  (additions before after).length + (removals before after).length

def frozen : Bool := call.freezeReasons ≠ [] && prevSymbols world ≠ []

def selected : List String :=
  if frozen world call then (prevSymbols world).take (maxSize settings)
  else (applyGovernance settings world call).2

def countExclusions : Dict ℕ :=
  (call.scored.flatMap (candidateExclusions settings)).foldl
    (fun counts reason => counts.insert reason (counts[reason]?.getD 0 + 1))
    call.discoveryExclusions

def excludedCounts : Dict ℕ :=
  let previous := prevSymbols world
  let symbols := selected settings world call
  (((countExclusions settings call).insert
    "churn_additions" (additions previous symbols).length).insert
    "churn_removals" (removals previous symbols).length).insert
    "churn_total" (churnTotal previous symbols)

def humanizeFreezeReasons (reasons : List FreezeReason) : List String :=
  ([.exchangeDegraded, .observeOnly, .staleData].filter (· ∈ reasons)).map FreezeReason.human

def reasons : List String :=
  ["deterministic_ranking: total desc -> liquidity desc -> symbol asc",
    "missing_metrics_penalty: -1 applied per missing score component",
    "dry_run_read_only: universe selection never places orders"] ++
  (if frozen world call then ["freeze_previous_universe"] else []) ++
  humanizeFreezeReasons call.freezeReasons

def snapshotOf : Snapshot where
  ts := call.now
  selectedSymbols := selected settings world call
  scored := call.scored.filter fun candidate => candidate.symbol ∈ selected settings world call
  reasons := reasons world call
  freezeReason := call.freezeReasons.head?
  freezeReasons := call.freezeReasons
  excludedCounts := excludedCounts settings world call
  churnCount := churnTotal (prevSymbols world) (selected settings world call)

def resultOf (snapshot : Snapshot) : UniverseSelectionResult :=
  ⟨snapshot.selectedSymbols, snapshot.scored, snapshot.reasons, snapshot.ts,
    snapshot.freezeReason, snapshot.freezeReasons, snapshot.excludedCounts, snapshot.churnCount⟩

def selectUniverse : World × UniverseSelectionResult :=
  let snapshot := snapshotOf settings world call
  ({ snapshots := world.snapshots.insert role snapshot
     symbols := (applyGovernance settings world call).1 }, resultOf snapshot)

end Select

end UniverseSelection
