import Btcbot.Money
import Btcbot.Runs
import Mathlib.Tactic.NormNum

/-!
# Self financing checkpoints

Realized profit is split between trading capital and treasury, each part rounded
down to the quote precision. A checkpoint is guarded by two counters, the number
of ledger events and the realized total, and neither may go back.
-/
namespace Capital

open Money Grid

def quantizeMoney (value : ℚ) : ℚ := roundQuote value defaultMoneyPolicy

structure SelfFinancingPolicy where
  profitCompoundRatio : ℚ := 3 / 5
  profitTreasuryRatio : ℚ := 2 / 5

/-- Trading capital and treasury after a realized delta. -/
def applySelfFinancing (policy : SelfFinancingPolicy) (tradingCapital treasury delta : ℚ) :
    ℚ × ℚ :=
  if 0 < quantizeMoney delta then
    (quantizeMoney (quantizeMoney tradingCapital +
        quantizeMoney (quantizeMoney delta * policy.profitCompoundRatio)),
      quantizeMoney (quantizeMoney treasury +
        quantizeMoney (quantizeMoney delta * policy.profitTreasuryRatio)))
  else
    (quantizeMoney (quantizeMoney tradingCapital + quantizeMoney delta), quantizeMoney treasury)

structure CheckpointCall where
  cycleId : String
  realizedPnlTotal : ℚ
  ledgerEventCount : ℤ
  ledgerCheckpointId : String
  seedTradingCapital : ℚ

/-- The row of the store. -/
structure CapitalState where
  tradingCapital : ℚ
  treasury : ℚ
  lastRealizedPnlTotal : ℚ
  lastEventCount : ℤ
  lastCheckpointId : Option String
  lastCycleId : String
  deriving DecidableEq, Repr

structure CapitalPolicyResult where
  tradingCapital : ℚ
  treasury : ℚ
  realizedPnlDelta : ℚ
  checkpointId : String
  applied : Bool
  deriving DecidableEq, Repr

/-- Each error carries the numbers of its text. -/
inductive CapitalPolicyError where
  | nonMonotonicLedgerCheckpoint (lastEventCount ledgerEventCount : ℤ)
  | sameEventCountRealizedMismatch (lastRealizedPnlTotal realizedPnlTotal : ℚ)
  | realizedTotalRegressed (lastRealizedPnlTotal realizedPnlTotal : ℚ)
  | negativeCapitalState (tradingCapitalNext treasuryNext : ℚ)
  deriving DecidableEq, Repr

def seedState (call : CheckpointCall) : CapitalState where
  tradingCapital := call.seedTradingCapital
  treasury := 0
  lastRealizedPnlTotal := 0
  lastEventCount := 0
  lastCheckpointId := none
  lastCycleId := call.cycleId

def loadOrInitCapitalState (call : CheckpointCall) (store : Option CapitalState) : CapitalState :=
  store.getD (seedState call)

def nextCapital (policy : SelfFinancingPolicy) (call : CheckpointCall) (state : CapitalState) :
    ℚ × ℚ :=
  let delta := call.realizedPnlTotal - state.lastRealizedPnlTotal
  if 0 < delta then applySelfFinancing policy state.tradingCapital state.treasury delta
  else if delta < 0 then (quantizeMoney (state.tradingCapital + delta), state.treasury)
  else (state.tradingCapital, state.treasury)

/-- The guards in their order, then the row to write. -/
def checkpoint (policy : SelfFinancingPolicy) (call : CheckpointCall) (state : CapitalState) :
    Except CapitalPolicyError (CapitalPolicyResult × CapitalState) :=
  if call.ledgerEventCount < state.lastEventCount then
    .error (.nonMonotonicLedgerCheckpoint state.lastEventCount call.ledgerEventCount)
  else if call.ledgerEventCount = state.lastEventCount then
    if call.realizedPnlTotal = state.lastRealizedPnlTotal then
      .ok (⟨state.tradingCapital, state.treasury, 0, call.ledgerCheckpointId, false⟩, state)
    else
      .error (.sameEventCountRealizedMismatch state.lastRealizedPnlTotal call.realizedPnlTotal)
  else if call.realizedPnlTotal < state.lastRealizedPnlTotal then
    .error (.realizedTotalRegressed state.lastRealizedPnlTotal call.realizedPnlTotal)
  else
    let next := nextCapital policy call state
    if next.1 < 0 ∨ next.2 < 0 then .error (.negativeCapitalState next.1 next.2)
    else
      .ok (⟨next.1, next.2, call.realizedPnlTotal - state.lastRealizedPnlTotal,
          call.ledgerCheckpointId, true⟩,
        ⟨next.1, next.2, call.realizedPnlTotal, call.ledgerEventCount,
          some call.ledgerCheckpointId, call.cycleId⟩)

abbrev Outcome := Except CapitalPolicyError CapitalPolicyResult

/-- The fresh row is written before any guard. -/
def applySelfFinancingCheckpoint (policy : SelfFinancingPolicy) (store : Option CapitalState)
    (call : CheckpointCall) : Outcome × Option CapitalState :=
  let state := loadOrInitCapitalState call store
  match checkpoint policy call state with
  | .error error => (.error error, some state)
  | .ok (result, next) => (.ok result, some next)

def storeAfter (policy : SelfFinancingPolicy) (store : Option CapitalState)
    (call : CheckpointCall) : Option CapitalState :=
  (applySelfFinancingCheckpoint policy store call).2

def capitalRun (policy : SelfFinancingPolicy) (store : Option CapitalState)
    (calls : List CheckpointCall) : Option CapitalState :=
  Runs.run (storeAfter policy) store calls

def Applied (outcome : Outcome) : Prop := ∃ result, outcome = .ok result ∧ result.applied = true

/-- The event count of the store, that of the row still to be seeded before the first call. -/
def eventCount (store : Option CapitalState) : ℤ := (store.map CapitalState.lastEventCount).getD 0

section Rounding

/-- The amounts money is kept in. -/
def MoneyGrid (value : ℚ) : Prop := OnGrid (quantum 8) value

theorem quantizeMoney_grid (value : ℚ) : MoneyGrid (quantizeMoney value) := snap_onGrid _ _ _

theorem quantizeMoney_of_grid {value : ℚ} (h : MoneyGrid value) : quantizeMoney value = value :=
  roundDown.2.snap_of_onGrid (quantum_pos 8).ne' h

theorem quantizeMoney_nonneg {value : ℚ} (h : 0 ≤ value) : 0 ≤ quantizeMoney value :=
  roundDown.2.snap_nonneg (quantum_pos 8) h

theorem abs_quantizeMoney_sub_lt (value : ℚ) : |quantizeMoney value - value| < 1 / 10 ^ 8 :=
  abs_roundQuote_sub_lt value defaultMoneyPolicy

/-- Sums of rounded parts are not rounded again. -/
theorem quantizeMoney_add (a b : ℚ) :
    quantizeMoney (quantizeMoney a + quantizeMoney b) = quantizeMoney a + quantizeMoney b :=
  quantizeMoney_of_grid ((quantizeMoney_grid a).add (quantizeMoney_grid b))

variable (policy : SelfFinancingPolicy) (tradingCapital treasury delta : ℚ)

theorem applySelfFinancing_grid :
    MoneyGrid (applySelfFinancing policy tradingCapital treasury delta).2 := by
  unfold applySelfFinancing
  split <;> exact quantizeMoney_grid _

/-- Four roundings at most: trading capital, delta and the two parts of a profit. -/
theorem applySelfFinancing_close {treasury : ℚ}
    (hsum : policy.profitCompoundRatio + policy.profitTreasuryRatio = 1)
    (htreasury : MoneyGrid treasury) :
    |(applySelfFinancing policy tradingCapital treasury delta).1 +
        (applySelfFinancing policy tradingCapital treasury delta).2 -
      (tradingCapital + treasury + delta)| ≤ 4 / 10 ^ 8 := by
  have hcapital := abs_lt.mp (abs_quantizeMoney_sub_lt tradingCapital)
  have hdelta := abs_lt.mp (abs_quantizeMoney_sub_lt delta)
  have hkept := quantizeMoney_of_grid htreasury
  unfold applySelfFinancing
  split
  · have hcompound := abs_lt.mp
      (abs_quantizeMoney_sub_lt (quantizeMoney delta * policy.profitCompoundRatio))
    have hreserve := abs_lt.mp
      (abs_quantizeMoney_sub_lt (quantizeMoney delta * policy.profitTreasuryRatio))
    have hparts : quantizeMoney delta * policy.profitCompoundRatio +
        quantizeMoney delta * policy.profitTreasuryRatio = quantizeMoney delta := by
      rw [← mul_add, hsum, mul_one]
    simp only [quantizeMoney_add]
    rw [abs_le]
    constructor <;> linarith
  · simp only [quantizeMoney_add]
    rw [abs_le]
    constructor <;> linarith

theorem applySelfFinancing_nonneg {delta : ℚ} (hcompound : 0 ≤ policy.profitCompoundRatio)
    (hreserve : 0 ≤ policy.profitTreasuryRatio) (htrading : 0 ≤ tradingCapital)
    (htreasury : 0 ≤ treasury) (hdelta : 0 ≤ delta) :
    0 ≤ (applySelfFinancing policy tradingCapital treasury delta).1 ∧
      0 ≤ (applySelfFinancing policy tradingCapital treasury delta).2 := by
  have hcapital := quantizeMoney_nonneg htrading
  have hkept := quantizeMoney_nonneg htreasury
  have hprofit := quantizeMoney_nonneg hdelta
  unfold applySelfFinancing
  split
  · exact ⟨quantizeMoney_nonneg
        (add_nonneg hcapital (quantizeMoney_nonneg (mul_nonneg hprofit hcompound))),
      quantizeMoney_nonneg (add_nonneg hkept (quantizeMoney_nonneg (mul_nonneg hprofit hreserve)))⟩
  · exact ⟨quantizeMoney_nonneg (add_nonneg hcapital hprofit), hkept⟩

end Rounding

section Checkpoint

variable {policy : SelfFinancingPolicy} {call : CheckpointCall} {state : CapitalState}

/-- What a checkpoint does. -/
inductive CheckpointStep (policy : SelfFinancingPolicy) (call : CheckpointCall)
    (state : CapitalState) : Except CapitalPolicyError (CapitalPolicyResult × CapitalState) → Prop
  | refused {error : CapitalPolicyError}
      (cause : call.ledgerEventCount ≤ state.lastEventCount ∨
        (error = .realizedTotalRegressed state.lastRealizedPnlTotal call.realizedPnlTotal ∧
          call.realizedPnlTotal < state.lastRealizedPnlTotal) ∨
        (state.lastRealizedPnlTotal ≤ call.realizedPnlTotal ∧
          ((nextCapital policy call state).1 < 0 ∨ (nextCapital policy call state).2 < 0))) :
      CheckpointStep policy call state (.error error)
  | repeated (count : call.ledgerEventCount = state.lastEventCount) {result : CapitalPolicyResult}
      (result_applied : result.applied = false) :
      CheckpointStep policy call state (.ok (result, state))
  | taken (count : state.lastEventCount < call.ledgerEventCount)
      (total : state.lastRealizedPnlTotal ≤ call.realizedPnlTotal)
      (trading : 0 ≤ (nextCapital policy call state).1)
      (treasury : 0 ≤ (nextCapital policy call state).2) {result : CapitalPolicyResult}
      (result_applied : result.applied = true) :
      CheckpointStep policy call state (.ok (result,
        ⟨(nextCapital policy call state).1, (nextCapital policy call state).2,
          call.realizedPnlTotal, call.ledgerEventCount, some call.ledgerCheckpointId,
          call.cycleId⟩))

theorem checkpoint_step (policy : SelfFinancingPolicy) (call : CheckpointCall)
    (state : CapitalState) : CheckpointStep policy call state (checkpoint policy call state) := by
  unfold checkpoint
  split
  · next h => exact .refused (.inl h.le)
  · next hcount =>
    split
    · next hsame =>
      split
      · exact .repeated hsame rfl
      · exact .refused (.inl hsame.le)
    · next hne =>
      split
      · next h => exact .refused (.inr (.inl ⟨rfl, h⟩))
      · next htotal =>
        dsimp only
        split
        · next h => exact .refused (.inr (.inr ⟨not_lt.mp htotal, h⟩))
        · next h =>
          obtain ⟨htrading, htreasury⟩ := not_or.mp h
          exact .taken (by omega) (not_lt.mp htotal) (not_lt.mp htrading) (not_lt.mp htreasury) rfl

/-- What a call does to an initialised store, in three cases. -/
theorem call_cases (policy : SelfFinancingPolicy) (call : CheckpointCall) (state : CapitalState) :
    let outcome := applySelfFinancingCheckpoint policy (some state) call
    (¬ Applied outcome.1 ∧ outcome.2 = some state ∧
      (call.ledgerEventCount ≤ state.lastEventCount ∨
        (outcome.1 = .error
            (.realizedTotalRegressed state.lastRealizedPnlTotal call.realizedPnlTotal) ∧
          call.realizedPnlTotal < state.lastRealizedPnlTotal) ∨
        (state.lastRealizedPnlTotal ≤ call.realizedPnlTotal ∧
          ((nextCapital policy call state).1 < 0 ∨ (nextCapital policy call state).2 < 0)))) ∨
    (Applied outcome.1 ∧ state.lastEventCount < call.ledgerEventCount ∧
      state.lastRealizedPnlTotal ≤ call.realizedPnlTotal ∧
      0 ≤ (nextCapital policy call state).1 ∧ 0 ≤ (nextCapital policy call state).2 ∧
      outcome.2 = some ⟨(nextCapital policy call state).1, (nextCapital policy call state).2,
        call.realizedPnlTotal, call.ledgerEventCount, some call.ledgerCheckpointId,
        call.cycleId⟩) := by
  have hstep := checkpoint_step policy call state
  simp only [applySelfFinancingCheckpoint, loadOrInitCapitalState, Option.getD_some]
  cases hcheck : checkpoint policy call state with
  | error error =>
    rw [hcheck] at hstep
    cases hstep with
    | refused cause =>
      refine .inl ⟨?_, rfl, ?_⟩
      · rintro ⟨result, hresult, -⟩
        cases hresult
      · exact cause.imp_right (.imp_left fun ⟨herror, hlow⟩ => ⟨congrArg _ herror, hlow⟩)
  | ok pair =>
    rw [hcheck] at hstep
    cases hstep with
    | repeated count happlied =>
      refine .inl ⟨?_, rfl, .inl count.le⟩
      rintro ⟨result, hresult, hyes⟩
      cases hresult
      rw [happlied] at hyes
      cases hyes
    | taken count total trading treasury happlied =>
      exact .inr ⟨⟨_, rfl, happlied⟩, count, total, trading, treasury, rfl⟩

/-- The same counters again change nothing. -/
theorem call_repeated (hcount : call.ledgerEventCount = state.lastEventCount)
    (htotal : call.realizedPnlTotal = state.lastRealizedPnlTotal) :
    ∃ result, applySelfFinancingCheckpoint policy (some state) call = (.ok result, some state) ∧
      result.applied = false := by
  refine ⟨⟨state.tradingCapital, state.treasury, 0, call.ledgerCheckpointId, false⟩, ?_, rfl⟩
  simp [applySelfFinancingCheckpoint, loadOrInitCapitalState, checkpoint, hcount, htotal]

theorem storeAfter_not_applied
    (h : ¬ Applied (applySelfFinancingCheckpoint policy (some state) call).1) :
    storeAfter policy (some state) call = some state := by
  rcases call_cases policy call state with ⟨-, hsame, -⟩ | ⟨happlied, -⟩
  · exact hsame
  · exact absurd happlied h

end Checkpoint

section Found

variable {policy : SelfFinancingPolicy}

/-- A call sees the row it finds, the seeded one on a fresh store. -/
theorem call_found (policy : SelfFinancingPolicy) (store : Option CapitalState)
    (call : CheckpointCall) : applySelfFinancingCheckpoint policy store call =
      applySelfFinancingCheckpoint policy (some (loadOrInitCapitalState call store)) call := by
  cases store <;> rfl

theorem eventCount_found (store : Option CapitalState) (call : CheckpointCall) :
    eventCount store = (loadOrInitCapitalState call store).lastEventCount := by
  cases store <;> rfl

theorem found_some {store : Option CapitalState} (call : CheckpointCall) (h : store ≠ none) :
    some (loadOrInitCapitalState call store) = store := by
  cases store with
  | none => exact absurd rfl h
  | some state => rfl

/-- Once a call was made the store has its row. -/
theorem storeAfter_some (policy : SelfFinancingPolicy) (store : Option CapitalState)
    (call : CheckpointCall) : ∃ state, storeAfter policy store call = some state := by
  unfold storeAfter applySelfFinancingCheckpoint
  dsimp only
  split
  · exact ⟨_, rfl⟩
  · exact ⟨_, rfl⟩

/-- What the first row found has, and the calls keep, each row found later has: only
the seed of the first call counts. -/
theorem run_found {H : CapitalState → Prop} (calls : List CheckpointCall)
    (call : CheckpointCall)
    (hstep : ∀ c ∈ calls, ∀ state, H state →
      ∀ next ∈ storeAfter policy (some state) c, H next) :
    ∀ store, (∀ first ∈ (calls ++ [call]).head?, H (loadOrInitCapitalState first store)) →
      H (loadOrInitCapitalState call (capitalRun policy store calls)) := by
  induction calls with
  | nil => exact fun store hfirst => hfirst call rfl
  | cons c calls ih =>
    intro store hfirst
    obtain ⟨state, hstate⟩ := storeAfter_some policy store c
    have hholds : H state := by
      have hfound : storeAfter policy (some (loadOrInitCapitalState c store)) c = some state := by
        rw [← hstate]
        exact congrArg Prod.snd (call_found policy store c).symm
      exact hstep c List.mem_cons_self _ (hfirst c rfl) state hfound
    apply ih (fun c' hc' => hstep c' (List.mem_cons_of_mem c hc')) (storeAfter policy store c)
    intro first _
    rw [hstate]
    exact hholds

end Found

section Safety

variable {policy : SelfFinancingPolicy}

/-- Nothing in the row is negative. -/
def NonNegative (state : CapitalState) : Prop := 0 ≤ state.tradingCapital ∧ 0 ≤ state.treasury

theorem storeAfter_nonNegative {state : CapitalState} (call : CheckpointCall)
    (h : NonNegative state) :
    ∀ next ∈ storeAfter policy (some state) call, NonNegative next := by
  intro next hnext
  rcases call_cases policy call state with ⟨-, hsame, -⟩ | ⟨-, -, -, htrading, htreasury, htaken⟩
  · rw [storeAfter, hsame] at hnext
    cases hnext
    exact h
  · rw [storeAfter, htaken] at hnext
    cases hnext
    exact ⟨htrading, htreasury⟩

theorem run_nonNegative (policy : SelfFinancingPolicy) (calls : List CheckpointCall)
    (call : CheckpointCall)
    (hseed : ∀ first ∈ (calls ++ [call]).head?, 0 ≤ first.seedTradingCapital) :
    NonNegative (loadOrInitCapitalState call (capitalRun policy none calls)) :=
  run_found calls call (fun c _ _ h => storeAfter_nonNegative c h) none
    fun first hfirst => ⟨hseed first hfirst, le_rfl⟩

/-- Calls that are not applied leave an initialised store. -/
theorem run_not_applied (state : CapitalState) (calls : List CheckpointCall)
    (h : Runs.Meets (storeAfter policy)
      (fun store call => ¬ Applied (applySelfFinancingCheckpoint policy store call).1)
      (some state) calls) :
    capitalRun policy (some state) calls = some state := by
  induction calls with
  | nil => rfl
  | cons call calls ih =>
    obtain ⟨hfirst, hrest⟩ := h
    have hsame := storeAfter_not_applied hfirst
    rw [hsame] at hrest
    show capitalRun policy (storeAfter policy (some state) call) calls = _
    rw [hsame]
    exact ih hrest

/-- Checkpoints over any history from a fresh store. -/
theorem checkpoint_safe (policy : SelfFinancingPolicy) (calls : List CheckpointCall)
    (call : CheckpointCall)
    (hseed : ∀ first ∈ (calls ++ [call]).head?, 0 ≤ first.seedTradingCapital) :
    let store := capitalRun policy none calls
    let outcome := applySelfFinancingCheckpoint policy store call
    (∀ state ∈ outcome.2, 0 ≤ state.tradingCapital ∧ 0 ≤ state.treasury) ∧
      (Applied outcome.1 → eventCount store < eventCount outcome.2) ∧
      (¬ Applied outcome.1 → eventCount outcome.2 = eventCount store) ∧
      (∀ error, outcome.1 = .error error → store ≠ none → outcome.2 = store) ∧
      (Applied outcome.1 → ∀ between again,
        Runs.Meets (storeAfter policy)
          (fun store call => ¬ Applied (applySelfFinancingCheckpoint policy store call).1)
          outcome.2 between →
        again.ledgerEventCount = call.ledgerEventCount →
        again.realizedPnlTotal = call.realizedPnlTotal →
        ∃ result, applySelfFinancingCheckpoint policy
            (capitalRun policy outcome.2 between) again = (.ok result, outcome.2) ∧
          result.applied = false) := by
  intro store outcome
  have houtcome : outcome = applySelfFinancingCheckpoint policy
      (some (loadOrInitCapitalState call store)) call := call_found policy store call
  have hfound := run_nonNegative policy calls call hseed
  rw [houtcome, eventCount_found store call]
  refine ⟨storeAfter_nonNegative call hfound, ?_⟩
  rcases call_cases policy call (loadOrInitCapitalState call store) with
    ⟨hnot, hsame, -⟩ | ⟨happlied, hlater, -, -, -, hnext⟩
  · refine ⟨fun h => absurd h hnot, fun _ => by rw [hsame]; rfl, ?_, fun h => absurd h hnot⟩
    intro _ _ hinit
    rw [hsame]
    exact found_some call hinit
  · refine ⟨fun _ => by rw [hnext]; exact hlater, fun h => absurd happlied h, ?_, ?_⟩
    · intro error herror
      obtain ⟨result, hresult, -⟩ := happlied
      rw [hresult] at herror
      cases herror
    · intro _ between again hbetween hsameCount hsameTotal
      rw [hnext] at hbetween ⊢
      rw [run_not_applied _ _ hbetween]
      exact call_repeated hsameCount hsameTotal

/-- A hundred of profit on a seed of a thousand. -/
def profitCall : CheckpointCall where
  cycleId := "c1"
  realizedPnlTotal := 100
  ledgerEventCount := 10
  ledgerCheckpointId := "cp-10"
  seedTradingCapital := 1000

/-- Then twenty of it lost. -/
def lossCall : CheckpointCall :=
  { profitCall with
    cycleId := "c2"
    realizedPnlTotal := 80
    ledgerEventCount := 11
    ledgerCheckpointId := "cp-11" }

theorem checkpoint_safe_profit :
    let store := capitalRun {} none []
    let outcome := applySelfFinancingCheckpoint {} store profitCall
    (∀ state ∈ outcome.2, 0 ≤ state.tradingCapital ∧ 0 ≤ state.treasury) ∧
      (Applied outcome.1 → eventCount store < eventCount outcome.2) ∧
      (¬ Applied outcome.1 → eventCount outcome.2 = eventCount store) ∧
      (∀ error, outcome.1 = .error error → store ≠ none → outcome.2 = store) ∧
      (Applied outcome.1 → ∀ between again,
        Runs.Meets (storeAfter {})
          (fun store call => ¬ Applied (applySelfFinancingCheckpoint {} store call).1)
          outcome.2 between →
        again.ledgerEventCount = profitCall.ledgerEventCount →
        again.realizedPnlTotal = profitCall.realizedPnlTotal →
        ∃ result, applySelfFinancingCheckpoint {}
            (capitalRun {} outcome.2 between) again = (.ok result, outcome.2) ∧
          result.applied = false) :=
  checkpoint_safe {} [] profitCall (by simp [profitCall])

end Safety

section Conservation

variable {policy : SelfFinancingPolicy}

instance (outcome : Outcome) : Decidable (Applied outcome) := by
  unfold Applied
  cases outcome with
  | error error => exact .isFalse (by simp)
  | ok result => exact decidable_of_iff (result.applied = true) (by simp)

/-- The calls of a run that are applied. -/
def appliedCalls (policy : SelfFinancingPolicy) :
    Option CapitalState → List CheckpointCall → List CheckpointCall
  | _, [] => []
  | store, call :: calls =>
    (if Applied (applySelfFinancingCheckpoint policy store call).1 then [call] else []) ++
      appliedCalls policy (storeAfter policy store call) calls

/-- The realized total of the last of them. -/
def realizedTotal (applied : List CheckpointCall) : ℚ :=
  (applied.getLast?.map CheckpointCall.realizedPnlTotal).getD 0

/-- The row after some applied calls: what is kept is the seed and what was realized, up
to the roundings of each call. -/
structure Balanced (seed : ℚ) (applied : List CheckpointCall) (state : CapitalState) : Prop where
  grid : MoneyGrid state.treasury
  total : state.lastRealizedPnlTotal = realizedTotal applied
  close : |state.tradingCapital + state.treasury - (seed + state.lastRealizedPnlTotal)| ≤
    4 / 10 ^ 8 * applied.length

theorem Balanced.seed (call : CheckpointCall) :
    Balanced call.seedTradingCapital [] (seedState call) where
  grid := OnGrid.zero _
  total := rfl
  close := by simp [seedState]

/-- The part of the row a taken call replaces. -/
theorem nextCapital_close (hsum : policy.profitCompoundRatio + policy.profitTreasuryRatio = 1)
    (call : CheckpointCall) {state : CapitalState} (hgrid : MoneyGrid state.treasury)
    (htotal : state.lastRealizedPnlTotal ≤ call.realizedPnlTotal) :
    MoneyGrid (nextCapital policy call state).2 ∧
      |(nextCapital policy call state).1 + (nextCapital policy call state).2 -
        (state.tradingCapital + state.treasury +
          (call.realizedPnlTotal - state.lastRealizedPnlTotal))| ≤ 4 / 10 ^ 8 := by
  unfold nextCapital
  dsimp only
  split
  · exact ⟨applySelfFinancing_grid _ _ _ _, applySelfFinancing_close _ _ _ hsum hgrid⟩
  · next hgain =>
    have hzero : call.realizedPnlTotal - state.lastRealizedPnlTotal = 0 := by linarith
    rw [if_neg (by rw [hzero]; exact lt_irrefl 0), hzero]
    refine ⟨hgrid, ?_⟩
    rw [add_zero, sub_self, abs_zero]
    norm_num

theorem Balanced.call (hsum : policy.profitCompoundRatio + policy.profitTreasuryRatio = 1)
    {seed : ℚ} {applied : List CheckpointCall} {state : CapitalState}
    (h : Balanced seed applied state) (call : CheckpointCall) :
    ∃ next, storeAfter policy (some state) call = some next ∧
      Balanced seed (applied ++
        if Applied (applySelfFinancingCheckpoint policy (some state) call).1 then [call] else [])
        next := by
  rcases call_cases policy call state with
    ⟨hnot, hsame, -⟩ | ⟨happlied, -, htotal, -, -, hnext⟩
  · refine ⟨state, hsame, ?_⟩
    rw [if_neg hnot, List.append_nil]
    exact h
  · refine ⟨_, hnext, ?_⟩
    obtain ⟨hgrid, hclose⟩ := nextCapital_close hsum call h.grid htotal
    rw [if_pos happlied]
    refine ⟨hgrid, by simp [realizedTotal], ?_⟩
    have hbefore := abs_le.mp h.close
    have hcall := abs_le.mp hclose
    rw [List.length_append, List.length_singleton, abs_le]
    push_cast
    constructor <;> linarith

/-- By induction on the calls, those applied earlier kept apart. -/
theorem Balanced.run (hsum : policy.profitCompoundRatio + policy.profitTreasuryRatio = 1)
    {seed : ℚ} (calls : List CheckpointCall) :
    ∀ {earlier : List CheckpointCall} {state : CapitalState}, Balanced seed earlier state →
      ∃ next, capitalRun policy (some state) calls = some next ∧
        Balanced seed (earlier ++ appliedCalls policy (some state) calls) next := by
  induction calls with
  | nil =>
    intro earlier state h
    refine ⟨state, rfl, ?_⟩
    rw [appliedCalls, List.append_nil]
    exact h
  | cons call calls ih =>
    intro earlier state h
    obtain ⟨middle, hmiddle, hbalanced⟩ := h.call hsum call
    obtain ⟨next, hnext, hend⟩ := ih hbalanced
    refine ⟨next, ?_, ?_⟩
    · show capitalRun policy (storeAfter policy (some state) call) calls = _
      rw [hmiddle]
      exact hnext
    · rw [appliedCalls, hmiddle, ← List.append_assoc]
      exact hend

/-- A run from the fresh store is the run from the row its first call seeds. -/
theorem run_seeded (policy : SelfFinancingPolicy) (first : CheckpointCall)
    (calls : List CheckpointCall) :
    capitalRun policy none (first :: calls) =
        capitalRun policy (some (seedState first)) (first :: calls) ∧
      appliedCalls policy none (first :: calls) =
        appliedCalls policy (some (seedState first)) (first :: calls) :=
  ⟨rfl, rfl⟩

theorem run_balanced (hsum : policy.profitCompoundRatio + policy.profitTreasuryRatio = 1)
    (first : CheckpointCall) (calls : List CheckpointCall) :
    ∃ state, capitalRun policy none (first :: calls) = some state ∧
      Balanced first.seedTradingCapital (appliedCalls policy none (first :: calls)) state := by
  obtain ⟨hrun, happlied⟩ := run_seeded policy first calls
  rw [hrun, happlied]
  exact Balanced.run hsum (first :: calls) (Balanced.seed first)

theorem found_balanced (hsum : policy.profitCompoundRatio + policy.profitTreasuryRatio = 1)
    (calls : List CheckpointCall) (call : CheckpointCall) {seed : ℚ}
    (hseed : ∀ first ∈ (calls ++ [call]).head?, first.seedTradingCapital = seed) :
    Balanced seed (appliedCalls policy none calls)
      (loadOrInitCapitalState call (capitalRun policy none calls)) := by
  cases calls with
  | nil =>
    have hcall := hseed call rfl
    rw [← hcall]
    exact Balanced.seed call
  | cons first calls =>
    obtain ⟨state, hrun, hbalanced⟩ := run_balanced hsum first calls
    rw [hrun, ← hseed first rfl]
    exact hbalanced

/-- Counts that only grow are past the stored one. -/
theorem found_count (policy : SelfFinancingPolicy) (calls : List CheckpointCall)
    (call : CheckpointCall)
    (hcounts : ((calls ++ [call]).map CheckpointCall.ledgerEventCount).Pairwise (· < ·))
    (hpositive : 0 < call.ledgerEventCount) :
    (loadOrInitCapitalState call (capitalRun policy none calls)).lastEventCount <
      call.ledgerEventCount := by
  rw [List.map_append, List.pairwise_append] at hcounts
  have hearlier : ∀ c ∈ calls, c.ledgerEventCount < call.ledgerEventCount := fun c hc =>
    hcounts.2.2 _ (List.mem_map_of_mem hc) _ (List.mem_singleton.mpr rfl)
  apply run_found (H := fun state => state.lastEventCount < call.ledgerEventCount) calls call
  · intro c hc state hstate next hnext
    rcases call_cases policy c state with ⟨-, hsame, -⟩ | ⟨-, -, -, -, -, htaken⟩
    · rw [storeAfter, hsame] at hnext
      cases hnext
      exact hstate
    · rw [storeAfter, htaken] at hnext
      cases hnext
      exact hearlier c hc
  · exact fun first _ => hpositive

theorem appliedCalls_append (policy : SelfFinancingPolicy) (calls : List CheckpointCall)
    (call : CheckpointCall) : ∀ store, appliedCalls policy store (calls ++ [call]) =
      appliedCalls policy store calls ++
        if Applied (applySelfFinancingCheckpoint policy (capitalRun policy store calls) call).1
        then [call] else [] := by
  induction calls with
  | nil =>
    intro store
    rw [List.nil_append, appliedCalls, appliedCalls, appliedCalls, List.append_nil]
    rfl
  | cons c calls ih =>
    intro store
    rw [List.cons_append, appliedCalls, ih, appliedCalls, List.append_assoc]
    rfl

/-- Without a loss nothing gets negative. -/
theorem nextCapital_nonneg {call : CheckpointCall} {state : CapitalState}
    (hcompound : 0 ≤ policy.profitCompoundRatio) (hreserve : 0 ≤ policy.profitTreasuryRatio)
    (hstate : NonNegative state) (htotal : state.lastRealizedPnlTotal ≤ call.realizedPnlTotal) :
    0 ≤ (nextCapital policy call state).1 ∧ 0 ≤ (nextCapital policy call state).2 := by
  unfold nextCapital
  dsimp only
  split
  · next hgain =>
    exact applySelfFinancing_nonneg policy _ _ hcompound hreserve hstate.1 hstate.2 hgain.le
  · rw [if_neg (by linarith)]
    exact hstate

/-- With growing event counts every call that does not take the realized total back is
applied, one that does is refused, and the capital follows what was applied. -/
theorem capital_follows (policy : SelfFinancingPolicy) (calls : List CheckpointCall)
    (call : CheckpointCall) (seed : ℚ)
    (hsum : policy.profitCompoundRatio + policy.profitTreasuryRatio = 1)
    (hseed : ∀ first ∈ (calls ++ [call]).head?, first.seedTradingCapital = seed) (hnonneg : 0 ≤ seed)
    (hcounts : ((calls ++ [call]).map CheckpointCall.ledgerEventCount).Pairwise (· < ·))
    (hpositive : ∀ c ∈ calls ++ [call], 0 < c.ledgerEventCount) :
    let store := capitalRun policy none calls
    let outcome := applySelfFinancingCheckpoint policy store call
    let earlier := appliedCalls policy none calls
    let applied := appliedCalls policy none (calls ++ [call])
    (0 ≤ policy.profitCompoundRatio → 0 ≤ policy.profitTreasuryRatio →
        realizedTotal earlier ≤ call.realizedPnlTotal → Applied outcome.1) ∧
      (call.realizedPnlTotal < realizedTotal earlier →
        outcome.1 = .error
            (.realizedTotalRegressed (realizedTotal earlier) call.realizedPnlTotal) ∧
          (store ≠ none → outcome.2 = store)) ∧
      ∃ state, outcome.2 = some state ∧
        |state.tradingCapital + state.treasury - (seed + realizedTotal applied)| ≤
          4 / 10 ^ 8 * applied.length := by
  intro store outcome earlier applied
  have houtcome : outcome = applySelfFinancingCheckpoint policy
      (some (loadOrInitCapitalState call store)) call := call_found policy store call
  have hfound := found_balanced hsum calls call hseed
  have hsound := run_nonNegative policy calls call fun first hfirst => by
    rw [hseed first hfirst]
    exact hnonneg
  have hlater := found_count policy calls call hcounts
    (hpositive call (List.mem_append_right calls (List.mem_singleton.mpr rfl)))
  have happlied : applied = earlier ++
      if Applied (applySelfFinancingCheckpoint policy
        (some (loadOrInitCapitalState call store)) call).1 then [call] else [] := by
    rw [← call_found policy store call]
    exact appliedCalls_append policy calls call none
  obtain ⟨next, hnext, hbalanced⟩ := hfound.call hsum call
  have hcases := call_cases policy call (loadOrInitCapitalState call store)
  rw [houtcome, ← hfound.total]
  refine ⟨fun hcompound hreserve htotal => ?_, fun htotal => ?_, next, hnext, ?_⟩
  · rcases hcases with ⟨-, -, hcount | ⟨-, hloss⟩ | ⟨-, hnegative⟩⟩ | ⟨hyes, -⟩
    · exact absurd hcount (not_le.mpr hlater)
    · exact absurd htotal (not_le.mpr hloss)
    · obtain ⟨htrading, htreasury⟩ := nextCapital_nonneg hcompound hreserve hsound htotal
      rcases hnegative with h | h
      · exact absurd h (not_lt.mpr htrading)
      · exact absurd h (not_lt.mpr htreasury)
    · exact hyes
  · rcases hcases with ⟨-, hsame, hcount | ⟨herror, -⟩ | ⟨hgain, -⟩⟩ | ⟨-, -, hgain, -⟩
    · exact absurd hcount (not_le.mpr hlater)
    · exact ⟨herror, fun hinit => hsame.trans (found_some call hinit)⟩
    · exact absurd htotal (not_lt.mpr hgain)
    · exact absurd htotal (not_lt.mpr hgain)
  · rw [happlied, ← hbalanced.total]
    exact hbalanced.close

theorem capital_follows_loss :
    let store := capitalRun {} none [profitCall]
    let outcome := applySelfFinancingCheckpoint {} store lossCall
    let earlier := appliedCalls {} none [profitCall]
    let applied := appliedCalls {} none [profitCall, lossCall]
    ((0 : ℚ) ≤ 3 / 5 → (0 : ℚ) ≤ 2 / 5 → realizedTotal earlier ≤ 80 → Applied outcome.1) ∧
      (80 < realizedTotal earlier →
        outcome.1 = .error (.realizedTotalRegressed (realizedTotal earlier) 80) ∧
          (store ≠ none → outcome.2 = store)) ∧
      ∃ state, outcome.2 = some state ∧
        |state.tradingCapital + state.treasury - (1000 + realizedTotal applied)| ≤
          4 / 10 ^ 8 * applied.length :=
  capital_follows {} [profitCall] lossCall 1000 (by norm_num) (by simp [profitCall])
    (by norm_num) (by simp [profitCall, lossCall]) (by simp [profitCall, lossCall])

/-- A loss after a profit, on capital that could bear it. -/
theorem loss_refused :
    let store := capitalRun {} none [profitCall]
    profitCall.ledgerEventCount < lossCall.ledgerEventCount ∧
      (∃ state, store = some state ∧ state.tradingCapital = 1060 ∧ state.treasury = 40 ∧
        0 ≤ state.tradingCapital + (lossCall.realizedPnlTotal - profitCall.realizedPnlTotal)) ∧
      (applySelfFinancingCheckpoint {} store lossCall).1 =
        .error (.realizedTotalRegressed 100 80) ∧
      (applySelfFinancingCheckpoint {} store lossCall).2 = store ∧
      ¬ |(1060 : ℚ) + 40 - (1000 + lossCall.realizedPnlTotal)| ≤ 4 / 10 ^ 8 * 2 := by
  intro store
  have hstore : store = some ⟨1060, 40, 100, 10, some "cp-10", "c1"⟩ := by decide +kernel
  rw [hstore]
  refine ⟨by decide, ⟨_, rfl, rfl, rfl, by decide +kernel⟩, by decide +kernel, by decide +kernel, ?_⟩
  norm_num [lossCall]

end Conservation

end Capital
