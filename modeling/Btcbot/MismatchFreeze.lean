import Btcbot.RoleKeys
import Btcbot.Runs
import Btcbot.Stage4Reconcile

/-!
# The freeze on orders the exchange and the store disagree about

A cycle reads the freeze of its process role, and writes it when its reconcile
result triggers one or one is active. The record is a row of the operator state,
and the mismatches counted in a row are among the details of that record.
-/
namespace MismatchFreeze

open PyData RoleKeys Stage4Reconcile

section Store

inductive DetailValue where
  | count (value : ℤ)
  | texts (values : List (Option String))
  | instant (value : DateTime)
  deriving DecidableEq, Repr

abbrev Details := Dict DetailValue

/-- The fields of the stored text that a read takes. -/
structure FreezePayload where
  reason : Option String := none
  sinceTs : Option DateTime := none
  details : Details := ∅
  lastSeenTs : Option DateTime := none

structure OpStateRow where
  intValue : Option ℤ
  textValue : FreezePayload

abbrev OpState := Dict OpStateRow

structure Stage4FreezeState where
  active : Bool
  reason : Option String
  sinceTs : Option DateTime
  details : Details
  lastSeenTs : Option DateTime

def roleKey (role : String) : String := "stage4_freeze:" ++ role

def rowState (row : OpStateRow) : Stage4FreezeState :=
  ⟨row.intValue.getD 0 ≠ 0, row.textValue.reason, row.textValue.sinceTs, row.textValue.details,
    row.textValue.lastSeenTs⟩

/-- The state that a row stands for. -/
def freezeState : Option OpStateRow → Stage4FreezeState
  | none => ⟨false, none, none, ∅, none⟩
  | some row => rowState row

def stage4GetFreeze (store : OpState) (role : String) : OpState × Stage4FreezeState :=
  let (store, row) := readRow roleKey store role
  (store, freezeState row)

def stage4SetFreeze (store : OpState) (role : String) (now : DateTime) (reason : String)
    (details : Details) : OpState × Stage4FreezeState :=
  let canonicalRole := canonicalizeRole role
  let (store, existing) := stage4GetFreeze store canonicalRole
  let sinceTs := existing.sinceTs.getD now
  (store.insert (roleKey canonicalRole) ⟨some 1, ⟨some reason, some sinceTs, details, some now⟩⟩,
    ⟨true, some reason, some sinceTs, details, some now⟩)

def clearedRow (now : DateTime) : OpStateRow := ⟨some 0, ⟨none, none, ∅, some now⟩⟩

def stage4ClearFreeze (store : OpState) (role : String) (now : DateTime) : OpState :=
  let (store, _) := stage4GetFreeze store role
  (roleKeyCandidates roleKey role).tail.foldl
    (fun store key => if key ∈ store then store.insert key (clearedRow now) else store)
    (store.insert (roleKey (canonicalizeRole role)) (clearedRow now))

end Store

section Evaluate

structure UnknownFreezeSettings where
  stage4UnknownFreezeEnabled : Bool := true
  stage4UnknownFreezeThreshold : ℤ := 1
  stage4UnknownFreezePersistCycles : ℤ := 3
  stage4UnknownFreezePersistSeconds : ℤ := 30

structure CycleInput where
  cycleNow : DateTime
  /-- The clock when the row is written. -/
  now : DateTime
  exchangeOpenOrders : List Order
  reconcileResult : ReconcileResult
  dbOpenOrders : List Order

def orMissing (id : Option String) : String := if truthy id then id.getD "" else "missing"

def CycleInput.details (cycle : CycleInput) : Details :=
  let entries : List (String × DetailValue) :=
    [("exchange_open_orders", .count cycle.exchangeOpenOrders.length),
      ("db_open_orders", .count cycle.dbOpenOrders.length),
      ("missing_client_id_count", .count cycle.reconcileResult.externalMissingClientId.length),
      ("unknown_open_orders_count", .count cycle.reconcileResult.importExternal.length),
      ("db_exchange_mismatch_count", .count cycle.reconcileResult.markUnknownClosed.length),
      ("sample_missing_client_order_ids",
        .texts ((cycle.reconcileResult.externalMissingClientId.take 5).map fun order =>
          some (orMissing order.exchangeOrderId))),
      ("sample_external_client_order_ids",
        .texts ((cycle.reconcileResult.importExternal.take 5).map Order.clientOrderId)),
      ("sample_mismatch_client_order_ids",
        .texts ((cycle.reconcileResult.markUnknownClosed.take 5).map some)),
      ("persist_cycles", .count 1),
      ("last_cycle_ts", .instant cycle.cycleNow)]
  Std.ExtTreeMap.ofList entries

def persistCyclesOf (details : Details) : ℤ :=
  match details["persist_cycles"]? with
  | some (.count n) => n
  | _ => 0

/-- Whole seconds from the first time to the second. -/
def secondsBetween (since now : DateTime) : ℤ := (now.micros - since.micros).tdiv 1000000

/-- The reason of a trigger, and the details it is recorded with. -/
def freezeTrigger (settings : UnknownFreezeSettings) (existing : Stage4FreezeState)
    (cycle : CycleInput) : Option String × Details :=
  let prevCycles := if existing.active then persistCyclesOf existing.details else 0
  let mismatch := cycle.reconcileResult.markUnknownClosed ≠ []
  if cycle.reconcileResult.externalMissingClientId ≠ [] then
    (some "external_missing_client_id", cycle.details)
  else if max 1 settings.stage4UnknownFreezeThreshold ≤
      cycle.reconcileResult.importExternal.length then
    (some "unknown_open_orders", cycle.details)
  else
    let mismatchCycles := if mismatch then prevCycles + 1 else 0
    let details := cycle.details.insert "persist_cycles" (.count mismatchCycles)
    if mismatch ∧ max 1 settings.stage4UnknownFreezePersistCycles ≤ mismatchCycles then
      (some "db_exchange_mismatch", details)
    else
      match existing.sinceTs with
      | some since =>
        if mismatch ∧ existing.active = true ∧
            max 0 settings.stage4UnknownFreezePersistSeconds ≤
              secondsBetween since cycle.cycleNow then
          (some "db_exchange_mismatch", details)
        else (none, details)
      | none => (none, details)

def heartbeatDetails (existing : Stage4FreezeState) (cycle : CycleInput) : Details :=
  ((existing.details.insert "last_cycle_ts" (.instant cycle.cycleNow)).insert
    "exchange_open_orders" (.count cycle.exchangeOpenOrders.length)).insert
    "db_open_orders" (.count cycle.dbOpenOrders.length)

/-- The freeze after the cycle, and whether the cycle triggered it. -/
def evaluateUnknownOrderFreeze (settings : UnknownFreezeSettings) (role : String)
    (store : OpState) (cycle : CycleInput) : OpState × Stage4FreezeState × Bool :=
  let (store, existing) := stage4GetFreeze store role
  if settings.stage4UnknownFreezeEnabled then
    match freezeTrigger settings existing cycle with
    | (none, _) =>
      if existing.active then
        let refreshed := stage4SetFreeze store role cycle.now
          (existing.reason.getD "unknown_open_orders") (heartbeatDetails existing cycle)
        (refreshed.1, refreshed.2, false)
      else (store, existing, false)
    | (some reason, details) =>
      let frozen := stage4SetFreeze store role cycle.now reason details
      (frozen.1, frozen.2, true)
  else (store, existing, false)

inductive FreezeStep where
  | cycle (input : CycleInput)
  | clear (now : DateTime)

def freezeStep (settings : UnknownFreezeSettings) (role : String) (store : OpState) :
    FreezeStep → OpState
  | .cycle input => (evaluateUnknownOrderFreeze settings role store input).1
  | .clear now => stage4ClearFreeze store role now

def freezeRun (settings : UnknownFreezeSettings) (role : String) (store : OpState)
    (steps : List FreezeStep) : OpState :=
  Runs.run (freezeStep settings role) store steps

/-- What a read of the freeze returns. -/
def freezeOf (store : OpState) (role : String) : Stage4FreezeState :=
  (stage4GetFreeze store role).2

end Evaluate

section Reads

variable {store : OpState} {role : String}

/-- The canonical row is read where it stands. -/
theorem stage4GetFreeze_of_row {row : OpStateRow}
    (h : store[roleKey (canonicalizeRole role)]? = some row) :
    stage4GetFreeze store role = (store, rowState row) := by
  rw [stage4GetFreeze, readRow_canonical h]
  rfl

/-- A read finds no row, or leaves the one it found under the canonical key. -/
theorem stage4GetFreeze_cases (store : OpState) (role : String) :
    stage4GetFreeze store role = (store, ⟨false, none, none, ∅, none⟩) ∨
      ∃ row, (stage4GetFreeze store role).1[roleKey (canonicalizeRole role)]? = some row ∧
        (stage4GetFreeze store role).2 = rowState row := by
  rcases @readRow_cases _ roleKey store role with hnone | ⟨row, hrow, hread⟩
  · left
    rw [stage4GetFreeze, hnone]
    rfl
  · refine .inr ⟨row, hrow, ?_⟩
    exact congrArg freezeState hread

theorem freezeOf_get (store : OpState) (role : String) :
    freezeOf (stage4GetFreeze store role).1 role = freezeOf store role := by
  rcases stage4GetFreeze_cases store role with hnone | ⟨row, hrow, hstate⟩
  · rw [hnone]
  · rw [freezeOf, stage4GetFreeze_of_row hrow, freezeOf, hstate]

/-- A freeze set is active, since the time of the record it found if that had one. -/
theorem freezeOf_set (store : OpState) (role : String) (now : DateTime) (reason : String)
    (details : Details) :
    (freezeOf (stage4SetFreeze store role now reason details).1 role).active = true ∧
      (freezeOf (stage4SetFreeze store role now reason details).1 role).sinceTs =
        some ((freezeOf store (canonicalizeRole role)).sinceTs.getD now) := by
  have hrow : (stage4SetFreeze store role now reason details).1[roleKey (canonicalizeRole role)]? =
      some ⟨some 1, ⟨some reason,
        some ((freezeOf store (canonicalizeRole role)).sinceTs.getD now), details, some now⟩⟩ := by
    simp [stage4SetFreeze, freezeOf]
  rw [freezeOf, stage4GetFreeze_of_row hrow]
  exact ⟨rfl, rfl⟩

/-- A set right after a read finds the time the read found. -/
theorem since_canonical (store : OpState) (role : String) (since : DateTime)
    (h : (freezeOf store role).sinceTs = some since) :
    (freezeOf (stage4GetFreeze store role).1 (canonicalizeRole role)).sinceTs = some since := by
  rcases stage4GetFreeze_cases store role with hnone | ⟨row, hrow, hstate⟩
  · rw [freezeOf, hnone] at h
    cases h
  · rw [freezeOf, hstate] at h
    rw [freezeOf, stage4GetFreeze_of_row (by rwa [canonicalizeRole_idem])]
    exact h

theorem stage4ClearFreeze_row (store : OpState) (role : String) (now : DateTime) :
    (stage4ClearFreeze store role now)[roleKey (canonicalizeRole role)]? =
      some (clearedRow now) := by
  have hfold (keys : List String) (table : OpState)
      (h : table[roleKey (canonicalizeRole role)]? = some (clearedRow now)) :
      (keys.foldl (fun table key =>
        if key ∈ table then table.insert key (clearedRow now) else table)
        table)[roleKey (canonicalizeRole role)]? = some (clearedRow now) := by
    induction keys generalizing table with
    | nil => exact h
    | cons key keys ih =>
      refine ih _ ?_
      dsimp only
      split
      · rw [Dict.insert_get]
        split
        · rfl
        · exact h
      · exact h
  exact hfold _ _ (by simp)

theorem freezeOf_clear (store : OpState) (role : String) (now : DateTime) :
    freezeOf (stage4ClearFreeze store role now) role = rowState (clearedRow now) := by
  rw [freezeOf, stage4GetFreeze_of_row (stage4ClearFreeze_row store role now)]

end Reads

section Cycle

variable {settings : UnknownFreezeSettings} {role : String}

/-- What a cycle triggers on by its own input alone. -/
def Alone (settings : UnknownFreezeSettings) (cycle : CycleInput) : Prop :=
  cycle.reconcileResult.externalMissingClientId ≠ [] ∨
    max 1 settings.stage4UnknownFreezeThreshold ≤ cycle.reconcileResult.importExternal.length ∨
    (cycle.reconcileResult.markUnknownClosed ≠ [] ∧ settings.stage4UnknownFreezePersistCycles ≤ 1)

/-- With no freeze active there is no count to go on from: a mismatch is the first. -/
theorem trigger_alone {existing : Stage4FreezeState} (h : existing.active = false)
    (cycle : CycleInput) :
    (freezeTrigger settings existing cycle).1.isSome ↔ Alone settings cycle := by
  unfold freezeTrigger Alone
  simp only [h, Bool.false_eq_true, if_false]
  by_cases hmissing : cycle.reconcileResult.externalMissingClientId ≠ []
  · simp [hmissing]
  · rw [if_neg hmissing]
    by_cases hunknown : max 1 settings.stage4UnknownFreezeThreshold ≤
        cycle.reconcileResult.importExternal.length
    · simp [hunknown]
    · rw [if_neg hunknown]
      have hfirst : (if cycle.reconcileResult.markUnknownClosed ≠ [] then (0 : ℤ) + 1 else 0) ≤ 1 := by
        split <;> omega
      by_cases hmismatch : cycle.reconcileResult.markUnknownClosed ≠ []
      · by_cases hone : settings.stage4UnknownFreezePersistCycles ≤ 1
        · simp [hmissing, hunknown, hmismatch, hone]
        · cases existing.sinceTs <;> simp [hmissing, hunknown, hmismatch, hone]
      · cases existing.sinceTs <;> simp [hmissing, hunknown, hmismatch]

variable (role) in
/-- A freeze set by a cycle keeps the time of the record the cycle read. -/
theorem freezeOf_cycle_set (store : OpState) (now : DateTime) (reason : String)
    (details : Details) :
    (freezeOf (stage4SetFreeze (stage4GetFreeze store role).1 role now reason details).1
        role).active = true ∧
      (freezeOf (stage4SetFreeze (stage4GetFreeze store role).1 role now reason details).1
        role).sinceTs.isSome ∧
      ∀ since, (freezeOf store role).sinceTs = some since →
        (freezeOf (stage4SetFreeze (stage4GetFreeze store role).1 role now reason details).1
          role).sinceTs = some since := by
  obtain ⟨hactive, hsince⟩ :=
    freezeOf_set (stage4GetFreeze store role).1 role now reason details
  refine ⟨hactive, by rw [hsince]; rfl, fun since h => ?_⟩
  rw [hsince, since_canonical store role since h, Option.getD_some]

/-- What one cycle does to the freeze as a read returns it. -/
structure Latched (settings : UnknownFreezeSettings) (cycle : CycleInput)
    (before after : Stage4FreezeState) : Prop where
  active : after.active = true ↔
    before.active = true ∨ (freezeTrigger settings before cycle).1.isSome
  dated : after.active = true → after.sinceTs.isSome
  since : after.active = true → ∀ since, before.sinceTs = some since → after.sinceTs = some since

variable (role) in
theorem freezeOf_cycle (henabled : settings.stage4UnknownFreezeEnabled = true)
    (store : OpState) (cycle : CycleInput) :
    Latched settings cycle (freezeOf store role)
      (freezeOf (evaluateUnknownOrderFreeze settings role store cycle).1 role) := by
  unfold evaluateUnknownOrderFreeze
  simp only [henabled, if_true]
  have hread : (stage4GetFreeze store role).2 = freezeOf store role := rfl
  rw [hread]
  cases htrigger : freezeTrigger settings (freezeOf store role) cycle with
  | mk reason details =>
    cases reason with
    | some reason =>
      obtain ⟨hactive, hdated, hsince⟩ := freezeOf_cycle_set role store cycle.now reason
        details
      exact ⟨by simp [hactive, htrigger], fun _ => hdated, fun _ => hsince⟩
    | none =>
      cases hbefore : (freezeOf store role).active with
      | true =>
        obtain ⟨hactive, hdated, hsince⟩ := freezeOf_cycle_set role store cycle.now
          ((freezeOf store role).reason.getD "unknown_open_orders")
          (heartbeatDetails (freezeOf store role) cycle)
        exact ⟨by simp [hactive, hbefore], fun _ => hdated, fun _ => hsince⟩
      | false =>
        have hsame := freezeOf_get store role
        refine ⟨?_, ?_, ?_⟩
        · simp [hsame, hbefore, htrigger]
        · simp [hsame, hbefore]
        · simp [hsame, hbefore]

/-- The cycles since the last clear. -/
def sinceClear (steps : List FreezeStep) : List CycleInput :=
  steps.foldl (fun cycles step => match step with
    | .cycle input => cycles ++ [input]
    | .clear _ => []) []

@[simp] theorem sinceClear_cycle (steps : List FreezeStep) (input : CycleInput) :
    sinceClear (steps ++ [.cycle input]) = sinceClear steps ++ [input] := by
  simp [sinceClear]

@[simp] theorem sinceClear_clear (steps : List FreezeStep) (now : DateTime) :
    sinceClear (steps ++ [.clear now]) = [] := by
  simp [sinceClear]

theorem mem_sinceClear_append (steps : List FreezeStep) (window : List CycleInput)
    {cycle : CycleInput} (h : cycle ∈ window) :
    cycle ∈ sinceClear (steps ++ window.map .cycle) := by
  induction window using List.reverseRecOn with
  | nil => cases h
  | append_singleton window last ih =>
    rw [List.map_append, ← List.append_assoc, List.map_singleton, sinceClear_cycle]
    rcases List.mem_append.mp h with h | h
    · exact List.mem_append_left _ (ih h)
    · exact List.mem_append_right _ h

/-- What runs from an unfrozen record keep. -/
structure FreezeInv (settings : UnknownFreezeSettings) (cycles : List CycleInput)
    (freeze : Stage4FreezeState) : Prop where
  active : freeze.active = true ↔ ∃ cycle ∈ cycles, Alone settings cycle
  dated : freeze.active = true → freeze.sinceTs.isSome

theorem FreezeInv.cycle {cycles : List CycleInput} {before after : Stage4FreezeState}
    {input : CycleInput} (h : FreezeInv settings cycles before)
    (hstep : Latched settings input before after) :
    FreezeInv settings (cycles ++ [input]) after := by
  refine ⟨?_, hstep.dated⟩
  have hcycles : (∃ cycle ∈ cycles ++ [input], Alone settings cycle) ↔
      (∃ cycle ∈ cycles, Alone settings cycle) ∨ Alone settings input := by
    simp [or_and_right, exists_or]
  rw [hstep.active, hcycles, ← h.active]
  cases hbefore : before.active with
  | true => simp
  | false => simp [trigger_alone hbefore]

theorem FreezeInv.run (henabled : settings.stage4UnknownFreezeEnabled = true)
    {store : OpState} (hstart : (freezeOf store role).active = false) (steps : List FreezeStep) :
    FreezeInv settings (sinceClear steps)
      (freezeOf (freezeRun settings role store steps) role) := by
  induction steps using List.reverseRecOn with
  | nil => exact ⟨by simp [sinceClear, freezeRun, hstart], by simp [freezeRun, hstart]⟩
  | append_singleton steps step ih =>
    have hrun : freezeRun settings role store (steps ++ [step]) =
        freezeStep settings role (freezeRun settings role store steps) step := by
      simp [freezeRun, Runs.run]
    rw [hrun]
    cases step with
    | cycle input =>
      rw [sinceClear_cycle]
      exact ih.cycle (freezeOf_cycle role henabled _ input)
    | clear now =>
      rw [sinceClear_clear, freezeStep, freezeOf_clear]
      exact ⟨by simp [rowState, clearedRow], by simp [rowState, clearedRow]⟩

/-- Cycles never lift a freeze nor change its time. -/
theorem freeze_kept (henabled : settings.stage4UnknownFreezeEnabled = true) {store : OpState}
    {since : DateTime} (cycles : List CycleInput)
    (hactive : (freezeOf store role).active = true)
    (hsince : (freezeOf store role).sinceTs = some since) :
    (freezeOf (freezeRun settings role store (cycles.map .cycle)) role).active = true ∧
      (freezeOf (freezeRun settings role store (cycles.map .cycle)) role).sinceTs =
        some since := by
  induction cycles generalizing store with
  | nil => exact ⟨hactive, hsince⟩
  | cons cycle cycles ih =>
    have hstep := freezeOf_cycle role henabled store cycle
    have hnext := hstep.active.mpr (.inl hactive)
    exact ih hnext (hstep.since hnext since hsince)

/-- After a window of mismatches a freeze is active exactly when a single cycle since the last
clear was enough for it; an active one is kept with its time until it is cleared. -/
theorem mismatch_window_iff (henabled : settings.stage4UnknownFreezeEnabled = true)
    {start : OpState} (hstart : (freezeOf start role).active = false) :
    (∀ (before : List FreezeStep) (window : List CycleInput),
        (window.length : ℤ) = max 1 settings.stage4UnknownFreezePersistCycles →
        (∀ cycle ∈ window, cycle.reconcileResult.markUnknownClosed ≠ []) →
        ((freezeOf (freezeRun settings role start (before ++ window.map .cycle)) role).active =
            true ↔
          settings.stage4UnknownFreezePersistCycles ≤ 1 ∨
            ∃ cycle ∈ sinceClear (before ++ window.map .cycle),
              cycle.reconcileResult.externalMissingClientId ≠ [] ∨
                max 1 settings.stage4UnknownFreezeThreshold ≤
                  cycle.reconcileResult.importExternal.length)) ∧
      ∀ (before : List FreezeStep) (more : List CycleInput),
        (freezeOf (freezeRun settings role start before) role).active = true →
        (freezeOf (freezeRun settings role start (before ++ more.map .cycle)) role).active =
            true ∧
          (freezeOf (freezeRun settings role start (before ++ more.map .cycle)) role).sinceTs =
            (freezeOf (freezeRun settings role start before) role).sinceTs := by
  constructor
  · intro before window hlength hwindow
    have hinv := FreezeInv.run henabled hstart (before ++ window.map .cycle)
    rw [hinv.active]
    constructor
    · rintro ⟨cycle, hcycle, hmissing | hunknown | ⟨-, hone⟩⟩
      · exact .inr ⟨cycle, hcycle, .inl hmissing⟩
      · exact .inr ⟨cycle, hcycle, .inr hunknown⟩
      · exact .inl hone
    · rintro (hone | ⟨cycle, hcycle, hmissing | hunknown⟩)
      · -- the window is not empty, and any cycle of it is enough
        obtain ⟨cycle, hcycle⟩ : ∃ cycle, cycle ∈ window := by
          refine List.exists_mem_of_length_pos ?_
          omega
        exact ⟨cycle, mem_sinceClear_append before window hcycle,
          .inr (.inr ⟨hwindow cycle hcycle, hone⟩)⟩
      · exact ⟨cycle, hcycle, .inl hmissing⟩
      · exact ⟨cycle, hcycle, .inr (.inl hunknown)⟩
  · intro before more hactive
    have hinv := FreezeInv.run henabled hstart before
    obtain ⟨since, hsince⟩ := Option.isSome_iff_exists.mp (hinv.dated hactive)
    have hrun : freezeRun settings role start (before ++ more.map .cycle) =
        freezeRun settings role (freezeRun settings role start before) (more.map .cycle) := by
      simp [freezeRun, Runs.run]
    rw [hrun, hsince]
    exact freeze_kept henabled more hactive hsince

/-- An order the store holds open and the exchange lists nowhere. -/
def vanishedOrder (id : String) : Order :=
  { sampleOrder with clientOrderId := some id, exchangeOrderId := none, exchangeClientId := none }

def vanishedCycle (id : String) (ts : DateTime) : CycleInput where
  cycleNow := ts
  now := ts
  exchangeOpenOrders := []
  reconcileResult := resolve [] [vanishedOrder id] []
  dbOpenOrders := [vanishedOrder id]

def vanishedWindow : List CycleInput :=
  [vanishedCycle "cid-1" ⟨0, true⟩, vanishedCycle "cid-2" ⟨60000000, true⟩,
    vanishedCycle "cid-3" ⟨120000000, true⟩]

theorem mismatches_not_counted :
    vanishedWindow.map (fun cycle => cycle.reconcileResult.markUnknownClosed) =
        [["cid-1"], ["cid-2"], ["cid-3"]] ∧
      (vanishedWindow.length : ℤ) =
        max 1 (UnknownFreezeSettings.stage4UnknownFreezePersistCycles {}) ∧
      (freezeOf ∅ "LIVE").active = false ∧
      (freezeOf (freezeRun {} "LIVE" ∅ (vanishedWindow.map .cycle)) "LIVE").active = false := by
  decide +kernel

theorem single_mismatch_freezes :
    (freezeOf (freezeRun { stage4UnknownFreezePersistCycles := 1 } "LIVE" ∅
        ([] ++ [vanishedCycle "cid-1" ⟨0, true⟩].map .cycle)) "LIVE").active = true ↔
      (1 : ℤ) ≤ 1 ∨ ∃ cycle ∈ sinceClear ([] ++ [vanishedCycle "cid-1" ⟨0, true⟩].map .cycle),
        cycle.reconcileResult.externalMissingClientId ≠ [] ∨
          max 1 (1 : ℤ) ≤ cycle.reconcileResult.importExternal.length :=
  (@mismatch_window_iff { stage4UnknownFreezePersistCycles := 1 } "LIVE" rfl ∅
    (by decide +kernel)).1 [] [vanishedCycle "cid-1" ⟨0, true⟩] (by decide)
    (by decide +kernel)

end Cycle

end MismatchFreeze
