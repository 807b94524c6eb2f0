import Btcbot.MismatchFreeze

/-!
# The state of a process role

The counter of critical errors, the kill switch and the freeze of a role, each as a row of
the operator state, and the variables they stand for. A run answers as the variables do
exactly while an increment finds the count under the canonical key, and a read finds the same
under its own spelling as under the canonical one.
-/
namespace RoleState

open PyData RoleKeys
open MismatchFreeze (OpState OpStateRow Stage4FreezeState Details rowState freezeState roleKey
  stage4GetFreeze stage4SetFreeze stage4ClearFreeze clearedRow)

section Operations

structure KillSwitchRow where
  intValue : Option ℤ
  reason : Option String
  untilTs : Option String
  deriving DecidableEq, Repr

/-- The operator state, by the names its keys begin with. -/
structure World where
  criticalErrors : Dict (Option ℤ) := ∅
  killSwitch : Dict KillSwitchRow := ∅
  freeze : OpState := ∅

/-- Enabled, reason and end. -/
abbrev KillSwitch := Bool × Option String × Option String

def errorsKey (role : String) : String := "critical_errors:" ++ role

def killSwitchKey (role : String) : String := "kill_switch:" ++ role

def errorCount (row : Option (Option ℤ)) : ℤ := (row.getD none).getD 0

def switchOf : Option KillSwitchRow → KillSwitch
  | none => (false, none, none)
  | some row => (row.intValue.getD 0 ≠ 0, row.reason, row.untilTs)

def getConsecutiveCriticalErrors (table : Dict (Option ℤ)) (role : String) :
    Dict (Option ℤ) × ℤ :=
  let (table, row) := readRow errorsKey table role
  (table, errorCount row)

def incrementConsecutiveCriticalErrors (table : Dict (Option ℤ)) (role : String) :
    Dict (Option ℤ) × ℤ :=
  let key := errorsKey (canonicalizeRole role)
  let value := errorCount table[key]? + 1
  (table.insert key (some value), value)

def resetConsecutiveCriticalErrors (table : Dict (Option ℤ)) (role : String) : Dict (Option ℤ) :=
  table.insert (errorsKey (canonicalizeRole role)) (some 0)

def setKillSwitch (table : Dict KillSwitchRow) (role : String) (enabled : Bool)
    (reason : String) (untilTs : Option String) : Dict KillSwitchRow :=
  table.insert (killSwitchKey (canonicalizeRole role))
    ⟨some (if enabled then 1 else 0), some reason, untilTs⟩

def getKillSwitch (table : Dict KillSwitchRow) (role : String) : Dict KillSwitchRow × KillSwitch :=
  let (table, row) := readRow killSwitchKey table role
  (table, switchOf row)

/-- What a read makes of the stored texts: an empty reason is none. -/
def shown (state : Stage4FreezeState) : Stage4FreezeState :=
  { state with reason := state.reason.filter (· ≠ "") }

/-- What a clear answers, after the state it found. -/
def cleared (previous : Stage4FreezeState) (now : DateTime) : Stage4FreezeState :=
  ⟨false, previous.reason, previous.sinceTs, previous.details, some now⟩

inductive Operation where
  | getErrors (role : String)
  | incrementErrors (role : String)
  | resetErrors (role : String)
  | setKillSwitch (role : String) (enabled : Bool) (reason : String) (untilTs : Option String)
  | getKillSwitch (role : String)
  | setFreeze (role reason : String) (details : Details) (now : DateTime)
  | clearFreeze (role : String) (now : DateTime)
  | getFreeze (role : String)

inductive Answer where
  | done
  | count (value : ℤ)
  | switch (value : KillSwitch)
  | freeze (state : Stage4FreezeState)

/-- An operation on the store, and its answer. -/
def execute (world : World) : Operation → World × Answer
  | .getErrors role =>
    let (table, value) := getConsecutiveCriticalErrors world.criticalErrors role
    ({ world with criticalErrors := table }, .count value)
  | .incrementErrors role =>
    let (table, value) := incrementConsecutiveCriticalErrors world.criticalErrors role
    ({ world with criticalErrors := table }, .count value)
  | .resetErrors role =>
    ({ world with
      criticalErrors := resetConsecutiveCriticalErrors world.criticalErrors role }, .done)
  | .setKillSwitch role enabled reason untilTs =>
    ({ world with killSwitch := setKillSwitch world.killSwitch role enabled reason untilTs }, .done)
  | .getKillSwitch role =>
    let (table, value) := getKillSwitch world.killSwitch role
    ({ world with killSwitch := table }, .switch value)
  | .setFreeze role reason details now =>
    let (table, state) := stage4SetFreeze world.freeze role now reason details
    ({ world with freeze := table }, .freeze state)
  | .clearFreeze role now =>
    let previous := shown (stage4GetFreeze world.freeze role).2
    ({ world with freeze := stage4ClearFreeze world.freeze role now },
      .freeze (cleared previous now))
  | .getFreeze role =>
    let (table, state) := stage4GetFreeze world.freeze role
    ({ world with freeze := table }, .freeze (shown state))

end Operations

section Variables

/-- A variable of each kind for each role. -/
structure Variables where
  errors : String → ℤ
  killSwitch : String → KillSwitch
  freeze : String → Stage4FreezeState

/-- An operation on the variables of its role, and its answer. -/
def Variables.execute (vars : Variables) : Operation → Variables × Answer
  | .getErrors role => (vars, .count (vars.errors (canonicalizeRole role)))
  | .incrementErrors role =>
    let value := vars.errors (canonicalizeRole role) + 1
    ({ vars with errors := Function.update vars.errors (canonicalizeRole role) value },
      .count value)
  | .resetErrors role =>
    ({ vars with errors := Function.update vars.errors (canonicalizeRole role) 0 }, .done)
  | .setKillSwitch role enabled reason untilTs =>
    ({ vars with
      killSwitch :=
        Function.update vars.killSwitch (canonicalizeRole role) (enabled, some reason, untilTs) },
      .done)
  | .getKillSwitch role => (vars, .switch (vars.killSwitch (canonicalizeRole role)))
  | .setFreeze role reason details now =>
    let since := (vars.freeze (canonicalizeRole role)).sinceTs.getD now
    let state : Stage4FreezeState := ⟨true, some reason, some since, details, some now⟩
    ({ vars with freeze := Function.update vars.freeze (canonicalizeRole role) (shown state) },
      .freeze state)
  | .clearFreeze role now =>
    ({ vars with
      freeze := Function.update vars.freeze (canonicalizeRole role)
        ⟨false, none, none, ∅, some now⟩ },
      .freeze (cleared (vars.freeze (canonicalizeRole role)) now))
  | .getFreeze role => (vars, .freeze (vars.freeze (canonicalizeRole role)))

/-- What a first read under the canonical spelling of each role returns. -/
def variablesOf (world : World) : Variables where
  errors role := (getConsecutiveCriticalErrors world.criticalErrors (canonicalizeRole role)).2
  killSwitch role := (getKillSwitch world.killSwitch (canonicalizeRole role)).2
  freeze role := shown (stage4GetFreeze world.freeze (canonicalizeRole role)).2

/-- The answers of a run. -/
def answers (world : World) : List Operation → List Answer
  | [] => []
  | operation :: operations =>
    (execute world operation).2 :: answers (execute world operation).1 operations

def Variables.answers (vars : Variables) : List Operation → List Answer
  | [] => []
  | operation :: operations =>
    (vars.execute operation).2 :: (vars.execute operation).1.answers operations

end Variables

section Tables

variable {V α : Type} (key : String → String) (value : Option V → α)

/-- A variable holds, for each role, the value that its canonical spelling reads. -/
def Holds (vars : String → α) (table : Dict V) : Prop :=
  ∀ role, vars (canonicalizeRole role) = value (seen key table (canonicalizeRole role))

variable {key value} {vars : String → α} {table : Dict V}

/-- A read that finds the value of the canonical spelling leaves every value as it is. -/
theorem Holds.read (hkey : Function.Injective key) (h : Holds key value vars table)
    {role : String}
    (hsame : value (seen key table role) = value (seen key table (canonicalizeRole role))) :
    Holds key value vars (readRow key table role).1 := by
  intro other
  cases hseen : seen key table role with
  | none =>
    rw [read_none hseen]
    exact h other
  | some row =>
    by_cases hroles : canonicalizeRole other = canonicalizeRole role
    · rw [seen_read_self hseen (by rw [canonicalizeRole_idem, hroles]), h other, hroles, ← hsame,
        hseen]
    · rw [seen_read_other hkey (by rwa [canonicalizeRole_idem]), h other]

/-- A row under the canonical key sets the variable of its role. -/
theorem Holds.write (hkey : Function.Injective key) (h : Holds key value vars table)
    (role : String) (row : V) :
    Holds key value (Function.update vars (canonicalizeRole role) (value (some row)))
      (table.insert (key (canonicalizeRole role)) row) := by
  intro other
  by_cases hroles : canonicalizeRole other = canonicalizeRole role
  · rw [seen_insert_self row (by rw [canonicalizeRole_idem, hroles]), hroles,
      Function.update_self]
  · rw [seen_insert_other hkey (by rwa [canonicalizeRole_idem]) canonical_mem,
      Function.update_of_ne hroles, h other]

end Tables

section Freeze

variable {store : OpState} {role other : String}

/-- A clear writes to keys of its role alone. -/
theorem seen_clear_other (hkey : Function.Injective roleKey) (now : DateTime)
    (hroles : canonicalizeRole other ≠ canonicalizeRole role) :
    seen roleKey (stage4ClearFreeze store role now) other = seen roleKey store other := by
  have hfold (keys : List String) (hkeys : ∀ candidate ∈ keys,
      candidate ∈ roleKeyCandidates roleKey role) (table : OpState) :
      seen roleKey (keys.foldl (fun table candidate =>
        if candidate ∈ table then table.insert candidate (clearedRow now) else table) table) other =
        seen roleKey table other := by
    induction keys generalizing table with
    | nil => rfl
    | cons candidate keys ih =>
      rw [List.foldl_cons, ih fun key hin => hkeys key (List.mem_cons_of_mem candidate hin)]
      split
      · exact seen_insert_other hkey hroles (hkeys candidate List.mem_cons_self) _
      · rfl
  unfold stage4ClearFreeze
  simp only
  rw [hfold _ fun candidate hin => List.mem_of_mem_tail hin,
    seen_insert_other hkey hroles canonical_mem, stage4GetFreeze]
  exact seen_read_other hkey hroles

theorem seen_clear_self (now : DateTime) (hroles : canonicalizeRole other = canonicalizeRole role) :
    seen roleKey (stage4ClearFreeze store role now) other = some (clearedRow now) := by
  have hrow := MismatchFreeze.stage4ClearFreeze_row store role now
  rw [← hroles] at hrow
  rw [seen, readRow_canonical hrow]

end Freeze

section Simulation

theorem append_injective (name : String) : Function.Injective fun role => name ++ role := by
  intro a b h
  have htext := congrArg String.toList h
  simp only [String.toList_append] at htext
  exact String.toList_injective (List.append_cancel_left htext)

/-- Every variable holds what the canonical spelling reads. -/
structure Represents (vars : Variables) (world : World) : Prop where
  errors : Holds errorsKey errorCount vars.errors world.criticalErrors
  killSwitch : Holds killSwitchKey switchOf vars.killSwitch world.killSwitch
  freeze : Holds roleKey (fun row => shown (freezeState row)) vars.freeze world.freeze

theorem variablesOf_represents (world : World) : Represents (variablesOf world) world := by
  constructor
  · intro role
    simp [variablesOf, getConsecutiveCriticalErrors]
  · intro role
    simp [variablesOf, getKillSwitch]
  · intro role
    simp [variablesOf, stage4GetFreeze]

/-- An increment finds the count under the canonical key, and a read finds what the canonical
spelling reads. -/
def Sees (world : World) : Operation → Prop
  | .getErrors role =>
    (getConsecutiveCriticalErrors world.criticalErrors role).2 =
      (getConsecutiveCriticalErrors world.criticalErrors (canonicalizeRole role)).2
  | .incrementErrors role =>
    errorCount world.criticalErrors[errorsKey (canonicalizeRole role)]? =
      (getConsecutiveCriticalErrors world.criticalErrors (canonicalizeRole role)).2
  | .getKillSwitch role =>
    (getKillSwitch world.killSwitch role).2 =
      (getKillSwitch world.killSwitch (canonicalizeRole role)).2
  | .clearFreeze role now =>
    cleared (shown (stage4GetFreeze world.freeze role).2) now =
      cleared (shown (stage4GetFreeze world.freeze (canonicalizeRole role)).2) now
  | .getFreeze role =>
    shown (stage4GetFreeze world.freeze role).2 =
      shown (stage4GetFreeze world.freeze (canonicalizeRole role)).2
  | _ => True

variable {vars : Variables} {world : World}

theorem answer_iff (h : Represents vars world) (operation : Operation) :
    (execute world operation).2 = (vars.execute operation).2 ↔ Sees world operation := by
  cases operation with
  | getErrors role =>
    simp [execute, Variables.execute, Sees, h.errors role, getConsecutiveCriticalErrors]
  | incrementErrors role =>
    simp [execute, Variables.execute, Sees, h.errors role, getConsecutiveCriticalErrors,
      incrementConsecutiveCriticalErrors]
  | resetErrors role => simp [execute, Variables.execute, Sees]
  | setKillSwitch role enabled reason untilTs => simp [execute, Variables.execute, Sees]
  | getKillSwitch role =>
    simp [execute, Variables.execute, Sees, h.killSwitch role, getKillSwitch]
  | setFreeze role reason details now =>
    simp [execute, Variables.execute, Sees, h.freeze role, stage4SetFreeze, stage4GetFreeze,
      shown]
  | clearFreeze role now =>
    simp [execute, Variables.execute, Sees, h.freeze role, stage4GetFreeze]
  | getFreeze role =>
    simp [execute, Variables.execute, Sees, h.freeze role, stage4GetFreeze]

theorem execute_represents (h : Represents vars world) {operation : Operation}
    (hsees : Sees world operation) :
    Represents (vars.execute operation).1 (execute world operation).1 := by
  have herrors : Function.Injective errorsKey := append_injective _
  have hswitch : Function.Injective killSwitchKey := append_injective _
  have hfreeze : Function.Injective roleKey := append_injective _
  cases operation with
  | getErrors role => exact ⟨h.errors.read herrors hsees, h.killSwitch, h.freeze⟩
  | incrementErrors role =>
    refine ⟨?_, h.killSwitch, h.freeze⟩
    have hvalue : errorCount world.criticalErrors[errorsKey (canonicalizeRole role)]? =
        vars.errors (canonicalizeRole role) := by
      rw [h.errors role]
      exact hsees
    have hwrite := h.errors.write herrors role
      (some (vars.errors (canonicalizeRole role) + 1))
    have hcount (n : ℤ) : errorCount (some (some n)) = n := rfl
    simpa [execute, Variables.execute, incrementConsecutiveCriticalErrors, hvalue, hcount]
      using hwrite
  | resetErrors role => exact ⟨h.errors.write herrors role (some 0), h.killSwitch, h.freeze⟩
  | setKillSwitch role enabled reason untilTs =>
    refine ⟨h.errors, ?_, h.freeze⟩
    have hwrite := h.killSwitch.write hswitch role
      ⟨some (if enabled then 1 else 0), some reason, untilTs⟩
    cases enabled with
    | true => exact hwrite
    | false => exact hwrite
  | getKillSwitch role => exact ⟨h.errors, h.killSwitch.read hswitch hsees, h.freeze⟩
  | setFreeze role reason details now =>
    refine ⟨h.errors, h.killSwitch, ?_⟩
    -- the record found is that of the canonical spelling
    have hcanonical : canonicalizeRole (canonicalizeRole role) = canonicalizeRole role :=
      canonicalizeRole_idem role
    have hread := h.freeze.read hfreeze
      (congrArg (fun spelling => shown (freezeState (seen roleKey world.freeze spelling)))
        hcanonical.symm)
    have hsince : (vars.freeze (canonicalizeRole role)).sinceTs =
        (freezeState (seen roleKey world.freeze (canonicalizeRole role))).sinceTs := by
      rw [h.freeze role]
      rfl
    have hwrite := hread.write hfreeze role
      ⟨some 1, ⟨some reason, some ((vars.freeze (canonicalizeRole role)).sinceTs.getD now),
        details, some now⟩⟩
    rw [hsince] at hwrite
    simp only [execute, Variables.execute, stage4SetFreeze, stage4GetFreeze, hsince]
    exact hwrite
  | clearFreeze role now =>
    refine ⟨h.errors, h.killSwitch, fun other => ?_⟩
    by_cases hroles : canonicalizeRole other = canonicalizeRole role
    · simp only [execute, Variables.execute]
      rw [seen_clear_self now (by rw [canonicalizeRole_idem, hroles]), hroles,
        Function.update_self]
      rfl
    · simp only [execute, Variables.execute]
      rw [seen_clear_other hfreeze now (by rwa [canonicalizeRole_idem]),
        Function.update_of_ne hroles, h.freeze other]
  | getFreeze role =>
    refine ⟨h.errors, h.killSwitch, ?_⟩
    rw [Sees, stage4GetFreeze, stage4GetFreeze] at hsees
    simp only [execute, Variables.execute, stage4GetFreeze]
    exact h.freeze.read hfreeze hsees

/-- A run answers as one variable a role does, from what a first read under the canonical
spelling returns, exactly where every operation sees that variable. -/
theorem answers_as_variables_iff (world : World) (operations : List Operation) :
    answers world operations = (variablesOf world).answers operations ↔
      Runs.Meets (fun world operation => (execute world operation).1) Sees world operations := by
  suffices hgen : ∀ (world : World) (vars : Variables), Represents vars world →
      (answers world operations = vars.answers operations ↔
        Runs.Meets (fun world operation => (execute world operation).1) Sees world operations) from
    hgen world _ (variablesOf_represents world)
  induction operations with
  | nil => exact fun _ _ _ => iff_of_true rfl trivial
  | cons operation operations ih =>
    intro world vars h
    have hanswer := answer_iff h operation
    rw [answers, Variables.answers, List.cons.injEq, hanswer]
    constructor
    · rintro ⟨hsees, hrest⟩
      exact ⟨hsees, (ih _ _ (execute_represents h hsees)).mp hrest⟩
    · rintro ⟨hsees, hrest⟩
      exact ⟨hsees, (ih _ _ (execute_represents h hsees)).mpr hrest⟩

/-- A count of three under the lower-case key. -/
def legacyCount : World :=
  { criticalErrors := Std.ExtTreeMap.empty.insert "critical_errors:live" (some 3) }

/-- An increment before any read starts from zero. -/
theorem legacy_count_lost :
    answers legacyCount [.incrementErrors "LIVE"] ≠
      (variablesOf legacyCount).answers [.incrementErrors "LIVE"] := by
  intro h
  have hvalue : (incrementConsecutiveCriticalErrors legacyCount.criticalErrors "LIVE").2 =
      (variablesOf legacyCount).errors (canonicalizeRole "LIVE") + 1 :=
    Answer.count.inj (List.head_eq_of_cons_eq h)
  revert hvalue
  decide +kernel

end Simulation

end RoleState
