import Btcbot.Runs
import Mathlib.Data.List.Basic
import Mathlib.Data.List.Nodup
import Mathlib.Data.List.Sort
import Mathlib.Data.Prod.Basic

/-!
# The instance lock of the state database

Every store registers itself in a table of process instances, stamps its row with
heartbeats, and gives the row up when it is released. A registration is one write
transaction, but the clock is read before it, and the processes take their steps in
any order and by clocks of their own. A row not stamped for longer than the limit of
a newcomer is marked stale by it.
-/
namespace InstanceLock

inductive Status where
  | active | stale | ended | forceUnlocked
  deriving DecidableEq, Repr

structure ProcessInstance where
  instanceId : String
  pid : ℕ
  dbPath : String
  startedAtEpoch : ℤ
  heartbeatAtEpoch : ℤ
  status : Status
  endedAtEpoch : Option ℤ
  deriving DecidableEq, Repr

/-- What the update statements write into a row. -/
inductive Update where
  | heartbeat (nowEpoch : ℤ)
  | stale (nowEpoch : ℤ)
  | closed (status : Status) (nowEpoch : ℤ)
  deriving DecidableEq, Repr

def Update.apply : Update → ProcessInstance → ProcessInstance
  | .heartbeat nowEpoch, row => { row with heartbeatAtEpoch := nowEpoch }
  | .stale nowEpoch, row => { row with status := .stale, endedAtEpoch := some nowEpoch }
  | .closed status nowEpoch, row =>
    { row with status := status, endedAtEpoch := some nowEpoch, heartbeatAtEpoch := nowEpoch }

/-- A statement writes into the rows it names. -/
def Update.applyTo (update : Update) (ids : List String) (row : ProcessInstance) :
    ProcessInstance :=
  if row.instanceId ∈ ids then update.apply row else row

section Update

variable (update : Update) (ids : List String) (row : ProcessInstance)

@[simp] theorem Update.applyTo_instanceId :
    (update.applyTo ids row).instanceId = row.instanceId := by
  unfold applyTo
  split
  · cases update <;> rfl
  · rfl

@[simp] theorem Update.applyTo_pid : (update.applyTo ids row).pid = row.pid := by
  unfold applyTo
  split
  · cases update <;> rfl
  · rfl

@[simp] theorem Update.applyTo_dbPath : (update.applyTo ids row).dbPath = row.dbPath := by
  unfold applyTo
  split
  · cases update <;> rfl
  · rfl

theorem Update.applyTo_other (h : row.instanceId ∉ ids) : update.applyTo ids row = row := if_neg h

theorem Update.heartbeat_status (nowEpoch : ℤ) :
    ((Update.heartbeat nowEpoch).applyTo ids row).status = row.status := by
  unfold applyTo
  split <;> rfl

end Update

def updateRows (rows : List ProcessInstance) (ids : List String) (update : Update) :
    List ProcessInstance := rows.map (update.applyTo ids)

theorem ids_updateRows (rows : List ProcessInstance) (ids : List String) (update : Update) :
    (updateRows rows ids update).map ProcessInstance.instanceId =
      rows.map ProcessInstance.instanceId := by
  rw [updateRows, List.map_map]
  exact List.map_congr_left fun row _ => update.applyTo_instanceId ids row

/-- The rows, under their primary key. -/
structure ProcessInstances where
  rows : List ProcessInstance
  unique : (rows.map ProcessInstance.instanceId).Nodup

namespace ProcessInstances

theorem updated (table : ProcessInstances) (ids : List String) (update : Update) :
    ((updateRows table.rows ids update).map ProcessInstance.instanceId).Nodup := by
  rw [ids_updateRows]
  exact table.unique

def update (table : ProcessInstances) (ids : List String) (update : Update) : ProcessInstances :=
  ⟨updateRows table.rows ids update, table.updated ids update⟩

theorem mem_update {table : ProcessInstances} {ids : List String} {change : Update}
    {row : ProcessInstance} :
    row ∈ (table.update ids change).rows ↔ ∃ old ∈ table.rows, change.applyTo ids old = row :=
  List.mem_map

theorem added {table : ProcessInstances} {row : ProcessInstance}
    (h : row.instanceId ∉ table.rows.map ProcessInstance.instanceId) :
    ((table.rows ++ [row]).map ProcessInstance.instanceId).Nodup := by
  rw [List.map_append, List.nodup_append]
  refine ⟨table.unique, List.nodup_singleton _, fun id hid other hother heq => h ?_⟩
  rw [List.map_singleton, List.mem_singleton] at hother
  rw [← hother, ← heq]
  exact hid

/-- An insert keeps to the primary key. -/
def insert (table : ProcessInstances) (row : ProcessInstance) : Option ProcessInstances :=
  if h : row.instanceId ∈ table.rows.map ProcessInstance.instanceId then none
  else some ⟨table.rows ++ [row], added h⟩

theorem insert_some {table final : ProcessInstances} {row : ProcessInstance}
    (h : table.insert row = some final) :
    row.instanceId ∉ table.rows.map ProcessInstance.instanceId ∧
      final.rows = table.rows ++ [row] := by
  unfold insert at h
  split at h
  · cases h
  · next hnew =>
    obtain rfl := Option.some.inj h
    exact ⟨hnew, rfl⟩

/-- Rows of one id are one row. -/
theorem eq_of_instanceId {table : ProcessInstances} {row other : ProcessInstance}
    (hrow : row ∈ table.rows) (hother : other ∈ table.rows)
    (h : row.instanceId = other.instanceId) : row = other :=
  List.inj_on_of_nodup_map table.unique hrow hother h

end ProcessInstances

structure StateStore where
  instanceId : String
  pid : ℕ
  dbPathAbs : String
  strictInstanceLock : Bool
  processInstanceTtlSeconds : ℤ
  deriving DecidableEq, Repr

/-- The fields before the registration. -/
def StateStore.create (instanceId : String) (pid : ℕ) (dbPathAbs : String)
    (strictInstanceLock : Bool) (processInstanceTtlSeconds : ℤ) : StateStore :=
  ⟨instanceId, pid, dbPathAbs, strictInstanceLock, max 1 processInstanceTtlSeconds⟩

inductive LockError where
  | takeoverContention (conflictPid : ℕ)
  | alreadyRegistered (conflictPid : ℕ)
  | duplicateInstance
  deriving DecidableEq, Repr

section Register

variable (table : ProcessInstances) (store : StateStore) (nowEpoch : ℤ)

def ttlCutoff : ℤ := nowEpoch - store.processInstanceTtlSeconds

/-- The active rows of the database but for the store's own, last stamped first. -/
def otherRows : List ProcessInstance :=
  (table.rows.filter fun row => row.dbPath = store.dbPathAbs ∧
    row.instanceId ≠ store.instanceId ∧ row.status = .active).insertionSort
      fun a b => b.heartbeatAtEpoch ≤ a.heartbeatAtEpoch

def activeRow : Option ProcessInstance :=
  (otherRows table store).find? fun row => ttlCutoff store nowEpoch ≤ row.heartbeatAtEpoch

def staleHistoryExists : Bool :=
  table.rows.any fun row => row.dbPath = store.dbPathAbs ∧ row.status = .stale

def staleIds : List String :=
  ((otherRows table store).filter fun row =>
    row.heartbeatAtEpoch < ttlCutoff store nowEpoch).map ProcessInstance.instanceId

def newRow : ProcessInstance :=
  ⟨store.instanceId, store.pid, store.dbPathAbs, nowEpoch, nowEpoch, .active, none⟩

/-- The rows left unstamped are marked and the store gets a row of its own. -/
def takeOver : Except LockError (ProcessInstances × StateStore) :=
  match (table.update (staleIds table store nowEpoch) (.stale nowEpoch)).insert
      (newRow store nowEpoch) with
  | none => .error .duplicateInstance
  | some table => .ok (table, store)

/-- The table and the store after the transaction; an error rolls it back. -/
def registerInstanceLock : Except LockError (ProcessInstances × StateStore) :=
  match activeRow table store nowEpoch with
  | none => takeOver table store nowEpoch
  | some row =>
    if row.pid = store.pid then
      if store.strictInstanceLock && staleHistoryExists table store then
        .error (.takeoverContention row.pid)
      else
        .ok (table.update [row.instanceId] (.heartbeat nowEpoch),
          { store with instanceId := row.instanceId })
    else if store.strictInstanceLock then .error (.alreadyRegistered row.pid)
    else takeOver table store nowEpoch

/-- The conflict that is logged, with the process that runs into it. -/
structure Conflict where
  pid : ℕ
  dbPath : String
  conflictInstanceId : String
  conflictPid : ℕ
  strictInstanceLock : Bool
  deriving DecidableEq, Repr

def activeConflict : Option Conflict :=
  match activeRow table store nowEpoch with
  | none => none
  | some row =>
    if row.pid = store.pid then none
    else some ⟨store.pid, store.dbPathAbs, row.instanceId, row.pid, store.strictInstanceLock⟩

end Register

/-- The database, the stores that are open on it and the conflicts logged so far. -/
structure World where
  table : ProcessInstances
  stores : List StateStore
  conflicts : List Conflict

inductive Event where
  | start (store : StateStore) (nowEpoch : ℤ)
  | heartbeat (instanceId : String) (nowEpoch : ℤ)
  | release (store : StateStore) (nowEpoch : ℤ)
  | forceUnlock (instanceId : String) (nowEpoch : ℤ)
  deriving DecidableEq, Repr

def step (w : World) : Event → World
  | .start store nowEpoch =>
    let conflicts := w.conflicts ++ (activeConflict w.table store nowEpoch).toList
    match registerInstanceLock w.table store nowEpoch with
    | .ok (table, opened) => ⟨table, w.stores ++ [opened], conflicts⟩
    | .error _ => { w with conflicts := conflicts }
  | .heartbeat instanceId nowEpoch =>
    { w with table := w.table.update [instanceId] (.heartbeat nowEpoch) }
  | .release store nowEpoch =>
    { w with
      table := w.table.update [store.instanceId] (.closed .ended nowEpoch)
      stores := w.stores.erase store }
  | .forceUnlock instanceId nowEpoch =>
    { w with table := w.table.update [instanceId] (.closed .forceUnlocked nowEpoch) }

/-- A database no store was opened on. -/
def World.fresh : World := ⟨⟨[], List.nodup_nil⟩, [], []⟩

section Rows

variable {table : ProcessInstances} {store : StateStore} {nowEpoch : ℤ}

theorem mem_otherRows {row : ProcessInstance} :
    row ∈ otherRows table store ↔ row ∈ table.rows ∧ row.dbPath = store.dbPathAbs ∧
      row.instanceId ≠ store.instanceId ∧ row.status = .active := by
  unfold otherRows
  rw [List.mem_insertionSort, List.mem_filter, decide_eq_true_eq]

theorem mem_staleIds {id : String} :
    id ∈ staleIds table store nowEpoch ↔ ∃ row ∈ otherRows table store,
      row.heartbeatAtEpoch < ttlCutoff store nowEpoch ∧ row.instanceId = id := by
  simp only [staleIds, List.mem_map, List.mem_filter, decide_eq_true_eq, and_assoc]

theorem activeRow_none (h : activeRow table store nowEpoch = none) {row : ProcessInstance}
    (hin : row ∈ otherRows table store) : row.heartbeatAtEpoch < ttlCutoff store nowEpoch := by
  have hnone := List.find?_eq_none.mp h row hin
  rw [decide_eq_true_eq] at hnone
  exact not_le.mp hnone

theorem activeRow_some {row : ProcessInstance} (h : activeRow table store nowEpoch = some row) :
    row ∈ otherRows table store ∧ ttlCutoff store nowEpoch ≤ row.heartbeatAtEpoch := by
  have hfresh := List.find?_some h
  rw [decide_eq_true_eq] at hfresh
  exact ⟨List.mem_of_find?_eq_some h, hfresh⟩

theorem takeOver_ok {final : ProcessInstances} {opened : StateStore}
    (h : takeOver table store nowEpoch = .ok (final, opened)) :
    opened = store ∧ store.instanceId ∉ table.rows.map ProcessInstance.instanceId ∧
      final.rows = updateRows table.rows (staleIds table store nowEpoch) (.stale nowEpoch) ++
        [newRow store nowEpoch] := by
  unfold takeOver at h
  split at h
  · cases h
  · next inserted hinsert =>
    obtain ⟨hnew, hrows⟩ := ProcessInstances.insert_some hinsert
    cases h
    refine ⟨rfl, ?_, hrows⟩
    rw [ProcessInstances.update, ids_updateRows] at hnew
    exact hnew

theorem Update.closed_status {status : Status} (hstatus : status ≠ .active) {ids : List String}
    {row : ProcessInstance}
    (h : ((Update.closed status nowEpoch).applyTo ids row).status = .active) :
    row.instanceId ∉ ids ∧ row.status = .active := by
  by_cases hin : row.instanceId ∈ ids
  · rw [Update.applyTo, if_pos hin] at h
    exact absurd h hstatus
  · rw [Update.applyTo_other _ _ _ hin] at h
    exact ⟨hin, h⟩

theorem Update.stale_status {ids : List String} {row : ProcessInstance}
    (h : ((Update.stale nowEpoch).applyTo ids row).status = .active) :
    row.instanceId ∉ ids ∧ row.status = .active := by
  by_cases hin : row.instanceId ∈ ids
  · rw [Update.applyTo, if_pos hin] at h
    cases h
  · rw [Update.applyTo_other _ _ _ hin] at h
    exact ⟨hin, h⟩

/-- The rows a takeover leaves active are the new row, those of other databases and those that
were stamped within the limit. -/
theorem takeOver_active {final : ProcessInstances} {opened : StateStore}
    (h : takeOver table store nowEpoch = .ok (final, opened)) {row : ProcessInstance}
    (hrow : row ∈ final.rows) (hact : row.status = .active) :
    row = newRow store nowEpoch ∨ row ∈ table.rows ∧ (row.dbPath = store.dbPathAbs →
      row ∈ otherRows table store ∧ ttlCutoff store nowEpoch ≤ row.heartbeatAtEpoch) := by
  obtain ⟨-, hnew, hrows⟩ := takeOver_ok h
  rw [hrows] at hrow
  rcases List.mem_append.mp hrow with hrow | hrow
  · obtain ⟨old, hold, rfl⟩ := List.mem_map.mp hrow
    obtain ⟨hkept, hstatus⟩ := Update.stale_status hact
    rw [Update.applyTo_other _ _ _ hkept]
    refine .inr ⟨hold, fun hdb => ?_⟩
    have hne : old.instanceId ≠ store.instanceId := fun heq =>
      hnew (List.mem_map.mpr ⟨old, hold, heq⟩)
    have hother : old ∈ otherRows table store := mem_otherRows.mpr ⟨hold, hdb, hne, hstatus⟩
    refine ⟨hother, ?_⟩
    by_contra hexpired
    exact hkept (mem_staleIds.mpr ⟨old, hother, not_le.mp hexpired, rfl⟩)
  · exact .inl (List.mem_singleton.mp hrow)

/-- A new id goes in when every other row is past the limit. -/
theorem registerInstanceLock_expired
    (hnew : store.instanceId ∉ table.rows.map ProcessInstance.instanceId)
    (hexpired : ∀ row ∈ otherRows table store,
      row.heartbeatAtEpoch < ttlCutoff store nowEpoch) :
    ∃ final, registerInstanceLock table store nowEpoch = .ok (final, store) := by
  have hnone : activeRow table store nowEpoch = none := by
    refine List.find?_eq_none.mpr fun row hin => ?_
    rw [decide_eq_true_eq]
    exact not_le.mpr (hexpired row hin)
  have hfresh : (newRow store nowEpoch).instanceId ∉
      (table.update (staleIds table store nowEpoch) (.stale nowEpoch)).rows.map
        ProcessInstance.instanceId := by
    rw [ProcessInstances.update, ids_updateRows]
    exact hnew
  obtain ⟨inserted, hinserted⟩ : ∃ inserted, (table.update (staleIds table store nowEpoch)
      (.stale nowEpoch)).insert (newRow store nowEpoch) = some inserted := ⟨_, dif_neg hfresh⟩
  refine ⟨inserted, ?_⟩
  rw [registerInstanceLock, hnone]
  dsimp only
  rw [takeOver, hinserted]

theorem activeConflict_strict {conflict : Conflict}
    (h : activeConflict table store nowEpoch = some conflict) :
    conflict.strictInstanceLock = store.strictInstanceLock := by
  unfold activeConflict at h
  split at h
  · cases h
  · split at h
    · cases h
    · cases h
      rfl

/-- Each way a registration goes through. -/
theorem registerInstanceLock_ok {final : ProcessInstances} {opened : StateStore}
    (h : registerInstanceLock table store nowEpoch = .ok (final, opened)) :
    (∃ row ∈ otherRows table store, row.pid = store.pid ∧
      ttlCutoff store nowEpoch ≤ row.heartbeatAtEpoch ∧
      final = table.update [row.instanceId] (.heartbeat nowEpoch) ∧
      opened = { store with instanceId := row.instanceId }) ∨
    takeOver table store nowEpoch = .ok (final, opened) ∧
      ((∀ row ∈ otherRows table store, row.heartbeatAtEpoch < ttlCutoff store nowEpoch) ∨
        ∃ conflict, activeConflict table store nowEpoch = some conflict ∧
          conflict.pid = store.pid ∧ conflict.dbPath = store.dbPathAbs ∧
          conflict.strictInstanceLock = false) := by
  unfold registerInstanceLock at h
  split at h
  · next hnone => exact .inr ⟨h, .inl fun row hin => activeRow_none hnone hin⟩
  · next row hsome =>
    obtain ⟨hother, hfresh⟩ := activeRow_some hsome
    split at h
    · next hpid =>
      split at h
      · cases h
      · cases h
        exact .inl ⟨row, hother, hpid, hfresh, rfl, rfl⟩
    · next hpid =>
      split at h
      · cases h
      · next hstrict =>
        have hlenient := eq_false_of_ne_true hstrict
        refine .inr ⟨h, .inr ⟨⟨store.pid, store.dbPathAbs, row.instanceId, row.pid, false⟩,
          ?_, rfl, rfl, rfl⟩⟩
        rw [activeConflict, hsome, ← hlenient]
        exact if_neg hpid

end Rows

section Exclusion

/-- The process was let past a registration of another one. -/
def LetPast (w : World) (pid : ℕ) (dbPath : String) : Prop :=
  ∃ conflict ∈ w.conflicts, conflict.pid = pid ∧ conflict.dbPath = dbPath ∧
    conflict.strictInstanceLock = false

/-- Every open store has its row, and of the processes that were let past no other one, at most
one has a row that is marked active. -/
structure Sound (w : World) : Prop where
  held : ∀ store ∈ w.stores, ∃ row ∈ w.table.rows, row.instanceId = store.instanceId ∧
    row.pid = store.pid ∧ row.dbPath = store.dbPathAbs
  exclusive : ∀ row ∈ w.table.rows, ∀ other ∈ w.table.rows,
    row.status = .active → other.status = .active → row.dbPath = other.dbPath →
    ¬ LetPast w row.pid row.dbPath → ¬ LetPast w other.pid other.dbPath →
    row.instanceId = other.instanceId

theorem sound_fresh : Sound World.fresh where
  held store hin := by cases hin
  exclusive row hin := by cases hin

variable {w : World}

theorem LetPast.logged {table : ProcessInstances} {stores : List StateStore} {pid : ℕ}
    {dbPath : String} (h : LetPast w pid dbPath) (more : List Conflict) :
    LetPast ⟨table, stores, w.conflicts ++ more⟩ pid dbPath := by
  obtain ⟨conflict, hin, hrest⟩ := h
  exact ⟨conflict, List.mem_append_left more hin, hrest⟩

theorem Sound.logged (h : Sound w) (more : List Conflict) :
    Sound { w with conflicts := w.conflicts ++ more } where
  held := h.held
  exclusive row hrow other hother hact hact' hdb hclean hclean' :=
    h.exclusive row hrow other hother hact hact' hdb (fun hpast => hclean (hpast.logged more))
      fun hpast => hclean' (hpast.logged more)

/-- An update that marks nothing active. -/
theorem Sound.update (h : Sound w) {ids : List String} {change : Update}
    (hchange : ∀ row, (change.applyTo ids row).status = .active → row.status = .active) :
    Sound { w with table := w.table.update ids change } where
  held store hin := by
    obtain ⟨row, hrow, hid, hpid, hdb⟩ := h.held store hin
    refine ⟨_, ProcessInstances.mem_update.mpr ⟨row, hrow, rfl⟩, ?_, ?_, ?_⟩
    · rw [Update.applyTo_instanceId, hid]
    · rw [Update.applyTo_pid, hpid]
    · rw [Update.applyTo_dbPath, hdb]
  exclusive row hrow other hother hact hact' hdb hclean hclean' := by
    obtain ⟨old, hold, rfl⟩ := ProcessInstances.mem_update.mp hrow
    obtain ⟨old', hold', rfl⟩ := ProcessInstances.mem_update.mp hother
    simp only [Update.applyTo_instanceId, Update.applyTo_pid, Update.applyTo_dbPath]
      at hdb hclean hclean' ⊢
    exact h.exclusive old hold old' hold' (hchange old hact) (hchange old' hact') hdb hclean hclean'

theorem Sound.open (h : Sound w) {store : StateStore} {row : ProcessInstance}
    (hrow : row ∈ w.table.rows) (hid : row.instanceId = store.instanceId)
    (hpid : row.pid = store.pid) (hdb : row.dbPath = store.dbPathAbs) :
    Sound { w with stores := w.stores ++ [store] } where
  held other hin := by
    rcases List.mem_append.mp hin with hold | hnew
    · exact h.held other hold
    · obtain rfl := List.mem_singleton.mp hnew
      exact ⟨row, hrow, hid, hpid, hdb⟩
  exclusive := h.exclusive

theorem Sound.takeOver (h : Sound w) {store opened : StateStore} {nowEpoch : ℤ}
    {final : ProcessInstances} (hok : takeOver w.table store nowEpoch = .ok (final, opened))
    (hclear : (∀ row ∈ otherRows w.table store,
        row.heartbeatAtEpoch < ttlCutoff store nowEpoch) ∨
      LetPast w store.pid store.dbPathAbs) :
    Sound { w with table := final, stores := w.stores ++ [opened] } := by
  obtain ⟨rfl, -, hrows⟩ := takeOver_ok hok
  have hnew : newRow opened nowEpoch ∈ final.rows := by
    rw [hrows]
    exact List.mem_append_right _ (List.mem_singleton_self _)
  have hmarked : Sound { w with
      table := w.table.update (staleIds w.table opened nowEpoch) (.stale nowEpoch) } :=
    h.update fun row hact => (Update.stale_status hact).2
  -- a row beside the new one was let past, or its process was
  have halone : ∀ row ∈ final.rows, row.status = .active → row.dbPath = opened.dbPathAbs →
      ¬ LetPast w opened.pid opened.dbPathAbs → row.instanceId = opened.instanceId := by
    intro row hrow hact hdb hclean
    rcases takeOver_active hok hrow hact with rfl | ⟨-, hfresh⟩
    · rfl
    · obtain ⟨hother, hle⟩ := hfresh hdb
      exact absurd ((hclear.resolve_right hclean) row hother) (not_lt.mpr hle)
  refine ⟨fun store hin => ?_, fun row hrow other hother hact hact' hdb hclean hclean' => ?_⟩
  · rcases List.mem_append.mp hin with hin | hin
    · obtain ⟨row, hrow, hfields⟩ := hmarked.held store hin
      refine ⟨row, ?_, hfields⟩
      rw [hrows]
      exact List.mem_append_left _ hrow
    · obtain rfl := List.mem_singleton.mp hin
      exact ⟨_, hnew, rfl, rfl, rfl⟩
  · rcases takeOver_active hok hrow hact with rfl | ⟨hold, -⟩
    · exact (halone other hother hact' hdb.symm hclean).symm
    · rcases takeOver_active hok hother hact' with rfl | ⟨hold', -⟩
      · exact halone row hrow hact hdb hclean'
      · exact h.exclusive row hold other hold' hact hact' hdb hclean hclean'

theorem step_sound (w : World) (event : Event) (h : Sound w) : Sound (step w event) := by
  cases event with
  | start store nowEpoch =>
    have hlogged := h.logged (activeConflict w.table store nowEpoch).toList
    unfold step
    dsimp only
    split
    · next final opened hok =>
      rcases registerInstanceLock_ok hok with ⟨row, hin, hpid, -, rfl, rfl⟩ | ⟨htake, hclear⟩
      · obtain ⟨hrow, hdb, -, -⟩ := mem_otherRows.mp hin
        have hkept : ∀ old : ProcessInstance,
            ((Update.heartbeat nowEpoch).applyTo [row.instanceId] old).status = .active →
            old.status = .active := fun old hact => by rwa [Update.heartbeat_status] at hact
        refine (hlogged.update hkept).open
          (ProcessInstances.mem_update.mpr ⟨row, hrow, rfl⟩) ?_ ?_ ?_
        · rw [Update.applyTo_instanceId]
        · rw [Update.applyTo_pid, hpid]
        · rw [Update.applyTo_dbPath, hdb]
      · refine hlogged.takeOver htake ?_
        rcases hclear with hexpired | ⟨conflict, hconflict, hfields⟩
        · exact .inl hexpired
        · refine .inr ⟨conflict, List.mem_append_right _ ?_, hfields⟩
          rw [hconflict]
          exact List.mem_singleton_self _
    · exact hlogged
  | heartbeat instanceId nowEpoch =>
    exact h.update fun row hact => by rwa [Update.heartbeat_status] at hact
  | release store nowEpoch =>
    have hclosed : Sound { w with
        table := w.table.update [store.instanceId] (.closed .ended nowEpoch) } :=
      h.update fun row hact => (Update.closed_status (by decide) hact).2
    exact ⟨fun other hin => hclosed.held other (List.mem_of_mem_erase hin), hclosed.exclusive⟩
  | forceUnlock instanceId nowEpoch =>
    exact h.update fun row hact => (Update.closed_status (by decide) hact).2

theorem run_sound (events : List Event) : Sound (Runs.run step World.fresh events) :=
  Runs.run_keeps step_sound World.fresh events sound_fresh

/-- The store's row is marked active. -/
def MarkedActive (w : World) (store : StateStore) : Prop :=
  ∃ row ∈ w.table.rows, row.instanceId = store.instanceId ∧ row.status = .active

/-- A store's row that is marked active. -/
theorem Sound.row (h : Sound w) {store : StateStore} (hin : store ∈ w.stores)
    (hmarked : MarkedActive w store) : ∃ row ∈ w.table.rows, row.status = .active ∧
      row.instanceId = store.instanceId ∧ row.pid = store.pid ∧ row.dbPath = store.dbPathAbs := by
  obtain ⟨active, hactive, hid, hact⟩ := hmarked
  obtain ⟨row, hrow, hid', hfields⟩ := h.held store hin
  obtain rfl := ProcessInstances.eq_of_instanceId hactive hrow (hid.trans hid'.symm)
  exact ⟨active, hactive, hact, hid, hfields⟩

theorem Sound.shared (h : Sound w) {store other : StateStore} (hstore : store ∈ w.stores)
    (hother : other ∈ w.stores) (hdb : store.dbPathAbs = other.dbPathAbs)
    (hmarked : MarkedActive w store) (hmarked' : MarkedActive w other)
    (hclean : ¬ LetPast w store.pid store.dbPathAbs)
    (hclean' : ¬ LetPast w other.pid other.dbPathAbs) :
    store.pid = other.pid ∧ store.instanceId = other.instanceId := by
  obtain ⟨row, hin, hact, hid, hpid, hpath⟩ := h.row hstore hmarked
  obtain ⟨row', hin', hact', hid', hpid', hpath'⟩ := h.row hother hmarked'
  have hsame : row.instanceId = row'.instanceId := by
    refine h.exclusive row hin row' hin' hact hact' ?_ ?_ ?_
    · rw [hpath, hpath', hdb]
    · rw [hpid, hpath]
      exact hclean
    · rw [hpid', hpath']
      exact hclean'
  obtain rfl := ProcessInstances.eq_of_instanceId hin hin' hsame
  exact ⟨hpid.symm.trans hpid', hid.symm.trans hid'⟩

end Exclusion

/-- In any run, two stores open on one database whose rows are marked active and whose
processes were let past no conflict are of one process and share one registration. -/
theorem active_registration_unique (events : List Event) :
    let w := Runs.run step World.fresh events
    ∀ store ∈ w.stores, ∀ other ∈ w.stores, store.dbPathAbs = other.dbPathAbs →
      MarkedActive w store → MarkedActive w other →
      ¬ LetPast w store.pid store.dbPathAbs → ¬ LetPast w other.pid other.dbPathAbs →
      store.pid = other.pid ∧ store.instanceId = other.instanceId := by
  intro w store hstore other hother hdb hmarked hmarked' hclean hclean'
  exact (run_sound events).shared hstore hother hdb hmarked hmarked' hclean hclean'

/-- A trader that opens the database twice, and a monitor that is let past it. -/
def sharedRun : List Event :=
  [.start (.create "a" 1 "bot.db" true 180) 0, .start (.create "b" 2 "bot.db" false 180) 10,
    .heartbeat "a" 20, .start (.create "c" 1 "bot.db" true 180) 30]

theorem sharedRun_registration :
    let w := Runs.run step World.fresh sharedRun
    w.stores.map StateStore.instanceId = ["a", "b", "a"] ∧
      ∀ store ∈ w.stores, ∀ other ∈ w.stores, store.pid = 1 → other.pid = 1 →
        store.instanceId = other.instanceId := by
  have hmarked : ∀ store ∈ (Runs.run step World.fresh sharedRun).stores,
      store.dbPathAbs = "bot.db" ∧
        MarkedActive (Runs.run step World.fresh sharedRun) store := by
    unfold MarkedActive
    decide +kernel
  have hclean : ¬ LetPast (Runs.run step World.fresh sharedRun) 1 "bot.db" := by
    unfold LetPast
    decide +kernel
  refine ⟨by decide +kernel, fun store hstore other hother hpid hpid' => ?_⟩
  obtain ⟨hdb, hact⟩ := hmarked store hstore
  obtain ⟨hdb', hact'⟩ := hmarked other hother
  refine (active_registration_unique sharedRun store hstore other hother (hdb.trans hdb'.symm)
    hact hact' ?_ ?_).2
  · rw [hpid, hdb]
    exact hclean
  · rw [hpid', hdb']
    exact hclean

section Timely

/-- A start finds every open store of its database stamped within its limit, a store that is
released shares its row with no other open one, and no open store is unlocked. -/
def Timely (w : World) : Event → Prop
  | .start store nowEpoch => ∀ held ∈ w.stores, held.dbPathAbs = store.dbPathAbs →
    ∀ row ∈ w.table.rows, row.instanceId = held.instanceId →
      ttlCutoff store nowEpoch ≤ row.heartbeatAtEpoch
  | .heartbeat _ _ => True
  | .release store _ => ∀ held ∈ w.stores.erase store, held.instanceId ≠ store.instanceId
  | .forceUnlock instanceId _ => ∀ held ∈ w.stores, held.instanceId ≠ instanceId

variable {w : World} {store : StateStore}

theorem MarkedActive.update (h : MarkedActive w store) {ids : List String}
    (hids : store.instanceId ∉ ids) (change : Update) :
    MarkedActive { w with table := w.table.update ids change } store := by
  obtain ⟨row, hrow, hid, hact⟩ := h
  have hkept : change.applyTo ids row = row := Update.applyTo_other _ _ _ (hid ▸ hids)
  exact ⟨row, ProcessInstances.mem_update.mpr ⟨row, hrow, hkept⟩, hid, hact⟩

theorem MarkedActive.heartbeat (h : MarkedActive w store) (ids : List String) (nowEpoch : ℤ) :
    MarkedActive { w with table := w.table.update ids (.heartbeat nowEpoch) } store := by
  obtain ⟨row, hrow, hid, hact⟩ := h
  refine ⟨_, ProcessInstances.mem_update.mpr ⟨row, hrow, rfl⟩, ?_, ?_⟩
  · rw [Update.applyTo_instanceId, hid]
  · rw [Update.heartbeat_status, hact]

/-- A takeover marks no store that was stamped within the limit. -/
theorem not_mem_staleIds (h : Sound w) (hin : store ∈ w.stores) {newcomer : StateStore}
    {nowEpoch : ℤ} (htimely : Timely w (.start newcomer nowEpoch)) :
    store.instanceId ∉ staleIds w.table newcomer nowEpoch := by
  intro hstale
  obtain ⟨row, hother, hexpired, hid⟩ := mem_staleIds.mp hstale
  obtain ⟨hrow, hdb, -, -⟩ := mem_otherRows.mp hother
  obtain ⟨held, hheld, hid', -, hpath⟩ := h.held store hin
  obtain rfl := ProcessInstances.eq_of_instanceId hrow hheld (hid.trans hid'.symm)
  exact absurd (htimely store hin (hpath.symm.trans hdb) row hrow hid) (not_le.mpr hexpired)

theorem step_marked (h : Sound w) (hmarked : ∀ store ∈ w.stores, MarkedActive w store)
    {event : Event} (htimely : Timely w event) :
    ∀ store ∈ (step w event).stores, MarkedActive (step w event) store := by
  cases event with
  | start newcomer nowEpoch =>
    unfold step
    dsimp only
    split
    · next final opened hok =>
      intro store hin
      rcases registerInstanceLock_ok hok with ⟨row, hrow, -, -, rfl, rfl⟩ | ⟨htake, -⟩
      · rcases List.mem_append.mp hin with hold | hnew
        · exact (hmarked store hold).heartbeat [row.instanceId] nowEpoch
        · obtain rfl := List.mem_singleton.mp hnew
          obtain ⟨hin', -, -, hact⟩ := mem_otherRows.mp hrow
          have hreused : MarkedActive w { newcomer with instanceId := row.instanceId } :=
            ⟨row, hin', rfl, hact⟩
          exact hreused.heartbeat [row.instanceId] nowEpoch
      · obtain ⟨rfl, -, hrows⟩ := takeOver_ok htake
        rcases List.mem_append.mp hin with hold | hnew
        · obtain ⟨row, hrow, hid, hact⟩ :=
            (hmarked store hold).update (not_mem_staleIds h hold htimely) (.stale nowEpoch)
          refine ⟨row, ?_, hid, hact⟩
          rw [hrows]
          exact List.mem_append_left _ hrow
        · obtain rfl := List.mem_singleton.mp hnew
          refine ⟨newRow store nowEpoch, ?_, rfl, rfl⟩
          rw [hrows]
          exact List.mem_append_right _ (List.mem_singleton_self _)
    · exact hmarked
  | heartbeat instanceId nowEpoch =>
    exact fun store hin => (hmarked store hin).heartbeat [instanceId] nowEpoch
  | release released nowEpoch =>
    intro store hin
    have hkept : store.instanceId ∉ [released.instanceId] :=
      List.mem_singleton.not.mpr (htimely store hin)
    exact (hmarked store (List.mem_of_mem_erase hin)).update hkept _
  | forceUnlock instanceId nowEpoch =>
    intro store hin
    exact (hmarked store hin).update (List.mem_singleton.not.mpr (htimely store hin)) _

theorem run_marked (events : List Event) (h : Runs.Meets step Timely World.fresh events) :
    ∀ store ∈ (Runs.run step World.fresh events).stores,
      MarkedActive (Runs.run step World.fresh events) store := by
  have hboth := Runs.run_meets (I := fun w => Sound w ∧ ∀ store ∈ w.stores, MarkedActive w store)
    (fun w event hw htimely => ⟨step_sound w event hw.1, step_marked hw.1 hw.2 htimely⟩)
    World.fresh events ⟨sound_fresh, fun _ hin => by cases hin⟩ h
  exact hboth.2

end Timely

/-- While the stores stamp their rows in time, at most one process has the database open,
leaving out those that were let past a conflict, and it has it under one registration. -/
theorem open_stores_exclude (events : List Event)
    (htimely : Runs.Meets step Timely World.fresh events) :
    let w := Runs.run step World.fresh events
    ∀ store ∈ w.stores, ∀ other ∈ w.stores, store.dbPathAbs = other.dbPathAbs →
      ¬ LetPast w store.pid store.dbPathAbs → ¬ LetPast w other.pid other.dbPathAbs →
      store.pid = other.pid ∧ store.instanceId = other.instanceId := by
  intro w store hstore other hother hdb hclean hclean'
  exact (run_sound events).shared hstore hother hdb (run_marked events htimely store hstore)
    (run_marked events htimely other hother) hclean hclean'

instance timelyDecidable (w : World) (event : Event) : Decidable (Timely w event) := by
  cases event <;> unfold Timely <;> infer_instance

/-- A trader that stamps its row and releases it before another one starts. -/
def handedOver : List Event :=
  [.start (.create "a" 1 "bot.db" true 180) 0, .heartbeat "a" 100,
    .start (.create "x" 2 "bot.db" true 180) 250,
    .release (.create "a" 1 "bot.db" true 180) 260,
    .start (.create "b" 2 "bot.db" true 180) 270, .start (.create "c" 2 "bot.db" true 180) 280]

theorem handedOver_excludes :
    let w := Runs.run step World.fresh handedOver
    w.stores.map StateStore.instanceId = ["b", "b"] ∧
      ∀ store ∈ w.stores, ∀ other ∈ w.stores, store.pid = other.pid := by
  have htimely : Runs.Meets step Timely World.fresh handedOver := by
    refine ⟨?_, ?_, ?_, ?_, ?_, ?_, trivial⟩ <;> decide +kernel
  have hclean : ∀ store ∈ (Runs.run step World.fresh handedOver).stores,
      store.dbPathAbs = "bot.db" ∧
        ¬ LetPast (Runs.run step World.fresh handedOver) store.pid store.dbPathAbs := by
    unfold LetPast
    decide +kernel
  refine ⟨by decide +kernel, fun store hstore other hother => ?_⟩
  obtain ⟨hdb, hpast⟩ := hclean store hstore
  obtain ⟨hdb', hpast'⟩ := hclean other hother
  exact (open_stores_exclude handedOver htimely store hstore other hother (hdb.trans hdb'.symm)
    hpast hpast').1

/-- A strict start under a new id gets a row of its own exactly when every row of the database
that is marked active is past its limit, and is then the only one marked active. -/
theorem strict_start_iff (events : List Event) (newcomer : StateStore) (nowEpoch : ℤ)
    (hstrict : newcomer.strictInstanceLock = true) :
    let w := Runs.run step World.fresh events
    let final := step w (.start newcomer nowEpoch)
    newcomer.instanceId ∉ w.table.rows.map ProcessInstance.instanceId →
      (MarkedActive final newcomer ↔ ∀ row ∈ w.table.rows, row.dbPath = newcomer.dbPathAbs →
        row.status = .active → row.heartbeatAtEpoch < ttlCutoff newcomer nowEpoch) ∧
      (MarkedActive final newcomer → ∀ store ∈ w.stores,
        store.dbPathAbs = newcomer.dbPathAbs → ¬ MarkedActive final store) := by
  intro w final hnew
  have hsound : Sound w := run_sound events
  have hrows : ∀ row ∈ w.table.rows, row.dbPath = newcomer.dbPathAbs → row.status = .active →
      row ∈ otherRows w.table newcomer := fun row hrow hpath hact =>
    mem_otherRows.mpr ⟨hrow, hpath, fun heq => hnew (List.mem_map.mpr ⟨row, hrow, heq⟩), hact⟩
  cases hregister : registerInstanceLock w.table newcomer nowEpoch with
  | error e =>
    have htable : final.table = w.table := by simp only [final, step, hregister]
    have hout : ¬ MarkedActive final newcomer := by
      rintro ⟨row, hrow, hid, -⟩
      rw [htable] at hrow
      exact hnew (List.mem_map.mpr ⟨row, hrow, hid⟩)
    refine ⟨iff_of_false hout fun hexpired => ?_, fun hin => absurd hin hout⟩
    obtain ⟨_, hok⟩ := registerInstanceLock_expired hnew fun row hin => by
      obtain ⟨hrow, hpath, -, hact⟩ := mem_otherRows.mp hin
      exact hexpired row hrow hpath hact
    rw [hregister] at hok
    cases hok
  | ok result =>
    obtain ⟨table, opened⟩ := result
    have htable : final.table = table := by simp only [final, step, hregister]
    rcases registerInstanceLock_ok hregister with ⟨row, hin, -, hfresh, hfinal, -⟩ | ⟨htake, hclear⟩
    · -- the newcomer goes on under the row of its own process, which is within the limit
      obtain ⟨hrow, hpath, -, hact⟩ := mem_otherRows.mp hin
      have hout : ¬ MarkedActive final newcomer := by
        rintro ⟨updated, hupdated, hid, -⟩
        rw [htable, hfinal] at hupdated
        obtain ⟨old, hold, rfl⟩ := ProcessInstances.mem_update.mp hupdated
        rw [Update.applyTo_instanceId] at hid
        exact hnew (List.mem_map.mpr ⟨old, hold, hid⟩)
      refine ⟨iff_of_false hout fun hexpired => ?_, fun hmarked => absurd hmarked hout⟩
      exact absurd (hexpired row hrow hpath hact) (not_lt.mpr hfresh)
    · obtain ⟨rfl, -, hfinal⟩ := takeOver_ok htake
      have hexpired : ∀ row ∈ otherRows w.table opened,
          row.heartbeatAtEpoch < ttlCutoff opened nowEpoch := by
        rcases hclear with hexpired | ⟨conflict, hconflict, -, -, hlenient⟩
        · exact hexpired
        · rw [activeConflict_strict hconflict, hstrict] at hlenient
          cases hlenient
      have hin : MarkedActive final opened := by
        refine ⟨newRow opened nowEpoch, ?_, rfl, rfl⟩
        rw [htable, hfinal]
        exact List.mem_append_right _ (List.mem_singleton_self _)
      refine ⟨iff_of_true hin fun row hrow hpath hact => hexpired row (hrows row hrow hpath hact),
        fun _ store hstore hpath => ?_⟩
      rintro ⟨row, hrow, hid, hact⟩
      rw [htable] at hrow
      obtain ⟨held, hheld, hid', -, hpath'⟩ := hsound.held store hstore
      rcases takeOver_active htake hrow hact with rfl | ⟨hold, hfresh⟩
      · exact hnew (List.mem_map.mpr ⟨held, hheld, hid'.trans hid.symm⟩)
      · obtain rfl := ProcessInstances.eq_of_instanceId hold hheld (hid.trans hid'.symm)
        obtain ⟨hother, hle⟩ := hfresh (hpath'.trans hpath)
        exact absurd (hexpired row hother) (not_lt.mpr hle)

/-- A newcomer 181 seconds after the last stamp of a crashed trader. -/
theorem crashed_takenOver :
    let w := Runs.run step World.fresh
      [.start (.create "a" 1 "bot.db" true 180) 0, .heartbeat "a" 100]
    let newcomer := StateStore.create "b" 2 "bot.db" true 180
    MarkedActive (step w (.start newcomer 281)) newcomer ∧
      ¬ MarkedActive (step w (.start newcomer 280)) newcomer := by
  have hiff (nowEpoch : ℤ) := (strict_start_iff
    [.start (.create "a" 1 "bot.db" true 180) 0, .heartbeat "a" 100]
    (.create "b" 2 "bot.db" true 180) nowEpoch rfl (by decide +kernel)).1
  refine ⟨(hiff 281).mpr (by decide +kernel), fun h => ?_⟩
  exact absurd ((hiff 280).mp h) (by decide +kernel)

end InstanceLock
