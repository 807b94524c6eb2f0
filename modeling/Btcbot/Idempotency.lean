import Btcbot.Runs
import Mathlib.Logic.Function.Basic
import Mathlib.Data.Int.Order.Basic

/-!
# Idempotency keys

One row a pair of action type and key. A reservation inserts the row, takes over
a failed one, fails and takes over a stale bare pending one, or promotes a live
simulated one; a row of another payload raises, except under promotion.
-/
namespace Idempotency

inductive IdempotencyStatus where
  | pending
  | committed
  | unknown
  | failed
  | simulated
  deriving DecidableEq, Repr

structure IdempotencyRow where
  payloadHash : String
  createdAtEpoch : ℤ
  expiresAtEpoch : ℤ
  actionId : Option ℕ := none
  clientOrderId : Option String := none
  orderId : Option String := none
  status : IdempotencyStatus := .pending
  recoveryAttempts : ℤ := 0
  nextRecoveryAtEpoch : Option ℤ := none
  deriving DecidableEq, Repr

/-- The action type and the key. -/
abbrev RowKey := String × String

abbrev IdempotencyTable := RowKey → Option IdempotencyRow

def IdempotencyTable.empty : IdempotencyTable := fun _ => none

def pendingGraceSeconds : ℤ := 60

structure ReservationResult where
  reserved : Bool
  row : IdempotencyRow
  deriving DecidableEq, Repr

structure IdempotencyConflict where
  rowKey : RowKey
  existing : String
  incoming : String
  deriving DecidableEq, Repr

structure ReserveArgs where
  payloadHash : String
  ttlSeconds : ℤ
  allowPromoteSimulated : Bool := false
  deriving DecidableEq, Repr

def setRow (table : IdempotencyTable) (k : RowKey) (row : IdempotencyRow) : IdempotencyTable :=
  Function.update table k (some row)

@[simp] theorem setRow_same (table : IdempotencyTable) (k : RowKey) (row : IdempotencyRow) :
    setRow table k row k = some row := by
  simp [setRow]

@[simp] theorem setRow_other (table : IdempotencyTable) {k l : RowKey} (row : IdempotencyRow)
    (h : l ≠ k) : setRow table k row l = table l := by
  simp [setRow, h]

/-- A row reserved now: pending, with nothing recorded. -/
def freshRow (now : ℤ) (args : ReserveArgs) : IdempotencyRow where
  payloadHash := args.payloadHash
  createdAtEpoch := now
  expiresAtEpoch := now + max 1 args.ttlSeconds

def stalePending (now : ℤ) (row : IdempotencyRow) : Bool :=
  row.status == .pending && decide (pendingGraceSeconds < max 0 (now - row.createdAtEpoch)) &&
    row.actionId == none && row.clientOrderId == none

/-- A stale bare row is failed before it is looked at. -/
def settleStale (now : ℤ) (row : IdempotencyRow) : IdempotencyRow :=
  if stalePending now row then { row with status := .failed } else row

def reserveIdempotencyKey (now : ℤ) (table : IdempotencyTable) (k : RowKey)
    (args : ReserveArgs) : Except IdempotencyConflict (ReservationResult × IdempotencyTable) :=
  match table k with
  | none => .ok (⟨true, freshRow now args⟩, setRow table k (freshRow now args))
  | some existing =>
    if existing.payloadHash ≠ args.payloadHash ∧
        ¬ (args.allowPromoteSimulated = true ∧ existing.status = .simulated) then
      .error ⟨k, existing.payloadHash, args.payloadHash⟩
    else
      let row := settleStale now existing
      if args.allowPromoteSimulated = true ∧ row.status = .simulated ∧
          now < row.expiresAtEpoch then
        .ok (⟨true, freshRow now args⟩, setRow table k (freshRow now args))
      else if row.status = .failed then
        -- the payload hash of the row stays
        let retry := { freshRow now args with payloadHash := row.payloadHash }
        .ok (⟨true, retry⟩, setRow table k retry)
      else .ok (⟨false, row⟩, table)

structure FinalizeArgs where
  actionId : Option ℕ
  clientOrderId : Option String
  orderId : Option String
  status : IdempotencyStatus
  deriving DecidableEq, Repr

def updateRow (table : IdempotencyTable) (k : RowKey) (f : IdempotencyRow → IdempotencyRow) :
    IdempotencyTable := Function.update table k ((table k).map f)

@[simp] theorem updateRow_same (table : IdempotencyTable) (k : RowKey)
    (f : IdempotencyRow → IdempotencyRow) : updateRow table k f k = (table k).map f := by
  simp [updateRow]

@[simp] theorem updateRow_other (table : IdempotencyTable) {k l : RowKey}
    (f : IdempotencyRow → IdempotencyRow) (h : l ≠ k) : updateRow table k f l = table l := by
  simp [updateRow, h]

/-- What is given replaces the column, what is not leaves it. -/
def FinalizeArgs.apply (args : FinalizeArgs) (row : IdempotencyRow) : IdempotencyRow :=
  { row with
    actionId := args.actionId.or row.actionId
    clientOrderId := args.clientOrderId.or row.clientOrderId
    orderId := args.orderId.or row.orderId
    status := args.status }

def finalizeIdempotencyKey (table : IdempotencyTable) (k : RowKey) (args : FinalizeArgs) :
    IdempotencyTable := updateRow table k args.apply

structure RecoveryArgs where
  recoveryAttempts : ℤ
  nextRecoveryAtEpoch : Option ℤ
  status : Option IdempotencyStatus := none
  deriving DecidableEq, Repr

def RecoveryArgs.apply (args : RecoveryArgs) (row : IdempotencyRow) : IdempotencyRow :=
  { row with
    recoveryAttempts := max 0 args.recoveryAttempts
    nextRecoveryAtEpoch := args.nextRecoveryAtEpoch
    status := args.status.getD row.status }

def updateIdempotencyRecovery (table : IdempotencyTable) (k : RowKey) (args : RecoveryArgs) :
    IdempotencyTable := updateRow table k args.apply

/-- Zero counts as no time given. -/
def resolvedNow (now : ℤ) (nowEpoch : Option ℤ) : ℤ :=
  match nowEpoch with
  | some t => if t = 0 then now else t
  | none => now

def pruneExpiredIdempotencyKeys (now : ℤ) (table : IdempotencyTable) (nowEpoch : Option ℤ) :
    IdempotencyTable := fun k =>
  (table k).filter fun row => ¬ row.expiresAtEpoch ≤ resolvedNow now nowEpoch

section Exclusivity

inductive IdempotencyOp where
  | reserve (k : RowKey) (args : ReserveArgs)
  | finalize (k : RowKey) (args : FinalizeArgs)
  | updateRecovery (k : RowKey) (args : RecoveryArgs)
  | prune (nowEpoch : Option ℤ)

/-- One call at the clock's reading; a call that raises changes nothing. -/
def stepOp (table : IdempotencyTable) (call : ℤ × IdempotencyOp) : IdempotencyTable :=
  match call.2 with
  | .reserve k args =>
    match reserveIdempotencyKey call.1 table k args with
    | .ok (_, next) => next
    | .error _ => table
  | .finalize k args => finalizeIdempotencyKey table k args
  | .updateRecovery k args => updateIdempotencyRecovery table k args
  | .prune nowEpoch => pruneExpiredIdempotencyKeys call.1 table nowEpoch

def Reserves (table : IdempotencyTable) (now : ℤ) (k : RowKey) (args : ReserveArgs) : Prop :=
  ∃ row next, reserveIdempotencyKey now table k args = .ok (⟨true, row⟩, next)

/-- The ways a call frees the key. -/
inductive Frees (k : RowKey) (table : IdempotencyTable) (call : ℤ × IdempotencyOp) : Prop where
  | failed (row : IdempotencyRow) : stepOp table call k = some row → row.status = .failed →
      Frees k table call
  | expired (row : IdempotencyRow) (nowEpoch : Option ℤ) : table k = some row →
      call.2 = .prune nowEpoch → row.expiresAtEpoch ≤ resolvedNow call.1 nowEpoch →
      Frees k table call
  | stale (row : IdempotencyRow) (args : ReserveArgs) : table k = some row →
      call.2 = .reserve k args → stalePending call.1 row = true → Frees k table call
  | promoted (row : IdempotencyRow) (args : ReserveArgs) : table k = some row →
      call.2 = .reserve k args → args.allowPromoteSimulated = true → row.status = .simulated →
      Frees k table call

/-- The key is taken by a row that is not failed. -/
def Held (k : RowKey) (table : IdempotencyTable) : Prop :=
  ∃ row, table k = some row ∧ row.status ≠ .failed

/-- A call that does not raise takes the key with a fresh row or leaves the table alone. -/
theorem reserve_cases {now : ℤ} {table next : IdempotencyTable} {k : RowKey} {args : ReserveArgs}
    {result : ReservationResult}
    (h : reserveIdempotencyKey now table k args = .ok (result, next)) :
    (result.reserved = true ∧ next = setRow table k result.row ∧
      ∃ hash, result.row = { freshRow now args with payloadHash := hash }) ∨
    (result.reserved = false ∧ next = table) := by
  simp only [reserveIdempotencyKey] at h
  cases hrow : table k with
  | none =>
    simp only [hrow, Except.ok.injEq, Prod.mk.injEq] at h
    obtain ⟨rfl, rfl⟩ := h
    exact .inl ⟨rfl, rfl, _, rfl⟩
  | some existing =>
    simp only [hrow] at h
    by_cases hconflict : existing.payloadHash ≠ args.payloadHash ∧
        ¬ (args.allowPromoteSimulated = true ∧ existing.status = .simulated)
    · rw [if_pos hconflict] at h
      cases h
    rw [if_neg hconflict] at h
    by_cases hpromote : args.allowPromoteSimulated = true ∧
        (settleStale now existing).status = .simulated ∧
        now < (settleStale now existing).expiresAtEpoch
    · rw [if_pos hpromote, Except.ok.injEq, Prod.mk.injEq] at h
      obtain ⟨rfl, rfl⟩ := h
      exact .inl ⟨rfl, rfl, _, rfl⟩
    rw [if_neg hpromote] at h
    by_cases hfailed : (settleStale now existing).status = .failed
    · rw [if_pos hfailed, Except.ok.injEq, Prod.mk.injEq] at h
      obtain ⟨rfl, rfl⟩ := h
      exact .inl ⟨rfl, rfl, _, rfl⟩
    · rw [if_neg hfailed, Except.ok.injEq, Prod.mk.injEq] at h
      obtain ⟨rfl, rfl⟩ := h
      exact .inr ⟨rfl, rfl⟩

theorem reserve_held {now : ℤ} {table next : IdempotencyTable} {k : RowKey} {args : ReserveArgs}
    {row : IdempotencyRow} (h : reserveIdempotencyKey now table k args = .ok (⟨true, row⟩, next)) :
    Held k next := by
  rcases reserve_cases h with ⟨-, rfl, hash, hfresh⟩ | ⟨hno, -⟩
  · exact ⟨row, setRow_same table k row, by simp only at hfresh; simp [hfresh, freshRow]⟩
  · cases hno

/-- A held key is reserved again only by taking over a stale row or by promotion. -/
theorem reserve_of_held {now : ℤ} {table : IdempotencyTable} {k : RowKey} {args : ReserveArgs}
    {existing : IdempotencyRow} (hrow : table k = some existing) (hlive : existing.status ≠ .failed)
    (hstale : stalePending now existing = false)
    (hpromote : ¬ (args.allowPromoteSimulated = true ∧ existing.status = .simulated)) :
    reserveIdempotencyKey now table k args =
      if existing.payloadHash ≠ args.payloadHash then
        .error ⟨k, existing.payloadHash, args.payloadHash⟩
      else .ok (⟨false, existing⟩, table) := by
  have hpromote' : ¬ (args.allowPromoteSimulated = true ∧ existing.status = .simulated ∧
      now < existing.expiresAtEpoch) := fun h => hpromote ⟨h.1, h.2.1⟩
  have hsettled : settleStale now existing = existing := by simp [settleStale, hstale]
  simp only [reserveIdempotencyKey, hrow, hsettled]
  rw [if_neg hpromote', if_neg hlive]
  simp only [hpromote, not_false_eq_true, and_true]

theorem reserve_other {now : ℤ} {table next : IdempotencyTable} {k l : RowKey}
    {args : ReserveArgs} {result : ReservationResult} (hl : l ≠ k)
    (h : reserveIdempotencyKey now table k args = .ok (result, next)) : next l = table l := by
  rcases reserve_cases h with ⟨-, rfl, -⟩ | ⟨-, rfl⟩
  · exact setRow_other table _ hl
  · rfl

theorem held_stepOp {k : RowKey} (table : IdempotencyTable) (call : ℤ × IdempotencyOp)
    (h : Held k table) (hno : ¬ Frees k table call) : Held k (stepOp table call) := by
  obtain ⟨row, hrow, hlive⟩ := h
  obtain ⟨now, op⟩ := call
  cases op with
  | reserve l args =>
    cases hr : reserveIdempotencyKey now table l args with
    | error e => exact ⟨row, by simp [stepOp, hr, hrow], hlive⟩
    | ok result =>
      obtain ⟨result, next⟩ := result
      have hstep : stepOp table (now, .reserve l args) = next := by simp [stepOp, hr]
      rw [hstep]
      by_cases hl : k = l
      · subst hl
        have hstale : stalePending now row = false := by
          by_contra hc
          exact hno (.stale row args hrow rfl (by simpa using hc))
        have hpromote : ¬ (args.allowPromoteSimulated = true ∧ row.status = .simulated) :=
          fun hc => hno (.promoted row args hrow rfl hc.1 hc.2)
        rw [reserve_of_held hrow hlive hstale hpromote] at hr
        split at hr
        · cases hr
        · cases hr
          exact ⟨row, hrow, hlive⟩
      · exact ⟨row, by rw [reserve_other hl hr, hrow], hlive⟩
  | finalize l args =>
    by_cases hl : k = l
    · subst hl
      have hnext : stepOp table (now, .finalize k args) k = some (args.apply row) := by
        simp [stepOp, finalizeIdempotencyKey, hrow]
      exact ⟨args.apply row, hnext, fun hf => hno (.failed _ hnext hf)⟩
    · exact ⟨row, by simp [stepOp, finalizeIdempotencyKey, hl, hrow], hlive⟩
  | updateRecovery l args =>
    by_cases hl : k = l
    · subst hl
      have hnext : stepOp table (now, .updateRecovery k args) k = some (args.apply row) := by
        simp [stepOp, updateIdempotencyRecovery, hrow]
      exact ⟨args.apply row, hnext, fun hf => hno (.failed _ hnext hf)⟩
    · exact ⟨row, by simp [stepOp, updateIdempotencyRecovery, hl, hrow], hlive⟩
  | prune nowEpoch =>
    have hkeep : ¬ row.expiresAtEpoch ≤ resolvedNow now nowEpoch :=
      fun hc => hno (.expired row nowEpoch hrow rfl hc)
    refine ⟨row, ?_, hlive⟩
    simp [stepOp, pruneExpiredIdempotencyKeys, hrow, Option.filter, hkeep]

/-- Reserving again needs the key freed, whatever the clock reads. -/
theorem frees_of_reserves_held {now : ℤ} {table : IdempotencyTable} {k : RowKey}
    {args : ReserveArgs} (h : Held k table) (hr : Reserves table now k args) :
    Frees k table (now, .reserve k args) := by
  obtain ⟨row, hrow, hlive⟩ := h
  obtain ⟨result, next, hr⟩ := hr
  by_contra hno
  have hstale : stalePending now row = false := by
    by_contra hc
    exact hno (.stale row args hrow rfl (by simpa using hc))
  have hpromote : ¬ (args.allowPromoteSimulated = true ∧ row.status = .simulated) :=
    fun hc => hno (.promoted row args hrow rfl hc.1 hc.2)
  rw [reserve_of_held hrow hlive hstale hpromote] at hr
  split at hr <;> cases hr

end Exclusivity

/-- Between two reservations of a key some call frees it; a committed or unknown row is never
reserved; another payload raises and changes no row, but for the promotion of a simulated one. -/
theorem reservation_exclusive (table : IdempotencyTable) (k : RowKey) :
    (∀ (first last : ℤ) (args args' : ReserveArgs) (calls : List (ℤ × IdempotencyOp)),
      Reserves table first k args →
      Reserves (Runs.run stepOp (stepOp table (first, .reserve k args)) calls) last k args' →
        ∃ before call after, calls ++ [(last, .reserve k args')] = before ++ call :: after ∧
          Frees k (Runs.run stepOp (stepOp table (first, .reserve k args)) before) call) ∧
    (∀ (now : ℤ) (args : ReserveArgs) (row : IdempotencyRow), table k = some row →
      row.status = .committed ∨ row.status = .unknown → ¬ Reserves table now k args) ∧
    (∀ (now : ℤ) (args : ReserveArgs) (row : IdempotencyRow), table k = some row →
      row.payloadHash ≠ args.payloadHash →
      ¬ (args.allowPromoteSimulated = true ∧ row.status = .simulated) →
        reserveIdempotencyKey now table k args =
          .error ⟨k, row.payloadHash, args.payloadHash⟩ ∧
        stepOp table (now, .reserve k args) = table) := by
  refine ⟨?_, ?_, ?_⟩
  · intro first last args args' calls hfirst hlast
    obtain ⟨row, next, hr⟩ := hfirst
    have hheld : Held k (stepOp table (first, .reserve k args)) := by
      have hstep : stepOp table (first, .reserve k args) = next := by simp [stepOp, hr]
      rw [hstep]
      exact reserve_held hr
    rcases Runs.held_or_released held_stepOp _ calls hheld with
      ⟨before, call, after, rfl, hfrees⟩ | hend
    · exact ⟨before, call, after ++ [(last, .reserve k args')], by simp, hfrees⟩
    · exact ⟨calls, (last, .reserve k args'), [], rfl, frees_of_reserves_held hend hlast⟩
  · intro now args row hrow hstatus hr
    have hlive : row.status ≠ .failed := by
      rcases hstatus with h | h <;> simp [h]
    cases frees_of_reserves_held ⟨row, hrow, hlive⟩ hr with
    | failed next hnext hf =>
      obtain ⟨result, after, hr⟩ := hr
      have hstep : stepOp table (now, .reserve k args) = after := by simp [stepOp, hr]
      obtain ⟨held, hheld, hne⟩ := reserve_held hr
      rw [hstep, hheld, Option.some.injEq] at hnext
      exact hne (hnext ▸ hf)
    | expired _ _ _ hop _ => cases hop
    | stale other _ hother _ hs =>
      obtain rfl : row = other := by simpa [hrow] using hother
      rcases hstatus with h | h <;> simp [stalePending, h] at hs
    | promoted other _ hother _ _ hs =>
      obtain rfl : row = other := by simpa [hrow] using hother
      rcases hstatus with h | h <;> simp [h] at hs
  · intro now args row hrow hne hpromote
    have hr : reserveIdempotencyKey now table k args =
        .error ⟨k, row.payloadHash, args.payloadHash⟩ := by
      simp only [reserveIdempotencyKey, hrow]
      rw [if_pos ⟨hne, hpromote⟩]
    exact ⟨hr, by simp [stepOp, hr]⟩

def sampleKey : RowKey := ("place_order", "k")

/-- A reservation is freed by its failure and taken again. -/
theorem reservation_exclusive_sample :
    ∃ before call after,
      [((2 : ℤ), IdempotencyOp.finalize sampleKey ⟨none, none, none, .failed⟩),
        (3, .reserve sampleKey ⟨"h", 60, false⟩)] = before ++ call :: after ∧
      Frees sampleKey (Runs.run stepOp (stepOp IdempotencyTable.empty
        (1, .reserve sampleKey ⟨"h", 60, false⟩)) before) call :=
  (reservation_exclusive IdempotencyTable.empty sampleKey).1 1 3 ⟨"h", 60, false⟩
    ⟨"h", 60, false⟩ [(2, .finalize sampleKey ⟨none, none, none, .failed⟩)]
    ⟨_, _, rfl⟩ ⟨_, _, rfl⟩

/-- A simulated reservation, then a promoting one of another payload. -/
def promotingCalls : List (ℤ × IdempotencyOp) :=
  [(1, .reserve sampleKey ⟨"simulated", 60, false⟩),
    (2, .finalize sampleKey ⟨none, none, none, .simulated⟩)]

/-- A live row of another payload may be taken over without raising. -/
theorem promotion_takes_live_row :
    ¬ ∀ (calls : List (ℤ × IdempotencyOp)) (now : ℤ) (k : RowKey) (args : ReserveArgs)
      (row : IdempotencyRow), (calls.map Prod.fst ++ [now]).Pairwise (fun s t => s ≤ t) →
      Runs.run stepOp IdempotencyTable.empty calls k = some row → now < row.expiresAtEpoch →
      row.payloadHash ≠ args.payloadHash →
        reserveIdempotencyKey now (Runs.run stepOp IdempotencyTable.empty calls) k args =
          .error ⟨k, row.payloadHash, args.payloadHash⟩ ∧
        stepOp (Runs.run stepOp IdempotencyTable.empty calls) (now, .reserve k args) k =
          some row := by
  intro hall
  have h := hall promotingCalls 3 sampleKey ⟨"live", 60, true⟩
    { payloadHash := "simulated", createdAtEpoch := 1, expiresAtEpoch := 61,
      status := .simulated } (by decide) (by decide) (by decide) (by decide)
  have htaken : stepOp (Runs.run stepOp IdempotencyTable.empty promotingCalls)
      (3, .reserve sampleKey ⟨"live", 60, true⟩) sampleKey =
        some { payloadHash := "live", createdAtEpoch := 3, expiresAtEpoch := 63 } := by decide
  rw [h.2] at htaken
  simp at htaken

end Idempotency
