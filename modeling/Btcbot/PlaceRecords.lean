import Btcbot.Stage3Frame
import Btcbot.Runs

/-!
# What the records say of the orders placed

A run keeps three records of an intent: its idempotency row, its action row and
the log of what was asked of the exchange. `Sound` ties them together: an order
created under a key has an action row holding the key's dedupe key, and a row
that names an order has evidence for it in the log. Each half is under a
condition on the log that the code itself does not ensure.
-/
namespace Stage3Service

open PyData ExchangeErrors Stage3Store Stage3Intent Idempotency ExecutionWrapper Effects

section Log

def placeDedupeKey (key : String) : String := "place_order" ++ ":" ++ key

/-- The orders created under a key. -/
def created (key : String) (log : List Event) : ℕ :=
  log.countP fun event => match event with
    | .place p => p.key == key && p.answer.creates
    | _ => false

/-- A call that creates the order tells so, or fails in a way that is reconciled. -/
def PlaceAttempt.Settled (p : PlaceAttempt) : Prop :=
  p.answer.creates = true →
    (∃ ack orderId, p.answer.result = .ok ack ∧ mapExchangeAckToSubmitResult ack = .ok orderId) ∨
    (∃ exc, p.answer.result = .error exc ∧
      (exc = .crash ∨ classifyExchangeError exc = .uncertain ∨
        (Retryable exc ∧ p.maxAttempts ≤ p.attempt)))

def AllSettled (log : List Event) : Prop := ∀ p, .place p ∈ log → p.Settled

/-- A place call was made under the key. -/
def Reached (key : String) (log : List Event) : Prop := ∃ p, .place p ∈ log ∧ p.key = key

/-- The exchange acknowledged the order, or reconciliation matched it, for the client order id. -/
inductive Evidence (log : List Event) (key clientOrderId orderId : String) : Prop where
  | acknowledged (p : PlaceAttempt) (ack : Ack) : .place p ∈ log →
      p.clientOrderId = clientOrderId → p.answer.result = .ok ack →
      mapExchangeAckToSubmitResult ack = .ok orderId → Evidence log key clientOrderId orderId
  | matched : .matched clientOrderId orderId ∈ log → Evidence log key clientOrderId orderId
  | recovered : .recovered key clientOrderId orderId ∈ log →
      Evidence log key clientOrderId orderId

/-- The ids a record carries are those of an order placed under the key. -/
structure Backed (log : List Event) (key : String) (clientOrderId orderId : Option String) :
    Prop where
  ids : ∃ c o, clientOrderId = some c ∧ orderId = some o ∧ Evidence log key c o
  reached : Reached key log

/-- No row takes over an action without an order, and none is recovered that was never placed. -/
structure Traceable (log : List Event) : Prop where
  adopted : ∀ key, Event.adopted (placeDedupeKey key) none ∉ log
  recovered : ∀ before key clientOrderId orderId after,
    log = before ++ .recovered key clientOrderId orderId :: after → Reached key before

theorem placeDedupeKey_inj {key key' : String} (h : placeDedupeKey key = placeDedupeKey key') :
    key = key' := by
  have hlist := congrArg String.toList h
  simp only [placeDedupeKey, String.toList_append, List.append_cancel_left_eq] at hlist
  exact String.toList_inj.mp hlist

/-- A dedupe key of another action. -/
def NotPlace (dedupeKey : String) : Prop := ∀ key, dedupeKey ≠ placeDedupeKey key

theorem notPlace_of_head {c : Char} {dedupeKey : String} (h : dedupeKey.toList.head? = some c)
    (hc : c ≠ 'p') : NotPlace dedupeKey := by
  rintro key rfl
  simp only [placeDedupeKey, String.toList_append] at h
  exact hc (Option.some.inj h).symm

variable {key : String} {log more : List Event}

@[simp] theorem created_nil : created key [] = 0 := rfl

theorem created_snoc (event : Event) :
    created key (log ++ [event]) = created key log + created key [event] := by
  simp [created, List.countP_append]

theorem created_other {event : Event} (h : ∀ p, event ≠ .place p) : created key [event] = 0 := by
  cases event with
  | place p => exact absurd rfl (h p)
  | _ => rfl

theorem created_place (p : PlaceAttempt) :
    created key [.place p] = if p.key = key ∧ p.answer.creates = true then 1 else 0 := by
  by_cases hk : p.key = key <;> cases hc : p.answer.creates <;> simp [created, hk, hc]

theorem AllSettled.front (h : AllSettled (log ++ more)) : AllSettled log :=
  fun p hp => h p (List.mem_append_left more hp)

theorem Reached.append (h : Reached key log) : Reached key (log ++ more) := by
  obtain ⟨p, hp, hkey⟩ := h
  exact ⟨p, List.mem_append_left more hp, hkey⟩

theorem Evidence.append {c o : String} (h : Evidence log key c o) :
    Evidence (log ++ more) key c o := by
  cases h with
  | acknowledged p ack hp hc hack ho =>
    exact .acknowledged p ack (List.mem_append_left more hp) hc hack ho
  | matched h => exact .matched (List.mem_append_left more h)
  | recovered h => exact .recovered (List.mem_append_left more h)

theorem Backed.append {c o : Option String} (h : Backed log key c o) :
    Backed (log ++ more) key c o := by
  obtain ⟨c', o', hc, ho, hev⟩ := h.ids
  exact ⟨⟨c', o', hc, ho, hev.append⟩, h.reached.append⟩

theorem Traceable.front (h : Traceable (log ++ more)) : Traceable log :=
  ⟨fun key hkey => h.adopted key (List.mem_append_left more hkey),
    fun before key c o after hlog => h.recovered before key c o (after ++ more) (by simp [hlog])⟩

/-- A recovered order was placed under the key it is recovered for. -/
theorem Traceable.reached {c o : String} (h : Traceable log) (hmem : .recovered key c o ∈ log) :
    Reached key log := by
  obtain ⟨before, after, hlog⟩ := List.append_of_mem hmem
  have hreached := h.recovered before key c o after hlog
  rw [hlog]
  exact hreached.append

end Log

section Sound

/-- The rows of the idempotency table that name an order can account for it. -/
def RowsBacked (log : List Event) (table : IdempotencyTable) : Prop :=
  ∀ key row, table ("place_order", key) = some row → row.status = .committed →
    Backed log key row.clientOrderId row.orderId

def ActionsBacked (log : List Event) (actions : List ActionRow) : Prop :=
  ∀ key, ∀ row ∈ actions, row.dedupeKey = some (placeDedupeKey key) → row.orderId ≠ none →
    Backed log key row.clientOrderId row.orderId

/-- An action row holds the dedupe key. -/
def HasAction (actions : List ActionRow) (dedupeKey : String) : Prop :=
  ∃ row ∈ actions, row.dedupeKey = some dedupeKey

structure Sound (s : Sys) : Prop where
  ids : ∀ i row, s.actions[i]? = some row → row.id = i + 1
  once : AllSettled s.events → ∀ key, created key s.events ≤ 1 ∧
    (0 < created key s.events → HasAction s.actions (placeDedupeKey key))
  rows : Traceable s.events → RowsBacked s.events s.idempotency
  actions : Traceable s.events → ActionsBacked s.events s.actions

/-- The action row of the id holds the dedupe key. -/
def Owned (actionId : ℕ) (dedupeKey : String) (actions : List ActionRow) : Prop :=
  ∃ row ∈ actions, row.id = actionId ∧ row.dedupeKey = some dedupeKey

variable {s t : Sys} {actionId : ℕ} {dedupeKey : String}

/-- Ids name rows. -/
theorem Sound.unique (h : Sound s) {row row' : ActionRow} (hrow : row ∈ s.actions)
    (hrow' : row' ∈ s.actions) (hid : row.id = row'.id) : row = row' := by
  obtain ⟨i, hi⟩ := List.mem_iff_getElem?.mp hrow
  obtain ⟨j, hj⟩ := List.mem_iff_getElem?.mp hrow'
  have hij : i = j := by
    have h1 := h.ids i row hi
    have h2 := h.ids j row' hj
    omega
  subst hij
  rw [hi] at hj
  exact Option.some.inj hj

theorem Sound.same (h : Sound s) (hidem : t.idempotency = s.idempotency)
    (hactions : t.actions = s.actions) (hevents : t.events = s.events) : Sound t :=
  ⟨by rw [hactions]; exact h.ids, by rw [hactions, hevents]; exact h.once,
    by rw [hidem, hevents]; exact h.rows, by rw [hactions, hevents]; exact h.actions⟩

/-- Backing outlives more log. -/
theorem RowsBacked.append {log more : List Event} {table : IdempotencyTable}
    (h : RowsBacked log table) : RowsBacked (log ++ more) table :=
  fun key row hrow hstatus => (h key row hrow hstatus).append

theorem ActionsBacked.append {log more : List Event} {actions : List ActionRow}
    (h : ActionsBacked log actions) : ActionsBacked (log ++ more) actions :=
  fun key row hrow hkey ho => (h key row hrow hkey ho).append

/-- An event that is no place call. -/
theorem Sound.snoc (h : Sound s) {event : Event} (hevent : ∀ p, event ≠ .place p)
    (hidem : t.idempotency = s.idempotency) (hactions : t.actions = s.actions)
    (hevents : t.events = s.events ++ [event]) : Sound t := by
  refine ⟨by rw [hactions]; exact h.ids, fun hsettled key => ?_, fun htrace => ?_, fun htrace => ?_⟩
  · rw [hevents] at hsettled ⊢
    rw [created_snoc, created_other hevent, hactions]
    exact h.once hsettled.front key
  · rw [hevents] at htrace ⊢
    rw [hidem]
    exact (h.rows htrace.front).append
  · rw [hevents] at htrace ⊢
    rw [hactions]
    exact (h.actions htrace.front).append

/-- A place call under a key that holds its dedupe key and has no order yet. -/
theorem Sound.place (h : Sound s) (p : PlaceAttempt)
    (hhas : HasAction s.actions (placeDedupeKey p.key))
    (hfirst : AllSettled s.events → created p.key s.events = 0)
    (hidem : t.idempotency = s.idempotency) (hactions : t.actions = s.actions)
    (hevents : t.events = s.events ++ [.place p]) : Sound t := by
  refine ⟨by rw [hactions]; exact h.ids, fun hsettled key => ?_, fun htrace => ?_, fun htrace => ?_⟩
  · rw [hevents] at hsettled ⊢
    rw [created_snoc, created_place, hactions]
    have honce := h.once hsettled.front key
    by_cases hkey : p.key = key
    · subst hkey
      rw [hfirst hsettled.front]
      exact ⟨by split <;> omega, fun _ => hhas⟩
    · rw [if_neg fun hc => hkey hc.1]
      exact honce
  · rw [hevents] at htrace ⊢
    rw [hidem]
    exact (h.rows htrace.front).append
  · rw [hevents] at htrace ⊢
    rw [hactions]
    exact (h.actions htrace.front).append

theorem Sound.setRows (h : Sound s) {table : IdempotencyTable}
    (hrows : Traceable s.events → RowsBacked s.events table) :
    Sound { s with idempotency := table } := ⟨h.ids, h.once, hrows, h.actions⟩

/-- An action row appended under a new dedupe key. -/
theorem Sound.record (h : Sound s) {row : ActionRow} (hid : row.id = s.actions.length + 1)
    (horder : row.orderId = none) : Sound { s with actions := s.actions ++ [row] } := by
  refine ⟨fun i other hi => ?_, fun hsettled key => ?_, h.rows, fun htrace key other hother => ?_⟩
  · rw [List.getElem?_append] at hi
    split at hi
    · exact h.ids i other hi
    · have hlast : i = s.actions.length ∧ row = other := by
        rw [List.getElem?_singleton] at hi
        split at hi
        · exact ⟨by omega, Option.some.inj hi⟩
        · cases hi
      rw [← hlast.2, hid, hlast.1]
  · obtain ⟨hle, hhas⟩ := h.once hsettled key
    refine ⟨hle, fun hpos => ?_⟩
    obtain ⟨other, hother, hkey⟩ := hhas hpos
    exact ⟨other, List.mem_append_left _ hother, hkey⟩
  · intro hkey ho
    rcases List.mem_append.mp hother with hold | hnew
    · exact h.actions htrace key other hold hkey ho
    · obtain rfl : other = row := by simpa using hnew
      exact absurd horder ho

theorem updateAction_ids (actions : List ActionRow) (f : ActionRow → ActionRow)
    (hf : ∀ row, (f row).id = row.id) (hids : ∀ i row, actions[i]? = some row → row.id = i + 1)
    (i : ℕ) (row : ActionRow) (hi : (updateAction actions actionId f)[i]? = some row) :
    row.id = i + 1 := by
  rw [updateAction, List.getElem?_map, Option.map_eq_some_iff] at hi
  obtain ⟨old, hold, rfl⟩ := hi
  have h := hids i old hold
  split
  · rw [hf, h]
  · exact h

/-- Metadata is attached to the row that owns the dedupe key. -/
theorem Sound.attach (h : Sound s) (howned : Owned actionId dedupeKey s.actions)
    (clientOrderId orderId : Option String)
    (hback : ∀ key, dedupeKey = placeDedupeKey key → orderId ≠ none → Traceable s.events →
      Backed s.events key clientOrderId orderId) :
    Sound { s with actions := attachActionMetadata s.actions actionId clientOrderId orderId } := by
  refine ⟨updateAction_ids s.actions _ (fun _ => rfl) h.ids, fun hsettled key => ?_, h.rows,
    fun htrace key row hrow hkey ho => ?_⟩
  · obtain ⟨hle, hhas⟩ := h.once hsettled key
    refine ⟨hle, fun hpos => ?_⟩
    obtain ⟨row, hrow, hkey⟩ := hhas hpos
    refine ⟨_, List.mem_map_of_mem hrow, ?_⟩
    split <;> exact hkey
  · obtain ⟨old, hold, rfl⟩ := List.mem_map.mp hrow
    by_cases hid : old.id = actionId
    · rw [if_pos hid] at hkey ho ⊢
      obtain ⟨owner, howner, hownerId, hownerKey⟩ := howned
      obtain rfl := h.unique hold howner (by rw [hid, hownerId])
      have hdedupe : dedupeKey = placeDedupeKey key :=
        Option.some.inj (hownerKey.symm.trans hkey)
      exact hback key hdedupe ho htrace
    · rw [if_neg hid] at hkey ho ⊢
      exact h.actions htrace key old hold hkey ho

/-- The dedupe key is freed when no order was created under it. -/
theorem Sound.clear (h : Sound s) (howned : Owned actionId dedupeKey s.actions)
    (hnone : ∀ key, dedupeKey = placeDedupeKey key → AllSettled s.events →
      created key s.events = 0) :
    Sound { s with actions := clearActionDedupeKey s.actions actionId } := by
  refine ⟨updateAction_ids s.actions _ (fun _ => rfl) h.ids, fun hsettled key => ?_, h.rows,
    fun htrace key row hrow hkey ho => ?_⟩
  · obtain ⟨hle, hhas⟩ := h.once hsettled key
    refine ⟨hle, fun hpos => ?_⟩
    obtain ⟨row, hrow, hkey⟩ := hhas hpos
    have hother : row.id ≠ actionId := by
      intro hid
      obtain ⟨owner, howner, hownerId, hownerKey⟩ := howned
      obtain rfl := h.unique hrow howner (by rw [hid, hownerId])
      have hzero := hnone key (Option.some.inj (hownerKey.symm.trans hkey)) hsettled
      simp only at hpos
      omega
    exact ⟨row, List.mem_map.mpr ⟨row, hrow, if_neg hother⟩, hkey⟩
  · obtain ⟨old, hold, rfl⟩ := List.mem_map.mp hrow
    by_cases hid : old.id = actionId
    · rw [if_pos hid] at hkey
      cases hkey
    · rw [if_neg hid] at hkey ho ⊢
      exact h.actions htrace key old hold hkey ho

theorem Owned.attach {actions : List ActionRow} (h : Owned actionId dedupeKey actions)
    (clientOrderId orderId : Option String) : Owned actionId dedupeKey
      (attachActionMetadata actions actionId clientOrderId orderId) := by
  obtain ⟨row, hrow, hid, hkey⟩ := h
  exact ⟨_, List.mem_map_of_mem hrow, by rw [if_pos hid]; exact ⟨hid, hkey⟩⟩

end Sound

section Rows

variable {log : List Event} {table : IdempotencyTable}

/-- A row that is not committed owes nothing. -/
theorem RowsBacked.update (h : RowsBacked log table) (k : RowKey) (row : Option IdempotencyRow)
    (hrow : ∀ key r, k = ("place_order", key) → row = some r → r.status = .committed →
      Backed log key r.clientOrderId r.orderId) : RowsBacked log (Function.update table k row) := by
  intro key r hr hstatus
  by_cases hk : ("place_order", key) = k
  · subst hk
    rw [Function.update_self] at hr
    exact hrow key r rfl hr hstatus
  · rw [Function.update_of_ne hk] at hr
    exact h key r hr hstatus

theorem RowsBacked.reserve (h : RowsBacked log table) {now : ℤ} {k : RowKey} {args : ReserveArgs}
    {result : ReservationResult} {next : IdempotencyTable}
    (hr : reserveIdempotencyKey now table k args = .ok (result, next)) : RowsBacked log next := by
  rcases reserve_cases hr with ⟨-, rfl, hash, hfresh⟩ | ⟨-, rfl⟩
  · refine h.update k _ fun key r _ hsome hstatus => ?_
    obtain rfl : result.row = r := Option.some.inj hsome
    rw [hfresh] at hstatus
    cases hstatus
  · exact h

/-- Finalizing the key of another action, or to another status. -/
theorem RowsBacked.finalize (h : RowsBacked log table) (k : RowKey) (args : FinalizeArgs)
    (hargs : k.1 ≠ "place_order" ∨ args.status ≠ .committed) :
    RowsBacked log (finalizeIdempotencyKey table k args) := by
  refine h.update k _ fun key r hk hr hstatus => ?_
  rcases hargs with hother | hopen
  · subst hk
    exact absurd rfl hother
  · obtain ⟨old, -, rfl⟩ := Option.map_eq_some_iff.mp hr
    exact absurd hstatus hopen

/-- Committing a place row with both ids of an order that is backed. -/
theorem RowsBacked.commit (h : RowsBacked log table) (key : String) (args : FinalizeArgs)
    (hback : Backed log key args.clientOrderId args.orderId) :
    RowsBacked log (finalizeIdempotencyKey table ("place_order", key) args) := by
  refine h.update _ _ fun key' r hk hr _ => ?_
  cases hk
  obtain ⟨old, -, rfl⟩ := Option.map_eq_some_iff.mp hr
  obtain ⟨⟨c, o, hc, ho, hev⟩, hreached⟩ := hback
  exact ⟨⟨c, o, by simp [FinalizeArgs.apply, hc], by simp [FinalizeArgs.apply, ho], hev⟩, hreached⟩

theorem RowsBacked.updateRecovery (h : RowsBacked log table) (k : RowKey) (args : RecoveryArgs)
    (hargs : args.status ≠ some .committed) :
    RowsBacked log (updateIdempotencyRecovery table k args) := by
  refine h.update k _ fun key r hk hr hstatus => ?_
  obtain ⟨old, hold, rfl⟩ := Option.map_eq_some_iff.mp hr
  refine h key old (hk ▸ hold) ?_
  simp only [RecoveryArgs.apply] at hstatus
  cases hs : args.status with
  | none => simpa [hs] using hstatus
  | some status =>
    rw [hs] at hstatus
    exact absurd (by rw [hs, show status = .committed from hstatus]) hargs

theorem RowsBacked.prune (h : RowsBacked log table) (now : ℤ) (nowEpoch : Option ℤ) :
    RowsBacked log (pruneExpiredIdempotencyKeys now table nowEpoch) := by
  intro key row hrow hstatus
  exact h key row (Option.filter_eq_some_iff.mp hrow).1 hstatus

end Rows

end Stage3Service
