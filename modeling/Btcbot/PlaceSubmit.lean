import Btcbot.PlaceRecords

/-!
# Placing one order

The walk through one placement, from the reservation of its key to the row that
says what came of it. A phase adds to `Sound` what is known at that point of the
action rows and the log: who owns the dedupe key, whether an order was created,
what the exchange answered.
-/
namespace Stage3Service

open PyData ExchangeErrors Stage3Store Stage3Intent Idempotency ExecutionWrapper Effects

section Phase

/-- What is known of the action rows and the log. -/
abbrev Known := List ActionRow → List Event → Prop

structure Phase (X : Known) (s : Sys) : Prop where
  sound : Sound s
  known : X s.actions s.events

abbrev nothing : Known := fun _ _ => True

/-- The program keeps what is known; an exception leaves the records sound. -/
abbrev Carries {α : Type} (X : Known) (m : ExecM α) : Prop :=
  Triple (Phase X) m (fun _ => Phase X) (fun _ => Sound)

variable {X Y : Known} (env : Env)

theorem Phase.imp {s : Sys} (h : Phase X s) (himp : X s.actions s.events → Y s.actions s.events) :
    Phase Y s := ⟨h.sound, himp h.known⟩

theorem phase_untouched {α : Type} {m : ExecM α} (h : Keeps Untouched m) :
    Maintains (Phase X) m := by
  refine h.frame fun s t hst hs => ⟨hs.sound.same hst.idempotency hst.actions hst.events, ?_⟩
  rw [hst.actions, hst.events]
  exact hs.known

theorem carries_untouched {α : Type} {m : ExecM α} (h : Keeps Untouched m) : Carries X m :=
  (phase_untouched h).conseq (fun _ hs => hs) (fun _ _ h => h) (fun _ _ h => h.sound)

/-- What holds of the state is kept by a read of it. -/
theorem carries_get {P : Sys → Prop} {E : Exc → Sys → Prop} :
    Triple P (get : ExecM Sys) (fun s t => s = t ∧ P t) E := Triple.get fun _ hs => ⟨rfl, hs⟩

theorem carries_writeIdempotency (f : ℤ → IdempotencyTable → IdempotencyTable)
    (hf : ∀ (s : Sys) (t : ℤ), Phase X s → Traceable s.events →
      RowsBacked s.events (f t s.idempotency)) : Carries X (writeIdempotency env f) :=
  (carries_untouched (keeps_now env)).bind fun t => Triple.modify fun s hs =>
    ⟨hs.sound.setRows (hf s (toEpoch t) hs), hs.known⟩

theorem carries_reserveKey (k : RowKey) (args : ReserveArgs) :
    Carries X (reserveKey env k args) := by
  refine (carries_untouched (keeps_now env)).bind fun t => ?_
  refine Triple.bind carries_get fun u => ?_
  split
  · exact Triple.throw fun _ hs => hs.2.sound
  next result table hr =>
    refine Triple.bind (Q := fun _ => Phase X) (Triple.modify ?_) fun _ => Triple.pure fun _ h => h
    rintro _ ⟨rfl, hs⟩
    exact ⟨hs.sound.setRows fun htrace => (hs.sound.rows htrace).reserve hr, hs.known⟩

theorem carries_finalizeKey (k : RowKey) (args : FinalizeArgs)
    (hargs : k.1 ≠ "place_order" ∨ args.status ≠ .committed) :
    Carries X (finalizeKey env k args) :=
  carries_writeIdempotency env _ fun _ _ hs htrace => (hs.sound.rows htrace).finalize k args hargs

theorem carries_commit (key : String) (args : FinalizeArgs)
    (hback : ∀ actions events, X actions events → Traceable events →
      Backed events key args.clientOrderId args.orderId) :
    Carries X (finalizeKey env ("place_order", key) args) :=
  carries_writeIdempotency env _ fun s _ hs htrace =>
    (hs.sound.rows htrace).commit key args (hback s.actions s.events hs.known htrace)

theorem carries_updateRecovery (k : RowKey) (args : RecoveryArgs)
    (hargs : args.status ≠ some .committed) : Carries X (updateRecovery env k args) :=
  carries_writeIdempotency env _ fun _ _ hs htrace =>
    (hs.sound.rows htrace).updateRecovery k args hargs

theorem carries_pruneKeys : Carries X (pruneKeys env) :=
  carries_writeIdempotency env _ fun _ t hs htrace => (hs.sound.rows htrace).prune t none

/-- An event that is no place call, with what it adds. -/
theorem phase_emit {event : Event} (hevent : ∀ p, event ≠ .place p)
    (hknown : ∀ actions events, X actions events → Y actions (events ++ [event])) :
    Triple (Phase X) (emit event) (fun _ => Phase Y) (fun _ => Sound) :=
  Triple.modify fun s hs => ⟨hs.sound.snoc hevent rfl rfl rfl, hknown s.actions s.events hs.known⟩

theorem phase_setRegistry (f : Sys → Dict UnknownOrderRecord)
    (hknown : ∀ actions events ids, X actions events → X actions (events ++ [.registry ids])) :
    Carries X (setRegistry f) :=
  Triple.modify fun s hs => ⟨hs.sound.snoc (by simp) rfl rfl rfl,
    hknown s.actions s.events (f s).keys hs.known⟩

/-- A new action row holds its dedupe key, and no order was created under it before. -/
def Recorded (actionId : ℕ) (dedupeKey : String) : Known := fun actions events =>
  Owned actionId dedupeKey actions ∧ ∀ key, dedupeKey = placeDedupeKey key →
    AllSettled events → created key events = 0

theorem phase_addAction (cycleId actionType payloadHash dedupeKey : String) :
    Triple (Phase nothing) (addAction env cycleId actionType payloadHash dedupeKey)
      (fun r => match r with
        | none => Phase nothing
        | some actionId => Phase (Recorded actionId dedupeKey)) (fun _ => Sound) := by
  refine (carries_untouched (keeps_now env)).bind fun t => Triple.bind carries_get fun u => ?_
  by_cases htaken : (u.actions.any fun row => row.dedupeKey == some dedupeKey) = true
  · simp only [recordAction, htaken, if_true]
    refine Triple.bind (Q := fun _ => Phase nothing) (Triple.modify ?_) fun _ =>
      Triple.pure fun _ h => h
    rintro _ ⟨rfl, hs⟩
    exact hs
  · simp only [recordAction, htaken, Bool.false_eq_true, if_false]
    refine Triple.bind (Q := fun _ => Phase (Recorded (u.actions.length + 1) dedupeKey))
      (Triple.modify ?_) fun _ => Triple.pure fun _ h => h
    rintro _ ⟨rfl, hs⟩
    refine ⟨hs.sound.record rfl rfl, ⟨_, List.mem_append_right _ List.mem_cons_self, rfl, rfl⟩,
      fun key hkey hsettled => ?_⟩
    by_contra hne
    obtain ⟨row, hrow, hdedupe⟩ := (hs.sound.once hsettled key).2 (Nat.pos_of_ne_zero hne)
    exact htaken (List.any_eq_true.mpr ⟨row, hrow, by simp [hdedupe, hkey]⟩)

/-- Attaching ids that are backed, to an owned row. -/
theorem phase_attach {actionId : ℕ} {dedupeKey : String} (clientOrderId orderId : Option String)
    (hX : ∀ actions events, X actions events → Owned actionId dedupeKey actions)
    (hback : ∀ actions events key, X actions events → dedupeKey = placeDedupeKey key →
      orderId ≠ none → Traceable events → Backed events key clientOrderId orderId)
    (hY : ∀ actions events, X actions events →
      Y (attachActionMetadata actions actionId clientOrderId orderId) events) :
    Triple (Phase X) (attachMetadata env actionId clientOrderId orderId) (fun _ => Phase Y)
      (fun _ => Sound) :=
  (carries_untouched (keeps_point env)).bind fun _ => Triple.modify fun _ hs =>
    ⟨hs.sound.attach (hX _ _ hs.known) clientOrderId orderId
      fun key hkey ho htrace => hback _ _ key hs.known hkey ho htrace, hY _ _ hs.known⟩

theorem phase_clear {actionId : ℕ} {dedupeKey : String}
    (hX : ∀ actions events, X actions events → Recorded actionId dedupeKey actions events) :
    Triple (Phase X) (clearDedupeKey env actionId) (fun _ => Sound) (fun _ => Sound) :=
  (carries_untouched (keeps_point env)).bind fun _ => Triple.modify fun _ hs =>
    hs.sound.clear (hX _ _ hs.known).1 (hX _ _ hs.known).2

end Phase

section Submit

variable (env : Env) (config : Config) (p : Placement) (actionId : ℕ)

/-- Before an attempt: the key is held and no order was created under it. -/
abbrev Ready : Known := Recorded actionId (placeDedupeKey p.key)

/-- After an attempt was acknowledged. -/
structure Acked (ack : Ack) (actions : List ActionRow) (events : List Event) : Prop where
  owned : Owned actionId (placeDedupeKey p.key) actions
  placed : ∃ a, Event.place a ∈ events ∧ a.key = p.key ∧ a.clientOrderId = p.clientOrderId ∧
    a.answer.result = .ok ack
  refused : (∀ orderId, mapExchangeAckToSubmitResult ack ≠ .ok orderId) → AllSettled events →
    created p.key events = 0

/-- After attempt `n` failed: an order was created only if the error is one that is reconciled. -/
structure Failed (n : ℕ) (exc : Exc) (actions : List ActionRow) (events : List Event) :
    Prop where
  owned : Owned actionId (placeDedupeKey p.key) actions
  reached : isUncertainError exc = true → Reached p.key events
  clean : AllSettled events → created p.key events = 0 ∨ exc = .crash ∨
    (isUncertainError exc = true ∧
      (Retryable exc → max 1 config.submitRetryMaxAttempts ≤ n))

/-- What a failed submit leaves. -/
structure Refused (exc : Exc) (actions : List ActionRow) (events : List Event) : Prop where
  owned : Owned actionId (placeDedupeKey p.key) actions
  reached : isUncertainError exc = true → Reached p.key events
  clean : isUncertainError exc = false → exc ≠ .crash → AllSettled events →
    created p.key events = 0

/-- An order was asked for under the key, and nothing else is known of it. -/
structure Asked (actions : List ActionRow) (events : List Event) : Prop where
  owned : Owned actionId (placeDedupeKey p.key) actions
  reached : Reached p.key events

/-- There is evidence of the order under the key. -/
structure Found (orderId : String) (actions : List ActionRow) (events : List Event) : Prop where
  owned : Owned actionId (placeDedupeKey p.key) actions
  backed : Backed events p.key (some p.clientOrderId) (some orderId)

theorem isUncertainError_of_retryable {exc : Exc} (h : Retryable exc) :
    isUncertainError exc = true := by
  rcases h with h | h <;> simp [isUncertainError, h]

section Steps

variable {actions : List ActionRow} {events : List Event} {exc : Exc}

theorem Recorded.zero (h : Ready p actionId actions events) (hsettled : AllSettled events) :
    created p.key events = 0 := h.2 p.key rfl hsettled

/-- A log entry that is no place call changes nothing for the key. -/
theorem Recorded.snoc {dedupeKey : String} {event : Event} (hevent : ∀ a, event ≠ .place a)
    (h : Recorded actionId dedupeKey actions events) :
    Recorded actionId dedupeKey actions (events ++ [event]) := by
  refine ⟨h.1, fun key hkey hsettled => ?_⟩
  rw [created_snoc, created_other hevent, h.2 key hkey hsettled.front]

/-- Stopped before the exchange was asked. -/
theorem Recorded.refused (h : Ready p actionId actions events)
    (hexc : isUncertainError exc = false) : Refused p actionId exc actions events :=
  ⟨h.1, fun hu => absurd hu (by simp [hexc]), fun _ _ => h.zero p actionId⟩

theorem Recorded.failed {n : ℕ} (h : Ready p actionId actions events)
    (hexc : isUncertainError exc = false) : Failed config p actionId n exc actions events :=
  ⟨h.1, fun hu => absurd hu (by simp [hexc]), fun hs => .inl (h.zero p actionId hs)⟩

theorem Failed.refused {n : ℕ} (h : Failed config p actionId n exc actions events) :
    Refused p actionId exc actions events := by
  refine ⟨h.owned, h.reached, fun hcertain hcrash hsettled => ?_⟩
  rcases h.clean hsettled with hzero | hc | ⟨hu, -⟩
  · exact hzero
  · exact absurd hc hcrash
  · rw [hcertain] at hu
    cases hu

theorem Failed.ready {n : ℕ} (h : Failed config p actionId n exc actions events)
    (hretry : Retryable exc) (hn : n < max 1 config.submitRetryMaxAttempts) :
    Ready p actionId actions events := by
  refine ⟨h.owned, fun key hkey hsettled => ?_⟩
  obtain rfl := placeDedupeKey_inj hkey
  rcases h.clean hsettled with hzero | rfl | ⟨-, hlast⟩
  · exact hzero
  · rcases hretry with hr | hr <;> cases hr
  · have := hlast hretry
    omega

end Steps

/-- A point of the program raises nothing but a crash. -/
theorem point_crashes {X : Known} {E : Exc → Sys → Prop}
    (h : ∀ s, Phase X s → E .crash s) : Triple (Phase X) (point env) (fun _ => Phase X) E := by
  intro s hs
  have hnext : Phase X { s with tick := s.tick + 1 } :=
    ⟨hs.sound.same rfl rfl rfl, hs.known⟩
  simp only [point, ends_bind, ends_get, ends_set, ends_ite, ends_throw, ends_pure]
  split
  · exact h _ hnext
  · exact hnext

/-- The place call: an order comes into being only under an answer of the exchange. -/
theorem submitCall_phase (n : ℕ) : Triple (Phase (Ready p actionId)) (submitCall env config p n)
    (fun ack => Phase (Acked p actionId ack))
    (fun exc => Phase (Failed config p actionId n exc)) := by
  refine Triple.ite (fun _ => ?_) fun _ => ?_
  · refine Triple.bind (Q := fun _ _ => False) (Triple.throw fun s hs => ?_) fun _ _ h => h.elim
    exact hs.imp fun h => h.failed config p actionId rfl
  refine (point_crashes env fun s hs => hs.imp fun h => h.failed config p actionId rfl).bind
    fun tick => ?_
  refine Triple.bind carries_get fun u => ?_
  let a : PlaceAttempt := {
    key := p.key
    clientOrderId := p.clientOrderId
    attempt := n
    maxAttempts := max 1 config.submitRetryMaxAttempts
    unknownOrders := (listUnknownOrders u.orders).map StoredOrder.orderId
    registryUnknown := u.registry.keys
    answer := env.placeOrder tick p.request }
  have hemit : Triple (fun s => u = s ∧ Phase (Ready p actionId) s) (emit (.place a))
      (fun _ => Phase fun actions events => Owned actionId (placeDedupeKey p.key) actions ∧
        Event.place a ∈ events ∧ (AllSettled events →
          created p.key events = if a.answer.creates then 1 else 0))
      (fun exc => Phase (Failed config p actionId n exc)) := by
    refine Triple.modify ?_
    rintro _ ⟨rfl, hs⟩
    obtain ⟨row, hrow, -, hkey⟩ := hs.known.1
    refine ⟨hs.sound.place a ⟨row, hrow, hkey⟩ (fun h => hs.known.zero p actionId h) rfl rfl rfl,
      hs.known.1, by simp, fun hsettled => ?_⟩
    rw [created_snoc, hs.known.zero p actionId hsettled.front, created_place]
    simp [a]
  refine hemit.bind fun _ => ?_
  refine liftExcept_triple (fun ack hresult s hs => hs.imp fun h =>
    ⟨h.1, ⟨a, h.2.1, rfl, rfl, hresult⟩, fun hrefused hsettled => ?_⟩)
    fun exc hresult s hs => hs.imp fun h => ⟨h.1, fun _ => ⟨a, h.2.1, rfl⟩, fun hsettled => ?_⟩
  · rw [h.2.2 hsettled]
    by_cases hc : a.answer.creates = true
    · rcases hsettled a h.2.1 hc with ⟨ack', orderId, hok, hmap⟩ | ⟨exc, herr, -⟩
      · obtain rfl : ack = ack' := Except.ok.inj (hresult.symm.trans hok)
        exact absurd hmap (hrefused orderId)
      · cases hresult.symm.trans herr
    · rw [if_neg hc]
  · rw [h.2.2 hsettled]
    by_cases hc : a.answer.creates = true
    · rcases hsettled a h.2.1 hc with ⟨ack, orderId, hok, -⟩ | ⟨exc', herr, hkind⟩
      · cases hresult.symm.trans hok
      · obtain rfl : exc = exc' := Except.error.inj (hresult.symm.trans herr)
        rcases hkind with hcrash | huncertain | ⟨hretry, hlast⟩
        · exact .inr (.inl hcrash)
        · refine .inr (.inr ⟨by simp [isUncertainError, huncertain], fun hr => ?_⟩)
          rcases hr with hr | hr <;> rw [huncertain] at hr <;> cases hr
        · exact .inr (.inr ⟨isUncertainError_of_retryable hretry, fun _ => hlast⟩)
    · rw [if_neg hc]
      exact .inl rfl

theorem submit_phase : Triple (Phase (Ready p actionId))
    (execute .submit config.submitRetryMaxAttempts (sleep env) (submitCall env config p))
    (fun result s => match result with
      | .value ack => Phase (Acked p actionId ack) s
      | .uncertainResult exc => classifyExchangeError exc = .uncertain ∧
          Phase (Refused p actionId exc) s)
    (fun exc => Phase (Refused p actionId exc)) := by
  have hsleep : Triple (Phase (Ready p actionId)) (sleep env) (fun _ => Phase (Ready p actionId))
      (fun exc => Phase (Refused p actionId exc)) :=
    (point_crashes env fun s hs => hs.imp fun h => h.refused p actionId rfl).bind fun _ =>
      Triple.pure fun _ hs => hs
  have h := attempts_submit (max 1 config.submitRetryMaxAttempts) hsleep
    (submitCall_phase env config p actionId)
    (fun n exc s hs => hs.imp fun hf => hf.refused config p actionId)
    (fun n exc s hr hn hs => hs.imp fun hf => hf.ready config p actionId hr hn)
    (max 1 config.submitRetryMaxAttempts - 1) 1 (by omega)
  rw [show max 1 config.submitRetryMaxAttempts - 1 + 1 = max 1 config.submitRetryMaxAttempts by
    omega] at h
  refine Triple.conseq h (fun _ hs => hs) (fun result s hs => ?_) (fun _ _ hs => hs)
  cases result with
  | value ack => exact hs
  | uncertainResult exc => exact hs

theorem submitLimitOrder_phase : Triple (Phase (Ready p actionId)) (submitLimitOrder env config p)
    (fun result => match result with
      | .value orderId => Phase (Found p actionId orderId)
      | .uncertainResult _ => Phase (Asked p actionId))
    (fun exc => Phase (Refused p actionId exc)) := by
  have hsync : Triple (Phase (Ready p actionId)) (syncUnknownRegistryFromStore false)
      (fun _ => Phase (Ready p actionId)) (fun exc => Phase (Refused p actionId exc)) :=
    Triple.modify fun s hs => ⟨hs.sound.snoc (by simp) rfl rfl rfl,
      Recorded.snoc actionId (by simp) hs.known⟩
  refine hsync.bind fun _ => Triple.bind carries_get fun u => ?_
  refine Triple.ite (fun _ => ?_) fun _ => ?_
  · refine Triple.bind ((submit_phase env config p actionId).conseq (fun s hs => hs.2)
      (fun _ _ h => h) (fun _ _ h => h)) fun result => ?_
    cases result with
    | uncertainResult exc =>
      refine Triple.pure fun s hs => hs.2.imp fun h => ⟨h.owned, h.reached ?_⟩
      simp [isUncertainError, hs.1]
    | value ack =>
      refine Triple.bind (Q := fun orderId => Phase (Found p actionId orderId)) ?_ fun _ =>
        Triple.pure fun _ hs => hs
      refine liftExcept_triple (fun orderId hmap s hs => hs.imp fun h => ⟨h.owned, ?_⟩)
        fun exc hmap s hs => hs.imp fun h => ⟨h.owned, fun _ => ?_, fun _ _ => h.refused ?_⟩
      · obtain ⟨a, ha, hkey, hclient, hresult⟩ := h.placed
        exact ⟨⟨_, _, rfl, rfl, .acknowledged a ack ha hclient hresult hmap⟩, a, ha, hkey⟩
      · obtain ⟨a, ha, hkey, -⟩ := h.placed
        exact ⟨a, ha, hkey⟩
      · simp [hmap]
  · exact Triple.throw fun s hs => hs.2.imp fun h => h.refused p actionId rfl

end Submit

section Settle

variable (env : Env) (config : Config) (p : Placement) (actionId : ℕ)

/-- The order id reconciliation gives is logged as matched. -/
theorem reconcileSubmit_phase : Triple (Phase (Asked p actionId)) (reconcileSubmit env p)
    (fun outcome => Phase fun actions events => Asked p actionId actions events ∧
      ∀ orderId, outcome.orderId = some orderId →
        Event.matched p.clientOrderId orderId ∈ events)
    (fun _ => Sound) := by
  refine (carries_untouched (keeps_attempt (keeps_findSubmitted env p))).bind fun r => ?_
  cases r with
  | error exc => exact Triple.pure fun _ hs => hs.imp fun h => ⟨h, nofun⟩
  | ok outcome =>
    obtain ⟨status, orderId, reason⟩ := outcome
    cases orderId with
    | none => exact Triple.pure fun _ hs => hs.imp fun h => ⟨h, nofun⟩
    | some orderId =>
      have hemit : Triple (Phase (Asked p actionId)) (emit (.matched p.clientOrderId orderId))
          (fun _ => Phase fun actions events => Asked p actionId actions events ∧
            Event.matched p.clientOrderId orderId ∈ events) (fun _ => Sound) :=
        phase_emit (by simp) fun actions events h =>
          ⟨⟨h.owned, h.reached.append⟩, by simp⟩
      refine hemit.bind fun _ => Triple.pure fun _ hs => hs.imp fun h => ⟨h.1, ?_⟩
      rintro _ ⟨⟩
      exact h.2

theorem commitPlaced_sound (orderId : String) : Triple (Phase (Found p actionId orderId))
    (commitPlaced env p actionId orderId) (fun _ => Sound) (fun _ => Sound) := by
  have hattach : Triple (Phase (Found p actionId orderId))
      (attachMetadata env actionId (some p.clientOrderId) (some orderId))
      (fun _ => Phase (Found p actionId orderId)) (fun _ => Sound) := by
    refine phase_attach env _ _ (fun _ _ h => h.owned) (fun _ _ key h hkey _ _ => ?_)
      fun _ _ h => ⟨h.owned.attach _ _, h.backed⟩
    obtain rfl := placeDedupeKey_inj hkey
    exact h.backed
  exact hattach.bind fun _ => (carries_commit env p.key _ fun _ _ h _ => h.backed).conseq
    (fun _ hs => hs) (fun _ _ hs => hs.sound) (fun _ _ hs => hs)

theorem storePlaced_sound (orderId : String) : Triple (Phase (Found p actionId orderId))
    (storePlaced env p actionId orderId) (fun _ => Sound) (fun _ => Sound) :=
  (carries_untouched (keeps_now env)).bind fun _ =>
    (carries_untouched (keeps_storeOrder env _)).bind fun _ =>
      commitPlaced_sound env p actionId orderId

/-- The order id stays open: nothing is committed. -/
theorem markSubmitUnknown_sound (outcome : ReconcileOutcome) : Triple (Phase (Asked p actionId))
    (markSubmitUnknown env p actionId outcome) (fun _ => Sound) (fun _ => Sound) := by
  have hattach : Triple (Phase (Asked p actionId))
      (attachMetadata env actionId (some p.clientOrderId) none)
      (fun _ => Phase nothing) (fun _ => Sound) :=
    phase_attach env _ _ (fun _ _ h => h.owned) (fun _ _ _ _ _ ho => absurd rfl ho)
      fun _ _ _ => trivial
  refine hattach.bind fun _ => (carries_finalizeKey env _ _ (.inr (by simp))).bind fun _ => ?_
  refine (carries_untouched (keeps_now env)).bind fun _ => ?_
  refine (carries_untouched (keeps_storeOrder env _)).bind fun _ => ?_
  exact (phase_setRegistry _ fun _ _ _ _ => trivial).conseq (fun _ hs => hs)
    (fun _ _ hs => hs.sound) (fun _ _ hs => hs)

theorem settleUncertainError_sound : Triple (Phase (Asked p actionId))
    (settleUncertainError env p actionId) (fun _ => Sound) (fun _ => Sound) := by
  refine (reconcileSubmit_phase env p actionId).bind fun outcome => ?_
  split
  next orderId _ horder =>
    have hfound : Triple (Phase (Found p actionId orderId)) (do
        let createdAt ← now env
        let updatedAt ← now env
        storeOrder env {
          order := p.order orderId (some p.clientOrderId) .new createdAt updatedAt
          reconciled := true
          idempotencyKey := some p.key
          intentId := p.intentId }
        storeOrderStatus env { orderId := orderId, status := .open, reconciled := some true }
        commitPlaced env p actionId orderId
        pure 1) (fun _ => Sound) (fun _ => Sound) := by
      refine (carries_untouched (keeps_now env)).bind fun _ => ?_
      refine (carries_untouched (keeps_now env)).bind fun _ => ?_
      refine (carries_untouched (keeps_storeOrder env _)).bind fun _ => ?_
      refine (carries_untouched (keeps_storeOrderStatus env _)).bind fun _ => ?_
      exact (commitPlaced_sound env p actionId orderId).bind fun _ => Triple.pure fun _ hs => hs
    exact hfound.conseq (fun s hs => hs.imp fun h => ⟨h.1.owned,
      ⟨_, _, rfl, rfl, .matched (h.2 orderId horder)⟩, h.1.reached⟩)
      (fun _ _ hs => hs) (fun _ _ hs => hs)
  · exact ((markSubmitUnknown_sound env p actionId outcome).conseq
      (fun _ hs => hs.imp fun h => h.1) (fun _ _ hs => hs) (fun _ _ hs => hs)).bind fun _ =>
        Triple.pure fun _ hs => hs

theorem settleUncertainResult_sound : Triple (Phase (Asked p actionId))
    (settleUncertainResult env p actionId) (fun _ => Sound) (fun _ => Sound) := by
  refine (reconcileSubmit_phase env p actionId).bind fun outcome => ?_
  split
  next orderId _ horder =>
    refine ((storePlaced_sound env p actionId orderId).conseq (fun s hs => hs.imp fun h =>
      ⟨h.1.owned, ⟨_, _, rfl, rfl, .matched (h.2 orderId horder)⟩, h.1.reached⟩)
      (fun _ _ hs => hs) (fun _ _ hs => hs)).bind fun _ => Triple.pure fun _ hs => hs
  · exact ((markSubmitUnknown_sound env p actionId outcome).conseq
      (fun _ hs => hs.imp fun h => h.1) (fun _ _ hs => hs) (fun _ _ hs => hs)).bind fun _ =>
        Triple.pure fun _ hs => hs

/-- The dedupe key is freed only after an error that left no order behind. -/
theorem rejectSubmit_sound (exc : Exc) (hexc : isUncertainError exc = false)
    (hcrash : exc ≠ .crash) : Triple (Phase (Refused p actionId exc))
      (rejectSubmit env p actionId exc) (fun _ => Sound) (fun _ => Sound) := by
  refine (carries_untouched (keeps_now env)).bind fun _ => ?_
  refine (carries_untouched (keeps_now env)).bind fun _ => ?_
  refine (carries_untouched (keeps_now env)).bind fun _ => ?_
  refine (carries_untouched (keeps_storeOrder env _)).bind fun _ => ?_
  refine (carries_finalizeKey env _ _ (.inr (by simp))).bind fun _ => ?_
  refine phase_clear env fun actions events h => ⟨h.owned, fun key hkey hsettled => ?_⟩
  obtain rfl := placeDedupeKey_inj hkey
  exact h.clean hexc hcrash hsettled

theorem settleError_sound (acc : ExecuteSummary) (exc : Exc) (hcrash : exc ≠ .crash) :
    Triple (Phase (Refused p actionId exc)) (settleError env acc p actionId exc)
      (fun _ => Sound) (fun _ => Sound) := by
  refine Triple.ite (fun huncertain => ?_) fun hcertain => ?_
  · exact ((settleUncertainError_sound env p actionId).conseq
      (fun _ hs => hs.imp fun h => ⟨h.owned, h.reached huncertain⟩) (fun _ _ hs => hs)
      (fun _ _ hs => hs)).bind fun _ => Triple.pure fun _ hs => hs
  · exact (rejectSubmit_sound env p actionId exc (by simpa using hcertain) hcrash).bind fun _ =>
      Triple.pure fun _ hs => hs

theorem submitAndSettle_sound (acc : ExecuteSummary) : Triple (Phase (Ready p actionId))
    (submitAndSettle env config acc p actionId) (fun _ => Sound) (fun _ => Sound) := by
  refine Triple.bind ((attempt_triple (submitLimitOrder_phase env config p actionId)).conseq
    (fun _ hs => hs) (fun _ _ h => h) (fun _ _ h => h.2.sound)) fun r => ?_
  cases r with
  | error exc =>
    refine Triple.assume (P := Phase (Refused p actionId exc)) fun hcrash => ?_
    split
    · exact Triple.throw fun _ hs => hs.sound
    next exc' _ heq =>
      obtain rfl : exc = exc' := Except.error.inj heq
      exact settleError_sound env p actionId _ exc hcrash
    next heq => cases heq
    next heq => cases heq
  | ok result =>
    cases result with
    | uncertainResult exc =>
      exact (settleUncertainResult_sound env p actionId).bind fun _ => Triple.pure fun _ hs => hs
    | value orderId =>
      exact (storePlaced_sound env p actionId orderId).bind fun _ => Triple.pure fun _ hs => hs

/-- A simulation attaches no order id. -/
theorem simulatePlace_sound (acc : ExecuteSummary) (dedupeKey : String) :
    Triple (Phase (Recorded actionId dedupeKey)) (simulatePlace env acc p actionId)
      (fun _ => Sound) (fun _ => Sound) := by
  have hattach : Triple (Phase (Recorded actionId dedupeKey))
      (attachMetadata env actionId (some p.clientOrderId) none)
      (fun _ => Phase nothing) (fun _ => Sound) :=
    phase_attach env _ _ (fun _ _ h => h.1) (fun _ _ _ _ _ ho => absurd rfl ho)
      fun _ _ _ => trivial
  refine hattach.bind fun _ => (carries_finalizeKey env _ _ (.inr (by simp))).bind fun _ => ?_
  exact Triple.pure fun _ hs => hs.sound

end Settle

section Reserved

variable (env : Env) (config : Config)

/-- An action met again hands over its ids: where it commits a place row, they are backed. -/
theorem handleReservation_sound (actionType : String) (k : RowKey) (dedupeKey : String)
    (h : startsWithText "would_" actionType = true ∨ k.1 ≠ "place_order" ∨
      dedupeKey = placeDedupeKey k.2) :
    Triple Sound (handleReservationWithoutNewAction env actionType k dedupeKey)
      (fun _ => Sound) (fun _ => Sound) := by
  refine Triple.bind carries_get fun u => ?_
  split
  next row hrow =>
    have hmem : row ∈ u.actions ∧ row.dedupeKey = some dedupeKey := by
      have hfind := List.find?_some hrow
      exact ⟨List.mem_reverse.mp (List.mem_of_find?_eq_some hrow), by simpa using hfind⟩
    let X : Known := fun actions events => row ∈ actions ∧
      Event.adopted dedupeKey row.orderId ∈ events ∧
      (Traceable events → ActionsBacked events actions)
    have hemit : Triple (fun s => u = s ∧ Sound s) (emit (.adopted dedupeKey row.orderId))
        (fun _ => Phase X) (fun _ => Sound) := by
      refine Triple.modify ?_
      rintro _ ⟨rfl, hs⟩
      have hnext := hs.snoc (t := { u with events := u.events ++ [.adopted dedupeKey row.orderId] })
        (by simp) rfl rfl rfl
      exact ⟨hnext, hmem.1, by simp, hnext.actions⟩
    have hfinalize : Carries X (finalizeKey env k ⟨some row.id, row.clientOrderId, row.orderId,
        if startsWithText "would_" actionType then .simulated else .committed⟩) := by
      rcases h with hwould | hother | hdedupe
      · exact carries_finalizeKey env k _ (.inr (by simp [hwould]))
      · exact carries_finalizeKey env k _ (.inl hother)
      · by_cases hplace : k.1 = "place_order"
        · obtain ⟨action, key⟩ := k
          obtain rfl : action = "place_order" := hplace
          refine carries_commit env key _ fun actions events hX htrace => ?_
          have horder : row.orderId ≠ none := by
            intro hnone
            refine htrace.adopted key ?_
            rw [← show dedupeKey = placeDedupeKey key from hdedupe, ← hnone]
            exact hX.2.1
          exact hX.2.2 htrace key row hX.1 (by rw [hmem.2, hdedupe]) horder
        · exact carries_finalizeKey env k _ (.inl hplace)
    exact hemit.bind fun _ => (hfinalize.conseq (fun _ hs => hs) (fun _ _ hs => hs.sound)
      (fun _ _ hs => hs)).bind fun _ => Triple.pure fun _ hs => hs
  · have hfinalize : Carries nothing (finalizeKey env k ⟨none, none, none, .failed⟩) :=
      carries_finalizeKey env k _ (.inr (by simp))
    exact (hfinalize.conseq (fun s hs => ⟨hs.2, trivial⟩) (fun _ _ hs => hs.sound)
      (fun _ _ hs => hs)).bind fun _ => Triple.pure fun _ hs => hs

theorem placeReserved_sound (acc : ExecuteSummary) (p : Placement) :
    Triple Sound (placeReserved env config acc p) (fun _ => Sound) (fun _ => Sound) := by
  have hpending (X : Known) (actionId : Option ℕ) :
      Carries X (finalizePlace env p actionId none .pending) :=
    carries_finalizeKey env _ _ (.inr (by simp))
  refine Triple.bind ((hpending nothing none).conseq (fun s hs => ⟨hs, trivial⟩) (fun _ _ h => h)
    (fun _ _ h => h)) fun _ => ?_
  refine (phase_addAction env _ _ _ _).bind fun r => ?_
  cases r with
  | none =>
    refine Triple.bind ((handleReservation_sound env _ _ _ ?_).conseq (fun _ hs => hs.sound)
      (fun _ _ h => h) (fun _ _ h => h)) fun _ => Triple.pure fun _ hs => hs
    cases config.dryRun with
    | true => exact .inl (by decide +kernel)
    | false => exact .inr (.inr rfl)
  | some actionId =>
    refine (hpending _ (some actionId)).bind fun _ => Triple.ite (fun _ => ?_) fun hlive => ?_
    · exact simulatePlace_sound env p actionId acc _
    · rw [if_neg hlive]
      exact submitAndSettle_sound env config p actionId acc

end Reserved

end Stage3Service
