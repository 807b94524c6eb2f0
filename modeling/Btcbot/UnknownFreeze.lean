import Btcbot.Stage3Frame
import Btcbot.Runs

/-!
# The freeze on unknown orders

A place call is logged with the unknown orders of the store and the ids of the
registry at that moment. The gate in front of it syncs the registry from the
store and looks at it; nothing between the gate and the last attempt writes to
either. The registry is emptied by a sync that may clear, which only a refresh
without failed reads makes.
-/
namespace Stage3Service

open PyData ExchangeErrors Stage3Store Stage3Intent Idempotency ExecutionWrapper Effects

section Log

/-- The order ids of the registry after a log. -/
def registryAfter (start : List String) (log : List Event) : List String :=
  log.foldl (fun ids event => match event with
    | .registry orderIds => orderIds
    | _ => ids) start

/-- A refresh is under way, and no exchange read of it has failed. -/
def CleanRefresh (log : List Event) : Prop :=
  ∃ earlier since, log = earlier ++ .refreshStarted :: since ∧
    ∀ event ∈ since, event ≠ .called ∧ event ≠ .refreshFinished ∧
      ∀ symbol, event ≠ .readFailed symbol

/-- What may be logged after `before`. -/
def Allowed (start : List String) (before : List Event) : Event → Prop
  | .place p => p.unknownOrders = [] ∧ p.registryUnknown = []
  | .registry orderIds => orderIds = [] → registryAfter start before ≠ [] → CleanRefresh before
  | _ => True

theorem registryAfter_snoc (start : List String) (log : List Event) (event : Event) :
    registryAfter start (log ++ [event]) = match event with
      | .registry orderIds => orderIds
      | _ => registryAfter start log := by
  rw [registryAfter, List.foldl_append]
  rfl

theorem registryAfter_reads (start : List String) (log : List Event) (reads : List String) :
    registryAfter start (log ++ reads.map Event.readFailed) = registryAfter start log := by
  induction reads generalizing log with
  | nil => simp
  | cons symbol reads ih =>
    have h := ih (log ++ [.readFailed symbol])
    rw [registryAfter_snoc] at h
    simpa using h

/-- Every event of the log was allowed, and the registry is the one the log tells of. -/
structure Frozen (start : List String) (s : Sys) : Prop where
  allowed : ∀ before event after, s.events = before ++ event :: after →
    Allowed start before event
  registry : s.registry.keys = registryAfter start s.events

variable {start : List String} {s t : Sys}

theorem Frozen.same (h : Frozen start s) (hevents : t.events = s.events)
    (hregistry : t.registry = s.registry) : Frozen start t :=
  ⟨fun before event after hlog => h.allowed before event after (hevents ▸ hlog),
    by rw [hregistry, hevents, h.registry]⟩

/-- One more event. -/
theorem Frozen.snoc {event : Event} (h : Frozen start s) (hevents : t.events = s.events ++ [event])
    (hallowed : Allowed start s.events event)
    (hregistry : t.registry.keys = registryAfter start t.events) : Frozen start t := by
  refine ⟨fun before other after hlog => ?_, hregistry⟩
  rw [hevents] at hlog
  rcases List.eq_nil_or_concat after with rfl | ⟨init, last, rfl⟩
  · obtain ⟨rfl, hlast⟩ := List.append_inj' hlog rfl
    cases hlast
    exact hallowed
  · refine h.allowed before other init ?_
    have hsplit : s.events ++ [event] = (before ++ other :: init) ++ [last] := by simp [hlog]
    exact (List.append_inj' hsplit rfl).1

theorem Frozen.reads (h : Frozen start s) (reads : List String)
    (hevents : t.events = s.events ++ reads.map Event.readFailed)
    (hregistry : t.registry = s.registry) : Frozen start t := by
  induction reads generalizing s with
  | nil => exact h.same (by simpa using hevents) hregistry
  | cons symbol reads ih =>
    have hnext : Frozen start { s with events := s.events ++ [.readFailed symbol] } := by
      refine h.snoc rfl trivial ?_
      rw [registryAfter_snoc]
      exact h.registry
    exact ih hnext (by simpa using hevents) hregistry

end Log

section Walk

/-- The log and the registry stay as they are. -/
structure Silent (s t : Sys) : Prop where
  events : t.events = s.events
  registry : t.registry = s.registry

instance : IsPreorder Sys Silent where
  refl _ := ⟨rfl, rfl⟩
  trans _ _ _ h g := ⟨g.events.trans h.events, g.registry.trans h.registry⟩

variable (start : List String) (env : Env) (config : Config)

theorem frozen_silent {α : Type} {m : ExecM α} (h : Keeps Silent m) :
    Maintains (Frozen start) m := h.frame fun _ _ hst hs => hs.same hst.events hst.registry

theorem silent_untouched {α : Type} {m : ExecM α} (h : Keeps Untouched m) : Keeps Silent m :=
  h.imp fun _ _ hst => ⟨hst.events, hst.registry⟩

theorem frozen_untouched {α : Type} {m : ExecM α} (h : Keeps Untouched m) :
    Maintains (Frozen start) m := frozen_silent start (silent_untouched h)

theorem silent_writeIdempotency (f : ℤ → IdempotencyTable → IdempotencyTable) :
    Keeps Silent (writeIdempotency env f) :=
  (silent_untouched (keeps_now env)).bind fun _ => Keeps.modify fun _ => ⟨rfl, rfl⟩

theorem silent_finalizeKey (k : RowKey) (args : FinalizeArgs) :
    Keeps Silent (finalizeKey env k args) := silent_writeIdempotency env _

theorem silent_reserveKey (k : RowKey) (args : ReserveArgs) :
    Keeps Silent (reserveKey env k args) := by
  refine (silent_untouched (keeps_now env)).bind fun _ => Keeps.get.bind fun _ => ?_
  split
  · exact Keeps.throw _
  · exact (Keeps.modify fun _ => ⟨rfl, rfl⟩).bind fun _ => Keeps.pure _

theorem silent_addAction (cycleId actionType payloadHash dedupeKey : String) :
    Keeps Silent (addAction env cycleId actionType payloadHash dedupeKey) :=
  (silent_untouched (keeps_now env)).bind fun _ => Keeps.get.bind fun _ =>
    (Keeps.modify fun _ => ⟨rfl, rfl⟩).bind fun _ => Keeps.pure _

theorem silent_writeActions (f : List ActionRow → List ActionRow) :
    Keeps Silent (writeActions env f) :=
  (silent_untouched (keeps_point env)).bind fun _ => Keeps.modify fun _ => ⟨rfl, rfl⟩

/-- The events that say nothing about the registry and are no place call. -/
def Harmless : Event → Prop
  | .place _ | .registry _ => False
  | _ => True

theorem frozen_emit {event : Event} (h : Harmless event) :
    Maintains (Frozen start) (emit event) := by
  refine Triple.modify fun s hs => hs.snoc rfl ?_ ?_
  · cases event <;> trivial
  · rw [registryAfter_snoc]
    cases event <;> first | exact hs.registry | exact h.elim

/-- A write that does not empty a registry with ids. -/
theorem frozen_setRegistry {f : Sys → Dict UnknownOrderRecord}
    (h : ∀ s, (f s).keys = [] → s.registry.keys = []) :
    Maintains (Frozen start) (setRegistry f) := by
  refine Triple.modify fun s hs => hs.snoc rfl (fun hnil hne => ?_) ?_
  · exact absurd (hs.registry ▸ h s hnil) hne
  · rw [registryAfter_snoc]

theorem frozen_sync : Maintains (Frozen start) (syncUnknownRegistryFromStore false) :=
  frozen_setRegistry start fun _ h => (syncSnapshot_nil h).2 rfl

theorem frozen_markUnknown (orderId reason : String) (ts : ℤ) :
    Maintains (Frozen start) (markUnknown orderId reason ts) := by
  refine frozen_setRegistry start fun s h => ?_
  rw [keys_nil_iff] at h
  simp at h

/-- A refresh that empties the registry is clean. -/
theorem frozen_refreshOrderLifecycle (symbols : List String) (skipNonEssential : Bool) :
    Maintains (Frozen start) (refreshOrderLifecycle env config symbols skipNonEssential) := by
  refine Triple.ite (fun _ => ?_) fun _ => ?_
  · refine (frozen_silent start (Keeps.modify ?_)).bind fun _ => Triple.pure fun _ hs => hs
    exact fun _ => ⟨rfl, rfl⟩
  have hstart : Triple (Frozen start) (emit .refreshStarted)
      (fun _ s => Frozen start s ∧ ∃ earlier, s.events = earlier ++ [.refreshStarted])
      (fun _ => Frozen start) := by
    refine Triple.modify fun s hs => ⟨hs.snoc rfl trivial ?_, s.events, rfl⟩
    rw [registryAfter_snoc]
    exact hs.registry
  have hend (s t : Sys) (hst : Refreshed s t)
      (hs : Frozen start s ∧ ∃ earlier, s.events = earlier ++ [.refreshStarted]) :
      Frozen start t := by
    obtain ⟨hfrozen, earlier, hearlier⟩ := hs
    obtain ⟨reads, ⟨hregistry, hevents⟩ | ⟨hevents, hnil⟩⟩ := hst.log
    · exact hfrozen.reads reads hevents hregistry
    · have hreads : Frozen start { s with events := s.events ++ reads.map .readFailed } :=
        hfrozen.reads reads rfl rfl
      refine hreads.snoc hevents (fun hempty hne => ?_) ?_
      · rw [registryAfter_reads, ← hfrozen.registry] at hne
        obtain rfl : reads = [] := (hnil hempty).resolve_left hne
        exact ⟨earlier, [], by simp [hearlier], by simp⟩
      · rw [hevents, registryAfter_snoc]
  have hfinish : Maintains (Frozen start) (emit .refreshFinished) := frozen_emit start trivial
  refine hstart.bind fun _ => Triple.bind (Q := fun _ => Frozen start) ?_ fun _ =>
    hfinish.bind fun _ => Triple.pure fun _ hs => hs
  intro s hs
  exact (refreshSymbols_keeps env config _ skipNonEssential s).mono
    (fun _ t hst => hend s t hst hs) (fun _ t hst => hend s t hst hs)

theorem frozen_handleReservationWithoutNewAction (actionType : String) (k : RowKey)
    (dedupeKey : String) :
    Maintains (Frozen start) (handleReservationWithoutNewAction env actionType k dedupeKey) := by
  refine (frozen_silent start Keeps.get).bind fun s => ?_
  split
  next row _ =>
    have hemit : Maintains (Frozen start) (emit (.adopted dedupeKey row.orderId)) :=
      frozen_emit start trivial
    exact hemit.bind fun _ => frozen_silent start
      ((silent_finalizeKey env k _).bind fun _ => Keeps.pure _)
  · exact frozen_silent start ((silent_finalizeKey env k _).bind fun _ => Keeps.pure _)

section Cancel

theorem silent_failCancel (order : Order) (actionId : ℕ) :
    Keeps Silent (failCancel env order actionId) :=
  (silent_finalizeKey env _ _).bind fun _ => silent_writeActions env _

theorem frozen_settleUncertainCancel (order : Order) (actionId : ℕ) :
    Maintains (Frozen start) (settleUncertainCancel env order actionId) := by
  refine (frozen_untouched start (keeps_reconcileCancel env order)).bind fun outcome => ?_
  refine (frozen_silent start (silent_writeActions env _)).bind fun _ => ?_
  have hstatus (args : StatusArgs) : Keeps Silent (storeOrderStatus env args) :=
    silent_untouched (keeps_storeOrderStatus env args)
  cases outcome.status with
  | unknown =>
    refine (frozen_untouched start (keeps_now env)).bind fun t => ?_
    refine (frozen_silent start (hstatus _)).bind fun _ => ?_
    refine (frozen_markUnknown start _ _ _).bind fun _ => ?_
    exact frozen_silent start ((silent_finalizeKey env _ _).bind fun _ => Keeps.pure _)
  | confirmed =>
    exact frozen_silent start ((hstatus _).bind fun _ =>
      (silent_finalizeKey env _ _).bind fun _ => Keeps.pure _)
  | notFound =>
    exact frozen_silent start ((silent_failCancel env order actionId).bind fun _ => Keeps.pure _)

theorem frozen_cancelLive (order : Order) (actionId : ℕ) :
    Maintains (Frozen start) (cancelLive env config order actionId) := by
  have hcancel : Maintains (Frozen start) (attempt (execute .cancel config.cancelRetryMaxAttempts
      (sleep env) fun _ => call env fun tick => env.cancelOrder tick order.orderId)) :=
    maintains_attempt (attempts_maintains .cancel
      (frozen_untouched start ((ticks_sleep env).imp fun _ _ h => h.untouched))
      (fun _ => frozen_untouched start (keeps_call env _)) _ _)
  have hfail : Maintains (Frozen start) (do
      failCancel env order actionId
      pure 0) :=
    frozen_silent start ((silent_failCancel env order actionId).bind fun _ => Keeps.pure _)
  refine hcancel.bind fun r => ?_
  cases r with
  | error exc => exact hfail
  | ok result =>
    cases result with
    | uncertainResult exc => exact frozen_settleUncertainCancel start env order actionId
    | value canceled =>
      cases canceled with
      | false => exact hfail
      | true =>
        exact frozen_silent start ((silent_untouched (keeps_storeOrderStatus env _)).bind fun _ =>
          (silent_writeActions env _).bind fun _ =>
            (silent_finalizeKey env _ _).bind fun _ => Keeps.pure _)

theorem frozen_cancelReserved (cycleId : String) (order : Order) :
    Maintains (Frozen start) (cancelReserved env config cycleId order) := by
  refine (frozen_silent start (silent_addAction env _ _ _ _)).bind fun r => ?_
  cases r with
  | none =>
    exact (frozen_handleReservationWithoutNewAction start env _ _ _).bind fun _ =>
      Triple.pure fun _ hs => hs
  | some actionId =>
    refine (frozen_silent start (silent_finalizeKey env _ _)).bind fun _ => ?_
    refine Triple.ite (fun _ => ?_) fun _ => frozen_cancelLive start env config order actionId
    exact frozen_silent start ((silent_finalizeKey env _ _).bind fun _ => Keeps.pure _)

theorem frozen_cancelStaleOrder (cycleId : String) (t : ℤ) (canceled : ℕ) (order : Order) :
    Maintains (Frozen start) (cancelStaleOrder env config cycleId t canceled order) := by
  have hreserve : Maintains (Frozen start) (do
      let reservation ← reserveKey env ("cancel_order", "cancel:" ++ order.orderId)
        ⟨cancelHash config.text order.orderId, cancelOrderIdempotencyTtlSeconds, !config.dryRun⟩
      if reservation.reserved then do
        let more ← cancelReserved env config cycleId order
        pure (canceled + more)
      else pure canceled) := by
    refine (frozen_silent start (silent_reserveKey env _ _)).bind fun reservation => ?_
    refine Triple.ite (fun _ => ?_) fun _ => Triple.pure fun _ hs => hs
    exact (frozen_cancelReserved start env config cycleId order).bind fun _ =>
      Triple.pure fun _ hs => hs
  refine (frozen_silent start Keeps.get).bind fun s => ?_
  refine Triple.ite (fun _ => Triple.pure fun _ hs => hs) fun _ => ?_
  refine Triple.ite (fun _ => ?_) fun _ => hreserve
  exact (frozen_untouched start (keeps_ensureLiveSideEffectsAllowed config)).bind fun _ => hreserve

theorem frozen_cancelStaleOrders (cycleId : String) :
    Maintains (Frozen start) (cancelStaleOrders env config cycleId) := by
  refine (frozen_untouched start (keeps_attempt (keeps_call env _))).bind fun r => ?_
  cases r with
  | error exc => exact Triple.pure fun _ hs => hs
  | ok openOrders =>
    refine (frozen_silent start Keeps.get).bind fun s => ?_
    refine Triple.ite (fun _ => Triple.pure fun _ hs => hs) fun _ => ?_
    refine (frozen_untouched start (keeps_submissionGuardedByRuntimeState env config)).bind
      fun guarded => ?_
    refine Triple.ite (fun _ => Triple.pure fun _ hs => hs) fun _ => ?_
    refine (frozen_silent start (silent_writeIdempotency env _)).bind fun _ => ?_
    refine (frozen_untouched start (keeps_now env)).bind fun t => ?_
    exact Triple.foldlM (I := fun _ => Frozen start) openOrders
      (fun order _ canceled => frozen_cancelStaleOrder start env config cycleId t canceled order) 0

end Cancel

section Submit

/-- The gate is open: no unknown order in the store, none in the registry. -/
structure Gate (s : Sys) : Prop where
  frozen : Frozen start s
  orders : listUnknownOrders s.orders = []
  registry : s.registry.keys = []

theorem gate_ticked {α : Type} {m : ExecM α} (h : Keeps Ticked m) : Maintains (Gate start) m := by
  refine h.frame fun s t hst hs => ?_
  obtain ⟨n, rfl⟩ := hst
  exact ⟨hs.frozen.same rfl rfl, hs.orders, hs.registry⟩

theorem gate_submitCall (p : Placement) (number : ℕ) :
    Maintains (Gate start) (submitCall env config p number) := by
  refine Triple.ite (fun _ => ?_) fun _ => ?_
  · exact Triple.bind (Q := fun _ _ => False) (Triple.throw fun _ hs => hs) fun _ _ h => h.elim
  refine (gate_ticked start (ticks_point env)).bind fun tick => ?_
  refine Triple.bind (Q := fun s t => s = t ∧ Gate start t) (Triple.get fun _ hs => ⟨rfl, hs⟩)
    fun s => ?_
  refine Triple.bind (Q := fun _ => Gate start) (Triple.modify ?_) fun _ =>
    gate_ticked start (keeps_liftExcept _)
  rintro _ ⟨rfl, hs⟩
  refine ⟨hs.frozen.snoc rfl ⟨by simp [hs.orders], hs.registry⟩ ?_, hs.orders, hs.registry⟩
  rw [registryAfter_snoc]
  exact hs.frozen.registry

/-- The sync in front of the gate brings every unknown order of the store into the registry. -/
theorem frozen_sync_gate : Triple (Frozen start) (syncUnknownRegistryFromStore false)
    (fun _ s => Frozen start s ∧ (s.registry.keys = [] → listUnknownOrders s.orders = []))
    (fun _ => Frozen start) := by
  intro s hs
  refine ⟨frozen_sync start s hs, fun hnil => ?_⟩
  simpa using (syncSnapshot_nil hnil).1

theorem frozen_submitLimitOrder (p : Placement) :
    Maintains (Frozen start) (submitLimitOrder env config p) := by
  refine (frozen_sync_gate start).bind fun _ => ?_
  refine Triple.bind (Q := fun s t => s = t ∧ Frozen start t ∧
    (t.registry.keys = [] → listUnknownOrders t.orders = []))
    (Triple.get fun _ hs => ⟨rfl, hs⟩) fun s => ?_
  refine Triple.ite (fun hempty => ?_) fun _ => Triple.throw fun _ hs => hs.2.1
  have hgate : Triple (fun t => s = t ∧ Frozen start t ∧
      (t.registry.keys = [] → listUnknownOrders t.orders = []))
      (execute .submit config.submitRetryMaxAttempts (sleep env) (submitCall env config p))
      (fun _ => Gate start) (fun _ => Gate start) := by
    refine (attempts_maintains (I := Gate start) .submit (gate_ticked start (ticks_sleep env))
      (gate_submitCall start env config p) _ _).conseq ?_ (fun _ _ h => h) (fun _ _ h => h)
    rintro t ⟨rfl, hfrozen, hlist⟩
    have hkeys : s.registry.keys = [] := (keys_nil_iff _).mpr hempty
    exact ⟨hfrozen, hlist hkeys, hkeys⟩
  refine (hgate.conseq (fun _ hs => hs) (fun _ _ h => h.frozen) (fun _ _ h => h.frozen)).bind
    fun result => ?_
  cases result with
  | uncertainResult exc => exact Triple.pure fun _ hs => hs
  | value ack =>
    exact frozen_silent start ((keeps_liftExcept _).bind fun _ => Keeps.pure _)

theorem frozen_reconcileSubmit (p : Placement) :
    Maintains (Frozen start) (reconcileSubmit env p) := by
  refine (frozen_untouched start (keeps_attempt (keeps_findSubmitted env p))).bind fun r => ?_
  cases r with
  | error exc => exact Triple.pure fun _ hs => hs
  | ok outcome =>
    obtain ⟨status, orderId, reason⟩ := outcome
    cases orderId with
    | none => exact Triple.pure fun _ hs => hs
    | some orderId =>
      have hemit : Maintains (Frozen start) (emit (.matched p.clientOrderId orderId)) :=
        frozen_emit start trivial
      exact hemit.bind fun _ => Triple.pure fun _ hs => hs

end Submit

section Settle

theorem silent_storeOrder (args : SaveOrderArgs) : Keeps Silent (storeOrder env args) :=
  silent_untouched (keeps_storeOrder env args)

theorem silent_now : Keeps Silent (now env) := silent_untouched (keeps_now env)

theorem silent_rejectSubmit (p : Placement) (actionId : ℕ) (exc : Exc) :
    Keeps Silent (rejectSubmit env p actionId exc) := by
  refine (silent_now env).bind fun _ => (silent_now env).bind fun _ => (silent_now env).bind
    fun _ => (silent_storeOrder env _).bind fun _ => ?_
  exact (silent_finalizeKey env _ _).bind fun _ => silent_writeActions env _

theorem frozen_markSubmitUnknown (p : Placement) (actionId : ℕ) (outcome : ReconcileOutcome) :
    Maintains (Frozen start) (markSubmitUnknown env p actionId outcome) := by
  refine (frozen_silent start (silent_writeActions env _)).bind fun _ => ?_
  refine (frozen_silent start (silent_finalizeKey env _ _)).bind fun _ => ?_
  refine (frozen_silent start (silent_now env)).bind fun _ => ?_
  exact (frozen_silent start (silent_storeOrder env _)).bind fun _ => frozen_markUnknown start _ _ _

theorem silent_commitPlaced (p : Placement) (actionId : ℕ) (orderId : String) :
    Keeps Silent (commitPlaced env p actionId orderId) :=
  (silent_writeActions env _).bind fun _ => silent_finalizeKey env _ _

theorem silent_storePlaced (p : Placement) (actionId : ℕ) (orderId : String) :
    Keeps Silent (storePlaced env p actionId orderId) :=
  (silent_now env).bind fun _ => (silent_storeOrder env _).bind fun _ =>
    silent_commitPlaced env p actionId orderId

theorem frozen_settleUncertainError (p : Placement) (actionId : ℕ) :
    Maintains (Frozen start) (settleUncertainError env p actionId) := by
  refine (frozen_reconcileSubmit start env p).bind fun outcome => ?_
  split
  next orderId _ _ =>
    refine frozen_silent start ((silent_now env).bind fun _ => (silent_now env).bind fun _ =>
      (silent_storeOrder env _).bind fun _ => Keeps.bind ?_ fun _ =>
        (silent_commitPlaced env p actionId orderId).bind fun _ => Keeps.pure _)
    exact silent_untouched (keeps_storeOrderStatus env _)
  · exact (frozen_markSubmitUnknown start env p actionId outcome).bind fun _ =>
      Triple.pure fun _ hs => hs

theorem frozen_settleUncertainResult (p : Placement) (actionId : ℕ) :
    Maintains (Frozen start) (settleUncertainResult env p actionId) := by
  refine (frozen_reconcileSubmit start env p).bind fun outcome => ?_
  split
  next orderId _ _ =>
    exact frozen_silent start ((silent_storePlaced env p actionId orderId).bind fun _ =>
      Keeps.pure _)
  · exact (frozen_markSubmitUnknown start env p actionId outcome).bind fun _ =>
      Triple.pure fun _ hs => hs

theorem frozen_settleError (acc : ExecuteSummary) (p : Placement) (actionId : ℕ) (exc : Exc) :
    Maintains (Frozen start) (settleError env acc p actionId exc) := by
  refine Triple.ite (fun _ => ?_) fun _ => ?_
  · exact (frozen_settleUncertainError start env p actionId).bind fun _ =>
      Triple.pure fun _ hs => hs
  · exact frozen_silent start ((silent_rejectSubmit env p actionId exc).bind fun _ => Keeps.pure _)

theorem frozen_submitAndSettle (acc : ExecuteSummary) (p : Placement) (actionId : ℕ) :
    Maintains (Frozen start) (submitAndSettle env config acc p actionId) := by
  refine (maintains_attempt (frozen_submitLimitOrder start env config p)).bind fun r => ?_
  split
  · exact Triple.throw fun _ hs => hs
  next exc _ => exact frozen_settleError start env _ p actionId exc
  · exact (frozen_settleUncertainResult start env p actionId).bind fun _ =>
      Triple.pure fun _ hs => hs
  next orderId =>
    exact frozen_silent start ((silent_storePlaced env p actionId orderId).bind fun _ =>
      Keeps.pure _)

theorem silent_simulatePlace (acc : ExecuteSummary) (p : Placement) (actionId : ℕ) :
    Keeps Silent (simulatePlace env acc p actionId) :=
  (silent_writeActions env _).bind fun _ => (silent_finalizeKey env _ _).bind fun _ => Keeps.pure _

theorem frozen_placeReserved (acc : ExecuteSummary) (p : Placement) :
    Maintains (Frozen start) (placeReserved env config acc p) := by
  refine (frozen_silent start (silent_finalizeKey env _ _)).bind fun _ => ?_
  refine (frozen_silent start (silent_addAction env _ _ _ _)).bind fun r => ?_
  cases r with
  | none =>
    exact (frozen_handleReservationWithoutNewAction start env _ _ _).bind fun _ =>
      Triple.pure fun _ hs => hs
  | some actionId =>
    refine (frozen_silent start (silent_finalizeKey env _ _)).bind fun _ => ?_
    refine Triple.ite (fun _ => ?_) fun _ => frozen_submitAndSettle start env config acc p actionId
    exact frozen_silent start (silent_simulatePlace env acc p actionId)

end Settle

section Calls

theorem silent_updateRecovery (k : RowKey) (args : RecoveryArgs) :
    Keeps Silent (updateRecovery env k args) := silent_writeIdempotency env _

theorem frozen_recoverStalePendingPlaceOrder (symbol key clientOrderId : String)
    (row : IdempotencyRow) : Maintains (Frozen start)
      (recoverStalePendingPlaceOrder env config symbol key clientOrderId row) := by
  refine (frozen_silent start (silent_now env)).bind fun t => ?_
  refine Triple.ite (fun _ => Triple.pure fun _ hs => hs) fun _ => ?_
  refine (frozen_untouched start (keeps_attempt (keeps_lookupStalePending env _ _))).bind
    fun r => ?_
  split
  · exact frozen_silent start (silent_updateRecovery env _ _)
  next matched =>
    have hemit : Maintains (Frozen start) (emit (.recovered key clientOrderId matched.orderId)) :=
      frozen_emit start trivial
    exact hemit.bind fun _ => frozen_silent start ((silent_finalizeKey env _ _).bind fun _ =>
      silent_updateRecovery env _ _)
  · exact frozen_silent start ((silent_finalizeKey env _ _).bind fun _ =>
      silent_updateRecovery env _ _)

theorem frozen_handleDuplicate (symbol key : String) (row : IdempotencyRow) :
    Maintains (Frozen start) (handleDuplicate env config symbol key row) := by
  refine (frozen_silent start (silent_now env)).bind fun t => ?_
  dsimp only
  split
  · exact Triple.pure fun _ hs => hs
  · exact Triple.ite
      (fun _ => frozen_recoverStalePendingPlaceOrder start env config symbol key _ row)
      fun _ => Triple.pure fun _ hs => hs

theorem frozen_placeIntent (acc : ExecuteSummary) (intent : OrderIntent) (raw : Option Intent)
    (sizing : OrderSizing.OrderSizingResult) :
    Maintains (Frozen start) (placeIntent env config acc intent raw sizing) := by
  refine (frozen_untouched start (keeps_rulesForHash env config _)).bind fun rules => ?_
  refine (frozen_silent start (silent_reserveKey env _ _)).bind fun reservation => ?_
  refine Triple.ite (fun _ => frozen_placeReserved start env config acc _) fun _ => ?_
  exact (frozen_handleDuplicate start env config _ _ _).bind fun _ => Triple.pure fun _ hs => hs

theorem frozen_processIntent (balances : Option (Dict ℚ)) (acc : ExecuteSummary)
    (item : OrderIntent × Option Intent) :
    Maintains (Frozen start) (processIntent env config balances acc item) := by
  obtain ⟨intent, raw⟩ := item
  have hplace (sizing : OrderSizing.OrderSizingResult) :
      Maintains (Frozen start) (placeIntent env config acc intent raw sizing) :=
    frozen_placeIntent start env config acc intent raw sizing
  have hsize : Maintains (Frozen start) (do
      let sizing ← sizeIntent env config intent
      if sizing.status ≠ .ok then pure (acc.rejectedSizing config sizing.status)
      else if config.dryRun then placeIntent env config acc intent raw sizing
      else do
        let check ← liftExcept (checkBalancePrecondition config balances
          (normalizeSymbol intent.symbol) intent.side sizing.quantizedPrice
          sizing.quantizedQuantity)
        if check.sufficient then placeIntent env config acc intent raw sizing
        else pure { acc with
          intentsRejectedPrecheck := acc.intentsRejectedPrecheck + 1
          rejectedIntents := acc.rejectedIntents + 1 }) := by
    refine (frozen_untouched start (keeps_sizeIntent env config intent)).bind fun sizing => ?_
    refine Triple.ite (fun _ => Triple.pure fun _ hs => hs) fun _ => ?_
    refine Triple.ite (fun _ => hplace sizing) fun _ => ?_
    refine (frozen_silent start (keeps_liftExcept _)).bind fun check => ?_
    exact Triple.ite (fun _ => hplace sizing) fun _ => Triple.pure fun _ hs => hs
  refine Triple.ite (fun _ => ?_) fun _ => hsize
  exact (frozen_untouched start (keeps_ensureLiveSideEffectsAllowed config)).bind fun _ => hsize

theorem frozen_submitIntents (intents : List (OrderIntent × Option Intent)) :
    Maintains (Frozen start) (submitIntents env config intents) := by
  have hloop (balances : Option (Dict ℚ)) : Maintains (Frozen start) (do
      let summary ← intents.foldlM (processIntent env config balances) {}
      modify fun s => { s with lastExecuteSummary := some summary }
      pure summary.ordersSubmitted) := by
    refine Triple.bind (Q := fun _ => Frozen start) (Triple.foldlM (I := fun _ => Frozen start)
      intents (fun item _ acc => frozen_processIntent start env config balances acc item) {})
      fun summary => ?_
    refine frozen_silent start ((Keeps.modify ?_).bind fun _ => Keeps.pure _)
    exact fun _ => ⟨rfl, rfl⟩
  refine Triple.ite (fun _ => ?_) fun _ => ?_
  · exact Triple.bind (Triple.pure fun _ hs => hs) hloop
  · exact (frozen_untouched start (keeps_getCycleBalances env _)).bind hloop

theorem frozen_guardAndSubmit (intents : List (OrderIntent × Option Intent)) :
    Maintains (Frozen start) (guardAndSubmit env config intents) := by
  refine (frozen_silent start Keeps.get).bind fun s => ?_
  refine Triple.ite (fun _ => Triple.pure fun _ hs => hs) fun _ => ?_
  refine (frozen_untouched start (keeps_submissionGuardedByRuntimeState env config)).bind
    fun guarded => ?_
  refine Triple.ite (fun _ => Triple.pure fun _ hs => hs) fun _ => ?_
  refine (frozen_silent start Keeps.get).bind fun t => ?_
  exact Triple.ite (fun _ => frozen_submitIntents start env config intents) fun _ =>
    Triple.throw fun _ hs => hs

theorem frozen_refreshOnce (intents : List (OrderIntent × Option Intent)) :
    Maintains (Frozen start) (refreshOnce env config intents) := by
  refine (frozen_silent start Keeps.get).bind fun s => ?_
  refine Triple.ite (fun _ => Triple.pure fun _ hs => hs) fun _ => ?_
  refine (frozen_refreshOrderLifecycle start env config _ false).bind fun _ => ?_
  split
  · refine Triple.ite (fun _ => Triple.pure fun _ hs => hs) fun _ => ?_
    exact frozen_silent start (Keeps.modify fun _ => ⟨rfl, rfl⟩)
  · exact Triple.pure fun _ hs => hs

theorem frozen_executeIntents (raws : List RawIntent) (cycleId : Option String) :
    Maintains (Frozen start) (executeIntents env config raws cycleId) := by
  refine (frozen_silent start (keeps_liftExcept _)).bind fun intents => ?_
  refine (frozen_refreshOnce start env config intents).bind fun _ => ?_
  refine (frozen_silent start (silent_writeIdempotency env _)).bind fun _ => ?_
  refine (frozen_silent start (Keeps.modify ?_)).bind fun _ => ?_
  · exact fun _ => ⟨rfl, rfl⟩
  exact (frozen_sync start).bind fun _ => frozen_guardAndSubmit start env config intents

theorem frozen_program (serviceCall : ServiceCall) :
    Maintains (Frozen start) (serviceCall.program env config) := by
  have hcalled : Maintains (Frozen start) (emit .called) := frozen_emit start trivial
  cases serviceCall with
  | executeIntents raws cycleId =>
    exact hcalled.bind fun _ => (frozen_executeIntents start env config raws cycleId).bind
      fun _ => Triple.pure fun _ hs => hs
  | refreshOrderLifecycle symbols skipNonEssential =>
    exact hcalled.bind fun _ =>
      (frozen_refreshOrderLifecycle start env config symbols skipNonEssential).bind
        fun _ => Triple.pure fun _ hs => hs
  | cancelStaleOrders cycleId =>
    exact hcalled.bind fun _ => (frozen_cancelStaleOrders start env config cycleId).bind
      fun _ => Triple.pure fun _ hs => hs

theorem frozen_stepCall (s : Sys) (input : Config × ServiceCall) (hs : Frozen start s) :
    Frozen start (stepCall env s input) :=
  stateAfter_of_triple (frozen_program start env input.1 input.2) hs

theorem frozen_run (s : Sys) (calls : List (Config × ServiceCall)) (hs : Frozen start s) :
    Frozen start (Runs.run (stepCall env) s calls) :=
  Runs.run_keeps (frozen_stepCall start env) s calls hs

end Calls

end Walk

/-- No place call is made while the store or the registry knows of an unknown order, and only a
refresh without a failed read empties the registry; from any store and registry, by any calls. -/
theorem unknown_freeze (env : Env) (s : Sys) (calls : List (Config × ServiceCall)) :
    let last := Runs.run (stepCall env) { s with events := [] } calls
    (∀ before p after, last.events = before ++ .place p :: after →
      p.unknownOrders = [] ∧ p.registryUnknown = []) ∧
    (∀ before after, last.events = before ++ .registry [] :: after →
      registryAfter s.registry.keys before ≠ [] → CleanRefresh before) ∧
    last.registry.keys = registryAfter s.registry.keys last.events := by
  intro last
  have hlast : Frozen s.registry.keys last := by
    refine frozen_run _ env _ calls ⟨fun before event after hlog => ?_, rfl⟩
    simp at hlog
  exact ⟨fun before p after hlog => hlast.allowed before (.place p) after hlog,
    fun before after hlog => hlast.allowed before (.registry []) after hlog rfl, hlast.registry⟩

def Event.isPlace : Event → Bool
  | .place _ => true
  | _ => false

/-- With nothing unknown the gate lets a place call through. -/
theorem unknown_freeze_sample : ∃ p, Event.place p ∈
    (Runs.run (stepCall quietEnv) { ({} : Sys) with events := [] }
      [(sampleConfig, sampleCall)]).events ∧
    p.unknownOrders = [] ∧ p.registryUnknown = [] := by
  have hplaced : (Runs.run (stepCall quietEnv) { ({} : Sys) with events := [] }
      [(sampleConfig, sampleCall)]).events.any Event.isPlace = true := by decide +kernel
  obtain ⟨event, hmem, hevent⟩ := List.any_eq_true.mp hplaced
  cases event with
  | place p =>
    obtain ⟨before, after, hlog⟩ := List.append_of_mem hmem
    exact ⟨p, hmem, (unknown_freeze quietEnv {} [(sampleConfig, sampleCall)]).1 before p after hlog⟩
  | _ => cases hevent

end Stage3Service
