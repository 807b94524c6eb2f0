import Btcbot.PlaceSubmit

/-!
# One order an intent, and rows that tell the truth

Every call of the service, and a restart over the same store, leaves the records
sound. So at most one order is created under a key as long as every place call
that creates one settles; and a committed row names an order there is evidence
for, as long as no reservation takes over an action that has none.
-/
namespace Stage3Service

open PyData ExchangeErrors Stage3Store Stage3Intent Idempotency ExecutionWrapper Effects

section Calls

variable (env : Env) (config : Config)

theorem sound_of_carries {α : Type} {m : ExecM α} (h : Carries nothing m) : Maintains Sound m :=
  h.conseq (fun _ hs => ⟨hs, trivial⟩) (fun _ _ hs => hs.sound) (fun _ _ hs => hs)

theorem sound_untouched {α : Type} {m : ExecM α} (h : Keeps Untouched m) : Maintains Sound m :=
  sound_of_carries (carries_untouched h)

theorem sound_emit {event : Event} (hevent : ∀ p, event ≠ .place p) :
    Maintains Sound (emit event) :=
  Triple.modify fun _ hs => hs.snoc hevent rfl rfl rfl

theorem sound_setRegistry (f : Sys → Dict UnknownOrderRecord) : Maintains Sound (setRegistry f) :=
  sound_of_carries (phase_setRegistry f fun _ _ _ _ => trivial)

/-- The failed reads and the registry write of a refresh are no place calls. -/
theorem sound_refreshOrderLifecycle (symbols : List String) (skipNonEssential : Bool) :
    Maintains Sound (refreshOrderLifecycle env config symbols skipNonEssential) := by
  have hreads (s : Sys) (reads : List String) (hs : Sound s) :
      Sound { s with events := s.events ++ reads.map .readFailed } := by
    induction reads generalizing s with
    | nil => exact hs.same rfl rfl (by simp)
    | cons symbol reads ih =>
      have hnext : Sound { s with events := s.events ++ [.readFailed symbol] } :=
        hs.snoc (by simp) rfl rfl rfl
      exact (ih _ hnext).same rfl rfl (by simp)
  have hrefreshed (s t : Sys) (hst : Refreshed s t) (hs : Sound s) : Sound t := by
    obtain ⟨reads, ⟨-, hevents⟩ | ⟨hevents, -⟩⟩ := hst.log
    · exact (hreads s reads hs).same hst.idempotency hst.actions hevents
    · exact (hreads s reads hs).snoc (by simp) hst.idempotency hst.actions hevents
  refine Triple.ite (fun _ => ?_) fun _ => ?_
  · refine (sound_untouched (Keeps.modify ?_)).bind fun _ => Triple.pure fun _ hs => hs
    exact fun _ => ⟨rfl, rfl, rfl, rfl⟩
  refine (sound_emit (by simp)).bind fun _ => ?_
  refine ((refreshSymbols_keeps env config _ skipNonEssential).frame hrefreshed).bind fun _ => ?_
  exact (sound_emit (by simp)).bind fun _ => Triple.pure fun _ hs => hs

section Cancel

/-- A cancel works on rows of its own. -/
theorem carries_finalizeCancel {X : Known} (order : Order) (actionId : ℕ)
    (status : IdempotencyStatus) : Carries X (finalizeCancel env order actionId status) :=
  carries_finalizeKey env _ _ (.inl (by simp))

variable {dedupeKey : String}

theorem failCancel_sound (order : Order) (actionId : ℕ) :
    Triple (Phase (Recorded actionId dedupeKey)) (failCancel env order actionId) (fun _ => Sound)
      (fun _ => Sound) :=
  (carries_finalizeCancel env order actionId .failed).bind fun _ => phase_clear env fun _ _ h => h

variable (hkey : NotPlace dedupeKey)

include hkey

theorem carries_attachCancel (actionId : ℕ) (clientOrderId orderId : Option String) :
    Carries (Recorded actionId dedupeKey) (attachMetadata env actionId clientOrderId orderId) :=
  phase_attach env _ _ (fun _ _ h => h.1) (fun _ _ key _ h _ _ => absurd h (hkey key))
    fun _ _ h => ⟨h.1.attach _ _, fun key h' => absurd h' (hkey key)⟩

theorem settleUncertainCancel_sound (order : Order) (actionId : ℕ) :
    Triple (Phase (Recorded actionId dedupeKey)) (settleUncertainCancel env order actionId)
      (fun _ => Sound) (fun _ => Sound) := by
  refine (carries_untouched (keeps_reconcileCancel env order)).bind fun outcome => ?_
  refine (carries_attachCancel env hkey actionId _ _).bind fun _ => ?_
  have hend (status : IdempotencyStatus) (n : ℕ) : Triple (Phase (Recorded actionId dedupeKey)) (do
      finalizeCancel env order actionId status
      pure n) (fun _ => Sound) (fun _ => Sound) :=
    (carries_finalizeCancel env order actionId status).bind fun _ => Triple.pure fun _ hs => hs.sound
  cases outcome.status with
  | unknown =>
    refine (carries_untouched (keeps_now env)).bind fun t => ?_
    refine (carries_untouched (keeps_storeOrderStatus env _)).bind fun _ => ?_
    refine (phase_setRegistry _ fun _ _ _ h => ?_).bind fun _ => hend .unknown 0
    exact Recorded.snoc actionId (by simp) h
  | confirmed =>
    exact (carries_untouched (keeps_storeOrderStatus env _)).bind fun _ => hend .committed 1
  | notFound =>
    exact (failCancel_sound env order actionId).bind fun _ => Triple.pure fun _ hs => hs

theorem cancelLive_sound (order : Order) (actionId : ℕ) :
    Triple (Phase (Recorded actionId dedupeKey)) (cancelLive env config order actionId)
      (fun _ => Sound) (fun _ => Sound) := by
  have hcancel : Carries (Recorded actionId dedupeKey) (attempt (execute .cancel
      config.cancelRetryMaxAttempts (sleep env) fun _ =>
        call env fun tick => env.cancelOrder tick order.orderId)) :=
    (maintains_attempt (attempts_maintains .cancel
      (phase_untouched ((ticks_sleep env).imp fun _ _ h => h.untouched))
      (fun _ => phase_untouched (keeps_call env _)) _ _)).conseq (fun _ hs => hs) (fun _ _ h => h)
      (fun _ _ h => h.sound)
  have hfail : Triple (Phase (Recorded actionId dedupeKey)) (do
      failCancel env order actionId
      pure 0) (fun _ => Sound) (fun _ => Sound) :=
    (failCancel_sound env order actionId).bind fun _ => Triple.pure fun _ hs => hs
  refine hcancel.bind fun r => ?_
  cases r with
  | error exc => exact hfail
  | ok result =>
    cases result with
    | uncertainResult exc => exact settleUncertainCancel_sound env hkey order actionId
    | value canceled =>
      cases canceled with
      | false => exact hfail
      | true =>
        refine (carries_untouched (keeps_storeOrderStatus env _)).bind fun _ => ?_
        refine (carries_attachCancel env hkey actionId _ _).bind fun _ => ?_
        exact (carries_finalizeCancel env order actionId .committed).bind fun _ =>
          Triple.pure fun _ hs => hs.sound

end Cancel

theorem sound_cancelReserved (cycleId : String) (order : Order) :
    Maintains Sound (cancelReserved env config cycleId order) := by
  have hkey : NotPlace ((if config.dryRun then "would_cancel_order" else "cancel_order") ++ ":" ++
      ("cancel:" ++ order.orderId)) := by
    cases config.dryRun with
    | true => exact notPlace_of_head (by simp [String.toList_append]; rfl) (by decide)
    | false => exact notPlace_of_head (by simp [String.toList_append]; rfl) (by decide)
  refine Triple.bind ((phase_addAction env _ _ _ _).conseq (fun _ hs => ⟨hs, trivial⟩)
    (fun _ _ h => h) (fun _ _ h => h)) fun r => ?_
  cases r with
  | none =>
    exact ((handleReservation_sound env _ _ _ (.inr (.inl (by simp)))).conseq
      (fun _ hs => hs.sound) (fun _ _ h => h) (fun _ _ h => h)).bind fun _ =>
        Triple.pure fun _ hs => hs
  | some actionId =>
    refine (carries_finalizeCancel env order actionId .pending).bind fun _ => ?_
    refine Triple.ite (fun _ => ?_) fun _ => cancelLive_sound env config hkey order actionId
    exact (carries_finalizeCancel env order actionId .simulated).bind fun _ =>
      Triple.pure fun _ hs => hs.sound

theorem sound_cancelStaleOrder (cycleId : String) (t : ℤ) (canceled : ℕ) (order : Order) :
    Maintains Sound (cancelStaleOrder env config cycleId t canceled order) := by
  have hreserve : Maintains Sound (do
      let reservation ← reserveKey env ("cancel_order", "cancel:" ++ order.orderId)
        ⟨cancelHash config.text order.orderId, cancelOrderIdempotencyTtlSeconds, !config.dryRun⟩
      if reservation.reserved then do
        let more ← cancelReserved env config cycleId order
        pure (canceled + more)
      else pure canceled) := by
    refine (sound_of_carries (carries_reserveKey env _ _)).bind fun reservation => ?_
    refine Triple.ite (fun _ => ?_) fun _ => Triple.pure fun _ hs => hs
    exact (sound_cancelReserved env config cycleId order).bind fun _ => Triple.pure fun _ hs => hs
  refine (sound_untouched Keeps.get).bind fun s => ?_
  refine Triple.ite (fun _ => Triple.pure fun _ hs => hs) fun _ => ?_
  refine Triple.ite (fun _ => ?_) fun _ => hreserve
  exact (sound_untouched (keeps_ensureLiveSideEffectsAllowed config)).bind fun _ => hreserve

theorem sound_cancelStaleOrders (cycleId : String) :
    Maintains Sound (cancelStaleOrders env config cycleId) := by
  refine (sound_untouched (keeps_attempt (keeps_call env _))).bind fun r => ?_
  cases r with
  | error exc => exact Triple.pure fun _ hs => hs
  | ok openOrders =>
    refine (sound_untouched Keeps.get).bind fun s => ?_
    refine Triple.ite (fun _ => Triple.pure fun _ hs => hs) fun _ => ?_
    refine (sound_untouched (keeps_submissionGuardedByRuntimeState env config)).bind
      fun guarded => ?_
    refine Triple.ite (fun _ => Triple.pure fun _ hs => hs) fun _ => ?_
    refine (sound_of_carries (carries_pruneKeys env)).bind fun _ => ?_
    refine (sound_untouched (keeps_now env)).bind fun t => ?_
    exact Triple.foldlM (I := fun _ => Sound) openOrders
      (fun order _ canceled => sound_cancelStaleOrder env config cycleId t canceled order) 0

/-- A recovered row is committed with the order its recovery logged. -/
theorem sound_recoverStalePendingPlaceOrder (symbol key clientOrderId : String)
    (row : IdempotencyRow) : Maintains Sound
      (recoverStalePendingPlaceOrder env config symbol key clientOrderId row) := by
  have hreset : Maintains Sound (updateRecovery env ("place_order", key)
      { recoveryAttempts := 0, nextRecoveryAtEpoch := none }) :=
    sound_of_carries (carries_updateRecovery env _ _ (by simp))
  refine (sound_untouched (keeps_now env)).bind fun t => ?_
  refine Triple.ite (fun _ => Triple.pure fun _ hs => hs) fun _ => ?_
  refine (sound_untouched (keeps_attempt (keeps_lookupStalePending env _ _))).bind fun r => ?_
  split
  · refine sound_of_carries (carries_updateRecovery env _ _ ?_)
    simp only [ne_eq, Option.some.injEq]
    split <;> simp
  next matched =>
    have hemit : Triple Sound (emit (.recovered key clientOrderId matched.orderId))
        (fun _ => Phase fun _ events =>
          Event.recovered key clientOrderId matched.orderId ∈ events) (fun _ => Sound) :=
      Triple.modify fun s hs => ⟨hs.snoc (by simp) rfl rfl rfl, by simp⟩
    refine hemit.bind fun _ => Triple.bind ((carries_commit env key _ fun _ events h htrace =>
      ⟨⟨_, _, rfl, rfl, .recovered h⟩, htrace.reached h⟩).conseq (fun _ hs => hs)
      (fun _ _ hs => hs.sound) (fun _ _ hs => hs)) fun _ => hreset
  · exact (sound_of_carries (carries_finalizeKey env _ _ (.inr (by simp)))).bind fun _ => hreset

theorem sound_handleDuplicate (symbol key : String) (row : IdempotencyRow) :
    Maintains Sound (handleDuplicate env config symbol key row) := by
  refine (sound_untouched (keeps_now env)).bind fun t => ?_
  dsimp only
  split
  · exact Triple.pure fun _ hs => hs
  · exact Triple.ite
      (fun _ => sound_recoverStalePendingPlaceOrder env config symbol key _ row)
      fun _ => Triple.pure fun _ hs => hs

theorem sound_placeIntent (acc : ExecuteSummary) (intent : OrderIntent) (raw : Option Intent)
    (sizing : OrderSizing.OrderSizingResult) :
    Maintains Sound (placeIntent env config acc intent raw sizing) := by
  refine (sound_untouched (keeps_rulesForHash env config _)).bind fun rules => ?_
  refine (sound_of_carries (carries_reserveKey env _ _)).bind fun reservation => ?_
  refine Triple.ite (fun _ => placeReserved_sound env config acc _) fun _ => ?_
  exact (sound_handleDuplicate env config _ _ _).bind fun _ => Triple.pure fun _ hs => hs

theorem sound_processIntent (balances : Option (Dict ℚ)) (acc : ExecuteSummary)
    (item : OrderIntent × Option Intent) :
    Maintains Sound (processIntent env config balances acc item) := by
  obtain ⟨intent, raw⟩ := item
  have hplace (sizing : OrderSizing.OrderSizingResult) :
      Maintains Sound (placeIntent env config acc intent raw sizing) :=
    sound_placeIntent env config acc intent raw sizing
  have hsize : Maintains Sound (do
      let sizing ← sizeIntent env config intent
      if sizing.status ≠ .ok then pure (acc.rejectedSizing config sizing.status)
      else if config.dryRun then placeIntent env config acc intent raw sizing
      else do
        let check ← liftExcept (checkBalancePrecondition config balances
          (normalizeSymbol intent.symbol) intent.side sizing.quantizedPrice
          sizing.quantizedQuantity)
        if check.sufficient then placeIntent env config acc intent raw sizing
        else pure { acc with
          intentsRejectedPrecheck := acc.intentsRejectedPrecheck + 1
          rejectedIntents := acc.rejectedIntents + 1 }) := by
    refine (sound_untouched (keeps_sizeIntent env config intent)).bind fun sizing => ?_
    refine Triple.ite (fun _ => Triple.pure fun _ hs => hs) fun _ => ?_
    refine Triple.ite (fun _ => hplace sizing) fun _ => ?_
    refine (sound_untouched (keeps_liftExcept _)).bind fun check => ?_
    exact Triple.ite (fun _ => hplace sizing) fun _ => Triple.pure fun _ hs => hs
  refine Triple.ite (fun _ => ?_) fun _ => hsize
  exact (sound_untouched (keeps_ensureLiveSideEffectsAllowed config)).bind fun _ => hsize

theorem sound_submitIntents (intents : List (OrderIntent × Option Intent)) :
    Maintains Sound (submitIntents env config intents) := by
  have hloop (balances : Option (Dict ℚ)) : Maintains Sound (do
      let summary ← intents.foldlM (processIntent env config balances) {}
      modify fun s => { s with lastExecuteSummary := some summary }
      pure summary.ordersSubmitted) := by
    refine Triple.bind (Q := fun _ => Sound) (Triple.foldlM (I := fun _ => Sound) intents
      (fun item _ acc => sound_processIntent env config balances acc item) {}) fun summary => ?_
    refine sound_untouched ((Keeps.modify ?_).bind fun _ => Keeps.pure _)
    exact fun _ => ⟨rfl, rfl, rfl, rfl⟩
  refine Triple.ite (fun _ => ?_) fun _ => ?_
  · exact Triple.bind (Triple.pure fun _ hs => hs) hloop
  · exact (sound_untouched (keeps_getCycleBalances env _)).bind hloop

theorem sound_executeIntents (raws : List RawIntent) (cycleId : Option String) :
    Maintains Sound (executeIntents env config raws cycleId) := by
  have hmodify {f : Sys → Sys} (hf : ∀ s, Untouched s (f s)) :
      Maintains Sound (modify f : ExecM Unit) := sound_untouched (Keeps.modify hf)
  have hguard (intents : List (OrderIntent × Option Intent)) :
      Maintains Sound (guardAndSubmit env config intents) := by
    refine (sound_untouched Keeps.get).bind fun s => ?_
    refine Triple.ite (fun _ => Triple.pure fun _ hs => hs) fun _ => ?_
    refine (sound_untouched (keeps_submissionGuardedByRuntimeState env config)).bind
      fun guarded => ?_
    refine Triple.ite (fun _ => Triple.pure fun _ hs => hs) fun _ => ?_
    refine (sound_untouched Keeps.get).bind fun t => ?_
    exact Triple.ite (fun _ => sound_submitIntents env config intents) fun _ =>
      Triple.throw fun _ hs => hs
  have hrefresh (intents : List (OrderIntent × Option Intent)) :
      Maintains Sound (refreshOnce env config intents) := by
    refine (sound_untouched Keeps.get).bind fun s => ?_
    refine Triple.ite (fun _ => Triple.pure fun _ hs => hs) fun _ => ?_
    refine (sound_refreshOrderLifecycle env config _ false).bind fun _ => ?_
    split
    · refine Triple.ite (fun _ => Triple.pure fun _ hs => hs) fun _ => hmodify ?_
      exact fun _ => ⟨rfl, rfl, rfl, rfl⟩
    · exact Triple.pure fun _ hs => hs
  refine (sound_untouched (keeps_liftExcept _)).bind fun intents => ?_
  refine (hrefresh intents).bind fun _ => ?_
  refine (sound_of_carries (carries_pruneKeys env)).bind fun _ => ?_
  refine (hmodify ?_).bind fun _ => (sound_setRegistry _).bind fun _ => hguard intents
  exact fun _ => ⟨rfl, rfl, rfl, rfl⟩

theorem sound_stepInput (s : Sys) (input : ServiceInput) (hs : Sound s) :
    Sound (stepInput env s input) := by
  have hcalled : Maintains Sound (emit .called) := sound_emit (by simp)
  cases input with
  | restart config =>
    have hconstruct : Maintains Sound (construct config) :=
      Triple.bind (Q := fun _ => Sound) (Triple.modify fun _ hs => hs.same rfl rfl rfl) fun _ =>
        sound_setRegistry _
    exact stateAfter_of_triple hconstruct hs
  | call config serviceCall =>
    cases serviceCall with
    | executeIntents raws cycleId =>
      exact stateAfter_of_triple (hcalled.bind fun _ =>
        (sound_executeIntents env config raws cycleId).bind fun _ => Triple.pure fun _ hs => hs) hs
    | refreshOrderLifecycle symbols skipNonEssential =>
      exact stateAfter_of_triple (hcalled.bind fun _ =>
        (sound_refreshOrderLifecycle env config symbols skipNonEssential).bind fun _ =>
          Triple.pure fun _ hs => hs) hs
    | cancelStaleOrders cycleId =>
      exact stateAfter_of_triple (hcalled.bind fun _ =>
        (sound_cancelStaleOrders env config cycleId).bind fun _ => Triple.pure fun _ hs => hs) hs

end Calls

/-- A store without idempotency rows and actions; the rest is as it may be. -/
def Sys.clean (s : Sys) : Sys :=
  { s with idempotency := IdempotencyTable.empty, actions := [], events := [] }

theorem sound_clean (s : Sys) : Sound s.clean :=
  ⟨fun i row hi => by simp [Sys.clean] at hi, fun _ key => ⟨Nat.zero_le 1, fun h => by cases h⟩,
    fun _ key row hrow => by simp [Sys.clean, IdempotencyTable.empty] at hrow,
    fun _ key row hrow => by simp [Sys.clean] at hrow⟩

theorem sound_run (env : Env) (s : Sys) (inputs : List ServiceInput) (hs : Sound s) :
    Sound (Runs.run (stepInput env) s inputs) :=
  Runs.run_keeps (sound_stepInput env) s inputs hs

/-- The answers of the exchange that leave open whether there is an order: a timeout, a connection
error or a server error. -/
def PlaceAnswer.Ambiguous (answer : PlaceAnswer) : Prop :=
  match answer.result with
  | .ok ack => ∃ orderId, mapExchangeAckToSubmitResult ack = .ok orderId
  | .error (.timeoutException _) | .error (.timeoutError _) | .error (.networkError _) => True
  | .error (.exchangeError error) => ∃ code, error.statusCode = some code ∧ 500 ≤ code
  | .error (.httpStatusError code _) => 500 ≤ code
  | .error _ => False

/-- Where every place call that creates an order settles, no key gets a second order. -/
theorem at_most_one_order (env : Env) (s : Sys) (inputs : List ServiceInput) (key : String)
    (hsettled : AllSettled (Runs.run (stepInput env) s.clean inputs).events) :
    created key (Runs.run (stepInput env) s.clean inputs).events ≤ 1 :=
  ((sound_run env s.clean inputs (sound_clean s)).once hsettled key).1

/-- Every order of the log was acknowledged. -/
def acknowledged (log : List Event) : Bool :=
  log.all fun event => match event with
    | .place p => match p.answer.result with
      | .ok (.submitOrderResult _) => true
      | _ => false
    | _ => true

theorem allSettled_of_acknowledged {log : List Event} (h : acknowledged log = true) :
    AllSettled log := by
  intro p hp _
  have hacked := List.all_eq_true.mp h _ hp
  cases hresult : p.answer.result with
  | error exc => simp [hresult] at hacked
  | ok ack =>
    cases ack with
    | submitOrderResult orderId => exact .inl ⟨_, orderId, rfl, rfl⟩
    | other orderId exchangeOrderId => simp [hresult] at hacked

def sampleKey : String := placeIdempotencyKey sampleText sampleIntent none

/-- The same intent executed twice. -/
theorem at_most_one_order_sample :
    created sampleKey (Runs.run (stepInput quietEnv) (({} : Sys).clean)
      [.call sampleConfig sampleCall, .call sampleConfig sampleCall]).events ≤ 1 :=
  at_most_one_order quietEnv {} _ sampleKey (allSettled_of_acknowledged (by decide +kernel))

/-- Both attempts of the wrapper create an order, and both are answered by a server error. -/
def failingEnv : Env := { quietEnv with
  placeOrder := fun _ _ => ⟨true, .error (.exchangeError
    { message := "bad gateway", statusCode := some 502 })⟩ }

/-- A retried submit creates a second order under the same key. -/
theorem retry_creates_twice :
    ¬ ∀ (env : Env) (s : Sys) (inputs : List ServiceInput) (key : String),
      (∀ tick request, (env.placeOrder tick request).creates = true →
        (env.placeOrder tick request).Ambiguous) →
      created key (Runs.run (stepInput env) s.clean inputs).events ≤ 1 := by
  intro hall
  have h := hall failingEnv {} [.call sampleConfig sampleCall] sampleKey
    (fun _ _ _ => ⟨502, rfl, by decide⟩)
  have htwo : created sampleKey (Runs.run (stepInput failingEnv) (({} : Sys).clean)
      [.call sampleConfig sampleCall]).events = 2 := by decide +kernel
  omega

/-- A committed row names an order that was placed under its key and that the exchange
acknowledged or reconciliation matched, where no reservation takes over an action without an
order and nothing is recovered that was never placed. -/
theorem committed_rows_backed (env : Env) (s : Sys) (inputs : List ServiceInput) (key : String)
    (row : IdempotencyRow)
    (htrace : Traceable (Runs.run (stepInput env) s.clean inputs).events)
    (hrow : (Runs.run (stepInput env) s.clean inputs).idempotency ("place_order", key) = some row)
    (hstatus : row.status = .committed) :
    (∃ clientOrderId orderId, row.clientOrderId = some clientOrderId ∧
      row.orderId = some orderId ∧
      Evidence (Runs.run (stepInput env) s.clean inputs).events key clientOrderId orderId) ∧
    Reached key (Runs.run (stepInput env) s.clean inputs).events := by
  have hback := (sound_run env s.clean inputs (sound_clean s)).rows htrace key row hrow hstatus
  exact ⟨hback.ids, hback.reached⟩

/-- The log tells of no take-over and no recovery. -/
def plain (log : List Event) : Bool :=
  log.all fun event => match event with
    | .adopted _ _ | .recovered _ _ _ => false
    | _ => true

theorem traceable_of_plain {log : List Event} (h : plain log = true) : Traceable log := by
  refine ⟨fun key hmem => ?_, fun before key c o after hlog => ?_⟩
  · exact absurd (List.all_eq_true.mp h _ hmem) (by simp)
  · subst hlog
    exact absurd (List.all_eq_true.mp h (.recovered key c o) (by simp)) (by simp)

/-- The row the sample intent leaves at the quiet exchange. -/
def sampleRow : IdempotencyRow where
  payloadHash := "3cbdd849837b1973814a5e8b23f9c2c44f191c6927f56fa4aa32989e5e4b6ffd"
  createdAtEpoch := 0
  expiresAtEpoch := 604800
  actionId := some 1
  clientOrderId := some sampleClientOrderId
  orderId := some "1"
  status := .committed

theorem committed_rows_backed_sample :
    (∃ clientOrderId orderId, sampleRow.clientOrderId = some clientOrderId ∧
      sampleRow.orderId = some orderId ∧
      Evidence (Runs.run (stepInput quietEnv) (({} : Sys).clean)
        [.call sampleConfig sampleCall]).events sampleKey clientOrderId orderId) ∧
    Reached sampleKey (Runs.run (stepInput quietEnv) (({} : Sys).clean)
      [.call sampleConfig sampleCall]).events :=
  committed_rows_backed quietEnv {} _ sampleKey sampleRow (traceable_of_plain (by decide +kernel))
    (by decide +kernel) rfl

/-- The process stops between the action row and the place call; the clock then runs on. -/
def crashingEnv : Env := { quietEnv with
  now := fun tick => 100000000 * tick
  crash := fun tick => tick == 11 }

/-- The intent is executed, stopped short, and executed again twice. -/
def crashRun : List ServiceInput :=
  [.call sampleConfig sampleCall, .restart sampleConfig, .call sampleConfig sampleCall,
    .call sampleConfig sampleCall]

/-- Recovery fails the key but leaves the action row in place; the next reservation meets that row
and commits without an order, though no place call was ever made. -/
theorem takeover_commits_nothing :
    ¬ ∀ (env : Env) (s : Sys) (inputs : List ServiceInput) (key : String) (row : IdempotencyRow),
      (Runs.run (stepInput env) s.clean inputs).idempotency ("place_order", key) = some row →
      row.status = .committed → row.orderId ≠ none ∧
        Reached key (Runs.run (stepInput env) s.clean inputs).events := by
  intro hall
  have hrow : ((Runs.run (stepInput crashingEnv) (({} : Sys).clean) crashRun).idempotency
      ("place_order", sampleKey)).map (fun row => (row.status, row.orderId)) =
        some (.committed, none) := by decide +kernel
  obtain ⟨row, hsome, hvalue⟩ := Option.map_eq_some_iff.mp hrow
  rw [Prod.mk.injEq] at hvalue
  exact (hall crashingEnv {} crashRun sampleKey row hsome hvalue.1).1 hvalue.2

end Stage3Service
