import Btcbot.Stage4Execute

/-!
# The attempts of an exchange write, and what a cancel does

All attempts but the last are answered by an error that is tried again; the last answer decides
what is recorded. A cancel of an order that may be open records the request before it asks the
exchange, and asks for the exchange's own order id.
-/
namespace Stage4Cancel

open ExchangeErrors ExecutionWrapper Stage4Store Stage4Execute Effects
open Stage4Reconcile (truthy)

section Attempts

variable {α : Type}

/-- The world after the attempts of a write. -/
def attempted (call : Except Exc α → Call) (w : World) (answers : List (Except Exc α)) : World :=
  { w with calls := w.calls ++ answers.map fun given => ⟨call given, w.orders⟩ }

/-- Answers of the exchange, all but the last one errors that are tried again. -/
structure Answers (answer : ℕ → Except Exc α) (before : List (Except Exc α))
    (last : Except Exc α) : Prop where
  retried : ∀ given ∈ before, ∃ exc, given = .error exc ∧ Retryable exc
  asked : ∀ given ∈ before ++ [last], ∃ n, given = answer n

/-- A last error after which it is open what the exchange did. -/
def leftOpen (action : WrapperAction) (exc : Exc) : Bool :=
  match classifyExchangeError exc with
  | .uncertain => true
  | .rateLimit | .transient => action = .cancel
  | _ => false

/-- How the wrapper hands on the last answer. -/
def handedOn (action : WrapperAction) (last : Except Exc α) : Except Exc (WrapperResult α) :=
  match last with
  | .ok a => .ok (.value a)
  | .error exc => if leftOpen action exc then .ok (.uncertainResult exc) else .error exc

/-- The attempts made, and what came of the last. -/
def Attempted (action : WrapperAction) (answer : ℕ → Except Exc α) (call : Except Exc α → Call)
    (w : World) (result : Except Exc (WrapperResult α)) (t : World) : Prop :=
  ∃ before last, Answers answer before last ∧ t = attempted call w (before ++ [last]) ∧
    result = handedOn action last

variable {action : WrapperAction} {answer : ℕ → Except Exc α} {call : Except Exc α → Call}

theorem leftOpen_submit {exc : Exc} :
    leftOpen .submit exc = true ↔ classifyExchangeError exc = .uncertain := by
  unfold leftOpen
  cases classifyExchangeError exc <;> decide

theorem leftOpen_crash : leftOpen action .crash = false := by
  cases action <;> decide +kernel

/-- The wrapper raises what it hands on as an error, and hands on the last answer. -/
theorem handedOn_error {last : Except Exc α} {exc : Exc} (h : .error exc = handedOn action last) :
    last = .error exc ∧ leftOpen action exc = false := by
  cases last with
  | ok a => cases h
  | error exc =>
    unfold handedOn at h
    dsimp only at h
    split at h
    · cases h
    · next hclosed =>
      cases h
      exact ⟨rfl, (Bool.not_eq_true _).mp hclosed⟩

theorem handedOn_uncertain {last : Except Exc α} {exc : Exc}
    (h : .ok (.uncertainResult exc) = handedOn action last) :
    last = .error exc ∧ leftOpen action exc = true := by
  cases last with
  | ok a => cases h
  | error exc =>
    unfold handedOn at h
    dsimp only at h
    split at h
    · next hopen =>
      cases h
      exact ⟨rfl, hopen⟩
    · cases h

theorem handedOn_value {last : Except Exc α} {a : α} (h : .ok (.value a) = handedOn action last) :
    last = .ok a := by
  cases last with
  | ok b =>
    cases h
    rfl
  | error exc =>
    unfold handedOn at h
    dsimp only at h
    split at h <;> cases h

theorem attempted_single {w : World} {last : Except Exc α} (hasked : last = answer w.calls.length) :
    Attempted action answer call w (handedOn action last) (w.called (call last)) := by
  refine ⟨[], last, ⟨List.forall_mem_nil _, fun given hgiven => ?_⟩, rfl, rfl⟩
  cases List.mem_singleton.mp hgiven
  exact ⟨_, hasked⟩

/-- An attempt that is tried again goes before the attempts that follow. -/
theorem attempted_again {w t : World} {exc : Exc} {result : Except Exc (WrapperResult α)}
    (hasked : .error exc = answer w.calls.length) (hretry : Retryable exc)
    (h : Attempted action answer call (w.called (call (.error exc))) result t) :
    Attempted action answer call w result t := by
  obtain ⟨before, last, hanswers, ht, hresult⟩ := h
  refine ⟨.error exc :: before, last, ⟨?_, ?_⟩, ?_, hresult⟩
  · exact List.forall_mem_cons.mpr ⟨⟨exc, rfl, hretry⟩, hanswers.retried⟩
  · exact List.forall_mem_cons.mpr ⟨⟨_, hasked⟩, hanswers.asked⟩
  · rw [ht]
    simp [attempted, World.called]

/-- The last attempt, when its error is raised. -/
theorem attempted_raised {w : World} {exc : Exc} (hasked : answer w.calls.length = .error exc)
    (hclosed : leftOpen action exc = false) :
    Attempted action answer call w (.error exc) (w.called (call (.error exc))) := by
  have hlast := @attempted_single _ action answer call w _ hasked.symm
  rwa [handedOn, if_neg (by simp [hclosed])] at hlast

/-- The last attempt, when its error leaves open what the exchange did. -/
theorem attempted_open {w : World} {exc : Exc} (hasked : answer w.calls.length = .error exc)
    (hopen : leftOpen action exc = true) :
    Attempted action answer call w (.ok (.uncertainResult exc)) (w.called (call (.error exc))) := by
  have hlast := @attempted_single _ action answer call w _ hasked.symm
  rwa [handedOn, if_pos hopen] at hlast

theorem ends_attempts (left n : ℕ) (w : World) :
    Ends (attempts action (pure ()) (fun _ => callExchange answer call) (left + 1) n) w
      (fun result => Attempted action answer call w (.ok result))
      (fun exc => Attempted action answer call w (.error exc)) := by
  induction left generalizing n w with
  | zero =>
    unfold attempts tryExcept
    rw [ends_tryCatch, ends_bind]
    refine ends_callExchange (fun a ha => attempted_single ha.symm) fun exc hexc => ?_
    rw [ends_ite]
    split
    · next hcrash =>
      subst hcrash
      exact attempted_raised hexc leftOpen_crash
    · dsimp only
      cases hc : classifyExchangeError exc with
      | uncertain => exact attempted_open hexc (by simp [leftOpen, hc])
      | auth | reject | fatal => exact attempted_raised hexc (by simp [leftOpen, hc])
      | rateLimit | transient =>
        cases action with
        | submit => exact attempted_raised hexc (by simp [leftOpen, hc])
        | cancel => exact attempted_open hexc (by simp [leftOpen, hc])
  | succ left ih =>
    unfold attempts tryExcept
    rw [ends_tryCatch, ends_bind]
    refine ends_callExchange (fun a ha => attempted_single ha.symm) fun exc hexc => ?_
    rw [ends_ite]
    split
    · next hcrash =>
      subst hcrash
      exact attempted_raised hexc leftOpen_crash
    · dsimp only
      cases hc : classifyExchangeError exc with
      | uncertain => exact attempted_open hexc (by simp [leftOpen, hc])
      | auth | reject | fatal => exact attempted_raised hexc (by simp [leftOpen, hc])
      | rateLimit =>
        exact (ih (n + 1) _).mono (fun _ _ => attempted_again hexc.symm (.inl hc))
          (fun _ _ => attempted_again hexc.symm (.inl hc))
      | transient =>
        exact (ih (n + 1) _).mono (fun _ _ => attempted_again hexc.symm (.inr hc))
          (fun _ _ => attempted_again hexc.symm (.inr hc))

/-- A write ends with the attempts it made. -/
theorem ends_execute (maxAttempts : ℕ) (w : World) :
    Ends (execute action maxAttempts (pure ()) fun _ => callExchange answer call) w
      (fun result => Attempted action answer call w (.ok result))
      (fun exc => Attempted action answer call w (.error exc)) := by
  unfold execute
  obtain ⟨left, hleft⟩ : ∃ left, max 1 maxAttempts = left + 1 := ⟨max 1 maxAttempts - 1, by omega⟩
  rw [hleft]
  exact ends_attempts left 1 w

end Attempts

section Cancel

variable (env : Env) (settings : Settings) (action : LifecycleAction) (live : Bool)

/-- The client id of a cancel whose order may be open. -/
def openId (orders : List OrderRow) (action : LifecycleAction) : Option String :=
  action.clientOrderId.filter fun clientOrderId =>
    clientOrderId ≠ "" ∧ ¬ isOrderTerminal orders clientOrderId

/-- The order that the exchange is asked to cancel: the action's own, or the one stored. -/
def exchangeOrderIdOf (orders : List OrderRow) (action : LifecycleAction)
    (clientOrderId : String) : Option String :=
  if truthy action.exchangeOrderId then action.exchangeOrderId
  else (getStage4OrderByClientId orders clientOrderId).bind OrderRow.exchangeOrderId

/-- The orders once the last answer to a cancel is recorded. -/
def answered (clientOrderId : String) (requested : List OrderRow) (now : ℤ)
    (last : Except Exc Bool) : List OrderRow :=
  match last with
  | .ok _ => requested
  | .error exc =>
    if leftOpen .cancel exc then
      recordStage4OrderError requested now
        (recordOf action clientOrderId action.price action.qty true .unknown)
        "cancel_uncertain_outcome" none
    else requested

/-- What a cancel raises on its last answer. -/
def raisedOn (last : Except Exc Bool) : Option Exc :=
  match last with
  | .ok _ => none
  | .error exc => if leftOpen .cancel exc then none else some exc

/-- What a cancel came to: nothing, an order the exchange id of which is not known, one that is
canceled without the exchange, or one whose cancel is requested, with the last answer when the
exchange was asked. -/
inductive CancelOutcome where
  | nothing
  | unidentified
  | simulated
  | requested (last : Option (Except Exc Bool))

/-- What a cancel does: nothing for an order that is none or is over; else, when the order of
the exchange is known, it records the request and, when live, makes its attempts on that
order. -/
inductive Cancels (w : World) : CancelOutcome → Option Exc → World → Prop
  | nothing (ended : openId w.orders action = none) : Cancels w .nothing none w
  | unidentified {clientOrderId : String} (named : openId w.orders action = some clientOrderId)
      (unknown : exchangeOrderIdOf w.orders action clientOrderId = none) (now : ℤ) (ticks : ℕ) :
      Cancels w .unidentified none { w with
        orders := recordStage4OrderError w.orders now
          (recordOf action clientOrderId action.price action.qty live .error)
          "cancel_missing_exchange_order_id" none
        ticks := ticks }
  | simulated {clientOrderId exchangeOrderId : String}
      (named : openId w.orders action = some clientOrderId)
      (known : exchangeOrderIdOf w.orders action clientOrderId = some exchangeOrderId)
      (dry : live = false) (now later : ℤ) (ticks : ℕ) :
      Cancels w .simulated none { w with
        orders := recordStage4OrderCanceled
          (recordStage4OrderCancelRequested w.orders now clientOrderId) later clientOrderId
        ticks := ticks }
  | refused {clientOrderId exchangeOrderId message : String}
      (named : openId w.orders action = some clientOrderId)
      (known : exchangeOrderIdOf w.orders action clientOrderId = some exchangeOrderId)
      (armed : live = true) (policy : policyMessage settings = some message) (now : ℤ)
      (ticks : ℕ) :
      Cancels w (.requested none) (some (.runtimeError message)) { w with
        orders := recordStage4OrderCancelRequested w.orders now clientOrderId
        ticks := ticks }
  | asked {clientOrderId exchangeOrderId : String} {before : List (Except Exc Bool)}
      {last : Except Exc Bool} (named : openId w.orders action = some clientOrderId)
      (known : exchangeOrderIdOf w.orders action clientOrderId = some exchangeOrderId)
      (armed : live = true) (policy : policyMessage settings = none)
      (answers : Answers (fun n => env.cancelOrder n exchangeOrderId) before last)
      (now later : ℤ) (ticks : ℕ) :
      Cancels w (.requested (some last)) (raisedOn last) { w with
        orders := answered action clientOrderId
          (recordStage4OrderCancelRequested w.orders now clientOrderId) later last
        calls := w.calls ++ (before ++ [last]).map fun given =>
          ⟨.cancel exchangeOrderId given,
            recordStage4OrderCancelRequested w.orders now clientOrderId⟩
        ticks := ticks }

variable {env settings action live} {w : World}

theorem openId_some {orders : List OrderRow} {clientOrderId : String} :
    openId orders action = some clientOrderId ↔ action.clientOrderId = some clientOrderId ∧
      clientOrderId ≠ "" ∧ isOrderTerminal orders clientOrderId = false := by
  simp [openId, Option.filter_eq_some_iff]

theorem ensure_ends :
    Ends (ensureLiveWriteSideEffectsAllowed settings) w
      (fun _ t => policyMessage settings = none ∧ t = w)
      (fun exc t => ∃ message, policyMessage settings = some message ∧
        exc = .runtimeError message ∧ t = w) := by
  unfold ensureLiveWriteSideEffectsAllowed
  cases policyMessage settings with
  | none => exact ⟨rfl, rfl⟩
  | some message => exact ⟨message, rfl, rfl, rfl⟩

/-- The program ends as a cancel does, with what it raised. -/
abbrev CancelEnds {α : Type} (m : Exec α) (w : World)
    (R : CancelOutcome → Option Exc → World → Prop) : Prop :=
  Ends m w (fun _ t => ∃ outcome, R outcome none t) (fun exc t => ∃ outcome, R outcome (some exc) t)

theorem sendCancel_ends {clientOrderId exchangeOrderId : String}
    (named : openId w.orders action = some clientOrderId)
    (known : exchangeOrderIdOf w.orders action clientOrderId = some exchangeOrderId) :
    CancelEnds (sendCancel env settings action clientOrderId exchangeOrderId live) w
      (Cancels env settings action live w) := by
  unfold CancelEnds sendCancel
  rw [ends_bind]
  change Ends _ { w with
    orders := recordStage4OrderCancelRequested w.orders (env.now w.ticks) clientOrderId
    ticks := w.ticks + 1 } _ _
  rw [ends_ite]
  split
  · next hdry =>
    exact ⟨_, .simulated named known (by simpa using hdry) (env.now w.ticks) _ _⟩
  · next hlive =>
    have harmed : live = true := by simpa using hlive
    rw [ends_bind]
    refine ensure_ends.mono ?_ ?_
    · rintro - t ⟨hpolicy, rfl⟩
      rw [ends_bind]
      refine (ends_execute _ _).mono ?_ ?_
      · rintro result t ⟨before, last, hanswers, rfl, hresult⟩
        have hasked := Cancels.asked named known harmed hpolicy hanswers (env.now w.ticks)
          (env.now (w.ticks + 1))
        cases result with
        | value canceled =>
          rw [handedOn_value hresult] at hasked ⊢
          exact ⟨_, hasked (w.ticks + 1)⟩
        | uncertainResult exc =>
          obtain ⟨hlast, hopen⟩ := handedOn_uncertain hresult
          rw [hlast] at hasked ⊢
          simp only [answered, raisedOn, if_pos hopen] at hasked
          exact ⟨_, hasked (w.ticks + 2)⟩
      · rintro exc t ⟨before, last, hanswers, rfl, hresult⟩
        have hasked := Cancels.asked named known harmed hpolicy hanswers (env.now w.ticks)
          (env.now (w.ticks + 1))
        obtain ⟨hlast, hclosed⟩ := handedOn_error hresult
        rw [hlast] at hasked ⊢
        simp only [answered, raisedOn, hclosed, Bool.false_eq_true, if_false] at hasked
        exact ⟨_, hasked (w.ticks + 1)⟩
    · rintro exc t ⟨message, hpolicy, rfl, rfl⟩
      exact ⟨_, .refused named known harmed hpolicy (env.now w.ticks) _⟩

theorem cancelKnown_ends {clientOrderId : String} (hnamed : action.clientOrderId = some clientOrderId)
    (hnonempty : clientOrderId ≠ "") :
    CancelEnds (cancelKnown env settings action clientOrderId live) w
      (Cancels env settings action live w) := by
  unfold CancelEnds cancelKnown
  rw [ends_bind, ends_get, ends_ite]
  split
  · next hover => exact ⟨_, .nothing (by simp [openId, hnamed, hover])⟩
  · next hopen =>
    have hid : openId w.orders action = some clientOrderId :=
      openId_some.mpr ⟨hnamed, hnonempty, (Bool.not_eq_true _).mp hopen⟩
    dsimp only
    cases hknown : exchangeOrderIdOf w.orders action clientOrderId with
    | none =>
      rw [exchangeOrderIdOf] at hknown
      rw [hknown]
      exact ⟨_, .unidentified hid hknown (env.now w.ticks) _⟩
    | some exchangeOrderId =>
      have hsend := @sendCancel_ends env settings action live w _ _ hid hknown
      rw [exchangeOrderIdOf] at hknown
      rw [hknown]
      exact hsend

/-- However it ends, a cancel did what `Cancels` says. -/
theorem executeCancelAction_ends :
    CancelEnds (executeCancelAction env settings action live) w
      (Cancels env settings action live w) := by
  unfold CancelEnds executeCancelAction
  cases hnamed : action.clientOrderId with
  | none => exact ⟨_, .nothing (by simp [openId, hnamed])⟩
  | some clientOrderId =>
    dsimp only
    rw [ends_ite]
    split
    · next hempty => exact ⟨_, .nothing (by simp [openId, hnamed, hempty])⟩
    · next hnonempty => exact cancelKnown_ends hnamed hnonempty

end Cancel

end Stage4Cancel
