import Btcbot.Stage4Submit

/-!
# Submissions and the rows they leave

The row of a submission is written from its last answer alone: when that is an error that is
raised, nothing is written. What the actions of a client id come to in one execution is an
account of its row, and decides whether the order is found in the store.
-/
namespace Stage4Orphan

open ExchangeErrors ExecutionWrapper Stage4Store Stage4Execute Stage4Cancel Stage4Submit Effects
open Stage4Gate (outcome made made_eq ends_outcome)

/-- The statuses in which a later reconcile takes the order for possibly open. -/
def possiblyOpen (status : OrderStatus) : Bool :=
  status = .open || status = .submitted || status = .unknown

def possiblyStored (orders : List OrderRow) (clientOrderId : String) : Bool :=
  (storedStatus orders clientOrderId).any possiblyOpen

/-- An answer after which the order may be on the exchange: an acknowledgement, a
timeout, a connection error or a server error. -/
def maybeCreated : Except Exc String → Bool
  | .ok _ => true
  | .error exc =>
    classifyExchangeError exc = .uncertain || classifyExchangeError exc = .transient

section Touches

/-- What an action of the client id came to: a submission with its answers, a refusal before
anything is sent, a simulation, or a cancel. -/
inductive Touch where
  | sent (before : List (Except Exc String)) (last : Except Exc String)
  | refused
  | simulated
  | canceled (came : CancelOutcome)

def Touch.answers : Touch → List (Except Exc String)
  | .sent before last => before ++ [last]
  | _ => []

/-- The status that the last answer to a submission leaves. -/
def answeredStatus (stored : Option OrderStatus) : Except Exc String → Option OrderStatus
  | .ok _ => some .open
  | .error exc =>
    if classifyExchangeError exc = .uncertain then some .unknown
    else if extractExchangeErrorCode exc = some reject1123Code then some .rejected
    else stored

/-- The status that a cancel leaves. -/
def canceledStatus (stored : Option OrderStatus) : CancelOutcome → Option OrderStatus
  | .nothing => stored
  | .unidentified => some .error
  | .simulated => stored.map fun _ => .canceled
  | .requested (some (.error exc)) =>
    if leftOpen .cancel exc then some .unknown else stored.map requestedStatus
  | .requested _ => stored.map requestedStatus

/-- The status of the row after an action. -/
def Touch.leaves (stored : Option OrderStatus) : Touch → Option OrderStatus
  | .sent _ last => answeredStatus stored last
  | .refused => some .rejected
  | .simulated => some .open
  | .canceled came => canceledStatus stored came

/-- The answers to the submissions for a client id. -/
def answersFor (clientOrderId : String) (entries : List Entry) : List (Except Exc String) :=
  entries.filterMap fun entry =>
    match entry.call with
    | .submit _ other _ answer => if other = clientOrderId then some answer else none
    | _ => none

/-- Nothing is submitted for the client id, and its row is as it was. -/
def Untouched (clientOrderId : String) (w t : World) : Prop :=
  (∃ entries, t.calls = w.calls ++ entries ∧ answersFor clientOrderId entries = []) ∧
    storedStatus t.orders clientOrderId = storedStatus w.orders clientOrderId

variable (env : Env) (settings : Settings) (clientOrderId : String)

/-- What the actions of a client id came to, in their order, whatever else was done. -/
inductive Account : World → List Touch → World → Prop
  | none (w : World) : Account w [] w
  | aside {w t u : World} {touches : List Touch} (h : Untouched clientOrderId w t)
      (rest : Account t touches u) : Account w touches u
  | sent {w t u : World} {touches : List Touch} {replaces : Option Replaces}
      {action : LifecycleAction} {s : Submission} {result : Except Exc Counts}
      (named : s.clientOrderId = clientOrderId)
      (h : Sent env settings replaces action w s result t) (rest : Account t touches u) :
      Account w (.sent s.before s.last :: touches) u
  | refused {w t u : World} {touches : List Touch} {action : LifecycleAction} {price qty : ℚ}
      {live : Bool} {now : ℤ} {reason : String} {errorCode : Option ℤ}
      (named : action.clientOrderId = some clientOrderId)
      (why : Refused env settings action w price qty) (calls : t.calls = w.calls)
      (orders : t.orders = recordStage4OrderRejected w.orders now
        (recordOf action clientOrderId price qty live .rejected) reason errorCode)
      (rest : Account t touches u) : Account w (.refused :: touches) u
  | simulated {w t u : World} {touches : List Touch} {action : LifecycleAction} {price qty : ℚ}
      {now : ℤ} (named : action.clientOrderId = some clientOrderId)
      (sized : sizedOrder env settings action w = some (price, qty)) (calls : t.calls = w.calls)
      (orders : t.orders = recordStage4OrderSimulatedSubmit w.orders now
        (recordOf action clientOrderId price qty false .open))
      (rest : Account t touches u) : Account w (.simulated :: touches) u
  | canceled {w t u : World} {touches : List Touch} {action : LifecycleAction} {live : Bool}
      {came : CancelOutcome} {raised : Option Exc}
      (named : action.clientOrderId = some clientOrderId)
      (h : Cancels env settings action live w came raised t) (rest : Account t touches u) :
      Account w (.canceled came :: touches) u

/-- The two worlds of an account. -/
def Accounted (w t : World) : Prop := ∃ touches, Account env settings clientOrderId w touches t

variable {env settings clientOrderId} {w t u : World} {touches more : List Touch}

theorem Account.append (h : Account env settings clientOrderId w touches t)
    (hmore : Account env settings clientOrderId t more u) :
    Account env settings clientOrderId w (touches ++ more) u := by
  induction h with
  | none => exact hmore
  | aside h _ ih => exact .aside h (ih hmore)
  | sent named h _ ih => exact .sent named h (ih hmore)
  | refused named why calls orders _ ih => exact .refused named why calls orders (ih hmore)
  | simulated named sized calls orders _ ih => exact .simulated named sized calls orders (ih hmore)
  | canceled named h _ ih => exact .canceled named h (ih hmore)

instance : IsPreorder World (Accounted env settings clientOrderId) where
  refl w := ⟨[], .none w⟩
  trans _ _ _ := fun ⟨_, h⟩ ⟨_, hmore⟩ => ⟨_, h.append hmore⟩

theorem Untouched.accounted (h : Untouched clientOrderId w t) :
    Accounted env settings clientOrderId w t := ⟨[], .aside h (.none t)⟩

end Touches

section Rows

variable {env : Env} {settings : Settings} {replaces : Option Replaces}
  {action : LifecycleAction} {clientOrderId : String} {w t u : World} {touches : List Touch}

theorem answersFor_append (first second : List Entry) :
    answersFor clientOrderId (first ++ second) =
      answersFor clientOrderId first ++ answersFor clientOrderId second := List.filterMap_append

/-- The answers that one submission adds. -/
theorem answersFor_attempts (replaces : Option Replaces) (other : String)
    (order : LimitOrder) (orders : List OrderRow) (answers : List (Except Exc String)) :
    answersFor clientOrderId (answers.map fun answer =>
      (⟨.submit replaces other order answer, orders⟩ : Entry)) =
        if other = clientOrderId then answers else [] := by
  unfold answersFor
  rw [List.filterMap_map]
  split
  · next heq => simp [heq]
  · next hne => simp [hne]

/-- The row that a submission leaves. -/
theorem sent_status {s : Submission} {result : Except Exc Counts}
    (h : Sent env settings replaces action w s result t) :
    storedStatus t.orders s.clientOrderId =
      answeredStatus (storedStatus w.orders s.clientOrderId) s.last := by
  rw [h.orders, Submission.recorded]
  cases s.last with
  | ok exchangeOrderId =>
    exact storedStatus_recordSubmitted _
      (recordOf action s.clientOrderId s.order.price s.order.qty true .open) _ _
  | error exc =>
    simp only [answeredStatus]
    split_ifs
    · exact storedStatus_recordError _
        (recordOf action s.clientOrderId s.order.price s.order.qty true .unknown) _ _
    · exact storedStatus_recordError _
        (recordOf action s.clientOrderId s.order.price s.order.qty true .rejected) _ _
    · rfl

theorem answered_status {now later : ℤ} {last : Except Exc Bool} :
    storedStatus (answered action clientOrderId
        (recordStage4OrderCancelRequested w.orders now clientOrderId) later last) clientOrderId =
      canceledStatus (storedStatus w.orders clientOrderId) (.requested (some last)) := by
  have hrequested := @storedStatus_recordCancelRequested w.orders now clientOrderId
  cases last with
  | ok canceled => exact hrequested
  | error exc =>
    simp only [answered, canceledStatus]
    split
    · exact storedStatus_recordError _
        (recordOf action clientOrderId action.price action.qty true .unknown) _ _
    · exact hrequested

/-- The row that a cancel leaves. -/
theorem cancels_status {live : Bool} {came : CancelOutcome} {raised : Option Exc}
    (hnamed : action.clientOrderId = some clientOrderId)
    (h : Cancels env settings action live w came raised t) :
    storedStatus t.orders clientOrderId =
      canceledStatus (storedStatus w.orders clientOrderId) came := by
  have hsame {other : String} (hopen : openId w.orders action = some other) :
      other = clientOrderId :=
    Option.some.inj ((openId_some.mp hopen).1.symm.trans hnamed)
  cases h with
  | nothing => rfl
  | unidentified named =>
    cases hsame named
    exact storedStatus_recordError _
      (recordOf action clientOrderId action.price action.qty live .error) _ _
  | simulated named =>
    cases hsame named
    rw [storedStatus_recordCanceled, storedStatus_recordCancelRequested, Option.map_map]
    rfl
  | refused named =>
    cases hsame named
    exact storedStatus_recordCancelRequested _ _
  | asked named =>
    cases hsame named
    exact answered_status

theorem cancels_unsent {live : Bool} {came : CancelOutcome} {raised : Option Exc}
    (h : Cancels env settings action live w came raised t) :
    ∃ entries, t.calls = w.calls ++ entries ∧ answersFor clientOrderId entries = [] := by
  cases h with
  | asked named known armed policy answers now later ticks =>
    refine ⟨_, rfl, ?_⟩
    unfold answersFor
    rw [List.filterMap_map, List.filterMap_eq_nil_iff]
    exact fun _ _ => rfl
  | _ => exact ⟨[], (List.append_nil _).symm, rfl⟩

/-- An account says what row is left. -/
theorem Account.status (h : Account env settings clientOrderId w touches u) :
    storedStatus u.orders clientOrderId =
      touches.foldl Touch.leaves (storedStatus w.orders clientOrderId) := by
  induction h with
  | none => rfl
  | aside h _ ih => rw [ih, h.2]
  | sent named h _ ih =>
    cases named
    rw [ih, sent_status h]
    rfl
  | @refused w t u touches action price qty live now reason errorCode named why calls orders _ ih =>
    have hrow : storedStatus t.orders clientOrderId = some .rejected :=
      orders ▸ storedStatus_recordError now
        (recordOf action clientOrderId price qty live .rejected) reason errorCode
    rw [ih, hrow]
    rfl
  | @simulated w t u touches action price qty now named sized calls orders _ ih =>
    have hrow : storedStatus t.orders clientOrderId = some .open :=
      orders ▸ storedStatus_recordSubmitted now
        { recordOf action clientOrderId price qty false .open with mode := .dryRun, status := .open }
        _ _
    rw [ih, hrow]
    rfl
  | canceled named h _ ih =>
    rw [ih, cancels_status named h]
    rfl

/-- An account says what was submitted for the client id, and how it was answered. -/
theorem Account.calls (h : Account env settings clientOrderId w touches u) :
    ∃ entries, u.calls = w.calls ++ entries ∧
      answersFor clientOrderId entries = touches.flatMap Touch.answers := by
  have hthen {w t u : World} {first : List (Except Exc String)} {touches : List Touch}
      (hfirst : ∃ entries, t.calls = w.calls ++ entries ∧ answersFor clientOrderId entries = first)
      (hrest : ∃ entries, u.calls = t.calls ++ entries ∧
        answersFor clientOrderId entries = touches.flatMap Touch.answers) :
      ∃ entries, u.calls = w.calls ++ entries ∧
        answersFor clientOrderId entries = first ++ touches.flatMap Touch.answers := by
    obtain ⟨entries, hentries, hanswers⟩ := hfirst
    obtain ⟨rest, hmore, hrest⟩ := hrest
    refine ⟨entries ++ rest, by rw [hmore, hentries, List.append_assoc], ?_⟩
    rw [answersFor_append, hanswers, hrest]
  have hsame {w t : World} (h : t.calls = w.calls) :
      ∃ entries, t.calls = w.calls ++ entries ∧ answersFor clientOrderId entries = [] :=
    ⟨[], by rw [h, List.append_nil], rfl⟩
  induction h with
  | none => exact ⟨[], (List.append_nil _).symm, rfl⟩
  | aside h _ ih => exact hthen h.1 ih
  | sent named h _ ih =>
    cases named
    exact hthen ⟨_, h.calls, (answersFor_attempts ..).trans (if_pos rfl)⟩ ih
  | refused named why calls orders _ ih => exact hthen (hsame calls) ih
  | simulated named sized calls orders _ ih => exact hthen (hsame calls) ih
  | canceled named h _ ih => exact hthen (cancels_unsent h) ih

end Rows

section Actions

variable {env : Env} {settings : Settings} {clientOrderId : String}

theorem storedStatus_other {named other : String} {before after : List OrderRow}
    (h : OnlyRow named before after) (hother : other ≠ named) :
    storedStatus after other = storedStatus before other := congrArg _ (h other hother)

theorem onlyRow_recorded (s : Submission) (action : LifecycleAction) (orders : List OrderRow) :
    OnlyRow s.clientOrderId orders (s.recorded action orders) := by
  unfold Submission.recorded
  split
  · exact onlyRow_recordSubmitted _
      (recordOf action s.clientOrderId s.order.price s.order.qty true .open) _ _
  · split_ifs
    · exact onlyRow_recordError _
        (recordOf action s.clientOrderId s.order.price s.order.qty true .unknown) _ _
    · exact onlyRow_recordError _
        (recordOf action s.clientOrderId s.order.price s.order.qty true .rejected) _ _
    · exact fun _ _ => rfl

theorem untouched_executeCancelAction {action : LifecycleAction}
    (hother : action.clientOrderId ≠ some clientOrderId) (live : Bool) (w : World) :
    Untouched clientOrderId w (outcome (executeCancelAction env settings action live) w).2 := by
  obtain ⟨came, hcancels⟩ := Stage4Gate.outcome_cancel env settings live action w
  refine ⟨cancels_unsent hcancels, ?_⟩
  have honly : Keeps (fun w t : World => getStage4OrderByClientId t.orders clientOrderId =
      getStage4OrderByClientId w.orders clientOrderId)
      (executeCancelAction env settings action live) := by
    have _ : IsPreorder World fun w t => getStage4OrderByClientId t.orders clientOrderId =
        getStage4OrderByClientId w.orders clientOrderId :=
      { refl := fun _ => rfl, trans := fun _ _ _ hab hbc => hbc.trans hab }
    refine executeCancelAction_keeps (fun named hnamed w orders ticks honly => ?_)
      fun _ _ _ => rfl
    exact honly clientOrderId fun heq => hother (heq ▸ hnamed)
  exact congrArg (Option.map OrderRow.status) (ends_outcome honly w)

/-- However a cancel ends, it is accounted for. -/
theorem accounted_executeCancelAction (action : LifecycleAction) (live : Bool) :
    Keeps (Accounted env settings clientOrderId) (executeCancelAction env settings action live) := by
  intro w
  have hcancels : ∀ raised t, (∃ came, Cancels env settings action live w came raised t) →
      action.clientOrderId = some clientOrderId → Accounted env settings clientOrderId w t := by
    rintro raised t ⟨came, hcancels⟩ hnamed
    exact ⟨[.canceled came], .canceled hnamed hcancels (.none t)⟩
  by_cases hnamed : action.clientOrderId = some clientOrderId
  · exact executeCancelAction_ends.mono (fun _ t h => hcancels _ t h hnamed)
      fun _ t h => hcancels _ t h hnamed
  · have hother := @untouched_executeCancelAction env settings clientOrderId action hnamed live w
    unfold Ends
    unfold outcome at hother
    cases hrun : executeCancelAction env settings action live w with
    | ok canceled t => exact (by simpa [hrun] using hother : Untouched clientOrderId w t).accounted
    | error exc t => exact (by simpa [hrun] using hother : Untouched clientOrderId w t).accounted

/-- And so is a submit action. -/
theorem accounted_executeSubmitAction (replaces : Option Replaces) (action : LifecycleAction)
    (live : Bool) : Keeps (Accounted env settings clientOrderId)
      (executeSubmitAction env settings replaces action live) := by
  intro w
  have hsilent {t : World} (h : Silent env settings action w t) :
      Accounted env settings clientOrderId w t := by
    have hcalls : ∃ entries, t.calls = w.calls ++ entries ∧ answersFor clientOrderId entries = [] :=
      ⟨[], by rw [h.calls, List.append_nil], rfl⟩
    by_cases hnamed : action.clientOrderId = some clientOrderId
    · generalize horders : t.orders = orders at h
      have hwritten := h.orders
      rw [horders] at hwritten
      cases hwritten with
      | nothing => exact Untouched.accounted ⟨hcalls, by rw [horders]⟩
      | refused named why now live reason errorCode =>
        cases hnamed.symm.trans named
        exact ⟨[.refused], .refused hnamed why h.calls horders (.none t)⟩
      | simulated named sized now =>
        cases hnamed.symm.trans named
        exact ⟨[.simulated], .simulated hnamed sized h.calls horders (.none t)⟩
    · exact Untouched.accounted ⟨hcalls, congrArg _ (h.orders.onlyNamed clientOrderId hnamed)⟩
  have hsubmits {result : Except Exc Counts} {t : World}
      (h : Submits env settings replaces action w result t) :
      Accounted env settings clientOrderId w t := by
    rcases h with h | ⟨s, hsent⟩
    · exact hsilent h
    · by_cases hnamed : s.clientOrderId = clientOrderId
      · exact ⟨[.sent s.before s.last], .sent hnamed hsent (.none t)⟩
      · refine Untouched.accounted ⟨⟨_, hsent.calls, ?_⟩, ?_⟩
        · rw [answersFor_attempts, if_neg hnamed]
        · rw [hsent.orders]
          exact storedStatus_other (onlyRow_recorded s action w.orders) (Ne.symm hnamed)
  exact (executeSubmitAction_ends live).mono (fun _ _ h => hsubmits h) (fun _ _ h => hsubmits h)

theorem otherSteps_accounted : OtherSteps (Accounted env settings clientOrderId) :=
  ⟨fun _ _ _ => Untouched.accounted ⟨⟨_, rfl, rfl⟩, rfl⟩,
    fun _ _ _ => Untouched.accounted ⟨⟨[], (List.append_nil _).symm, rfl⟩, rfl⟩⟩

end Actions

section Execution

variable {env : Env} {settings : Settings} {actions : List LifecycleAction} {w : World}
  {clientOrderId : String}

/-- If an attempt for the client id may have created the order, its row is left possibly
open. -/
def Stored (env : Env) (settings : Settings) (actions : List LifecycleAction) (w : World)
    (clientOrderId : String) : Prop :=
  (answersFor clientOrderId (made (executeWithReport env settings actions) w)).any maybeCreated =
      true →
    possiblyStored (outcome (executeWithReport env settings actions) w).2.orders clientOrderId =
      true

/-- If an answer to the submissions leaves open that the order was created, the actions, one
after the other, leave it possibly open. -/
def StaysOpen (stored : Option OrderStatus) (touches : List Touch) : Prop :=
  (touches.flatMap Touch.answers).any maybeCreated = true →
    (touches.foldl Touch.leaves stored).any possiblyOpen = true

/-- However the execution ends, what its actions came to for a client id is an account, and of
every account the order is stored exactly if the actions leave it possibly open. -/
theorem submission_stored_iff (env : Env) (settings : Settings) (actions : List LifecycleAction)
    (w : World) (clientOrderId : String) :
    (∃ touches, Account env settings clientOrderId w touches
        (outcome (executeWithReport env settings actions) w).2) ∧
      ∀ touches, Account env settings clientOrderId w touches
          (outcome (executeWithReport env settings actions) w).2 →
        (Stored env settings actions w clientOrderId ↔
          StaysOpen (storedStatus w.orders clientOrderId) touches) := by
  refine ⟨ends_outcome (executeWithReport_keeps accounted_executeCancelAction
    accounted_executeSubmitAction otherSteps_accounted actions) w, fun touches haccount => ?_⟩
  obtain ⟨entries, hcalls, hanswers⟩ := haccount.calls
  rw [Stored, made_eq hcalls, hanswers, possiblyStored, haccount.status, StaysOpen]

/-- Two attempts, both answered by status 503. -/
def unavailable : Except Exc String :=
  .error (.exchangeError { message := "unavailable", statusCode := some 503 })

def submitOnce : List LifecycleAction := [sampleAction .submit "entry" "b"]

/-- A submission whose attempts are all answered by status 503 leaves no row. -/
theorem unavailable_leaves_no_row :
    let after := (outcome (executeWithReport (sampleEnv unavailable (.ok true))
      sampleSettings submitOnce) (sampleWorld [])).2
    answersFor "b" after.calls = [unavailable, unavailable] ∧ maybeCreated unavailable = true ∧
      possiblyStored after.orders "b" = false ∧ after.orders = [] := by
  decide +kernel

end Execution

end Stage4Orphan
