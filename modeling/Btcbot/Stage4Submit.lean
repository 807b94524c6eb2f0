import Btcbot.Stage4Gate

/-!
# What a submit action does

Either no submit call is made, or the attempts of one submission are, all but the last
answered by an error that is tried again; the last answer decides what is recorded.
-/
namespace Stage4Submit

open ExchangeErrors ExecutionWrapper Stage4Store Stage4Execute Stage4Cancel Effects
open Stage4Reconcile (buildExchangeClientId)

section Actions

/-- A submission: what was checked, the answers, and what was recorded. -/
structure Submission where
  clientOrderId : String
  order : LimitOrder
  checkedAt : ℤ
  before : List (Except Exc String)
  last : Except Exc String
  recordedAt : ℤ

/-- What the last answer makes of a submission. -/
def Submission.counts (s : Submission) : Except Exc Counts :=
  match s.last with
  | .ok _ => .ok { submitted := 1 }
  | .error exc =>
    if classifyExchangeError exc = .uncertain then .ok {}
    else if extractExchangeErrorCode exc = some reject1123Code then .ok { rejected := 1 }
    else .error exc

/-- The orders once the last answer is recorded. -/
def Submission.recorded (s : Submission) (action : LifecycleAction) (orders : List OrderRow) :
    List OrderRow :=
  match s.last with
  | .ok exchangeOrderId =>
    recordStage4OrderSubmitted orders s.recordedAt
      (recordOf action s.clientOrderId s.order.price s.order.qty true .open) (some s.order.clientOrderId)
      exchangeOrderId
  | .error exc =>
    if classifyExchangeError exc = .uncertain then
      recordStage4OrderError orders s.recordedAt
        (recordOf action s.clientOrderId s.order.price s.order.qty true .unknown) "submit_uncertain_outcome"
        none
    else if extractExchangeErrorCode exc = some reject1123Code then
      recordStage4OrderRejected orders s.recordedAt
        (recordOf action s.clientOrderId s.order.price s.order.qty true .rejected) "exchange_reject_1123"
        (some reject1123Code)
    else orders

/-- The rows the action does not name are as they were. -/
def OnlyNamed (action : LifecycleAction) (before after : List OrderRow) : Prop :=
  ∀ other, action.clientOrderId ≠ some other →
    getStage4OrderByClientId after other = getStage4OrderByClientId before other

/-- The price and quantity that an action is sized to, under the rules that it reads. -/
def sizedOrder (env : Env) (settings : Settings) (action : LifecycleAction) (w : World) :
    Option (ℚ × ℚ) :=
  match env.rules (w.ticks + 2) action.symbol with
  | .found rules =>
    match sizeSubmit settings rules action with
    | .sized price qty => some (price, qty)
    | _ => none
  | _ => none

/-- Why the cooldown gate stops an action. -/
def gateReason (env : Env) (settings : Settings) (action : LifecycleAction) (w : World) :
    Option String :=
  if settings.reject1123EnforceExecutionGate then
    match env.cooldown (w.ticks + 1) action.symbol with
    | .inactive => none
    | .readFailed => some "exchange_reject_1123_state_read_failed"
    | .until_ cooldownUntil =>
      if env.now w.ticks / 1000000 < cooldownUntil then some "exchange_reject_1123_cooldown_gate"
      else none
  else none

/-- An action is refused before it is sent, with the price and quantity recorded: by the gate,
for want of rules, or for its size. -/
inductive Refused (env : Env) (settings : Settings) (action : LifecycleAction) (w : World) :
    ℚ → ℚ → Prop
  | gate {reason : String} (stopped : gateReason env settings action w = some reason) :
      Refused env settings action w action.price action.qty
  | rules {reason : String} (missing : env.rules (w.ticks + 2) action.symbol = .missing reason) :
      Refused env settings action w action.price action.qty
  | size {rules : ExchangeRules} {reason : String} {price qty : ℚ} {minNotional : Bool}
      (found : env.rules (w.ticks + 2) action.symbol = .found rules)
      (rejected : sizeSubmit settings rules action = .rejected reason price qty minNotional) :
      Refused env settings action w price qty

/-- What an action that sends nothing writes: nothing, its refusal, or its simulation. -/
inductive Written (env : Env) (settings : Settings) (action : LifecycleAction) (w : World) :
    List OrderRow → Prop
  | nothing : Written env settings action w w.orders
  | refused {clientOrderId : String} {price qty : ℚ}
      (named : action.clientOrderId = some clientOrderId)
      (why : Refused env settings action w price qty) (now : ℤ) (live : Bool) (reason : String)
      (errorCode : Option ℤ) :
      Written env settings action w (recordStage4OrderRejected w.orders now
        (recordOf action clientOrderId price qty live .rejected) reason errorCode)
  | simulated {clientOrderId : String} {price qty : ℚ}
      (named : action.clientOrderId = some clientOrderId)
      (sized : sizedOrder env settings action w = some (price, qty)) (now : ℤ) :
      Written env settings action w (recordStage4OrderSimulatedSubmit w.orders now
        (recordOf action clientOrderId price qty false .open))

/-- The world is left as it was but for the row of the action and the readings of the
clock. -/
structure Silent (env : Env) (settings : Settings) (action : LifecycleAction) (w t : World) :
    Prop where
  orders : Written env settings action w t.orders
  calls : t.calls = w.calls
  replaceTxs : t.replaceTxs = w.replaceTxs
  freeze : t.freeze = w.freeze

/-- The submission was made, with nothing written before its last answer. -/
structure Sent (env : Env) (settings : Settings) (replaces : Option Replaces)
    (action : LifecycleAction) (w : World) (s : Submission) (result : Except Exc Counts)
    (t : World) : Prop where
  named : action.clientOrderId = some s.clientOrderId
  symbol : s.order.symbol = action.symbol
  side : s.order.side = action.side
  sized : sizedOrder env settings action w = some (s.order.price, s.order.qty)
  exchangeId : s.order.clientOrderId =
    buildExchangeClientId env.sha256 s.clientOrderId action.symbol action.side
  fresh : (stage4SubmitDedupeStatus w.orders s.checkedAt s.clientOrderId
    s.order.clientOrderId).shouldDedupe = false
  answers : Answers (fun n => env.submitLimitOrder n s.order) s.before s.last
  calls : t.calls =
    (attempted (.submit replaces s.clientOrderId s.order) w (s.before ++ [s.last])).calls
  orders : t.orders = s.recorded action w.orders
  replaceTxs : t.replaceTxs = w.replaceTxs
  freeze : t.freeze = w.freeze
  result : result = s.counts

/-- What a submit action does: no call, or one submission. -/
def Submits (env : Env) (settings : Settings) (replaces : Option Replaces)
    (action : LifecycleAction) (w : World) (result : Except Exc Counts) (t : World) : Prop :=
  Silent env settings action w t ∨ ∃ s, Sent env settings replaces action w s result t

variable {env : Env} {settings : Settings} {replaces : Option Replaces}
  {action : LifecycleAction} {clientOrderId exchangeClientId : String} {price qty : ℚ} {w : World}

theorem Silent.of_ticks (w : World) (ticks : ℕ) :
    Silent env settings action w { w with ticks := ticks } :=
  ⟨.nothing, rfl, rfl, rfl⟩

theorem OnlyRow.named {before after : List OrderRow} (h : OnlyRow clientOrderId before after)
    (hnamed : action.clientOrderId = some clientOrderId) : OnlyNamed action before after :=
  fun other hother => h other fun heq => hother (heq ▸ hnamed)

/-- What an action that sends nothing writes is the row it names. -/
theorem Written.onlyNamed {orders : List OrderRow} (h : Written env settings action w orders) :
    OnlyNamed action w.orders orders := by
  cases h with
  | nothing => exact fun _ _ => rfl
  | refused named why now live reason errorCode =>
    exact OnlyRow.named (onlyRow_recordError _ (recordOf action _ _ _ live .rejected) _ _) named
  | simulated named sized now =>
    exact OnlyRow.named (onlyRow_recordSubmitted _
      { recordOf action _ _ _ false .open with mode := .dryRun, status := .open } _ _) named

/-- The program ends as the relation of its results says. -/
abbrev EndsAs {α : Type} (m : Exec α) (w : World) (S : Except Exc α → World → Prop) : Prop :=
  Ends m w (fun a => S (.ok a)) (fun exc => S (.error exc))

theorem ends_readClock {Q : ℤ → World → Prop} {E : Exc → World → Prop} :
    Ends (readClock env) w Q E ↔ Q (env.now w.ticks) { w with ticks := w.ticks + 1 } := Iff.rfl

theorem sendSubmit_ends {checkedAt : ℤ} {ticks : ℕ}
    (hnamed : action.clientOrderId = some clientOrderId)
    (hsized : sizedOrder env settings action w = some (price, qty))
    (hexchange : exchangeClientId =
      buildExchangeClientId env.sha256 clientOrderId action.symbol action.side)
    (hfresh : (stage4SubmitDedupeStatus w.orders checkedAt clientOrderId
      exchangeClientId).shouldDedupe = false) :
    EndsAs (sendSubmit env settings replaces action clientOrderId exchangeClientId price qty)
      { w with ticks := ticks } (Submits env settings replaces action w) := by
  let order : LimitOrder := ⟨action.symbol, action.side, price, qty, exchangeClientId⟩
  have hsent (before : List (Except Exc String)) (last : Except Exc String)
      (hanswers : Answers (fun n => env.submitLimitOrder n order) before last) (later : ℕ) :
      Submits env settings replaces action
        w (Submission.counts ⟨clientOrderId, order, checkedAt, before, last, env.now ticks⟩)
        { attempted (.submit replaces clientOrderId order) w (before ++ [last]) with
          orders := Submission.recorded
            ⟨clientOrderId, order, checkedAt, before, last, env.now ticks⟩ action w.orders
          ticks := later } :=
    .inr ⟨_, hnamed, rfl, rfl, hsized, hexchange, hfresh, hanswers, rfl, rfl, rfl, rfl, rfl⟩
  unfold sendSubmit tryExcept
  rw [EndsAs, ends_bind]
  refine ensure_ends.mono (fun _ t ht => ?_)
    fun _ t ⟨_, _, _, ht⟩ => .inl (ht ▸ Silent.of_ticks w ticks)
  rw [ht.2, ends_bind, ends_tryCatch, ends_bind]
  refine (ends_execute _ _).mono ?_ ?_
  · rintro result t ⟨before, last, hanswers, rfl, hresult⟩
    have h := hsent before last hanswers (ticks + 1)
    cases result with
    | value exchangeOrderId =>
      rw [handedOn_value hresult] at h ⊢
      exact h
    | uncertainResult exc =>
      obtain ⟨hlast, hopen⟩ := handedOn_uncertain hresult
      have hc := leftOpen_submit.mp hopen
      rw [hlast] at h ⊢
      simp only [Submission.counts, Submission.recorded, if_pos hc] at h
      exact h
  · rintro raised t ⟨before, last, hanswers, rfl, hresult⟩
    obtain ⟨hlast, hclosed⟩ := handedOn_error hresult
    have hc : classifyExchangeError raised ≠ .uncertain := by
      rw [Ne, ← leftOpen_submit, hclosed]
      decide
    have h := hsent before last hanswers
    rw [hlast] at h ⊢
    rw [ends_ite]
    split
    · next hcrash =>
      subst hcrash
      exact h ticks
    · rw [ends_ite]
      split
      · next hcode =>
        have hrejected := h (ticks + 1)
        simp only [Submission.counts, Submission.recorded, if_neg hc, if_pos hcode] at hrejected
        exact hrejected
      · next hcode =>
        have hraised := h ticks
        simp only [Submission.counts, Submission.recorded, if_neg hc, if_neg hcode] at hraised
        exact hraised

theorem silent_rejectSubmit {live : Bool} {reason : String} {errorCode : Option ℤ}
    {counts : Counts} {ticks : ℕ} (hnamed : action.clientOrderId = some clientOrderId)
    (hrefused : Refused env settings action w price qty) :
    EndsAs (do
      rejectSubmit env action clientOrderId price qty live reason errorCode
      pure counts) { w with ticks := ticks } (Submits env settings replaces action w) :=
  .inl ⟨.refused hnamed hrefused _ live reason errorCode, rfl, rfl, rfl⟩

theorem sizeAndSubmit_ends {live : Bool} {checkedAt : ℤ}
    (hnamed : action.clientOrderId = some clientOrderId)
    (hexchange : exchangeClientId =
      buildExchangeClientId env.sha256 clientOrderId action.symbol action.side)
    (hfresh : (stage4SubmitDedupeStatus w.orders checkedAt clientOrderId
      exchangeClientId).shouldDedupe = false) :
    EndsAs (sizeAndSubmit env settings replaces action clientOrderId exchangeClientId live)
      { w with ticks := w.ticks + 2 } (Submits env settings replaces action w) := by
  have hsame : Silent env settings action w { w with ticks := w.ticks + 2 } :=
    Silent.of_ticks w (w.ticks + 2)
  unfold sizeAndSubmit
  rw [EndsAs, ends_bind, ends_get]
  dsimp only
  cases hrules : env.rules (w.ticks + 2) action.symbol with
  | raises exc => exact .inl hsame
  | missing reason => exact silent_rejectSubmit hnamed (.rules hrules)
  | found rules =>
    dsimp only
    cases hsize : sizeSubmit settings rules action with
    | raises message => exact .inl hsame
    | rejected reason price qty minNotional =>
      exact silent_rejectSubmit hnamed (.size hrules hsize)
    | sized price qty =>
      have hsized : sizedOrder env settings action w = some (price, qty) := by
        simp [sizedOrder, hrules, hsize]
      dsimp only
      rw [ends_ite]
      split
      · exact sendSubmit_ends hnamed hsized hexchange hfresh
      · exact .inl ⟨.simulated hnamed hsized _, rfl, rfl, rfl⟩

theorem cooldownGate_ends :
    Ends (cooldownGate env settings action) w
      (fun gate t => gate = gateReason env settings action w ∧ t = { w with ticks := w.ticks + 1 })
      (fun _ _ => False) := by
  unfold cooldownGate gateReason
  rw [ends_bind, ends_readClock, ends_ite]
  split
  · rw [ends_bind, ends_get]
    dsimp only
    cases env.cooldown (w.ticks + 1) action.symbol <;> exact ⟨rfl, rfl⟩
  · exact ⟨rfl, rfl⟩

theorem gateAndSubmit_ends {live : Bool} (hnamed : action.clientOrderId = some clientOrderId) :
    EndsAs (gateAndSubmit env settings replaces action clientOrderId live) w
      (Submits env settings replaces action w) := by
  unfold gateAndSubmit
  rw [EndsAs, ends_bind]
  refine cooldownGate_ends.mono ?_ nofun
  rintro gate t ⟨hgate, rfl⟩
  cases gate with
  | some reason => exact silent_rejectSubmit hnamed (.gate hgate.symm)
  | none =>
    dsimp only
    rw [ends_bind, ends_readClock, ends_bind, ends_get, ends_ite]
    split
    · exact .inl (Silent.of_ticks w _)
    · next hfresh =>
      exact sizeAndSubmit_ends hnamed rfl ((Bool.not_eq_true _).mp hfresh)

/-- A submit action makes no call, or one submission that its dedupe check allowed. -/
theorem executeSubmitAction_ends (live : Bool) :
    EndsAs (executeSubmitAction env settings replaces action live) w
      (Submits env settings replaces action w) := by
  have hsame : Silent env settings action w w := Silent.of_ticks w w.ticks
  unfold executeSubmitAction
  rw [EndsAs, ends_bind, ends_get, ends_ite]
  split
  · exact .inl hsame
  · cases hnamed : action.clientOrderId with
    | none => exact .inl hsame
    | some clientOrderId =>
      dsimp only
      rw [ends_ite]
      split
      · exact .inl hsame
      · exact gateAndSubmit_ends hnamed

end Actions

section Runs

/-- One execution: its actions, its settings and answers, and what orders and freeze it
finds stored. -/
structure Execution where
  settings : Settings
  env : Env
  actions : List LifecycleAction
  orders : List OrderRow
  freeze : FreezeState

def executed (w : World) (execution : Execution) : World :=
  (Stage4Gate.outcome
    (executeWithReport execution.env execution.settings execution.actions)
    { w with orders := execution.orders, freeze := execution.freeze }).2

def initial : World := ⟨[], ∅, ⟨false, none⟩, 0, []⟩

def run (executions : List Execution) : World := executions.foldl executed initial

theorem run_append (first second : List Execution) :
    run (first ++ second) = second.foldl executed (run first) := List.foldl_append

section Keeps

variable {R T : World → World → Prop} [IsPreorder World R] {env : Env} {settings : Settings}

/-- A step of an execution that is neither a cancel nor a submission. -/
structure OtherSteps (R : World → World → Prop) : Prop where
  openOrders : ∀ w symbol answer, R w (w.called (.openOrders symbol answer))
  replaceTxs : ∀ (w : World) replaceTxs ticks,
    R w { w with replaceTxs := replaceTxs, ticks := ticks }

theorem cancelAll_keeps {cancels : List LifecycleAction} {live : Bool}
    (hcancel : ∀ action ∈ cancels, Keeps R (executeCancelAction env settings action live)) :
    Keeps R (cancelAll env settings cancels live) :=
  Keeps.foldlM_mem cancels (fun action haction _ =>
    (hcancel action haction).bind fun _ => Keeps.pure _) 0

/-- A group whose cancels keep `R` and whose submission keeps `T`. -/
theorem executeReplaceGroup_keeps (habsorbs : Absorbs R T) (hother : OtherSteps R)
    {group : ReplaceGroup} {live : Bool}
    (hcancel : ∀ action ∈ group.cancelActions,
      Keeps R (executeCancelAction env settings action live))
    (hsubmit : ∀ replaces, Keeps T (executeSubmitAction env settings replaces
      { group.submitAction with actionType := .submit, exchangeOrderId := none } live)) :
    Keeps T (executeReplaceGroup env settings group live) := by
  have hset (f : ReplaceTxs → ℤ → ReplaceTxs) : Keeps R (writeReplaceTxs env f) :=
    fun w => hother.replaceTxs w _ _
  have hconfirm : Keeps R (confirmReplaceCancels env group) := by
    refine tryExcept_keeps (Keeps.bind (fun w => ?_) fun _ => Keeps.get.bind fun _ => Keeps.pure _)
      fun _ => Keeps.pure _
    exact ends_callExchange (fun _ _ => hother.openOrders w _ _)
      (fun _ _ => hother.openOrders w _ _)
  have hpure {α : Type} (a : α) : Keeps T (pure a : Exec α) :=
    (Keeps.pure a).imp fun _ _ => habsorbs.sub
  have hreplacement (replaceTxId : String) :
      Keeps T (submitReplacement env settings group replaceTxId live) := by
    refine habsorbs.bind_first (hset _) fun _ => habsorbs.bind_first (hset _) fun _ => ?_
    refine habsorbs.bind_last (hsubmit _) fun counts => ?_
    refine Keeps.ite ((hset _).bind fun _ => Keeps.pure _) ?_
    exact Keeps.ite ((hset _).bind fun _ => Keeps.pure _) (Keeps.pure _)
  have hadvance (replaceTxId : String) :
      Keeps T (advanceReplace env settings group replaceTxId live) := by
    refine habsorbs.bind_first Keeps.get fun w => Keeps.ite ?_ ?_
    · exact habsorbs.bind_first (hset _) fun _ => hpure _
    · refine habsorbs.bind_first (cancelAll_keeps hcancel) fun _ => ?_
      refine habsorbs.bind_first (hset _) fun _ => habsorbs.bind_first hconfirm fun reason => ?_
      cases reason with
      | some reason => exact habsorbs.bind_first (hset _) fun _ => hpure _
      | none => exact habsorbs.bind_last (hreplacement _) fun _ => Keeps.pure _
  refine (hpure _).ite (habsorbs.bind_first Keeps.get fun w => ?_)
  split
  · exact habsorbs.bind_first (hset _) fun _ => hadvance _
  · refine Keeps.ite (habsorbs.bind_first (hset _) fun _ => hpure _) ?_
    exact (hpure _).ite (hadvance _)

theorem executeRegular_keeps {live : Bool} {action : LifecycleAction} (totals : Totals)
    (hcancel : Keeps R (executeCancelAction env settings action live))
    (hsubmit : Keeps R (executeSubmitAction env settings none action live)) :
    Keeps R (executeRegular env settings live totals action) := by
  unfold executeRegular
  split
  · exact hcancel.bind fun _ => Keeps.pure _
  · exact hsubmit.bind fun _ => Keeps.pure _
  · exact Keeps.pure _

/-- What every step of an execution keeps, the execution keeps. -/
theorem executeWithReport_keeps
    (hcancel : ∀ action live, Keeps R (executeCancelAction env settings action live))
    (hsubmit : ∀ replaces action live,
      Keeps R (executeSubmitAction env settings replaces action live))
    (hother : OtherSteps R) (actions : List LifecycleAction) :
    Keeps R (executeWithReport env settings actions) := by
  refine (Keeps.throw _).ite (Keeps.get.bind fun w => ?_)
  refine (Keeps.foldlM (fun totals action =>
    executeRegular_keeps totals (hcancel action _) (hsubmit _ action _)) _ _).bind fun totals => ?_
  refine Keeps.foldlM (fun totals group => ?_) _ _
  refine Keeps.ite ((cancelAll_keeps fun _ _ => hcancel _ _).bind fun _ => Keeps.pure _) ?_
  exact (executeReplaceGroup_keeps (Absorbs.self R) hother (fun _ _ => hcancel _ _)
    fun _ => hsubmit _ _ _).bind fun _ => Keeps.pure _

end Keeps

end Runs

end Stage4Submit
