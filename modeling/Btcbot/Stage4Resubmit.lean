import Btcbot.Stage4Submit

/-!
# Submissions for a client id that is stored live

The dedupe check stops a submission by the row of the client id, unless that row is
`unknown` or another row of the same exchange client id was updated later.
-/
namespace Stage4Resubmit

open ExchangeErrors Stage4Store Stage4Execute Stage4Submit Effects

/-- The statuses that stop a submission whatever the age of the row. -/
def blocking (status : OrderStatus) : Bool :=
  status = .open || status = .submitted || status = .cancelRequested

/-- The statuses of an order that may be on the exchange. -/
def liveStatus (status : OrderStatus) : Bool := blocking status || status = .unknown

/-- The submissions made since were allowed by the dedupe check on the orders stored. -/
def Checked (w t : World) : Prop :=
  ∃ made, t.calls = w.calls ++ made ∧
    ∀ entry ∈ made, ∀ replaces clientOrderId order answer,
      entry.call = .submit replaces clientOrderId order answer →
      ∃ now, (stage4SubmitDedupeStatus entry.orders now clientOrderId
        order.clientOrderId).shouldDedupe = false

theorem Checked.refl (w : World) : Checked w w :=
  ⟨[], (List.append_nil _).symm, List.forall_mem_nil _⟩

instance : IsPreorder World Checked where
  refl := Checked.refl
  trans a b c := by
    rintro ⟨made, hmade, hchecked⟩ ⟨more, hmore, hchecked'⟩
    refine ⟨made ++ more, by rw [hmore, hmade, List.append_assoc], fun entry hentry => ?_⟩
    rcases List.mem_append.mp hentry with h | h
    · exact hchecked entry h
    · exact hchecked' entry h

section Keeps

variable {env : Env} {settings : Settings}

/-- A call that submits nothing needs no check. -/
theorem checked_called (w : World) {call : Call}
    (h : ∀ replaces clientOrderId order answer,
      call ≠ .submit replaces clientOrderId order answer) :
    Checked w (w.called call) := by
  refine ⟨_, rfl, fun entry hentry replaces clientOrderId order answer hcall => ?_⟩
  cases List.mem_singleton.mp hentry
  exact absurd hcall (h _ _ _ _)

theorem checked_executeCancelAction (action : LifecycleAction) (live : Bool) :
    Keeps Checked (executeCancelAction env settings action live) :=
  executeCancelAction_keeps (fun _ _ w _ _ _ => Checked.refl w)
    fun w _ _ => checked_called w fun _ _ _ _ h => nomatch h

theorem checked_executeSubmitAction (replaces : Option Replaces) (action : LifecycleAction)
    (live : Bool) : Keeps Checked (executeSubmitAction env settings replaces action live) := by
  have hchecked {w t : World} {result : Except Exc Counts}
      (h : Submits env settings replaces action w result t) : Checked w t := by
    rcases h with h | ⟨s, h⟩
    · exact ⟨[], by rw [h.calls, List.append_nil], List.forall_mem_nil _⟩
    · refine ⟨_, h.calls, fun entry hentry _ clientOrderId order answer hcall => ?_⟩
      obtain ⟨answer', -, rfl⟩ := List.mem_map.mp hentry
      cases hcall
      exact ⟨s.checkedAt, h.fresh⟩
  intro w
  exact (executeSubmitAction_ends live).mono (fun _ _ h => hchecked h) (fun _ _ h => hchecked h)

theorem checked_run (executions : List Execution) : Checked initial (run executions) := by
  have hstep (w : World) (execution : Execution) : Checked w (executed w execution) := by
    have hkeeps := executeWithReport_keeps (@checked_executeCancelAction execution.env
      execution.settings) checked_executeSubmitAction
      ⟨fun w _ _ => checked_called w (fun _ _ _ _ h => nomatch h),
        fun w _ _ => Checked.refl w⟩ execution.actions
    exact Stage4Gate.ends_outcome hkeeps
      { w with orders := execution.orders, freeze := execution.freeze }
  have hall : ∀ w, Checked w (executions.foldl executed w) := by
    induction executions with
    | nil => exact Checked.refl
    | cons execution executions ih =>
      exact fun w => trans_of Checked (hstep w execution) (ih (executed w execution))
  exact hall initial

end Keeps

/-- Read by the check, a blocking row stops the submission. -/
theorem dedupe_blocking {orders : List OrderRow} {now : ℤ}
    {clientOrderId exchangeClientId : String} {row : OrderRow}
    (hlatest : latest (relatedOrders orders clientOrderId exchangeClientId) = some row)
    (hblocking : blocking row.status = true) :
    (stage4SubmitDedupeStatus orders now clientOrderId exchangeClientId).shouldDedupe = true := by
  unfold stage4SubmitDedupeStatus
  rw [hlatest]
  dsimp only
  cases hstatus : row.status <;> simp [hstatus, blocking] at hblocking <;> rfl

/-- The order stored for the client id is not live. -/
def NotLive (orders : List OrderRow) (clientOrderId : String) : Prop :=
  ∀ row, getStage4OrderByClientId orders clientOrderId = some row → ¬ liveStatus row.status = true

/-- The order stored for the client id is not `unknown`, and if it blocks, is the row the
dedupe check reads. -/
def Seen (orders : List OrderRow) (clientOrderId exchangeClientId : String) : Prop :=
  ∀ row, getStage4OrderByClientId orders clientOrderId = some row →
    row.status ≠ .unknown ∧ (blocking row.status = true →
      latest (relatedOrders orders clientOrderId exchangeClientId) = some row)

/-- In every run: a submission is made for a client id that is not stored live just when
its row is seen for what it is. -/
theorem submitted_not_live_iff (executions : List Execution) (entry : Entry)
    (hentry : entry ∈ (run executions).calls) (replaces : Option Replaces)
    (clientOrderId : String) (order : LimitOrder) (answer : Except Exc String)
    (hcall : entry.call = .submit replaces clientOrderId order answer) :
    NotLive entry.orders clientOrderId ↔
      Seen entry.orders clientOrderId order.clientOrderId := by
  obtain ⟨made, hmade, hchecked⟩ := checked_run executions
  have hin : entry ∈ made := by
    rw [← List.nil_append made]
    exact hmade ▸ hentry
  obtain ⟨now, hfresh⟩ := hchecked entry hin _ _ _ _ hcall
  constructor
  · intro hdead row hrow
    have hrowDead := hdead row hrow
    constructor
    · intro hunknown
      exact hrowDead (by rw [hunknown]; rfl)
    · intro hblocking
      exact absurd (by rw [liveStatus, hblocking]; rfl) hrowDead
  · intro hseen row hrow hlive
    obtain ⟨hknown, hread⟩ := hseen row hrow
    have hblocking : blocking row.status = true := by
      simpa [liveStatus, hknown] using hlive
    rw [dedupe_blocking (hread hblocking) hblocking] at hfresh
    cases hfresh

section Sample

def submitB (answer : Except Exc String) (orders : List OrderRow) : Execution :=
  ⟨sampleSettings, sampleEnv answer (.ok true), [sampleAction .submit "entry" "b"], orders,
    ⟨false, none⟩⟩

def exchangeIdB : String :=
  Stage4Reconcile.buildExchangeClientId (sampleEnv (.ok "ex") (.ok true)).sha256 "b" "BTCTRY" "buy"

def orderB : LimitOrder where
  symbol := "BTCTRY"
  side := "buy"
  price := 10
  qty := 1
  clientOrderId := exchangeIdB

theorem submitted_not_live_iff_after_error :
    NotLive [sampleRow 1 "b" .error] "b" ↔ Seen [sampleRow 1 "b" .error] "b" exchangeIdB :=
  submitted_not_live_iff [submitB (.ok "ex") [sampleRow 1 "b" .error]]
    ⟨.submit none "b" orderB (.ok "ex"), [sampleRow 1 "b" .error]⟩ (by decide +kernel) none
    "b" orderB (.ok "ex") rfl

def timedOut : Execution := submitB (.error (.timeoutException "timeout")) []

/-- The call after the one that timed out, on the orders that one left. -/
def timedOutAgain : Execution :=
  submitB (.error (.timeoutException "timeout")) (run [timedOut]).orders

/-- An order left `unknown` by a timeout is submitted again. -/
theorem unknown_submitted_again :
    ∃ entry ∈ (run [timedOut, timedOutAgain]).calls,
      entry.call = .submit none "b" orderB (.error (.timeoutException "timeout")) ∧
        ¬ NotLive entry.orders "b" := by
  have hstored : ∃ entry ∈ (run [timedOut, timedOutAgain]).calls,
      entry.call = .submit none "b" orderB (.error (.timeoutException "timeout")) ∧
        (getStage4OrderByClientId entry.orders "b").map OrderRow.status = some .unknown := by
    decide +kernel
  obtain ⟨entry, hentry, hcall, hunknown⟩ := hstored
  refine ⟨entry, hentry, hcall, fun hdead => ?_⟩
  obtain ⟨row, hrow, hstatus⟩ := Option.map_eq_some_iff.mp hunknown
  exact hdead row hrow (by rw [hstatus]; rfl)

end Sample

end Stage4Resubmit
