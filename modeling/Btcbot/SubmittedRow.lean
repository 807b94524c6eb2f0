import Btcbot.Stage4Submit

/-!
# The row of a submission that was acknowledged

The row of a client id that is already stored keeps its price and quantity when a submission
is recorded on it. So the row describes what was sent exactly where it did before, or where
there was none.
-/
namespace SubmittedRow

open ExchangeErrors ExecutionWrapper Stage4Store Stage4Execute Stage4Cancel Stage4Submit Effects
open Stage4Gate (outcome made made_eq)

section Row

variable {orders : List OrderRow}

/-- A row says what an order asks for. -/
def Describes (row : OrderRow) (order : LimitOrder) : Prop :=
  row.price = order.price ∧ row.qty = order.qty

theorem describes_recorded (now : ℤ) {recorded : Recorded} {order : LimitOrder}
    (hprice : recorded.price = order.price) (hqty : recorded.qty = order.qty)
    (exchangeClientId : Option String) (exchangeOrderId : String) :
    (∃ row ∈ getStage4OrderByClientId
        (recordStage4OrderSubmitted orders now recorded exchangeClientId exchangeOrderId)
        recorded.clientOrderId, Describes row order) ↔
      ∀ row ∈ getStage4OrderByClientId orders recorded.clientOrderId, Describes row order := by
  unfold recordStage4OrderSubmitted
  rw [get_written recorded.clientOrderId]
  · cases getStage4OrderByClientId orders recorded.clientOrderId with
    | some row => simp [Describes]
    | none => simp [Describes, hprice, hqty]
  · exact fun _ => rfl
  · rfl

end Row

section Made

/-- The order that a call placed, with the client id it is stored under. -/
def placed (entry : Entry) : Option (String × LimitOrder) :=
  match entry.call with
  | .submit _ clientOrderId order (.ok _) => some (clientOrderId, order)
  | _ => none

variable {env : Env} {settings : Settings} {replaces : Option Replaces} {action : LifecycleAction}
  {live : Bool} {w : World}

/-- A submit action makes no call, or the attempts of one submission. -/
theorem made_submit :
    made (executeSubmitAction env settings replaces action live) w = [] ∨
      ∃ s result, Sent env settings replaces action w s result
          (outcome (executeSubmitAction env settings replaces action live) w).2 ∧
        made (executeSubmitAction env settings replaces action live) w =
          (s.before ++ [s.last]).map fun given =>
            ⟨.submit replaces s.clientOrderId s.order given, w.orders⟩ := by
  have hends := @executeSubmitAction_ends env settings replaces action w live
  have hsubmits : ∃ result, Submits env settings replaces action w result
      (outcome (executeSubmitAction env settings replaces action live) w).2 := by
    unfold EndsAs Ends at hends
    unfold outcome
    cases hrun : executeSubmitAction env settings replaces action live w with
    | ok counts t => exact ⟨_, by simpa [hrun] using hends⟩
    | error exc t => exact ⟨_, by simpa [hrun] using hends⟩
  obtain ⟨result, hsilent | ⟨s, hsent⟩⟩ := hsubmits
  · exact .inl (made_eq (hsilent.calls.trans (List.append_nil _).symm))
  · exact .inr ⟨s, result, hsent, made_eq hsent.calls⟩

/-- Of the attempts of a submission only the last can place the order. -/
theorem placed_attempts {s : Submission} {clientOrderId : String} {orders : List OrderRow}
    (h : ∀ given ∈ s.before, ∃ exc, given = .error exc) {sent : String × LimitOrder}
    (hsent : sent ∈ ((s.before ++ [s.last]).map fun given => (⟨.submit replaces clientOrderId
      s.order given, orders⟩ : Entry)).filterMap placed) :
    sent = (clientOrderId, s.order) ∧ ∃ exchangeOrderId, s.last = .ok exchangeOrderId := by
  rw [List.filterMap_map] at hsent
  obtain ⟨given, hgiven, hplaced⟩ := List.mem_filterMap.mp hsent
  cases given with
  | error exc => cases hplaced
  | ok exchangeOrderId =>
    refine ⟨(Option.some.inj hplaced).symm, exchangeOrderId, ?_⟩
    rcases List.mem_append.mp hgiven with hbefore | hlast
    · obtain ⟨exc, herror⟩ := h _ hbefore
      cases herror
    · exact (List.mem_singleton.mp hlast).symm

end Made

section Runs

/-- A submit action with what it is executed under. -/
structure Submit where
  env : Env
  settings : Settings
  replaces : Option Replaces
  action : LifecycleAction
  live : Bool

/-- A step of the service, or of what else writes the orders: fills, reconciliation and
imports. -/
inductive Step where
  | submit (submit : Submit)
  | cancel (env : Env) (settings : Settings) (action : LifecycleAction) (live : Bool)
  | elsewhere (orders : List OrderRow)

def Submit.program (s : Submit) : Exec Counts :=
  executeSubmitAction s.env s.settings s.replaces s.action s.live

def step (w : World) : Step → World
  | .submit s => (outcome s.program w).2
  | .cancel env settings action live => (outcome (executeCancelAction env settings action live) w).2
  | .elsewhere orders => { w with orders := orders }

abbrev ran (w : World) (steps : List Step) : World := Runs.run step w steps

/-- The orders that the exchange acknowledged to a submit action. -/
def Submit.acknowledged (s : Submit) (w : World) : List (String × LimitOrder) :=
  (made s.program w).filterMap placed

/-- The row stored after it has the price and quantity of each order sent. -/
def Submit.Described (s : Submit) (w : World) : Prop :=
  ∀ sent ∈ s.acknowledged w,
    ∃ row ∈ getStage4OrderByClientId (outcome s.program w).2.orders sent.1, Describes row sent.2

/-- A row stored before, if any, has the price and quantity the action is sized to. -/
def Submit.Unstale (s : Submit) (w : World) : Prop :=
  ∀ clientOrderId ∈ s.action.clientOrderId, ∀ sized ∈ sizedOrder s.env s.settings s.action w,
    ∀ row ∈ getStage4OrderByClientId w.orders clientOrderId, (row.price, row.qty) = sized

/-- An acknowledged order is the one the action was sized to, and its row is recorded. -/
theorem acknowledged_recorded {s : Submit} {w : World} {sent : String × LimitOrder}
    (h : sent ∈ s.acknowledged w) :
    s.action.clientOrderId = some sent.1 ∧
      sizedOrder s.env s.settings s.action w = some (sent.2.price, sent.2.qty) ∧
      ∃ now exchangeOrderId, (outcome s.program w).2.orders =
        recordStage4OrderSubmitted w.orders now
          (recordOf s.action sent.1 sent.2.price sent.2.qty true .open)
          (some sent.2.clientOrderId) exchangeOrderId := by
  unfold Submit.acknowledged Submit.program at h
  rcases @made_submit s.env s.settings s.replaces s.action s.live w with
    hnone | ⟨submission, result, hsent, hmade⟩
  · rw [hnone] at h
    cases h
  · rw [hmade] at h
    obtain ⟨rfl, exchangeOrderId, hlast⟩ := placed_attempts (fun given hgiven => by
      obtain ⟨exc, hexc, -⟩ := hsent.answers.retried given hgiven
      exact ⟨exc, hexc⟩) h
    refine ⟨hsent.named, hsent.sized, submission.recordedAt, exchangeOrderId, ?_⟩
    have horders := hsent.orders
    rwa [Submission.recorded, hlast] at horders

/-- An acknowledged order is described exactly if the row stored before is not stale. -/
theorem described_iff (s : Submit) (w : World) (h : s.acknowledged w ≠ []) :
    s.Described w ↔ s.Unstale w := by
  have hone {sent : String × LimitOrder} (hsent : sent ∈ s.acknowledged w) :
      (∃ row ∈ getStage4OrderByClientId (outcome s.program w).2.orders sent.1,
        Describes row sent.2) ↔ s.Unstale w := by
    obtain ⟨hnamed, hsized, now, exchangeOrderId, horders⟩ := acknowledged_recorded hsent
    have hrow := @describes_recorded w.orders now
      (recordOf s.action sent.1 sent.2.price sent.2.qty true .open) sent.2 rfl rfl
      (some sent.2.clientOrderId) exchangeOrderId
    rw [horders]
    refine hrow.trans ?_
    simp [Submit.Unstale, hnamed, hsized, recordOf, Describes]
  constructor
  · intro hdescribed
    obtain ⟨sent, hsent⟩ := List.exists_mem_of_ne_nil _ h
    exact (hone hsent).mp (hdescribed sent hsent)
  · exact fun hunstale sent hsent => (hone hsent).mpr hunstale

/-- After every acknowledged submission the stored row describes it. -/
def LastSentStored (w : World) (steps : List Step) : Prop :=
  ∀ before s after, steps = before ++ .submit s :: after → s.Described (ran w before)

/-- Every acknowledged submission finds no row of other price or quantity. -/
def NoStaleRow (w : World) (steps : List Step) : Prop :=
  ∀ before s after, steps = before ++ .submit s :: after →
    s.acknowledged (ran w before) ≠ [] → s.Unstale (ran w before)

/-- Rows describe the last acknowledged submissions exactly where those find no row of other
price or quantity. -/
theorem last_sent_stored_iff (w : World) (steps : List Step) :
    LastSentStored w steps ↔ NoStaleRow w steps := by
  constructor
  · intro h before s after hsteps hack
    exact (described_iff s _ hack).mp (h before s after hsteps)
  · intro h before s after hsteps sent hsent
    have hack : s.acknowledged (ran w before) ≠ [] := List.ne_nil_of_mem hsent
    exact (described_iff s _ hack).mpr (h before s after hsteps hack) sent hsent

/-- A submission of one unit at a price, acknowledged. -/
def submitAt (price : ℚ) : Submit where
  env := sampleEnv (.ok "ex") (.ok true)
  settings := sampleSettings
  replaces := none
  action := { sampleAction .submit "plan" "c1" with price := price }
  live := true

/-- The id of a canceled order is used again, at another price. -/
theorem first_price_kept :
    ¬ LastSentStored (sampleWorld [])
      [.elsewhere [sampleRow 1 "c1" .canceled], .submit (submitAt 9)] := by
  intro h
  let w := sampleWorld [sampleRow 1 "c1" .canceled]
  have hdescribed : (submitAt 9).Described w :=
    h [.elsewhere [sampleRow 1 "c1" .canceled]] (submitAt 9) [] rfl
  have hsent : ((submitAt 9).acknowledged w).map (fun sent => (sent.1, sent.2.price)) =
      [("c1", 9)] := by
    decide +kernel
  have hstored : (getStage4OrderByClientId (outcome (submitAt 9).program w).2.orders "c1").map
      OrderRow.price = some 10 := by
    decide +kernel
  obtain ⟨sent, hin, hpair⟩ := List.mem_map.mp (hsent ▸ List.mem_singleton_self ("c1", (9 : ℚ)))
  obtain ⟨hid, hprice⟩ := Prod.mk.inj hpair
  obtain ⟨row, hrow, hrowPrice, -⟩ := hdescribed sent hin
  rw [hid] at hrow
  rw [Option.mem_def.mp hrow, Option.map_some, hrowPrice, hprice] at hstored
  exact absurd (Option.some.inj hstored) (by decide)

end Runs

end SubmittedRow
