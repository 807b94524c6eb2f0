import Btcbot.CycleGate
import Btcbot.Stage4Replace

/-!
# What a cycle submits to the exchange

Every submission of an execution is of one of its submit actions, on its own or for a replace
group, under the client order id of the action. So a cycle that is hindered submits no buy.
-/
namespace CycleExecution

open Stage4Execute Stage4Submit Effects
open Stage4Gate (NoSubmits outcome ends_outcome noSubmits_executeCancelAction)
open Stage4Reconcile (buildExchangeClientId)

section Submissions

/-- The submission is of the action. -/
structure Names (env : Env) (action : LifecycleAction) (clientOrderId : String)
    (order : LimitOrder) : Prop where
  named : action.clientOrderId = some clientOrderId
  exchangeId : order.clientOrderId =
    buildExchangeClientId env.sha256 clientOrderId action.symbol action.side
  symbol : order.symbol = action.symbol
  side : order.side = action.side

/-- Every submission made is of one of these actions. -/
def SubmitsOnly (env : Env) (P : LifecycleAction → Prop) (before after : World) : Prop :=
  ∃ made, after.calls = before.calls ++ made ∧
    ∀ entry ∈ made, ∀ replaces clientOrderId order answer,
      entry.call = .submit replaces clientOrderId order answer →
        ∃ action, P action ∧ Names env action clientOrderId order

variable {env : Env} {settings : Settings} {P : LifecycleAction → Prop}

theorem submitsOnly_same {before after : World} (h : after.calls = before.calls) :
    SubmitsOnly env P before after :=
  ⟨[], by rw [h, List.append_nil], fun _ hentry => absurd hentry List.not_mem_nil⟩

instance submitsOnly_preorder : IsPreorder World (SubmitsOnly env P) where
  refl _ := submitsOnly_same rfl
  trans a b c := by
    rintro ⟨made, hmade, hof⟩ ⟨more, hmore, hofmore⟩
    refine ⟨made ++ more, by rw [hmore, hmade, List.append_assoc], fun entry hentry => ?_⟩
    rcases List.mem_append.mp hentry with h | h
    · exact hof entry h
    · exact hofmore entry h

theorem SubmitsOnly.of_noSubmits {before after : World} (h : NoSubmits before after) :
    SubmitsOnly env P before after := by
  obtain ⟨made, hmade, hno⟩ := h
  refine ⟨made, hmade, fun entry hentry replaces clientOrderId order answer hcall => ?_⟩
  exact absurd hcall (hno entry hentry replaces clientOrderId order answer)

theorem submitsOnly_cancel (action : LifecycleAction) (live : Bool) :
    Keeps (SubmitsOnly env P) (executeCancelAction env settings action live) :=
  (noSubmits_executeCancelAction action live).imp fun _ _ h => .of_noSubmits h

theorem submitsOnly_submit {replaces : Option Replaces} {action : LifecycleAction} {live : Bool}
    (h : P action) :
    Keeps (SubmitsOnly env P) (executeSubmitAction env settings replaces action live) := by
  intro w
  have hsubmits {result : Except ExchangeErrors.Exc Counts} {t : World}
      (hends : Submits env settings replaces action w result t) : SubmitsOnly env P w t := by
    rcases hends with hsilent | ⟨s, hsent⟩
    · exact submitsOnly_same hsilent.calls
    · refine ⟨_, hsent.calls, ?_⟩
      intro entry hentry other clientOrderId order answer hcall
      obtain ⟨given, -, rfl⟩ := List.mem_map.mp hentry
      obtain ⟨rfl, rfl, rfl, rfl⟩ := Call.submit.inj hcall
      exact ⟨action, h, hsent.named, hsent.exchangeId, hsent.symbol, hsent.side⟩
  exact (executeSubmitAction_ends live).mono (fun _ _ h => hsubmits h) (fun _ _ h => hsubmits h)

end Submissions

section Executions

/-- What is submitted is as one of the actions says. -/
def SubmitOf (actions : List LifecycleAction) (action : LifecycleAction) : Prop :=
  ∃ source ∈ actions, source.actionType = .submit ∧ action.clientOrderId = source.clientOrderId ∧
    action.symbol = source.symbol ∧ action.side = source.side

variable {env : Env} {settings : Settings} {actions : List LifecycleAction}

theorem bucketOf_cancel {key : String × String} {action : LifecycleAction}
    (h : action ∈ (bucketOf actions key).cancel) : action ∈ actions :=
  (List.mem_filter.mp (List.mem_filter.mp h).1).1

theorem bucketOf_submit {key : String × String} {action : LifecycleAction}
    (h : action ∈ (bucketOf actions key).submit) :
    action ∈ actions ∧ action.actionType = .submit := by
  obtain ⟨hown, hsubmit⟩ := List.mem_filter.mp h
  rw [isReplaceSubmit, Bool.and_eq_true, decide_eq_true_eq] at hsubmit
  exact ⟨(List.mem_filter.mp hown).1, hsubmit.1⟩

/-- The new order of a group is one of its submits. -/
theorem groups_submit {group : ReplaceGroup} (h : group ∈ (extractReplaceGroups actions).2) :
    group.submitAction ∈ actions ∧ group.submitAction.actionType = .submit := by
  obtain ⟨key, -, hgroup⟩ := List.mem_filterMap.mp h
  unfold Bucket.group at hgroup
  split at hgroup
  · next selected _ hlast =>
    cases hgroup
    exact bucketOf_submit (List.mem_of_getLast? hlast)
  · cases hgroup

theorem regular_mem {action : LifecycleAction} (h : action ∈ (extractReplaceGroups actions).1) :
    action ∈ actions := by
  obtain ⟨key, -, hregular⟩ := List.mem_flatMap.mp h
  unfold Bucket.regular at hregular
  rcases List.mem_append.mp hregular with hother | hrest
  · exact (List.mem_filter.mp (List.mem_filter.mp hother).1).1
  · split at hrest
    · cases hrest
    · rcases List.mem_append.mp hrest with hcancel | hsubmit
      · exact bucketOf_cancel hcancel
      · exact (bucketOf_submit hsubmit).1

theorem gatedActions_regular {freezeActive : Bool} {action : LifecycleAction}
    (h : action ∈ (gatedActions settings freezeActive actions).1) : action ∈ actions := by
  have hgate (freezeAll : Bool) (left : List LifecycleAction × List ReplaceGroup)
      (hin : action ∈ (gateActions freezeAll left).1) : action ∈ left.1 :=
    (List.mem_filter.mp hin).1
  unfold gatedActions at h
  dsimp only at h
  split at h
  · have h' := hgate _ _ h
    split at h'
    · exact regular_mem (hgate _ _ h')
    · exact regular_mem h'
  · split at h
    · exact regular_mem (hgate _ _ h)
    · exact regular_mem h

theorem otherSteps_submitsOnly {P : LifecycleAction → Prop} : OtherSteps (SubmitsOnly env P) where
  openOrders w symbol answer := by
    refine ⟨_, rfl, fun entry hentry replaces clientOrderId order _ hcall => ?_⟩
    cases List.mem_singleton.mp hentry
    cases hcall
  replaceTxs _ _ _ := submitsOnly_same rfl

theorem submitsOnly_regular {live : Bool} {action : LifecycleAction} (totals : Totals)
    (h : action ∈ actions) :
    Keeps (SubmitsOnly env (SubmitOf actions))
      (executeRegular env settings live totals action) := by
  unfold executeRegular
  cases htype : action.actionType with
  | cancel => exact (submitsOnly_cancel action live).bind fun _ => Keeps.pure _
  | submit =>
    exact (submitsOnly_submit ⟨action, h, htype, rfl, rfl, rfl⟩).bind fun _ => Keeps.pure _
  | replace => exact Keeps.pure _

theorem submitsOnly_group {gated live : Bool} {group : ReplaceGroup} (totals : Totals)
    (h : group ∈ (extractReplaceGroups actions).2) :
    Keeps (SubmitsOnly env (SubmitOf actions))
      (executeGroup env settings gated live totals group) := by
  obtain ⟨hmem, htype⟩ := groups_submit h
  refine Keeps.ite ?_ ?_
  · exact (cancelAll_keeps fun _ _ => submitsOnly_cancel _ _).bind fun _ => Keeps.pure _
  · refine Keeps.bind ?_ fun _ => Keeps.pure _
    exact executeReplaceGroup_keeps (Absorbs.self _) otherSteps_submitsOnly
      (fun _ _ => submitsOnly_cancel _ _)
      fun _ => submitsOnly_submit ⟨group.submitAction, hmem, htype, rfl, rfl, rfl⟩

/-- An execution submits its submit actions, on their own or for a group, and nothing else. -/
theorem submitsOnly_execution (actions : List LifecycleAction) :
    Keeps (SubmitsOnly env (SubmitOf actions)) (executeWithReport env settings actions) := by
  refine (Keeps.throw _).ite (Keeps.get.bind fun w => ?_)
  refine (Keeps.foldlM_mem _ (fun action haction totals =>
    submitsOnly_regular totals (gatedActions_regular haction)) _).bind fun totals => ?_
  exact Keeps.foldlM_mem _ (fun group hgroup totals =>
    submitsOnly_group totals (Stage4Replace.gatedActions_groups hgroup)) _

/-- An execution of nothing calls nothing. -/
theorem executed_nothing (w : World) :
    (outcome (executeWithReport env settings []) w).2.calls = w.calls := by
  have hnone (freezeActive : Bool) : gatedActions settings freezeActive [] = ([], []) := by
    unfold gatedActions gateActions
    cases settings.killSwitchActive <;> cases freezeActive <;> rfl
  have hcalls : Keeps (fun w t : World => t.calls = w.calls)
      (executeWithReport env settings []) := by
    intro w
    unfold executeWithReport
    rw [ends_ite]
    split
    · rfl
    · rw [ends_bind, ends_get]
      simp only [hnone, List.foldlM_nil]
      rfl
  exact ends_outcome hcalls w

end Executions

section Cycles

open CycleGate (Gate Stopped Unhindered From isCancel isSellSubmit runOneCycle)
open RiskBudget (Event heldEquities)
open Degrade (DegradeInput)

/-- The world after a cycle has executed its actions; a cycle that raised executes none. -/
def executeCycle (env : Env) (settings : Settings) (world : World)
    (executed : Except String (List RiskPolicy.LifecycleAction)) : World :=
  match executed with
  | .ok actions =>
    (outcome (executeWithReport env settings (actions.map (·.toLifecycleAction))) world).2
  | .error _ => world

variable (settings : RiskBudget.Settings) (policy : RiskBudget.SelfFinancingPolicy)
  (deviation : List ℚ → ℚ)

variable {settings policy deviation} {start : RiskBudget.World} {events : List Event}
  {call : RiskBudget.Call} {input : DegradeInput} {gate : Gate}
  {accepted : List RiskPolicy.LifecycleAction} {env : Env} {execution : Settings} {world : World}

theorem executeCycle_stopped (hforce : gate.forceDryRunSubmit = false)
    (hstopped : Stopped (heldEquities start events) call input) :
    (executeCycle env execution world (runOneCycle settings policy deviation
      (RiskBudget.run settings policy deviation start events) call input gate accepted)).calls =
      world.calls := by
  rw [CycleGate.executed_stopped settings policy deviation hforce hstopped]
  exact executed_nothing world

theorem executeCycle_made (hforce : gate.forceDryRunSubmit = false) :
    ∃ made, (executeCycle env execution world (runOneCycle settings policy deviation
        (RiskBudget.run settings policy deviation start events) call input gate accepted)).calls =
        world.calls ++ made ∧
      ∀ entry ∈ made, ∀ replaces clientOrderId order answer,
        entry.call = .submit replaces clientOrderId order answer →
          ∃ source ∈ accepted, source.actionType = .submit ∧
            Names env source.toLifecycleAction clientOrderId order ∧
            (¬ Unhindered (heldEquities start events) call input gate →
              isSellSubmit source = true) := by
  cases hexecuted : runOneCycle settings policy deviation
    (RiskBudget.run settings policy deviation start events) call input gate accepted with
  | error message => exact ⟨[], (List.append_nil _).symm, fun _ h => absurd h List.not_mem_nil⟩
  | ok actions =>
    obtain ⟨made, hmade, hof⟩ := ends_outcome
      (@submitsOnly_execution env execution (actions.map (·.toLifecycleAction))) world
    refine ⟨made, hmade, ?_⟩
    intro entry hentry replaces clientOrderId order answer hcall
    obtain ⟨sent, ⟨source, hsource, htype, hid, hsymbol, hside⟩, hnames⟩ :=
      hof entry hentry replaces clientOrderId order answer hcall
    obtain ⟨action, haction, rfl⟩ := List.mem_map.mp hsource
    obtain ⟨older, holder, price, qty, rfl⟩ := CycleGate.executed_from hexecuted action haction
    refine ⟨older, holder, htype, ⟨hid ▸ hnames.named, ?_, hnames.symbol.trans hsymbol,
      hnames.side.trans hside⟩, fun hhindered => ?_⟩
    · rw [hnames.exchangeId, hsymbol, hside]
    · by_contra hsell
      refine hhindered (CycleGate.executed_opens settings policy deviation hforce hexecuted
        haction ?_ (Bool.not_eq_true _ ▸ hsell))
      rw [isCancel, decide_eq_false_iff_not, htype]
      decide

/-- What a cycle submits is a submit action that was accepted, and a sell when the cycle is
hindered; a stopped cycle makes no call at all. -/
theorem cycle_submits (settings : RiskBudget.Settings) (policy : RiskBudget.SelfFinancingPolicy)
    (deviation : List ℚ → ℚ) (start : RiskBudget.World) (events : List Event)
    (call : RiskBudget.Call) (input : DegradeInput) (gate : Gate)
    (hforce : gate.forceDryRunSubmit = false) (accepted : List RiskPolicy.LifecycleAction)
    (env : Env) (execution : Settings) (world : World) :
    let after := executeCycle env execution world (runOneCycle settings policy deviation
      (RiskBudget.run settings policy deviation start events) call input gate accepted)
    (Stopped (heldEquities start events) call input → after.calls = world.calls) ∧
      ∃ made, after.calls = world.calls ++ made ∧
        ∀ entry ∈ made, ∀ replaces clientOrderId order answer,
          entry.call = .submit replaces clientOrderId order answer →
            ∃ source ∈ accepted, source.actionType = .submit ∧
              Names env source.toLifecycleAction clientOrderId order ∧
              (¬ Unhindered (heldEquities start events) call input gate →
                isSellSubmit source = true) :=
  ⟨executeCycle_stopped hforce, executeCycle_made hforce⟩

/-- Warnings enough to open nothing more. -/
def warnedDegrade : DegradeInput :=
  { CycleGate.sampleDegrade with recentWarnCount := 3, recentWarnCodes := [.staleMarketData] }

def sampleSubmit (side clientOrderId : String) : RiskPolicy.LifecycleAction where
  actionType := .submit
  symbol := "BTCTRY"
  side := side
  price := 100
  qty := 1
  reason := "signal"
  clientOrderId := some clientOrderId

/-- Of a buy and a sell that were accepted only the sell is submitted. -/
theorem warned_cycle_submits :
    let after := executeCycle (sampleEnv (.ok "ex") (.ok true)) sampleSettings (sampleWorld [])
      (runOneCycle {} {} (fun _ => 0) (RiskBudget.run {} {} (fun _ => 0) {} [])
        (RiskBudget.sampleCall 1000) warnedDegrade CycleGate.sampleGate
        [sampleSubmit "BUY" "b", sampleSubmit "SELL" "s"])
    ∃ made, after.calls = [] ++ made ∧
      ∀ entry ∈ made, ∀ replaces clientOrderId order answer,
        entry.call = .submit replaces clientOrderId order answer →
          clientOrderId = "s" ∧ order.side = "SELL" := by
  obtain ⟨made, hmade, hof⟩ := (cycle_submits {} {} (fun _ => 0) {} []
    (RiskBudget.sampleCall 1000) warnedDegrade CycleGate.sampleGate rfl
    [sampleSubmit "BUY" "b", sampleSubmit "SELL" "s"] (sampleEnv (.ok "ex") (.ok true))
    sampleSettings (sampleWorld [])).2
  refine ⟨made, hmade, fun entry hentry replaces clientOrderId order answer hcall => ?_⟩
  obtain ⟨source, hsource, -, hnames, hsell⟩ :=
    hof entry hentry replaces clientOrderId order answer hcall
  have hwarned : (Degrade.decideDegrade warnedDegrade).modeOverride ≠ none := by decide
  have hselling := hsell fun hfree => hwarned hfree.degrade
  rcases List.mem_cons.mp hsource with rfl | hsource
  · exact absurd hselling (by decide +kernel)
  · obtain rfl := List.mem_singleton.mp hsource
    exact ⟨(Option.some.inj hnames.named).symm, hnames.side⟩

end Cycles

end CycleExecution
