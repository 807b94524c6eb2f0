import Btcbot.Runs
import Btcbot.Stage4Execute
import Mathlib.Tactic.Linarith

/-!
# The stage 4 risk filter

Lifecycle actions are judged in turn against two running projections, the open orders
and the notional of the position. A SELL that is rejected for its price leaves its
deduction in the second one, so that later BUYs may pass a cap they do not meet.
-/
namespace RiskPolicy

open PyData (Dict)
open Stage4Execute (LifecycleActionType)

structure LifecycleAction extends Stage4Execute.LifecycleAction where
  replaceForClientOrderId : Option String := none
  deriving DecidableEq, Repr

structure Order where
  price : ℚ
  qty : ℚ
  deriving DecidableEq, Repr

structure Position where
  qty : ℚ
  avgCostTry : ℚ
  deriving DecidableEq, Repr

structure PnLSnapshot where
  realizedTodayTry : ℚ
  drawdownPct : ℚ
  deriving DecidableEq, Repr

structure Policy where
  maxOpenOrders : ℤ
  maxOrderNotionalTry : ℚ
  maxPositionNotionalTry : ℚ
  maxDailyLossTry : ℚ
  maxDrawdownPct : ℚ
  feeBpsTaker : ℚ
  slippageBpsBuffer : ℚ
  minProfitBps : ℚ
  replaceInflightBudgetPerSymbolTry : ℚ
  maxGrossExposureTry : ℚ
  deriving DecidableEq, Repr

/-- Limits that are not given take the position limit. -/
def Policy.init (maxOpenOrders : ℤ) (maxOrderNotionalTry : Option ℚ)
    (maxPositionNotionalTry maxDailyLossTry maxDrawdownPct feeBpsTaker slippageBpsBuffer
      minProfitBps : ℚ)
    (replaceInflightBudgetPerSymbolTry maxGrossExposureTry : Option ℚ) : Policy where
  maxOpenOrders := maxOpenOrders
  maxOrderNotionalTry := maxOrderNotionalTry.getD maxPositionNotionalTry
  maxPositionNotionalTry := maxPositionNotionalTry
  maxDailyLossTry := maxDailyLossTry
  maxDrawdownPct := maxDrawdownPct
  feeBpsTaker := feeBpsTaker
  slippageBpsBuffer := slippageBpsBuffer
  minProfitBps := minProfitBps
  replaceInflightBudgetPerSymbolTry :=
    replaceInflightBudgetPerSymbolTry.getD maxPositionNotionalTry
  maxGrossExposureTry := maxGrossExposureTry.getD maxPositionNotionalTry

/-- What the filter reads besides the actions. -/
structure Context where
  openOrdersCount : ℤ
  currentPositionNotionalTry : ℚ
  pnl : PnLSnapshot
  positionsBySymbol : Dict Position
  openOrdersByClientId : Dict Order := ∅

inductive Reason where
  | accepted
  | maxDailyLoss
  | maxDrawdown
  | maxOpenOrders
  | maxOrderNotionalTry
  | replaceWorstCaseExposureBlocked
  | maxPositionNotionalTry
  | minProfitThreshold
  deriving DecidableEq, Repr

def Reason.text : Reason → String
  | .accepted => "accepted"
  | .maxDailyLoss => "max_daily_loss"
  | .maxDrawdown => "max_drawdown"
  | .maxOpenOrders => "max_open_orders"
  | .maxOrderNotionalTry => "max_order_notional_try"
  | .replaceWorstCaseExposureBlocked => "replace_worst_case_exposure_blocked"
  | .maxPositionNotionalTry => "max_position_notional_try"
  | .minProfitThreshold => "min_profit_threshold"

structure RiskDecision where
  action : LifecycleAction
  accepted : Bool
  reason : Reason
  deriving DecidableEq, Repr

structure Projection where
  openOrders : ℤ
  positionNotional : ℚ
  deriving DecidableEq, Repr

def LifecycleAction.notional (action : LifecycleAction) : ℚ := action.price * action.qty

def LifecycleAction.isBuy (action : LifecycleAction) : Bool := action.side.toLower = "buy"

def LifecycleAction.isReplaceSubmit (action : LifecycleAction) : Bool :=
  action.reason = "replace_submit" || action.replaceForClientOrderId.isSome

section Filter

variable (policy : Policy) (context : Context)

/-- What the replaced order still binds; an empty id names no order. -/
def oldNotional (action : LifecycleAction) : ℚ :=
  match action.replaceForClientOrderId with
  | some clientOrderId =>
    if clientOrderId = "" then 0
    else (context.openOrdersByClientId[clientOrderId]?.map fun old => old.price * old.qty).getD 0
  | none => 0

def replaceBlocked (positionNotional : ℚ) (action : LifecycleAction) : Bool :=
  action.isReplaceSubmit &&
    (decide (oldNotional context action + action.notional >
        policy.replaceInflightBudgetPerSymbolTry) ||
      decide (positionNotional + oldNotional context action + action.notional >
        policy.maxGrossExposureTry))

def minRequiredBps : ℚ := policy.feeBpsTaker + policy.slippageBpsBuffer + policy.minProfitBps

def belowMinProfit (action : LifecycleAction) : Bool :=
  match context.positionsBySymbol[action.symbol]? with
  | some position =>
    decide (position.qty > 0) &&
      decide (action.price < position.avgCostTry * (1 + minRequiredBps policy / 10000))
  | none => false

def judgeBuy (projected : Projection) (action : LifecycleAction) : Projection × Reason :=
  if replaceBlocked policy context projected.positionNotional action then
    ({ projected with openOrders := projected.openOrders - 1 }, .replaceWorstCaseExposureBlocked)
  else
    let bumped := { projected with
      positionNotional := projected.positionNotional + action.notional }
    if bumped.positionNotional > policy.maxPositionNotionalTry then
      ({ openOrders := bumped.openOrders - 1
         positionNotional := bumped.positionNotional - action.notional }, .maxPositionNotionalTry)
    else (bumped, .accepted)

/-- The rejection takes the open order back, but not the deduction. -/
def judgeSell (projected : Projection) (action : LifecycleAction) : Projection × Reason :=
  let lowered := { projected with
    positionNotional := max 0 (projected.positionNotional - action.notional) }
  if belowMinProfit policy context action then
    ({ lowered with openOrders := lowered.openOrders - 1 }, .minProfitThreshold)
  else (lowered, .accepted)

def judgeSubmit (projected : Projection) (action : LifecycleAction) : Projection × Reason :=
  let bumped := { projected with openOrders := projected.openOrders + 1 }
  if bumped.openOrders > policy.maxOpenOrders then
    ({ bumped with openOrders := bumped.openOrders - 1 }, .maxOpenOrders)
  else if action.notional > policy.maxOrderNotionalTry then
    ({ bumped with openOrders := bumped.openOrders - 1 }, .maxOrderNotionalTry)
  else if action.isBuy then judgeBuy policy context bumped action
  else judgeSell policy context bumped action

def judge (projected : Projection) (action : LifecycleAction) : Projection × Reason :=
  match action.actionType with
  | .cancel => ({ projected with openOrders := max 0 (projected.openOrders - 1) }, .accepted)
  | .replace => (projected, .accepted)
  | .submit => judgeSubmit policy context projected action

def filterFrom (projected : Projection) :
    List LifecycleAction → List LifecycleAction × List RiskDecision
  | [] => ([], [])
  | action :: actions =>
    let (next, reason) := judge policy context projected action
    let rest := filterFrom next actions
    (if reason = .accepted then action :: rest.1 else rest.1,
      ⟨action, reason = .accepted, reason⟩ :: rest.2)

/-- The loss and the drawdown at which every action is turned down. -/
def stopReason : Option Reason :=
  if context.pnl.realizedTodayTry ≤ policy.maxDailyLossTry * -1 then some .maxDailyLoss
  else if context.pnl.drawdownPct ≥ policy.maxDrawdownPct then some .maxDrawdown
  else none

def start : Projection := ⟨context.openOrdersCount, context.currentPositionNotionalTry⟩

def filterActions (actions : List LifecycleAction) :
    List LifecycleAction × List RiskDecision :=
  match stopReason policy context with
  | some reason => ([], actions.map fun action => ⟨action, false, reason⟩)
  | none => filterFrom policy context (start context) actions

/-- The position an accepted action leaves, never below 0. -/
def positionAfter (positionNotional : ℚ) (action : LifecycleAction) : ℚ :=
  match action.actionType with
  | .submit =>
    if action.isBuy then positionNotional + action.notional
    else max 0 (positionNotional - action.notional)
  | _ => positionNotional

def openOrdersAfter (openOrders : ℤ) (action : LifecycleAction) : ℤ :=
  match action.actionType with
  | .submit => openOrders + 1
  | .cancel => max 0 (openOrders - 1)
  | .replace => openOrders

/-- What an action has to meet against the projections it finds. -/
def Passes (projected : Projection) (action : LifecycleAction) : Prop :=
  action.actionType = .submit →
    projected.openOrders + 1 ≤ policy.maxOpenOrders ∧
    action.notional ≤ policy.maxOrderNotionalTry ∧
    (action.isBuy → ¬ replaceBlocked policy context projected.positionNotional action ∧
      projected.positionNotional + action.notional ≤ policy.maxPositionNotionalTry) ∧
    (¬ action.isBuy → ¬ belowMinProfit policy context action)

/-- A SELL that is turned down for its price alone. -/
def Leaks (openOrders : ℤ) (action : LifecycleAction) : Prop :=
  action.actionType = .submit ∧ openOrders + 1 ≤ policy.maxOpenOrders ∧
    action.notional ≤ policy.maxOrderNotionalTry ∧ ¬ action.isBuy ∧
    belowMinProfit policy context action

instance (openOrders : ℤ) (action : LifecycleAction) :
    Decidable (Leaks policy context openOrders action) := by
  unfold Leaks
  infer_instance

/-- All that judging one action can do. -/
theorem judge_spec (projected : Projection) (action : LifecycleAction) :
    (Passes policy context projected action ∧ judge policy context projected action =
      (⟨openOrdersAfter projected.openOrders action,
        positionAfter projected.positionNotional action⟩, .accepted)) ∨
    (¬ Passes policy context projected action ∧ ∃ reason, reason ≠ .accepted ∧
      judge policy context projected action = (⟨projected.openOrders,
        if Leaks policy context projected.openOrders action then
          max 0 (projected.positionNotional - action.notional)
        else projected.positionNotional⟩, reason)) := by
  obtain ⟨openOrders, positionNotional⟩ := projected
  cases htype : action.actionType with
  | cancel => simp [judge, Passes, openOrdersAfter, positionAfter, htype]
  | replace => simp [judge, Passes, openOrdersAfter, positionAfter, htype]
  | submit =>
    by_cases hopen : policy.maxOpenOrders < openOrders + 1
    · simp [judge, judgeSubmit, Passes, Leaks, htype, hopen, not_le.mpr hopen]
    · by_cases horder : policy.maxOrderNotionalTry < action.notional
      · simp [judge, judgeSubmit, Passes, Leaks, htype, hopen, horder, not_le.mpr horder]
      · have hlimits := And.intro (not_lt.mp hopen) (not_lt.mp horder)
        cases hbuy : action.isBuy with
        | true =>
          cases hblocked : replaceBlocked policy context positionNotional action with
          | true =>
            simp [judge, judgeSubmit, judgeBuy, Passes, Leaks, htype, hopen, horder, hbuy,
              hblocked]
          | false =>
            by_cases hcap : policy.maxPositionNotionalTry < positionNotional + action.notional
            · simp [judge, judgeSubmit, judgeBuy, Passes, Leaks, htype, hopen, horder, hbuy,
                hblocked, hcap, not_le.mpr hcap]
            · simp [judge, judgeSubmit, judgeBuy, Passes, openOrdersAfter, positionAfter, htype,
                hopen, horder, hbuy, hblocked, hcap, hlimits, not_lt.mp hcap]
        | false =>
          cases hprofit : belowMinProfit policy context action with
          | true =>
            simp [judge, judgeSubmit, judgeSell, Passes, Leaks, htype, hopen, horder, hbuy,
              hprofit, hlimits]
          | false =>
            simp [judge, judgeSubmit, judgeSell, Passes, openOrdersAfter, positionAfter, htype,
              hopen, horder, hbuy, hprofit, hlimits]

theorem accepted_iff (projected : Projection) (action : LifecycleAction) :
    (judge policy context projected action).2 = .accepted ↔
      Passes policy context projected action := by
  rcases judge_spec policy context projected action with ⟨hpass, hjudge⟩ | ⟨hfail, reason, hne, hjudge⟩
  · simp [hjudge, hpass]
  · simp [hjudge, hfail, hne]

theorem judge_passed {projected : Projection} {action : LifecycleAction}
    (h : Passes policy context projected action) :
    judge policy context projected action = (⟨openOrdersAfter projected.openOrders action,
      positionAfter projected.positionNotional action⟩, .accepted) := by
  rcases judge_spec policy context projected action with ⟨-, hjudge⟩ | ⟨hfail, -⟩
  · exact hjudge
  · exact absurd h hfail

theorem judge_failed {projected : Projection} {action : LifecycleAction}
    (h : ¬ Passes policy context projected action) :
    (judge policy context projected action).1 = ⟨projected.openOrders,
      if Leaks policy context projected.openOrders action then
        max 0 (projected.positionNotional - action.notional)
      else projected.positionNotional⟩ := by
  rcases judge_spec policy context projected action with ⟨hpass, -⟩ | ⟨-, reason, -, hjudge⟩
  · exact absurd hpass h
  · rw [hjudge]

theorem filterFrom_passed {projected : Projection} {action : LifecycleAction}
    (h : Passes policy context projected action) (actions : List LifecycleAction) :
    filterFrom policy context projected (action :: actions) =
      (action :: (filterFrom policy context ⟨openOrdersAfter projected.openOrders action,
        positionAfter projected.positionNotional action⟩ actions).1,
      ⟨action, true, .accepted⟩ :: (filterFrom policy context
        ⟨openOrdersAfter projected.openOrders action,
          positionAfter projected.positionNotional action⟩ actions).2) := by
  simp [filterFrom, judge_passed policy context h]

theorem filterFrom_failed {projected : Projection} {action : LifecycleAction}
    (h : ¬ Passes policy context projected action) (actions : List LifecycleAction) :
    filterFrom policy context projected (action :: actions) =
      ((filterFrom policy context (judge policy context projected action).1 actions).1,
        ⟨action, false, (judge policy context projected action).2⟩ ::
          (filterFrom policy context (judge policy context projected action).1 actions).2) := by
  have hreason : (judge policy context projected action).2 ≠ .accepted :=
    mt (accepted_iff policy context projected action).mp h
  simp [filterFrom, hreason]

theorem filterFrom_length (projected : Projection) (actions : List LifecycleAction) :
    (filterFrom policy context projected actions).1.length ≤ actions.length := by
  induction actions generalizing projected with
  | nil => exact le_refl _
  | cons action actions ih =>
    by_cases hpass : Passes policy context projected action
    · rw [filterFrom_passed policy context hpass]
      exact Nat.succ_le_succ (ih _)
    · rw [filterFrom_failed policy context hpass]
      exact (ih _).trans (Nat.le_succ _)

theorem first_passes {projected : Projection} {first : LifecycleAction}
    {rest : List LifecycleAction}
    (h : (filterFrom policy context projected (first :: rest)).1 = first :: rest) :
    Passes policy context projected first := by
  by_contra hfail
  rw [filterFrom_failed policy context hfail] at h
  have hshort := filterFrom_length policy context (judge policy context projected first).1 rest
  have hlength : (filterFrom policy context (judge policy context projected first).1 rest).1.length =
      (first :: rest).length := congrArg List.length h
  rw [List.length_cons] at hlength
  omega

/-- The filter's projections beside the notional that the accepted actions leave. -/
def track (s : Projection × ℚ) (action : LifecycleAction) : Projection × ℚ :=
  let (next, reason) := judge policy context s.1 action
  (next, if reason = .accepted then positionAfter s.2 action else s.2)

/-- What passes also passes with the rejected SELLs' deductions put back. -/
def PassesKept (s : Projection × ℚ) (action : LifecycleAction) : Prop :=
  Passes policy context s.1 action →
    Passes policy context { s.1 with positionNotional := s.2 } action

theorem track_passed {s : Projection × ℚ} {action : LifecycleAction}
    (h : Passes policy context s.1 action) : track policy context s action =
      (⟨openOrdersAfter s.1.openOrders action, positionAfter s.1.positionNotional action⟩,
        positionAfter s.2 action) := by
  simp [track, judge_passed policy context h]

theorem track_failed {s : Projection × ℚ} {action : LifecycleAction}
    (h : ¬ Passes policy context s.1 action) : track policy context s action =
      ((judge policy context s.1 action).1, s.2) := by
  have hreason : (judge policy context s.1 action).2 ≠ .accepted :=
    mt (accepted_iff policy context s.1 action).mp h
  simp [track, hreason]

/-- A second pass accepts all of the first one's exactly if all of them pass with what
rejected SELLs took put back. -/
theorem refilter_iff (projected : Projection) (kept : ℚ) (actions : List LifecycleAction) :
    (filterFrom policy context { projected with positionNotional := kept }
        (filterFrom policy context projected actions).1).1 =
      (filterFrom policy context projected actions).1 ↔
    Runs.Meets (track policy context) (PassesKept policy context) (projected, kept) actions := by
  induction actions generalizing projected kept with
  | nil => exact iff_of_true rfl trivial
  | cons action actions ih =>
    rw [Runs.Meets]
    by_cases hpass : Passes policy context projected action
    · rw [filterFrom_passed policy context hpass, track_passed policy context hpass]
      by_cases hkept : Passes policy context { projected with positionNotional := kept } action
      · have hrest := ih ⟨openOrdersAfter projected.openOrders action,
          positionAfter projected.positionNotional action⟩ (positionAfter kept action)
        have hheld : PassesKept policy context (projected, kept) action := fun _ => hkept
        rw [filterFrom_passed policy context hkept]
        simp only [List.cons.injEq, true_and, hrest, hheld]
      · exact iff_of_false (fun heq => hkept (first_passes policy context heq))
          fun h => hkept (h.1 hpass)
    · have hopen : (judge policy context projected action).1.openOrders = projected.openOrders := by
        rw [judge_failed policy context hpass]
      have hheld : PassesKept policy context (projected, kept) action := fun h => absurd h hpass
      have hrest := ih (judge policy context projected action).1 kept
      rw [hopen] at hrest
      rw [filterFrom_failed policy context hpass, track_failed policy context hpass, hrest,
        and_iff_right hheld]

/-- The position within its cap at every BUY of a list that is accepted as a whole. -/
theorem buy_within {projected : Projection} {before after : List LifecycleAction}
    {action : LifecycleAction}
    (hall : (filterFrom policy context projected (before ++ action :: after)).1 =
      before ++ action :: after)
    (htype : action.actionType = .submit) (hbuy : action.isBuy) :
    (before ++ [action]).foldl positionAfter projected.positionNotional ≤
      policy.maxPositionNotionalTry := by
  induction before generalizing projected with
  | nil =>
    have hpass := (first_passes policy context hall htype).2.2.1 hbuy
    simpa [positionAfter, htype, hbuy] using hpass.2
  | cons first before ih =>
    have hpass := first_passes policy context hall
    rw [List.cons_append, filterFrom_passed policy context hpass, List.cons.injEq] at hall
    exact ih hall.2

/-- What passes with a position passes with a smaller one. -/
theorem Passes.mono {openOrders : ℤ} {x y : ℚ} {action : LifecycleAction} (hxy : x ≤ y)
    (h : Passes policy context ⟨openOrders, y⟩ action) :
    Passes policy context ⟨openOrders, x⟩ action := by
  intro htype
  obtain ⟨hopen, horder, hbuys, hsells⟩ := h htype
  refine ⟨hopen, horder, fun hbuy => ?_, hsells⟩
  obtain ⟨hfree, hcap⟩ := hbuys hbuy
  have hcapped : x + action.notional ≤ policy.maxPositionNotionalTry := by
    dsimp only at hcap
    linarith only [hcap, hxy]
  refine ⟨fun hblocked => hfree ?_, hcapped⟩
  simp only [replaceBlocked, Bool.and_eq_true, Bool.or_eq_true, decide_eq_true_eq] at hblocked ⊢
  refine ⟨hblocked.1, hblocked.2.imp_right fun hgross => ?_⟩
  linarith only [hgross, hxy]

theorem positionAfter_mono {x y : ℚ} (hxy : x ≤ y) (action : LifecycleAction) :
    positionAfter x action ≤ positionAfter y action := by
  rw [positionAfter, positionAfter]
  split
  · split
    · exact add_le_add_left hxy _
    · exact max_le_max le_rfl (sub_le_sub_right hxy _)
  · exact hxy

theorem positionAfter_nonneg {x : ℚ} (hx : 0 ≤ x) {action : LifecycleAction}
    (hnotional : 0 ≤ action.notional) : 0 ≤ positionAfter x action := by
  rw [positionAfter]
  split
  · split
    · exact add_nonneg hx hnotional
    · exact le_max_left 0 _
  · exact hx

/-- A rejected action lowers the projected position, if it changes anything. -/
theorem failed_lowers {projected : Projection} {action : LifecycleAction}
    (hposition : 0 ≤ projected.positionNotional) (hnotional : 0 ≤ action.notional)
    (h : ¬ Passes policy context projected action) :
    (judge policy context projected action).1.openOrders = projected.openOrders ∧
      0 ≤ (judge policy context projected action).1.positionNotional ∧
      (judge policy context projected action).1.positionNotional ≤ projected.positionNotional := by
  rw [judge_failed policy context h]
  split
  · exact ⟨rfl, le_max_left 0 _, max_le hposition (sub_le_self _ hnotional)⟩
  · exact ⟨rfl, hposition, le_rfl⟩

def flags (decisions : List RiskDecision) : List Bool := decisions.map RiskDecision.accepted

/-- Between the projected position and the kept one every position gets the same verdicts. -/
theorem flags_between {openOrders : ℤ} {x y kept : ℚ} (actions : List LifecycleAction)
    (hx : 0 ≤ x) (hxy : x ≤ y) (hy : y ≤ kept) (hnotional : ∀ a ∈ actions, 0 ≤ a.notional)
    (hkept : Runs.Meets (track policy context) (PassesKept policy context)
      (⟨openOrders, x⟩, kept) actions) :
    flags (filterFrom policy context ⟨openOrders, x⟩ actions).2 =
      flags (filterFrom policy context ⟨openOrders, y⟩ actions).2 := by
  induction actions generalizing openOrders x y kept with
  | nil => rfl
  | cons action actions ih =>
    obtain ⟨hfirst, hrest⟩ := hkept
    have hthis := hnotional action List.mem_cons_self
    have hlater (a : LifecycleAction) (ha : a ∈ actions) := hnotional a (List.mem_cons_of_mem _ ha)
    by_cases hpass : Passes policy context ⟨openOrders, x⟩ action
    · have hpass' : Passes policy context ⟨openOrders, y⟩ action :=
        (hfirst hpass).mono policy context hy
      rw [track_passed policy context hpass] at hrest
      rw [filterFrom_passed policy context hpass, filterFrom_passed policy context hpass']
      exact congrArg (true :: ·) (ih (positionAfter_nonneg hx hthis) (positionAfter_mono hxy action)
        (positionAfter_mono hy action) hlater hrest)
    · have hfail' : ¬ Passes policy context ⟨openOrders, y⟩ action := fun h =>
        hpass (h.mono policy context hxy)
      rw [track_failed policy context hpass, judge_failed policy context hpass] at hrest
      rw [filterFrom_failed policy context hpass, filterFrom_failed policy context hfail',
        judge_failed policy context hpass, judge_failed policy context hfail']
      refine congrArg (false :: ·) (ih ?_ ?_ ?_ hlater hrest)
      · split
        · exact le_max_left 0 _
        · exact hx
      · split
        · exact max_le_max le_rfl (sub_le_sub_right hxy _)
        · exact hxy
      · split
        · exact (max_le (hx.trans hxy) (sub_le_self _ hthis)).trans hy
        · exact hy

/-- Leaving a rejected action out leaves the verdicts of the others. -/
theorem rejected_inert {projected : Projection} {kept : ℚ} (before after : List LifecycleAction)
    (action : LifecycleAction) (hposition : 0 ≤ projected.positionNotional)
    (hle : projected.positionNotional ≤ kept)
    (hnotional : ∀ a ∈ before ++ action :: after, 0 ≤ a.notional)
    (hkept : Runs.Meets (track policy context) (PassesKept policy context) (projected, kept)
      (before ++ action :: after))
    (hrejected : (flags (filterFrom policy context projected
      (before ++ action :: after)).2)[before.length]? = some false) :
    flags (filterFrom policy context projected (before ++ after)).2 =
      (flags (filterFrom policy context projected
        (before ++ action :: after)).2).eraseIdx before.length := by
  induction before generalizing projected kept with
  | nil =>
    have hfail : ¬ Passes policy context projected action := by
      intro hpass
      rw [List.nil_append, filterFrom_passed policy context hpass] at hrejected
      cases hrejected
    obtain ⟨hopen, hnonneg, hlower⟩ := failed_lowers policy context hposition
      (hnotional action List.mem_cons_self) hfail
    obtain ⟨-, hrest⟩ := hkept
    rw [track_failed policy context hfail] at hrest
    have hsame : flags (filterFrom policy context (judge policy context projected action).1 after).2 =
        flags (filterFrom policy context ⟨(judge policy context projected action).1.openOrders,
          projected.positionNotional⟩ after).2 :=
      flags_between policy context after hnonneg hlower hle
        (fun a ha => hnotional a (List.mem_cons_of_mem _ ha)) hrest
    rw [hopen] at hsame
    rw [List.nil_append, List.nil_append, filterFrom_failed policy context hfail]
    exact hsame.symm
  | cons first before ih =>
    obtain ⟨-, hrest⟩ := hkept
    have hthis := hnotional first List.mem_cons_self
    have hlater (a : LifecycleAction) (ha : a ∈ before ++ action :: after) :=
      hnotional a (List.mem_cons_of_mem _ ha)
    by_cases hpass : Passes policy context projected first
    · rw [track_passed policy context hpass] at hrest
      rw [List.cons_append, filterFrom_passed policy context hpass] at hrejected
      rw [List.cons_append, List.cons_append, filterFrom_passed policy context hpass,
        filterFrom_passed policy context hpass]
      exact congrArg (true :: ·) (ih (positionAfter_nonneg hposition hthis)
        (positionAfter_mono hle first) hlater hrest hrejected)
    · obtain ⟨-, hnonneg, hlower⟩ := failed_lowers policy context hposition hthis hpass
      rw [track_failed policy context hpass] at hrest
      rw [List.cons_append, filterFrom_failed policy context hpass] at hrejected
      rw [List.cons_append, List.cons_append, filterFrom_failed policy context hpass,
        filterFrom_failed policy context hpass]
      exact congrArg (false :: ·) (ih hnonneg (hlower.trans hle) hlater hrest hrejected)

/-- The filter agrees with itself on its own accepted list. -/
structure SelfConsistent (actions : List LifecycleAction) : Prop where
  idempotent : (filterActions policy context (filterActions policy context actions).1).1 =
    (filterActions policy context actions).1
  inert : ∀ before action after, actions = before ++ action :: after →
    (flags (filterActions policy context actions).2)[before.length]? = some false →
    flags (filterActions policy context (before ++ after)).2 =
      (flags (filterActions policy context actions).2).eraseIdx before.length
  within : ∀ before action after,
    (filterActions policy context actions).1 = before ++ action :: after →
    action.actionType = .submit → action.isBuy →
    (before ++ [action]).foldl positionAfter context.currentPositionNotionalTry ≤
      policy.maxPositionNotionalTry

/-- It does so exactly if every BUY it accepts also passes the position caps with what
rejected SELLs took from the projection put back. -/
theorem self_consistent_iff (actions : List LifecycleAction)
    (hposition : 0 ≤ context.currentPositionNotionalTry)
    (hnotional : ∀ action ∈ actions, 0 ≤ action.price * action.qty) :
    SelfConsistent policy context actions ↔
      (stopReason policy context = none →
        Runs.Meets (track policy context) (PassesKept policy context)
          (start context, context.currentPositionNotionalTry) actions) := by
  cases hstop : stopReason policy context with
  | some reason =>
    refine iff_of_true ?_ (fun h => nomatch h)
    constructor
    · simp [filterActions, hstop]
    · intro before action after heq _
      subst heq
      simp [filterActions, hstop, flags, List.eraseIdx_append_of_length_le]
    · intro before action after heq
      simp [filterActions, hstop] at heq
  | none =>
    have hfilter (list : List LifecycleAction) : filterActions policy context list =
        filterFrom policy context (start context) list := by
      simp [filterActions, hstop]
    have hagain := refilter_iff policy context (start context)
      context.currentPositionNotionalTry actions
    constructor
    · intro h _
      have hidem := h.idempotent
      rw [hfilter, hfilter] at hidem
      exact hagain.mp hidem
    · intro hmeets
      have h := hmeets rfl
      have hidem := hagain.mpr h
      constructor
      · rw [hfilter, hfilter]
        exact hidem
      · intro before action after heq hrejected
        subst heq
        rw [hfilter] at hrejected ⊢
        rw [hfilter]
        exact rejected_inert policy context before after action hposition le_rfl hnotional h
          hrejected
      · intro before action after heq htype hbuy
        rw [hfilter] at heq
        have hall := hidem
        rw [heq] at hall
        exact buy_within policy context hall htype hbuy

end Filter

def tightPolicy : Policy := Policy.init 5 none 100 1000 50 10 10 20 none none

/-- Two pieces bought at 60 each, and orders to sell one for less and to buy another. -/
def heldAtCost : Context where
  openOrdersCount := 0
  currentPositionNotionalTry := 100
  pnl := ⟨0, 0⟩
  positionsBySymbol := (∅ : Dict Position).insert "BTCTRY" ⟨2, 60⟩

def submitOf (side : String) (price qty : ℚ) : LifecycleAction :=
  { actionType := .submit, symbol := "BTCTRY", side, price, qty, reason := "new_intent" }

def sellThenBuy : List LifecycleAction := [submitOf "sell" 50 1, submitOf "buy" 50 1]

/-- The BUY that the rejected SELL made room for is not accepted again. -/
theorem rejected_sell_makes_room : ¬ SelfConsistent tightPolicy heldAtCost sellThenBuy := by
  intro h
  have hagain : (filterActions tightPolicy heldAtCost
      (filterActions tightPolicy heldAtCost sellThenBuy).1).1 ≠
        (filterActions tightPolicy heldAtCost sellThenBuy).1 := by
    decide +kernel
  exact hagain h.idempotent

/-- A SELL that pays takes its notional off for good. -/
theorem self_consistent_profit :
    SelfConsistent tightPolicy heldAtCost [submitOf "sell" 70 1, submitOf "buy" 50 1] ↔
      (stopReason tightPolicy heldAtCost = none →
        Runs.Meets (track tightPolicy heldAtCost) (PassesKept tightPolicy heldAtCost)
          (start heldAtCost, 100) [submitOf "sell" 70 1, submitOf "buy" 50 1]) :=
  self_consistent_iff tightPolicy heldAtCost [submitOf "sell" 70 1, submitOf "buy" 50 1]
    (by decide) (by decide +kernel)

end RiskPolicy
