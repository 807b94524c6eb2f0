import Btcbot.RiskCooldown
import Btcbot.Stage4Execute

/-!
# The stage 7 action filter

Every action is judged against the positions the cycle started with; only the number of
submits is carried along. Positions move as accepted orders are executed, so that caps
judged on the first positions need not hold on the later ones.
-/
namespace RiskPolicyService

open PyData (Dict)
open Degrade (Mode)
open RiskCooldown (CycleRiskOutput)
open Stage4Execute (LifecycleAction LifecycleActionType)

inductive Reason where
  | accepted
  | submitDisabled
  | cancelDisabled
  | capMaxOrders
  | capMaxNotional
  | capMaxExposure
  | reduceOnlyBlocked
  deriving DecidableEq, Repr

def Reason.text : Reason → String
  | .accepted => "accepted"
  | .submitDisabled => "RISK_SUBMIT_DISABLED"
  | .cancelDisabled => "RISK_CANCEL_DISABLED"
  | .capMaxOrders => "RISK_CAP_MAX_ORDERS"
  | .capMaxNotional => "RISK_CAP_MAX_NOTIONAL"
  | .capMaxExposure => "RISK_CAP_MAX_EXPOSURE"
  | .reduceOnlyBlocked => "RISK_REDUCE_ONLY_BLOCKED"

structure RiskPolicyDecision where
  accepted : Bool
  reason : Reason
  action : LifecycleAction
  deriving DecidableEq, Repr

def signedQty (action : LifecycleAction) : ℚ :=
  if action.side.toUpper = "BUY" then action.qty else -action.qty

def isReduce (symbolPos : ℚ) (action : LifecycleAction) : Bool :=
  (action.side.toUpper = "SELL" && decide (symbolPos > 0)) ||
    (action.side.toUpper = "BUY" && decide (symbolPos < 0))

def exceedsExposure (cycleRisk : CycleRiskOutput) (symbolPos : ℚ) (action : LifecycleAction) :
    Bool :=
  decide (|symbolPos + signedQty action| * action.price > cycleRisk.maxSymbolExposureTry)

section Filter

variable (positionsBySymbol : Dict ℚ) (cycleRisk : CycleRiskOutput)

def symbolPos (symbol : String) : ℚ := positionsBySymbol[symbol]?.getD 0

/-- A submit that is turned down gives its place in the count back. -/
def judge (submitCount : ℤ) (action : LifecycleAction) : ℤ × Reason :=
  match action.actionType with
  | .cancel =>
    if not cycleRisk.allowCancel then (submitCount, .cancelDisabled) else (submitCount, .accepted)
  | .replace => (submitCount, .accepted)
  | .submit =>
    if not cycleRisk.allowSubmit then (submitCount, .submitDisabled)
    else if cycleRisk.mode = .reduceRiskOnly &&
        not (isReduce (symbolPos positionsBySymbol action.symbol) action) then
      (submitCount, .reduceOnlyBlocked)
    else
      let counted := submitCount + 1
      if counted > cycleRisk.maxOrdersPerCycle then (counted - 1, .capMaxOrders)
      else if action.price * action.qty > cycleRisk.maxOrderNotionalTry then
        (counted - 1, .capMaxNotional)
      else if exceedsExposure cycleRisk (symbolPos positionsBySymbol action.symbol) action then
        (counted - 1, .capMaxExposure)
      else (counted, .accepted)

def filterFrom (submitCount : ℤ) :
    List LifecycleAction → List LifecycleAction × List RiskPolicyDecision
  | [] => ([], [])
  | action :: actions =>
    let (next, reason) := judge positionsBySymbol cycleRisk submitCount action
    let rest := filterFrom next actions
    (if reason = .accepted then action :: rest.1 else rest.1,
      ⟨reason = .accepted, reason, action⟩ :: rest.2)

def filterActions (actions : List LifecycleAction) :
    List LifecycleAction × List RiskPolicyDecision :=
  filterFrom positionsBySymbol cycleRisk 0 actions

/-- The positions once an accepted action is carried out. -/
def execute (positions : String → ℚ) (action : LifecycleAction) : String → ℚ :=
  if action.actionType = .submit then
    fun symbol => if symbol = action.symbol then positions symbol + signedQty action
      else positions symbol
  else positions

def submits (actions : List LifecycleAction) : List LifecycleAction :=
  actions.filter fun action => action.actionType = .submit

/-- The caps over the accepted list as a whole, executed in order. -/
structure CapsHold (actions : List LifecycleAction) : Prop where
  orders : ((submits (filterActions positionsBySymbol cycleRisk actions).1).length : ℤ) ≤
    cycleRisk.maxOrdersPerCycle
  exposure : ∀ before action after,
    (filterActions positionsBySymbol cycleRisk actions).1 = before ++ action :: after →
    action.actionType = .submit →
    |Runs.run execute (symbolPos positionsBySymbol) (before ++ [action]) action.symbol| *
      action.price ≤ cycleRisk.maxSymbolExposureTry
  reduceOnly : cycleRisk.mode = .reduceRiskOnly → ∀ before action after,
    (filterActions positionsBySymbol cycleRisk actions).1 = before ++ action :: after →
    ∀ symbol,
      |Runs.run execute (symbolPos positionsBySymbol) (before ++ [action]) symbol| ≤
        |Runs.run execute (symbolPos positionsBySymbol) before symbol| ∧
      0 ≤ Runs.run execute (symbolPos positionsBySymbol) before symbol *
        Runs.run execute (symbolPos positionsBySymbol) (before ++ [action]) symbol

/-- What the filter asks of a submit but for its place in the count: everything against the
positions at the start. -/
structure Passes (action : LifecycleAction) : Prop where
  submit : action.actionType = .submit
  allowed : cycleRisk.allowSubmit = true
  reduces : cycleRisk.mode = .reduceRiskOnly →
    isReduce (symbolPos positionsBySymbol action.symbol) action = true
  notional : action.price * action.qty ≤ cycleRisk.maxOrderNotionalTry
  exposure : exceedsExposure cycleRisk (symbolPos positionsBySymbol action.symbol) action = false

theorem passes_iff (action : LifecycleAction) :
    Passes positionsBySymbol cycleRisk action ↔
      action.actionType = .submit ∧ cycleRisk.allowSubmit = true ∧
      (cycleRisk.mode = .reduceRiskOnly →
        isReduce (symbolPos positionsBySymbol action.symbol) action = true) ∧
      action.price * action.qty ≤ cycleRisk.maxOrderNotionalTry ∧
      exceedsExposure cycleRisk (symbolPos positionsBySymbol action.symbol) action = false :=
  ⟨fun h => ⟨h.submit, h.allowed, h.reduces, h.notional, h.exposure⟩,
    fun ⟨hsubmit, hallowed, hreduces, hnotional, hexposure⟩ =>
      ⟨hsubmit, hallowed, hreduces, hnotional, hexposure⟩⟩

instance (action : LifecycleAction) : Decidable (Passes positionsBySymbol cycleRisk action) :=
  decidable_of_iff' _ (passes_iff positionsBySymbol cycleRisk action)

/-- The submits that pass, as many as the cap on orders leaves room for. -/
def taken (actions : List LifecycleAction) : List LifecycleAction :=
  (actions.filter fun action => Passes positionsBySymbol cycleRisk action).take
    cycleRisk.maxOrdersPerCycle.toNat

/-- How far submits move the position of a symbol. -/
def movedBy (symbol : String) (actions : List LifecycleAction) : ℚ :=
  ((actions.filter fun action => action.symbol = symbol).map signedQty).sum

def tradedQty (symbol : String) (actions : List LifecycleAction) : ℚ :=
  ((actions.filter fun action => action.symbol = symbol).map (·.qty)).sum

/-- A submit on a symbol that an earlier one has moved fits the cap where that one left the
position. -/
def LaterExposureFits (actions : List LifecycleAction) : Prop :=
  ∀ before action after, taken positionsBySymbol cycleRisk actions = before ++ action :: after →
    (∃ earlier ∈ before, earlier.symbol = action.symbol) →
    exceedsExposure cycleRisk
      (symbolPos positionsBySymbol action.symbol + movedBy action.symbol before) action = false

/-- No quantity is negative, and on no symbol do they sum up to more than the position. -/
def SizesFit (actions : List LifecycleAction) : Prop :=
  (∀ action ∈ taken positionsBySymbol cycleRisk actions, 0 ≤ action.qty) ∧
    ∀ symbol, tradedQty symbol (taken positionsBySymbol cycleRisk actions) ≤
      |symbolPos positionsBySymbol symbol|

theorem shrinks_iff_of_pos {position : ℚ} (hpos : 0 < position) (change : ℚ) :
    |position + change| ≤ |position| ∧ 0 ≤ position * (position + change) ↔
      change = 0 ∨ (position * change < 0 ∧ |change| ≤ |position|) := by
  have hsign : 0 ≤ position * (position + change) ↔ 0 ≤ position + change :=
    mul_nonneg_iff_of_pos_left hpos
  have hagainst : position * change < 0 ↔ change < 0 := by
    rw [mul_neg_iff]
    constructor
    · rintro (⟨-, h⟩ | ⟨h, -⟩)
      · exact h
      · exact absurd h (not_lt.mpr hpos.le)
    · exact fun h => .inl ⟨hpos, h⟩
  rw [hsign, hagainst, abs_of_pos hpos]
  constructor
  · rintro ⟨hsmaller, hleft⟩
    rw [abs_of_nonneg hleft] at hsmaller
    have hchange : change ≤ 0 := by linarith only [hsmaller]
    rcases hchange.eq_or_lt with h | h
    · exact .inl h
    · refine .inr ⟨h, ?_⟩
      rw [abs_of_neg h]
      linarith only [hleft]
  · rintro (rfl | ⟨h, hle⟩)
    · rw [add_zero, abs_of_pos hpos]
      exact ⟨le_rfl, hpos.le⟩
    · rw [abs_of_neg h] at hle
      have hleft : 0 ≤ position + change := by linarith only [hle]
      rw [abs_of_nonneg hleft]
      exact ⟨by linarith only [h], hleft⟩

/-- A position shrinks without changing sign when it is traded against by no more than
itself. -/
theorem shrinks_iff (position change : ℚ) :
    |position + change| ≤ |position| ∧ 0 ≤ position * (position + change) ↔
      change = 0 ∨ (position * change < 0 ∧ |change| ≤ |position|) := by
  rcases lt_trichotomy position 0 with hneg | rfl | hpos
  · have hmirror := shrinks_iff_of_pos (neg_pos.mpr hneg) (-change)
    rwa [← neg_add, abs_neg, abs_neg, abs_neg, neg_mul_neg, neg_mul_neg, neg_eq_zero] at hmirror
  · simp
  · exact shrinks_iff_of_pos hpos change

theorem run_concat (positions : String → ℚ) (before : List LifecycleAction)
    (action : LifecycleAction) :
    Runs.run execute positions (before ++ [action]) =
      execute (Runs.run execute positions before) action := by
  simp [Runs.run, List.foldl_append]

theorem execute_own (positions : String → ℚ) {action : LifecycleAction}
    (h : action.actionType = .submit) :
    execute positions action action.symbol = positions action.symbol + signedQty action := by
  simp [execute, h]

theorem execute_other (positions : String → ℚ) {action : LifecycleAction} {symbol : String}
    (h : action.actionType = .submit → symbol ≠ action.symbol) :
    execute positions action symbol = positions symbol := by
  by_cases htype : action.actionType = .submit
  · simp [execute, htype, h htype]
  · simp [execute, htype]

/-- A submit is accepted exactly if it passes and the count leaves it a place. -/
theorem judge_submit (submitCount : ℤ) {action : LifecycleAction}
    (h : action.actionType = .submit) :
    judge positionsBySymbol cycleRisk submitCount action =
        (submitCount + 1, .accepted) ∧
        Passes positionsBySymbol cycleRisk action ∧
        submitCount + 1 ≤ cycleRisk.maxOrdersPerCycle ∨
      ((judge positionsBySymbol cycleRisk submitCount action).1 = submitCount ∧
        (judge positionsBySymbol cycleRisk submitCount action).2 ≠ .accepted ∧
        (Passes positionsBySymbol cycleRisk action →
          cycleRisk.maxOrdersPerCycle < submitCount + 1)) := by
  simp only [judge, h]
  split
  · next hallow =>
    refine .inr ⟨rfl, by simp, fun hpasses => ?_⟩
    simp [hpasses.allowed] at hallow
  · next hallow =>
    split
    · next hreduce =>
      refine .inr ⟨rfl, by simp, fun hpasses => ?_⟩
      simp only [Bool.and_eq_true, decide_eq_true_eq, Bool.not_eq_true'] at hreduce
      rw [hpasses.reduces hreduce.1] at hreduce
      cases hreduce.2
    · next hreduce =>
      split
      · next hcap => exact .inr ⟨by simp, by simp, fun _ => hcap⟩
      · next hcap =>
        split
        · next hnotional =>
          exact .inr ⟨by simp, by simp, fun hpasses => absurd hpasses.notional (not_le.mpr hnotional)⟩
        · next hnotional =>
          split
          · next hexposure =>
            refine .inr ⟨by simp, by simp, fun hpasses => ?_⟩
            rw [hpasses.exposure] at hexposure
            cases hexposure
          · next hexposure =>
            refine .inl ⟨rfl, ⟨h, by simpa using hallow, fun hmode => ?_, not_lt.mp hnotional,
              by simpa using hexposure⟩, not_lt.mp hcap⟩
            simpa [hmode] using hreduce

theorem judge_other (submitCount : ℤ) {action : LifecycleAction}
    (h : action.actionType ≠ .submit) :
    (judge positionsBySymbol cycleRisk submitCount action).1 = submitCount := by
  cases htype : action.actionType with
  | cancel =>
    simp only [judge, htype]
    split <;> rfl
  | replace => simp only [judge, htype]
  | submit => exact absurd htype h

/-- The submits that are accepted are the first that pass. -/
theorem submits_filterFrom (submitCount : ℤ) (actions : List LifecycleAction) :
    submits (filterFrom positionsBySymbol cycleRisk submitCount actions).1 =
      (actions.filter fun action => Passes positionsBySymbol cycleRisk action).take
        (cycleRisk.maxOrdersPerCycle - submitCount).toNat := by
  induction actions generalizing submitCount with
  | nil => simp [filterFrom, submits]
  | cons action actions ih =>
    by_cases htype : action.actionType = .submit
    · rcases judge_submit positionsBySymbol cycleRisk submitCount htype with
        ⟨hjudge, hpasses, hroom⟩ | ⟨hcount, hturned, hfull⟩
      · have hplaces : (cycleRisk.maxOrdersPerCycle - submitCount).toNat =
            (cycleRisk.maxOrdersPerCycle - (submitCount + 1)).toNat + 1 := by omega
        rw [filterFrom, hjudge, List.filter_cons_of_pos (by simpa using hpasses), hplaces,
          List.take_succ_cons, ← ih]
        simp [submits, htype]
      · have hrest : submits (filterFrom positionsBySymbol cycleRisk submitCount
            (action :: actions)).1 =
              submits (filterFrom positionsBySymbol cycleRisk submitCount actions).1 := by
          simp [filterFrom, hcount, hturned]
        rw [hrest, ih]
        by_cases hpasses : Passes positionsBySymbol cycleRisk action
        · have hnone : (cycleRisk.maxOrdersPerCycle - submitCount).toNat = 0 := by
            have hlt := hfull hpasses
            omega
          rw [hnone, List.take_zero, List.take_zero]
        · rw [List.filter_cons_of_neg (by simpa using hpasses)]
    · have hcount := judge_other positionsBySymbol cycleRisk submitCount htype
      rw [List.filter_cons_of_neg (by simpa using fun hpasses => htype (Passes.submit hpasses)),
        ← ih]
      by_cases hacc : (judge positionsBySymbol cycleRisk submitCount action).2 = .accepted
      · simp [filterFrom, hcount, hacc, submits, htype]
      · simp [filterFrom, hcount, hacc]

/-- The submits that are accepted fill up at most what the count leaves. -/
theorem accepted_count (submitCount : ℤ) (actions : List LifecycleAction)
    (h : submitCount ≤ cycleRisk.maxOrdersPerCycle) :
    submitCount +
        ((submits (filterFrom positionsBySymbol cycleRisk submitCount actions).1).length : ℤ) ≤
      cycleRisk.maxOrdersPerCycle := by
  rw [submits_filterFrom, List.length_take]
  omega

theorem submits_filterActions (actions : List LifecycleAction) :
    submits (filterActions positionsBySymbol cycleRisk actions).1 =
      taken positionsBySymbol cycleRisk actions := by
  rw [filterActions, submits_filterFrom, sub_zero, taken]

theorem mem_taken {actions : List LifecycleAction} {action : LifecycleAction}
    (h : action ∈ taken positionsBySymbol cycleRisk actions) :
    Passes positionsBySymbol cycleRisk action :=
  of_decide_eq_true (List.mem_filter.mp (List.mem_of_mem_take h)).2

/-- What is not a submit moves no position. -/
theorem meets_submits {ok : (String → ℚ) → LifecycleAction → Prop}
    (hok : ∀ positions action, action.actionType ≠ .submit → ok positions action)
    (positions : String → ℚ) (actions : List LifecycleAction) :
    Runs.Meets execute ok positions actions ↔ Runs.Meets execute ok positions (submits actions) := by
  induction actions generalizing positions with
  | nil => rfl
  | cons action actions ih =>
    by_cases htype : action.actionType = .submit
    · have hcons : submits (action :: actions) = action :: submits actions := by
        simp [submits, htype]
      rw [hcons, Runs.Meets, Runs.Meets, ih]
    · have hcons : submits (action :: actions) = submits actions := by
        simp [submits, htype]
      have hsame : execute positions action = positions := by
        simp [execute, htype]
      rw [hcons, Runs.Meets, hsame, ih]
      exact and_iff_right (hok positions action htype)

theorem run_position (positions : String → ℚ) {actions : List LifecycleAction}
    (h : ∀ action ∈ actions, action.actionType = .submit) (symbol : String) :
    Runs.run execute positions actions symbol = positions symbol + movedBy symbol actions := by
  induction actions generalizing positions with
  | nil => simp [movedBy]
  | cons action actions ih =>
    have hfirst := h action List.mem_cons_self
    rw [Runs.run_cons, ih _ fun other hin => h other (List.mem_cons_of_mem _ hin)]
    by_cases hsymbol : action.symbol = symbol
    · subst hsymbol
      simp [execute, hfirst, movedBy, add_assoc]
    · simp [execute, hfirst, movedBy, hsymbol, Ne.symm hsymbol]

/-- The first submit on a symbol finds the position that the filter looked at. -/
theorem exposure_iff (actions : List LifecycleAction) :
    Runs.Meets execute
        (fun positions action => action.actionType = .submit →
          exceedsExposure cycleRisk (positions action.symbol) action = false)
        (symbolPos positionsBySymbol) (taken positionsBySymbol cycleRisk actions) ↔
      LaterExposureFits positionsBySymbol cycleRisk actions := by
  rw [Runs.meets_iff_split]
  refine forall₃_congr fun before action after => forall_congr' fun heq => ?_
  have hin : ∀ other ∈ before ++ action :: after, Passes positionsBySymbol cycleRisk other :=
    fun other hother => mem_taken positionsBySymbol cycleRisk (heq ▸ hother)
  have haction := hin action (List.mem_append_right _ List.mem_cons_self)
  rw [run_position _ fun other hother => (hin other (List.mem_append_left _ hother)).submit]
  constructor
  · exact fun h _ => h haction.submit
  · intro h _
    by_cases hearlier : ∃ earlier ∈ before, earlier.symbol = action.symbol
    · exact h hearlier
    · have hnone : before.filter (fun other => other.symbol = action.symbol) = [] := by
        refine List.filter_eq_nil_iff.mpr fun other hother hsymbol => hearlier ⟨other, hother, ?_⟩
        exact of_decide_eq_true hsymbol
      rw [movedBy, hnone, List.map_nil, List.sum_nil, add_zero]
      exact haction.exposure

/-- A side against the position, or a position that is closed already. -/
def Against (position : ℚ) (action : LifecycleAction) : Prop :=
  (signedQty action = -action.qty ∧ 0 ≤ position) ∨ (signedQty action = action.qty ∧ position ≤ 0)

theorem against_of_isReduce {position : ℚ} {action : LifecycleAction}
    (h : isReduce position action = true) : Against position action := by
  simp only [isReduce, Bool.or_eq_true, Bool.and_eq_true, decide_eq_true_eq] at h
  rcases h with ⟨hside, hpos⟩ | ⟨hside, hneg⟩
  · exact .inl ⟨by simp [signedQty, hside], le_of_lt hpos⟩
  · exact .inr ⟨by simp [signedQty, hside], le_of_lt hneg⟩

/-- A trade against the position shrinks it exactly if its quantity is neither negative nor
more than the position. -/
theorem against_shrinks_iff {position : ℚ} {action : LifecycleAction}
    (h : Against position action) :
    |position + signedQty action| ≤ |position| ∧ 0 ≤ position * (position + signedQty action) ↔
      0 ≤ action.qty ∧ action.qty ≤ |position| := by
  rw [shrinks_iff]
  rcases h with ⟨hsigned, hposition⟩ | ⟨hsigned, hposition⟩
  · rw [hsigned, abs_neg, abs_of_nonneg hposition, neg_eq_zero, mul_neg, neg_lt_zero]
    constructor
    · rintro (hzero | ⟨hpos, hle⟩)
      · rw [hzero]
        exact ⟨le_rfl, hposition⟩
      · have hqty := (pos_of_mul_pos_right hpos hposition).le
        exact ⟨hqty, abs_of_nonneg hqty ▸ hle⟩
    · rintro ⟨hqty, hle⟩
      rcases hqty.eq_or_lt with hzero | hpos
      · exact .inl hzero.symm
      · exact .inr ⟨mul_pos (hpos.trans_le hle) hpos, (abs_of_pos hpos).symm ▸ hle⟩
  · rw [hsigned, abs_of_nonpos hposition]
    constructor
    · rintro (hzero | ⟨hneg, hle⟩)
      · rw [hzero]
        exact ⟨le_rfl, neg_nonneg.mpr hposition⟩
      · have hqty := (pos_of_mul_neg_right hneg hposition).le
        exact ⟨hqty, abs_of_nonneg hqty ▸ hle⟩
    · rintro ⟨hqty, hle⟩
      rcases hqty.eq_or_lt with hzero | hpos
      · exact .inl hzero.symm
      · have hless : position < 0 := neg_pos.mp (hpos.trans_le hle)
        exact .inr ⟨mul_neg_of_neg_of_pos hless hpos, (abs_of_pos hpos).symm ▸ hle⟩

/-- What is left of the position after a trade against it, and the side that is still against
it. -/
theorem Against.traded {position : ℚ} {action : LifecycleAction} (h : Against position action)
    (hqty : 0 ≤ action.qty) (hle : action.qty ≤ |position|) :
    |position + signedQty action| = |position| - action.qty ∧
      ∀ other, Against position other → Against (position + signedQty action) other := by
  rcases h with ⟨hsigned, hposition⟩ | ⟨hsigned, hposition⟩
  · rw [abs_of_nonneg hposition] at hle
    have hleft : 0 ≤ position + -action.qty := by linarith only [hle]
    rw [hsigned, abs_of_nonneg hleft, abs_of_nonneg hposition]
    refine ⟨by ring, fun other hother => ?_⟩
    rcases hother with ⟨hother, -⟩ | ⟨hother, hclosed⟩
    · exact .inl ⟨hother, hleft⟩
    · exact .inr ⟨hother, by linarith only [hclosed, hqty]⟩
  · rw [abs_of_nonpos hposition] at hle
    have hleft : position + action.qty ≤ 0 := by linarith only [hle]
    rw [hsigned, abs_of_nonpos hleft, abs_of_nonpos hposition]
    refine ⟨by ring, fun other hother => ?_⟩
    rcases hother with ⟨hother, hclosed⟩ | ⟨hother, -⟩
    · exact .inl ⟨hother, by linarith only [hclosed, hqty]⟩
    · exact .inr ⟨hother, hleft⟩

theorem tradedQty_cons (symbol : String) (action : LifecycleAction)
    (actions : List LifecycleAction) :
    tradedQty symbol (action :: actions) =
      (if action.symbol = symbol then action.qty else 0) + tradedQty symbol actions := by
  by_cases h : action.symbol = symbol <;> simp [tradedQty, h]

theorem tradedQty_nonneg {symbol : String} {actions : List LifecycleAction}
    (h : ∀ action ∈ actions, 0 ≤ action.qty) : 0 ≤ tradedQty symbol actions := by
  refine List.sum_nonneg fun qty hqty => ?_
  obtain ⟨action, hin, rfl⟩ := List.mem_map.mp hqty
  exact h action (List.mem_of_mem_filter hin)

/-- No position grows or changes sign. -/
def Shrinks (positions : String → ℚ) (action : LifecycleAction) : Prop :=
  ∀ symbol, |execute positions action symbol| ≤ |positions symbol| ∧
    0 ≤ positions symbol * execute positions action symbol

theorem shrinks_own_iff (positions : String → ℚ) {action : LifecycleAction}
    (h : action.actionType = .submit) :
    Shrinks positions action ↔
      |positions action.symbol + signedQty action| ≤ |positions action.symbol| ∧
        0 ≤ positions action.symbol * (positions action.symbol + signedQty action) := by
  refine ⟨fun hshrinks => by simpa [execute_own positions h] using hshrinks action.symbol,
    fun hown symbol => ?_⟩
  by_cases hsymbol : symbol = action.symbol
  · rw [hsymbol, execute_own positions h]
    exact hown
  · rw [execute_other positions fun _ => hsymbol]
    exact ⟨le_rfl, mul_self_nonneg _⟩

/-- Submits against the positions shrink each of them exactly if together they trade no more
than it. -/
theorem sizes_iff (positions : String → ℚ) {actions : List LifecycleAction}
    (hsubmits : ∀ action ∈ actions, action.actionType = .submit)
    (hagainst : ∀ action ∈ actions, Against (positions action.symbol) action) :
    Runs.Meets execute Shrinks positions actions ↔
      (∀ action ∈ actions, 0 ≤ action.qty) ∧
        ∀ symbol, tradedQty symbol actions ≤ |positions symbol| := by
  induction actions generalizing positions with
  | nil => simp [Runs.Meets, tradedQty]
  | cons action actions ih =>
    have hfirst := hsubmits action List.mem_cons_self
    have hown := hagainst action List.mem_cons_self
    rw [Runs.Meets, shrinks_own_iff positions hfirst, against_shrinks_iff hown]
    have hrest (hqty : 0 ≤ action.qty) (hle : action.qty ≤ |positions action.symbol|) :
        Runs.Meets execute Shrinks (execute positions action) actions ↔
          (∀ other ∈ actions, 0 ≤ other.qty) ∧
            ∀ symbol, tradedQty symbol (action :: actions) ≤ |positions symbol| := by
      obtain ⟨hleft, hstill⟩ := hown.traded hqty hle
      rw [ih (execute positions action)
        (fun other hin => hsubmits other (List.mem_cons_of_mem _ hin)) fun other hin => ?_]
      · refine and_congr_right fun _ => forall_congr' fun symbol => ?_
        rw [tradedQty_cons]
        by_cases hsymbol : action.symbol = symbol
        · subst hsymbol
          rw [execute_own positions hfirst, hleft, if_pos rfl, le_sub_iff_add_le']
        · rw [execute_other positions fun _ => Ne.symm hsymbol, if_neg hsymbol, zero_add]
      · have hother := hagainst other (List.mem_cons_of_mem _ hin)
        by_cases hsymbol : other.symbol = action.symbol
        · rw [hsymbol] at hother ⊢
          rw [execute_own positions hfirst]
          exact hstill other hother
        · rwa [execute_other positions fun _ => hsymbol]
    constructor
    · rintro ⟨⟨hqty, hle⟩, hmeets⟩
      obtain ⟨hqtys, hsums⟩ := (hrest hqty hle).mp hmeets
      exact ⟨List.forall_mem_cons.mpr ⟨hqty, hqtys⟩, hsums⟩
    · rintro ⟨hqtys, hsums⟩
      obtain ⟨hqty, hqtys⟩ := List.forall_mem_cons.mp hqtys
      have hsum := hsums action.symbol
      rw [tradedQty_cons, if_pos rfl] at hsum
      have hlater := @tradedQty_nonneg action.symbol _ hqtys
      have hle : action.qty ≤ |positions action.symbol| := by linarith only [hsum, hlater]
      exact ⟨⟨hqty, hle⟩, (hrest hqty hle).mpr ⟨hqtys, hsums⟩⟩

/-- The caps hold over the accepted list exactly if the cap on orders is not negative, of the
submits that pass and are counted those after the first on a symbol fit its exposure cap, and,
where risk may only be reduced, they trade no more of a symbol than its position. -/
theorem caps_hold_iff (actions : List LifecycleAction) :
    CapsHold positionsBySymbol cycleRisk actions ↔
      0 ≤ cycleRisk.maxOrdersPerCycle ∧ LaterExposureFits positionsBySymbol cycleRisk actions ∧
      (cycleRisk.mode = .reduceRiskOnly → SizesFit positionsBySymbol cycleRisk actions) := by
  have hpasses (action : LifecycleAction)
      (hin : action ∈ taken positionsBySymbol cycleRisk actions) :=
    mem_taken positionsBySymbol cycleRisk hin
  rw [← exposure_iff, ← submits_filterActions,
    ← meets_submits fun positions action htype hsubmit => absurd hsubmit htype]
  have hsizes (hmode : cycleRisk.mode = .reduceRiskOnly) :
      SizesFit positionsBySymbol cycleRisk actions ↔ Runs.Meets execute Shrinks
        (symbolPos positionsBySymbol) (filterActions positionsBySymbol cycleRisk actions).1 := by
    have hidle (positions : String → ℚ) (action : LifecycleAction)
        (htype : action.actionType ≠ .submit) : Shrinks positions action := fun symbol => by
      rw [execute_other positions fun hsubmit => absurd hsubmit htype]
      exact ⟨le_rfl, mul_self_nonneg _⟩
    rw [meets_submits hidle, submits_filterActions,
      sizes_iff _ (fun action hin => (hpasses action hin).submit)
        fun action hin => against_of_isReduce ((hpasses action hin).reduces hmode)]
    rfl
  rw [Runs.meets_iff_split]
  constructor
  · intro h
    refine ⟨(Int.natCast_nonneg _).trans h.orders, fun before action after heq htype => ?_,
      fun hmode => (hsizes hmode).mpr (Runs.meets_iff_split.mpr fun before action after heq => ?_)⟩
    · have hexposure := h.exposure before action after heq htype
      rw [run_concat, execute_own _ htype] at hexposure
      simpa [exceedsExposure] using hexposure
    · rw [Shrinks, ← run_concat]
      exact h.reduceOnly hmode before action after heq
  · rintro ⟨hcap, hexposure, hreduce⟩
    constructor
    · have hcount := accepted_count positionsBySymbol cycleRisk 0 actions hcap
      rwa [zero_add] at hcount
    · intro before action after heq htype
      rw [run_concat, execute_own _ htype]
      simpa [exceedsExposure] using hexposure before action after heq htype
    · intro hmode before action after heq
      rw [run_concat]
      exact Runs.meets_iff_split.mp ((hsizes hmode).mp (hreduce hmode)) before action after heq

end Filter

def capsOf (mode : Mode) : CycleRiskOutput where
  mode := mode
  reasons := ["OK"]
  maxOrderNotionalTry := 1000
  maxOrdersPerCycle := 5
  maxSymbolExposureTry := 100
  dailyLossLimitTry := 500
  maxDrawdownBps := 2500
  feeBurnLimitTry := 150
  cooldownUntil := none
  allowSubmit := true
  allowCancel := true
  decidedAt := 0
  inputsHash := "h"
  metrics := ⟨0, 0, 0, 0, 0⟩

def submitOf (side : String) (price qty : ℚ) : LifecycleAction :=
  { actionType := .submit, symbol := "BTCTRY", side, price, qty, reason := "x" }

/-- Two BUYs each within the exposure cap are not so together, and a reducing SELL of more
than is held turns the position around. -/
theorem caps_break_on_later_positions :
    ¬ CapsHold ∅ (capsOf .normal) [submitOf "BUY" 10 6, submitOf "BUY" 10 6] ∧
    ¬ CapsHold ((∅ : Dict ℚ).insert "BTCTRY" 1) (capsOf .reduceRiskOnly)
      [submitOf "SELL" 10 3] := by
  constructor
  · intro h
    have hlater := h.exposure [submitOf "BUY" 10 6] (submitOf "BUY" 10 6) []
      (by decide +kernel) rfl
    revert hlater
    decide +kernel
  · intro h
    have hturned := (h.reduceOnly rfl [] (submitOf "SELL" 10 3) [] (by decide +kernel)
      "BTCTRY").1
    revert hturned
    decide +kernel

end RiskPolicyService
