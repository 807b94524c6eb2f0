import Btcbot.KeyedTable
import Btcbot.RiskPolicy
import Btcbot.Stage4Reconcile
import Mathlib.Data.List.Sort
import Mathlib.Data.Prod.Lex
import Mathlib.Data.String.Basic

/-!
# The lifecycle of open orders

An intent that repeats an open order is dropped, another one replaces the stale orders of
its symbol and side, and the stale orders that are left are cancelled. An open order may do
both: repeat an intent, and be stale.
-/
namespace OrderLifecycle

open KeyedTable
open RiskPolicy (LifecycleAction)
open Stage4Execute (LifecycleActionType)
open Stage4Reconcile (Order)

section Planning

structure OrderLifecycleService where
  staleAfterSec : ℤ := 120
  driftBps : ℚ := 25
  priceToleranceBps : ℚ := 5
  qtyToleranceRatio : ℚ := 1 / 100

structure LifecyclePlan where
  actions : List LifecycleAction
  auditReasons : List String
  deriving DecidableEq, Repr

variable (service : OrderLifecycleService)

/-- Too old at the time it is looked at, or too far from the mid price. -/
def isStale (order : Order) (midPrice : ℚ) (now : ℤ) : Bool :=
  if service.staleAfterSec * 1000000 ≤ now - order.updatedAt then true
  else if midPrice ≤ 0 ∨ order.price ≤ 0 then false
  else service.driftBps ≤ |order.price - midPrice| / midPrice * 10000

/-- An open order like the intent, within the tolerances. -/
structure Repeats (intent order : Order) : Prop where
  symbol : order.symbol = intent.symbol
  side : order.side = intent.side
  price_pos : 0 < order.price
  qty_pos : 0 < order.qty
  price : |order.price - intent.price| / intent.price * 10000 ≤ service.priceToleranceBps
  qty : |order.qty - intent.qty| / intent.qty ≤ service.qtyToleranceRatio

theorem repeats_iff (intent order : Order) : Repeats service intent order ↔
    (order.symbol = intent.symbol ∧ order.side = intent.side) ∧
      (0 < order.price ∧ 0 < order.qty) ∧
      |order.price - intent.price| / intent.price * 10000 ≤ service.priceToleranceBps ∧
      |order.qty - intent.qty| / intent.qty ≤ service.qtyToleranceRatio :=
  ⟨fun ⟨hsymbol, hside, hprice_pos, hqty_pos, hprice, hqty⟩ =>
      ⟨⟨hsymbol, hside⟩, ⟨hprice_pos, hqty_pos⟩, hprice, hqty⟩,
    fun ⟨⟨hsymbol, hside⟩, ⟨hprice_pos, hqty_pos⟩, hprice, hqty⟩ =>
      ⟨hsymbol, hside, hprice_pos, hqty_pos, hprice, hqty⟩⟩

instance (intent order : Order) : Decidable (Repeats service intent order) :=
  decidable_of_iff' _ (repeats_iff service intent order)

def findDuplicate (intent : Order) (openOrders : List Order) : Option Order :=
  if intent.price ≤ 0 ∨ intent.qty ≤ 0 then none
  else openOrders.find? fun order => Repeats service intent order

abbrev Key := String × String

def keyOf (order : Order) : Key := (order.symbol, order.side)

abbrev StaleByKey := List (Key × List Order)

def staleAt (table : StaleByKey) (key : Key) : List Order := (get? table key).getD []

/-- The open orders that are stale, each at the reading of the clock that judges it. -/
def staleOrders (openOrders : List Order) (midPrice : ℚ) (now : ℕ → ℤ) : List Order :=
  (openOrders.zipIdx.filter fun entry => isStale service entry.1 midPrice (now entry.2)).map
    Prod.fst

def addStale (table : StaleByKey) (order : Order) : StaleByKey :=
  setItem table (keyOf order) (staleAt table (keyOf order) ++ [order])

def cancelAction (reason : String) (order : Order) : LifecycleAction where
  actionType := .cancel
  symbol := order.symbol
  side := order.side
  price := order.price
  qty := order.qty
  reason := reason
  clientOrderId := order.clientOrderId
  exchangeOrderId := order.exchangeOrderId

def submitAction (reason : String) (intent : Order) (replaced : Option Order) :
    LifecycleAction where
  actionType := .submit
  symbol := intent.symbol
  side := intent.side
  price := intent.price
  qty := intent.qty
  reason := reason
  clientOrderId := intent.clientOrderId
  replaceForClientOrderId := replaced.bind Order.clientOrderId

/-- The text `or` leaves. -/
def orElseText (text : Option String) (default : String) : String :=
  if text.getD "" = "" then default else text.getD ""

/-- The plan so far, and the stale orders that nothing has replaced. -/
structure Progress where
  actions : List LifecycleAction := []
  auditReasons : List String := []
  staleByKey : StaleByKey

def planIntent (openOrders : List Order) (progress : Progress) (intent : Order) : Progress :=
  if intent.price ≤ 0 ∨ intent.qty ≤ 0 then
    { progress with auditReasons := progress.auditReasons ++
        ["invalid_intent:" ++ orElseText intent.clientOrderId "missing"] }
  else if (findDuplicate service intent openOrders).isSome then
    { progress with auditReasons := progress.auditReasons ++
        ["deduped:" ++ orElseText intent.clientOrderId "missing"] }
  else match staleAt progress.staleByKey (keyOf intent) with
    | [] => { progress with
        actions := progress.actions ++ [submitAction "new_intent" intent none] }
    | first :: rest => { progress with
        actions := progress.actions ++ (first :: rest).map (cancelAction "replace_cancel") ++
          [submitAction "replace_submit" intent (some first)]
        staleByKey := setItem progress.staleByKey (keyOf intent) [] }

def priority : LifecycleActionType → ℕ
  | .cancel => 0
  | .replace => 1
  | .submit => 2

def actionKey (action : LifecycleAction) : String ×ₗ String ×ₗ ℕ ×ₗ String :=
  toLex (action.symbol, toLex (action.side,
    toLex (priority action.actionType, action.clientOrderId.getD "")))

def ActsBefore (a b : LifecycleAction) : Prop := actionKey a ≤ actionKey b

instance : DecidableRel ActsBefore := fun a b =>
  inferInstanceAs (Decidable (actionKey a ≤ actionKey b))

def start (openOrders : List Order) (midPrice : ℚ) (now : ℕ → ℤ) : Progress where
  staleByKey := (staleOrders service openOrders midPrice now).foldl addStale []

def sweep (progress : Progress) : List LifecycleAction :=
  progress.actions ++
    (progress.staleByKey.flatMap Prod.snd).map (cancelAction "stale")

def plan (intents openOrders : List Order) (midPrice : ℚ) (now : ℕ → ℤ) : LifecyclePlan :=
  let planned := intents.foldl (planIntent service openOrders)
    (start service openOrders midPrice now)
  { actions := (sweep planned).insertionSort ActsBefore
    auditReasons := planned.auditReasons }

end Planning

section Cancels

/-- What a cancel names of an order. -/
structure Named where
  symbol : String
  side : String
  price : ℚ
  qty : ℚ
  clientOrderId : Option String
  exchangeOrderId : Option String
  deriving DecidableEq, Repr

def named (order : Order) : Named :=
  ⟨order.symbol, order.side, order.price, order.qty, order.clientOrderId, order.exchangeOrderId⟩

/-- What the cancels among some actions name. -/
def cancels (actions : List LifecycleAction) : List Named :=
  (actions.filter fun action => action.actionType = .cancel).map fun action =>
    ⟨action.symbol, action.side, action.price, action.qty, action.clientOrderId,
      action.exchangeOrderId⟩

theorem cancels_append (actions more : List LifecycleAction) :
    cancels (actions ++ more) = cancels actions ++ cancels more := by
  rw [cancels, List.filter_append, List.map_append, cancels, cancels]

@[simp] theorem cancels_submit (reason : String) (intent : Order) (replaced : Option Order) :
    cancels [submitAction reason intent replaced] = [] := rfl

@[simp] theorem cancels_cancel (reason : String) (orders : List Order) :
    cancels (orders.map (cancelAction reason)) = orders.map named := by
  induction orders with
  | nil => rfl
  | cons order orders ih =>
    rw [List.map_cons, List.map_cons, ← ih]
    rfl

/-- Some action submits the intent. -/
def Submitted (actions : List LifecycleAction) (intent : Order) : Prop :=
  ∃ reason replaced, submitAction reason intent replaced ∈ actions

variable (service : OrderLifecycleService) (openOrders : List Order)

/-- A valid intent that no open order is like. -/
structure Fresh (intent : Order) : Prop where
  valid : 0 < intent.price ∧ 0 < intent.qty
  new : ∀ order ∈ openOrders, ¬ Repeats service intent order

theorem findDuplicate_isSome_iff {intent : Order} (h : 0 < intent.price ∧ 0 < intent.qty) :
    (findDuplicate service intent openOrders).isSome ↔
      ∃ order ∈ openOrders, Repeats service intent order := by
  rw [findDuplicate, if_neg (not_or.mpr ⟨not_le.mpr h.1, not_le.mpr h.2⟩)]
  simp

theorem addStale_perm (table : StaleByKey) (order : Order) :
    ((addStale table order).flatMap Prod.snd).Perm (table.flatMap Prod.snd ++ [order]) := by
  have hset := flatMap_setItem_perm table (keyOf order)
    (staleAt table (keyOf order) ++ [order])
  have hcomm : (table.flatMap Prod.snd ++ (staleAt table (keyOf order) ++ [order])).Perm
      (table.flatMap Prod.snd ++ [order] ++ staleAt table (keyOf order)) := by
    rw [List.append_assoc]
    exact List.perm_append_comm.append_left _
  exact (List.perm_append_right_iff _).mp (hset.trans hcomm)

theorem foldl_addStale_perm (table : StaleByKey) (orders : List Order) :
    ((orders.foldl addStale table).flatMap Prod.snd).Perm (table.flatMap Prod.snd ++ orders) := by
  induction orders generalizing table with
  | nil => simp
  | cons order orders ih =>
    refine (ih (addStale table order)).trans ?_
    rw [List.append_cons]
    exact (addStale_perm table order).append_right orders

/-- What an intent adds to the plan: nothing if it is not fresh, else its submit, and before
it the cancels of the stale orders it takes out of the table. -/
theorem planIntent_cases (progress : Progress) (intent : Order) :
    let next := planIntent service openOrders progress intent
    (¬ Fresh service openOrders intent ∧ next.actions = progress.actions ∧
        next.staleByKey = progress.staleByKey) ∨
      (Fresh service openOrders intent ∧ ∃ replaced : List Order, ∃ reason first,
        next.actions = progress.actions ++ replaced.map (cancelAction "replace_cancel") ++
          [submitAction reason intent first] ∧
        (next.staleByKey.flatMap Prod.snd ++ replaced).Perm
          (progress.staleByKey.flatMap Prod.snd)) := by
  intro next
  unfold next planIntent
  split
  · next hinvalid =>
    refine .inl ⟨fun hfresh => ?_, rfl, rfl⟩
    exact hinvalid.elim (not_le.mpr hfresh.valid.1) (not_le.mpr hfresh.valid.2)
  · next hvalid =>
    obtain ⟨hprice, hqty⟩ := not_or.mp hvalid
    have hpos := And.intro (not_le.mp hprice) (not_le.mp hqty)
    split
    · next hdup =>
      obtain ⟨order, hin, hrepeats⟩ :=
        (findDuplicate_isSome_iff service openOrders hpos).mp hdup
      exact .inl ⟨fun hfresh => hfresh.new order hin hrepeats, rfl, rfl⟩
    · next hnone =>
      have hfresh : Fresh service openOrders intent := ⟨hpos, fun order hin hrepeats =>
        hnone ((findDuplicate_isSome_iff service openOrders hpos).mpr ⟨order, hin, hrepeats⟩)⟩
      refine .inr ⟨hfresh, ?_⟩
      split
      · refine ⟨[], _, _, by rw [List.map_nil, List.append_nil], ?_⟩
        rw [List.append_nil]
      · next first rest hstale =>
        refine ⟨first :: rest, _, _, rfl, ?_⟩
        have hset := flatMap_setItem_perm progress.staleByKey (keyOf intent) []
        rw [List.append_nil] at hset
        rwa [← hstale]

end Cancels

section Coverage

variable (service : OrderLifecycleService) (intents openOrders : List Order) (midPrice : ℚ)
  (now : ℕ → ℤ)

theorem planIntents_cancels (progress : Progress) :
    let planned := Runs.run (planIntent service openOrders) progress intents
    (cancels planned.actions ++ (planned.staleByKey.flatMap Prod.snd).map named).Perm
      (cancels progress.actions ++ (progress.staleByKey.flatMap Prod.snd).map named) := by
  refine @Runs.run_induct _ _ (planIntent service openOrders)
    (fun _ planned =>
      (cancels planned.actions ++ (planned.staleByKey.flatMap Prod.snd).map named).Perm
        (cancels progress.actions ++ (progress.staleByKey.flatMap Prod.snd).map named))
    ?_ progress intents (.refl _)
  intro _ intent before hbefore
  refine List.Perm.trans ?_ hbefore
  obtain ⟨-, hactions, htable⟩ | ⟨-, replaced, reason, first, hactions, htable⟩ :=
    planIntent_cases service openOrders before intent
  · rw [hactions, htable]
  · rw [hactions, cancels_append, cancels_append, cancels_cancel, cancels_submit, List.append_nil,
      List.append_assoc, ← List.map_append]
    exact ((List.perm_append_comm.trans htable).map named).append_left _

/-- The cancels of a plan are the stale orders, each once. -/
theorem plan_cancels : (cancels (plan service intents openOrders midPrice now).actions).Perm
    ((staleOrders service openOrders midPrice now).map named) := by
  have hplanned := planIntents_cancels service intents openOrders
    (start service openOrders midPrice now)
  have hstart : ((start service openOrders midPrice now).staleByKey.flatMap Prod.snd).Perm
      (staleOrders service openOrders midPrice now) := foldl_addStale_perm [] _
  have hsorted := ((List.perm_insertionSort ActsBefore (sweep (Runs.run
    (planIntent service openOrders) (start service openOrders midPrice now) intents))).filter
    fun action => action.actionType = .cancel).map fun action : LifecycleAction =>
      (⟨action.symbol, action.side, action.price, action.qty, action.clientOrderId,
        action.exchangeOrderId⟩ : Named)
  refine hsorted.trans (List.Perm.trans ?_ (hstart.map named))
  change (cancels (sweep _)).Perm _
  rw [sweep, cancels_append, cancels_cancel]
  exact hplanned

theorem submitAction_mem_cancels {reason reason' : String} {intent : Order}
    {replaced : Option Order} {orders : List Order} :
    submitAction reason intent replaced ∉ orders.map (cancelAction reason') := by
  intro hin
  obtain ⟨order, -, hsame⟩ := List.mem_map.mp hin
  exact LifecycleActionType.noConfusion (congrArg (·.actionType) hsame)

theorem Fresh.congr {intent other : Order} {reason reason' : String}
    {replaced replaced' : Option Order} (h : Fresh service openOrders intent)
    (hsame : submitAction reason other replaced = submitAction reason' intent replaced') :
    Fresh service openOrders other := by
  have hsymbol : other.symbol = intent.symbol := congrArg (·.symbol) hsame
  have hside : other.side = intent.side := congrArg (·.side) hsame
  have hprice : other.price = intent.price := congrArg (·.price) hsame
  have hqty : other.qty = intent.qty := congrArg (·.qty) hsame
  refine ⟨by rw [hprice, hqty]; exact h.valid, fun order hin hrepeats => h.new order hin ?_⟩
  rw [repeats_iff] at hrepeats ⊢
  rwa [hsymbol, hside, hprice, hqty] at hrepeats

/-- The fresh intents are submitted, and no others. -/
theorem planIntents_submits (table : StaleByKey) :
    let planned := Runs.run (planIntent service openOrders) { staleByKey := table } intents
    (∀ intent ∈ intents, Fresh service openOrders intent → Submitted planned.actions intent) ∧
      ∀ intent, Submitted planned.actions intent → Fresh service openOrders intent := by
  refine @Runs.run_induct _ _ (planIntent service openOrders)
    (fun taken planned =>
      (∀ intent ∈ taken, Fresh service openOrders intent → Submitted planned.actions intent) ∧
        ∀ intent, Submitted planned.actions intent → Fresh service openOrders intent)
    ?_ _ intents ⟨fun _ hin => (List.not_mem_nil hin).elim,
      fun _ ⟨_, _, hin⟩ => (List.not_mem_nil hin).elim⟩
  intro taken last before ⟨hall, honly⟩
  obtain ⟨hstale, hactions, -⟩ | ⟨hfresh, replaced, reason, first, hactions, -⟩ :=
    planIntent_cases service openOrders before last
  · rw [hactions]
    refine ⟨fun intent hin hnew => ?_, honly⟩
    rcases List.mem_append.mp hin with hin | hin
    · exact hall intent hin hnew
    · obtain rfl := List.mem_singleton.mp hin
      exact absurd hnew hstale
  · rw [hactions]
    constructor
    · intro intent hin hnew
      rcases List.mem_append.mp hin with hin | hin
      · obtain ⟨reason', replaced', hold⟩ := hall intent hin hnew
        exact ⟨reason', replaced', List.mem_append_left _ (List.mem_append_left _ hold)⟩
      · obtain rfl := List.mem_singleton.mp hin
        exact ⟨reason, first, List.mem_append_right _ List.mem_cons_self⟩
    · rintro intent ⟨reason', replaced', hin⟩
      rcases List.mem_append.mp hin with hin | hin
      · rcases List.mem_append.mp hin with hin | hin
        · exact honly intent ⟨reason', replaced', hin⟩
        · exact absurd hin submitAction_mem_cancels
      · exact hfresh.congr service openOrders (List.mem_singleton.mp hin)

theorem submitted_iff {intent : Order} (hin : intent ∈ intents) :
    Submitted (plan service intents openOrders midPrice now).actions intent ↔
      Fresh service openOrders intent := by
  obtain ⟨hall, honly⟩ := planIntents_submits service intents openOrders
    (start service openOrders midPrice now).staleByKey
  have hsorted : ∀ action, action ∈ (plan service intents openOrders midPrice now).actions ↔
      action ∈ sweep (Runs.run (planIntent service openOrders)
        (start service openOrders midPrice now) intents) := fun action => List.mem_insertionSort _
  constructor
  · rintro ⟨reason, replaced, hsubmit⟩
    rcases List.mem_append.mp ((hsorted _).mp hsubmit) with hsubmit | hsubmit
    · exact honly intent ⟨reason, replaced, hsubmit⟩
    · exact absurd hsubmit submitAction_mem_cancels
  · intro hfresh
    obtain ⟨reason, replaced, hsubmit⟩ := hall intent hin hfresh
    exact ⟨reason, replaced, (hsorted _).mpr (List.mem_append_left _ hsubmit)⟩

/-- Every intent is submitted or repeats an open order that is not cancelled, and the stale
orders are what is cancelled, each once. -/
structure Covers (actions : List LifecycleAction) : Prop where
  intents : ∀ intent ∈ intents, Submitted actions intent ∨
    ∃ order ∈ openOrders, Repeats service intent order ∧ named order ∉ cancels actions
  cancels : (cancels actions).Perm ((staleOrders service openOrders midPrice now).map named)

/-- A plan covers valid intents exactly if each one that repeats an open order repeats one
that no stale order is named like. -/
theorem covers_iff (hvalid : ∀ intent ∈ intents, 0 < intent.price ∧ 0 < intent.qty) :
    Covers service intents openOrders midPrice now
        (plan service intents openOrders midPrice now).actions ↔
      ∀ intent ∈ intents, (∃ order ∈ openOrders, Repeats service intent order) →
        ∃ order ∈ openOrders, Repeats service intent order ∧
          named order ∉ (staleOrders service openOrders midPrice now).map named := by
  have hcancels := plan_cancels service intents openOrders midPrice now
  constructor
  · intro h intent hin ⟨repeated, hrepeated, hrepeats⟩
    rcases h.intents intent hin with hsubmit | ⟨order, horder, hlike, hkept⟩
    · exact absurd hrepeats (((submitted_iff service intents openOrders midPrice now hin).mp
        hsubmit).new repeated hrepeated)
    · exact ⟨order, horder, hlike, fun hstale => hkept (hcancels.mem_iff.mpr hstale)⟩
  · refine fun h => ⟨fun intent hin => ?_, hcancels⟩
    by_cases hrepeats : ∃ order ∈ openOrders, Repeats service intent order
    · obtain ⟨order, horder, hlike, hfresh⟩ := h intent hin hrepeats
      exact .inr ⟨order, horder, hlike, fun hcancel => hfresh (hcancels.mem_iff.mp hcancel)⟩
    · refine .inl ((submitted_iff service intents openOrders midPrice now hin).mpr ?_)
      exact ⟨hvalid intent hin, fun order horder hlike => hrepeats ⟨order, horder, hlike⟩⟩

/-- A buy of one at a hundred, last updated at zero. -/
def restingBuy : Order where
  symbol := "BTCTRY"
  side := "buy"
  type := "limit"
  price := 100
  qty := 1
  status := "open"
  createdAt := 0
  updatedAt := 0
  exchangeOrderId := some "ex-1"
  clientOrderId := some "cid-old"

/-- The same buy, wanted again. -/
def wantedBuy : Order :=
  { restingBuy with status := "new", exchangeOrderId := none, clientOrderId := some "cid-new" }

/-- Five minutes later the resting buy is cancelled, and nothing is submitted. -/
theorem repeated_stale_uncovered :
    ¬ ∀ (service : OrderLifecycleService) (intents openOrders : List Order) (midPrice : ℚ)
        (now : ℕ → ℤ), (∀ intent ∈ intents, 0 < intent.price ∧ 0 < intent.qty) →
      Covers service intents openOrders midPrice now
        (plan service intents openOrders midPrice now).actions := by
  intro h
  have hcovers := h {} [wantedBuy] [restingBuy] 100 (fun _ => 300000000) (by decide +kernel)
  have hplan : (plan {} [wantedBuy] [restingBuy] 100 fun _ => 300000000).actions =
      [cancelAction "stale" restingBuy] := by decide +kernel
  rw [hplan] at hcovers
  rcases hcovers.intents wantedBuy List.mem_cons_self with ⟨_, _, hsubmit⟩ | ⟨order, hin, -, hkept⟩
  · exact LifecycleActionType.noConfusion
      (congrArg (·.actionType) (List.mem_singleton.mp hsubmit))
  · obtain rfl := List.mem_singleton.mp hin
    exact hkept List.mem_cons_self

/-- A buy at another price replaces the resting one. -/
theorem replaced_covered :
    (0 < (101 : ℚ) ∧ 0 < wantedBuy.qty) ∧
      Covers {} [{ wantedBuy with price := 101 }] [restingBuy] 100 (fun _ => 300000000)
        (plan {} [{ wantedBuy with price := 101 }] [restingBuy] 100 fun _ => 300000000).actions := by
  have hvalid : ∀ intent ∈ [{ wantedBuy with price := 101 }],
      0 < intent.price ∧ 0 < intent.qty := by
    decide +kernel
  refine ⟨by decide +kernel, (covers_iff {} _ [restingBuy] 100 (fun _ => 300000000) hvalid).mpr ?_⟩
  decide +kernel

end Coverage

end OrderLifecycle
