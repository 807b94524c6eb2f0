import Btcbot.AllocationService
import Mathlib.Data.List.Dedup
import Mathlib.Data.List.Sort
import Mathlib.Data.Prod.Lex

/-!
# The planning kernel

A plan is made in four steps that the kernel is given: the universe, the intents of the
strategies, their allocation and the order intents. Between them the kernel sorts.
-/
namespace PlanningKernel

open PyData
open AllocationService (Mapping)

section Data

structure OpenOrderView where
  symbol : String
  side : String
  orderType : String
  price : ℚ
  qty : ℚ
  clientOrderId : String
  status : Option String := none
  deriving DecidableEq, Repr

structure Intent where
  symbol : String
  side : String
  targetNotionalTry : ℚ
  rationale : String
  strategyId : String
  deriving DecidableEq, Repr

structure OrderIntent where
  cycleId : String
  symbol : String
  side : String
  orderType : String
  priceTry : ℚ
  qty : ℚ
  notionalTry : ℚ
  clientOrderId : String
  reason : String
  constraintsApplied : List (String × String)
  skipped : Bool := false
  skipReason : Option String := none
  deriving DecidableEq, Repr

structure Plan where
  cycleId : String
  generatedAt : DateTime
  planUniverse : List String
  intentsRaw : List Intent
  intentsAllocated : List Intent
  orderIntents : List OrderIntent
  planningGates : List (String × String)
  diagnostics : List (String × String)
  deriving DecidableEq, Repr

/-- What the kernel itself reads of a context. -/
structure PlanningContext where
  cycleId : String
  nowUtc : DateTime
  markPricesTry : Mapping ℚ
  cashTry : ℚ
  openOrders : List OpenOrderView

end Data

section Order

def Intent.key (intent : Intent) : String ×ₗ String ×ₗ String ×ₗ String ×ₗ ℚ :=
  toLex (normalizeSymbol intent.symbol, toLex (intent.side.toUpper,
    toLex (intent.strategyId, toLex (intent.rationale, intent.targetNotionalTry))))

def Intent.SortsBefore (a b : Intent) : Prop := a.key ≤ b.key

instance : DecidableRel Intent.SortsBefore := fun a b =>
  inferInstanceAs (Decidable (a.key ≤ b.key))

def OrderIntent.key (intent : OrderIntent) : String ×ₗ String ×ₗ String :=
  toLex (normalizeSymbol intent.symbol, toLex (intent.side.toUpper, intent.clientOrderId))

def OrderIntent.SortsBefore (a b : OrderIntent) : Prop := a.key ≤ b.key

instance : DecidableRel OrderIntent.SortsBefore := fun a b =>
  inferInstanceAs (Decidable (a.key ≤ b.key))

end Order

section Kernel

variable {C : Type} {m : Type → Type}

/-- The steps, for contexts of a runner and with its effects. -/
structure Kernel (C : Type) (m : Type → Type) where
  context : C → PlanningContext
  select : C → List String
  generateIntents : C → List String → m (List Intent)
  allocate : C → List Intent → List Intent
  build : C → List Intent → m (List OrderIntent)

def boolText (value : Bool) : String := if value then "true" else "false"

def universeOf (selected : List String) : List String :=
  (selected.map normalizeSymbol).dedup.insertionSort (· ≤ ·)

def sortIntents (intents : List Intent) : List Intent := intents.insertionSort Intent.SortsBefore

def sortOrderIntents (intents : List OrderIntent) : List OrderIntent :=
  intents.insertionSort OrderIntent.SortsBefore

def Kernel.plan [Monad m] (kernel : Kernel C m) (c : C) : m Plan := do
  let context := kernel.context c
  let planUniverse := universeOf (kernel.select c)
  let generated ← kernel.generateIntents c planUniverse
  let rawIntents := sortIntents generated
  let allocatedIntents := sortIntents (kernel.allocate c rawIntents)
  let built ← kernel.build c allocatedIntents
  let orderIntents := sortOrderIntents built
  return {
    cycleId := context.cycleId
    generatedAt := ensureUtc context.nowUtc
    planUniverse := planUniverse
    intentsRaw := rawIntents
    intentsAllocated := allocatedIntents
    orderIntents := orderIntents
    planningGates := [
      ("market_data_available", boolText (context.markPricesTry.entries ≠ [])),
      ("cash_available", boolText (0 < context.cashTry)),
      ("orders_planned", boolText (orderIntents.any fun intent => !intent.skipped))]
    diagnostics := [
      ("universe_count", toString planUniverse.length),
      ("raw_intent_count", toString rawIntents.length),
      ("allocated_intent_count", toString allocatedIntents.length),
      ("order_intent_count", toString orderIntents.length),
      ("open_order_count", toString context.openOrders.length)] }

theorem sortOrderIntents_perm (intents : List OrderIntent) :
    (sortOrderIntents intents).Perm intents := List.perm_insertionSort _ _

/-- Symbols that are spelled as they should be and different make a universe as they are. -/
theorem universeOf_perm {selected : List String} (hnodup : selected.Nodup)
    (hnormal : ∀ symbol ∈ selected, normalizeSymbol symbol = symbol) :
    (universeOf selected).Perm selected := by
  have hmap : selected.map normalizeSymbol = selected :=
    (List.map_congr_left hnormal).trans (List.map_id selected)
  rw [universeOf, hmap, hnodup.dedup]
  exact List.perm_insertionSort _ _

end Kernel

section Runs

variable {C σ ε : Type} (kernel : Kernel C (StateT σ (Except ε))) (c : C)

/-- The order intents of a plan are those that were built, sorted. -/
theorem Kernel.plan_run {s s' s'' : σ} {intents : List Intent} {built : List OrderIntent}
    (hgenerate : (kernel.generateIntents c (universeOf (kernel.select c))).run s =
      .ok (intents, s'))
    (hbuild : (kernel.build c (sortIntents (kernel.allocate c (sortIntents intents)))).run s' =
      .ok (built, s'')) :
    ∃ plan, (kernel.plan c).run s = .ok (plan, s'') ∧
      plan.orderIntents = sortOrderIntents built := by
  constructor
  constructor
  · simp only [Kernel.plan, StateT.run_bind, hgenerate]
    simp only [Except.bind, bind, hbuild]
    rfl
  · rfl

theorem Kernel.plan_error {s : σ} {e : ε}
    (hgenerate : (kernel.generateIntents c (universeOf (kernel.select c))).run s = .error e) :
    (kernel.plan c).run s = .error e := by
  simp only [Kernel.plan, StateT.run_bind, hgenerate]
  rfl

end Runs

end PlanningKernel
