import Btcbot.DecisionPipeline
import Btcbot.Degrade

/-!
# The guard between an agent and the orders

An agent's intents pass the guard on the notional they declare and become orders at their
own price and quantity. The planner's intents declare what they are worth, an agent's need
not.
-/
namespace AgentGuard

open PyData
open AllocationService (Mapping Side)
open DecisionPipeline (Order modeOf)
open Degrade (sortedSet)

section Contract

inductive GuardError where
  | validationError
  | invalidOperation
  | valueError
  | typeError
  deriving DecidableEq, Repr

inductive DecisionAction where
  | proposeIntents
  | adjustRisk
  | observeOnly
  | noOp
  deriving DecidableEq, Repr

def DecisionAction.value : DecisionAction → String
  | .proposeIntents => "propose_intents"
  | .adjustRisk => "adjust_risk"
  | .observeOnly => "observe_only"
  | .noOp => "no_op"

/-- An intent as an agent writes it. -/
structure ProposalFields where
  symbol : String
  side : String
  notionalTry : ℚ
  qty : ℚ
  priceTry : ℚ
  reason : String
  clientOrderId : Option String := none

/-- An intent as the contract accepts it. -/
structure OrderIntentProposal where
  symbol : String
  side : Side
  notionalTry : ℚ
  qty : ℚ
  priceTry : ℚ
  reason : String
  clientOrderId : Option String
  notionalTry_pos : 0 < notionalTry
  qty_pos : 0 < qty
  priceTry_pos : 0 < priceTry
  reason_length : 1 ≤ reason.length ∧ reason.length ≤ 256
  clientOrderId_length : ∀ id ∈ clientOrderId, 4 ≤ id.length ∧ id.length ≤ 64

def proposalSymbol (value : String) : String := strip (canonicalSymbol value)

def proposalSide (value : String) : Option Side :=
  match strip value.toUpper with
  | "BUY" => some .buy
  | "SELL" => some .sell
  | _ => none

def ProposalFields.accept (fields : ProposalFields) : Except GuardError OrderIntentProposal :=
  match proposalSide fields.side with
  | none => .error .validationError
  | some side =>
    if h : 0 < fields.notionalTry ∧ 0 < fields.qty ∧ 0 < fields.priceTry ∧
        (1 ≤ fields.reason.length ∧ fields.reason.length ≤ 256) ∧
        ∀ id ∈ fields.clientOrderId, 4 ≤ id.length ∧ id.length ≤ 64 then
      .ok
        { symbol := proposalSymbol fields.symbol
          side := side
          notionalTry := fields.notionalTry
          qty := fields.qty
          priceTry := fields.priceTry
          reason := fields.reason
          clientOrderId := fields.clientOrderId
          notionalTry_pos := h.1
          qty_pos := h.2.1
          priceTry_pos := h.2.2.1
          reason_length := h.2.2.2.1
          clientOrderId_length := h.2.2.2.2 }
    else .error .validationError

theorem ProposalFields.accept_amounts {fields : ProposalFields} {intent : OrderIntentProposal}
    (h : fields.accept = .ok intent) :
    intent.notionalTry = fields.notionalTry ∧ intent.qty = fields.qty ∧
      intent.priceTry = fields.priceTry := by
  unfold accept at h
  split at h
  · cases h
  · split at h
    · cases h
      exact ⟨rfl, rfl, rfl⟩
    · cases h

structure AgentDecision where
  action : DecisionAction
  proposeIntents : List OrderIntentProposal := []
  observeOnly : Bool := false

inductive RiskValue where
  | decimal (value : ℚ)
  | text (value : String)
  | flag (value : Bool)
  deriving DecidableEq, Repr

structure AgentContext where
  generatedAt : DateTime
  marketSpreadsBps : Mapping ℚ := Mapping.empty
  marketDataAgeSeconds : ℚ := 0
  riskState : Mapping RiskValue
  marketDataAgeSeconds_nonneg : 0 ≤ marketDataAgeSeconds := by decide

/-- What the guard records of a decision it let through or held back. -/
inductive Diff where
  | blocked (action : String × String) (reasons : List String)
  | filtered (droppedIntents keptIntents : ℕ) (droppedBySymbol : Dict (List String))

structure SafeDecision where
  decision : AgentDecision
  blockedReasons : List String := []
  droppedSymbols : List String := []
  observeOnlyOverride : Bool := false
  diff : Diff

end Contract

section Guard

/-- How texts read: whether the decimal of a text is at least a bound, and the time of a
text, where there is one. -/
structure Texts where
  atLeast : String → ℚ → Option Bool
  fromIsoformat : String → Option DateTime

structure SafetyGuard where
  maxExposureTry : ℚ
  maxOrderNotionalTry : ℚ
  maxDrawdownPct : ℚ
  minNotionalTry : ℚ
  maxSpreadBps : ℚ
  symbolAllowlist : List String
  cooldownSeconds : ℤ
  staleDataSeconds : ℤ
  killSwitch : Bool
  safeMode : Bool
  observeOnlyOverride : Bool

variable (texts : Texts) (guard : SafetyGuard) (context : AgentContext)

/-- Whether the entry of the risk state, zero when there is none, is at least a bound. -/
def AgentContext.atLeast (key : String) (bound : ℚ) : Except GuardError Bool :=
  match (context.riskState.get key).getD (.decimal 0) with
  | .decimal value => .ok (decide (bound ≤ value))
  | .text value => ((texts.atLeast value bound).map Except.ok).getD (.error .invalidOperation)
  | .flag _ => .error .invalidOperation

/-- A time with a zone and one without do not compare. -/
def isBefore (time other : DateTime) : Except GuardError Bool :=
  if time.aware = other.aware then .ok (decide (time.micros < other.micros))
  else .error .typeError

def AgentContext.coolingDown : Except GuardError Bool :=
  match context.riskState.get "cooldown_until" with
  | some (.text raw) =>
    if raw = "" then .ok false
    else match texts.fromIsoformat raw with
      | none => .error .valueError
      | some cooldownUntil => isBefore context.generatedAt cooldownUntil
  | _ => .ok false

/-- The reasons for which nothing the agent proposes goes through. -/
def blocked : Except GuardError (List String) := do
  let drawdown ← context.atLeast texts "drawdown_pct" guard.maxDrawdownPct
  let cooldown ← context.coolingDown texts
  let exposure ← context.atLeast texts "gross_exposure_try" guard.maxExposureTry
  return ((if guard.killSwitch then ["kill_switch"] else []) ++
    (if guard.safeMode then ["safe_mode"] else []) ++
    (if guard.observeOnlyOverride then ["observe_only_override"] else []) ++
    (if drawdown then ["max_drawdown"] else []) ++
    (if (guard.staleDataSeconds : ℚ) ≤ context.marketDataAgeSeconds then ["stale_data"] else []) ++
    (if cooldown then ["cooldown"] else []) ++
    (if exposure then ["max_exposure"] else []))

/-- The reasons for which one intent is dropped. -/
def reasons (intent : OrderIntentProposal) : List String :=
  (if intent.symbol ∉ guard.symbolAllowlist then ["symbol_not_allowed"] else []) ++
    (if intent.notionalTry < guard.minNotionalTry then ["below_min_notional"] else []) ++
    (if guard.maxOrderNotionalTry < intent.notionalTry then ["above_max_notional"] else []) ++
    (if guard.maxSpreadBps < (context.marketSpreadsBps.get intent.symbol).getD 0 then
      ["spread_too_wide"] else [])

def safeIntents (intents : List OrderIntentProposal) : List OrderIntentProposal :=
  intents.filter fun intent => reasons guard context intent = []

/-- A symbol keeps the reasons of the last of its intents that was dropped. -/
def droppedBySymbol (intents : List OrderIntentProposal) : Dict (List String) :=
  intents.foldl (fun dropped intent =>
    if reasons guard context intent = [] then dropped
    else dropped.insert intent.symbol (reasons guard context intent)) ∅

def heldBack (decision : AgentDecision) (blocked : List String) : SafeDecision where
  decision := { decision with
    action := .observeOnly
    observeOnly := true
    proposeIntents := [] }
  blockedReasons := sortedSet blocked
  observeOnlyOverride := true
  diff := .blocked (decision.action.value, DecisionAction.observeOnly.value) (sortedSet blocked)

def letThrough (decision : AgentDecision) : SafeDecision :=
  let safe := safeIntents guard context decision.proposeIntents
  let dropped := droppedBySymbol guard context decision.proposeIntents
  { decision := { decision with proposeIntents := safe }
    droppedSymbols := dropped.toList.map Prod.fst
    diff := .filtered (decision.proposeIntents.length - safe.length) safe.length dropped }

def apply (decision : AgentDecision) : Except GuardError SafeDecision := do
  let blocked ← blocked texts guard context
  return if blocked = [] then letThrough guard context decision else heldBack decision blocked

end Guard

section Orders

def orderOf (nowUtc : DateTime) (liveMode : Bool) (item : OrderIntentProposal) : Order where
  symbol := item.symbol
  side := item.side.text
  type := "limit"
  price := item.priceTry
  qty := item.qty
  status := "new"
  createdAt := nowUtc
  updatedAt := nowUtc
  clientOrderId := item.clientOrderId
  mode := modeOf liveMode

def toStage4Orders (safeDecision : SafeDecision) (nowUtc : DateTime) (liveMode : Bool) :
    List Order :=
  if safeDecision.observeOnlyOverride || safeDecision.decision.observeOnly then []
  else safeDecision.decision.proposeIntents.map (orderOf nowUtc liveMode)

end Orders

section Bounds

variable {texts : Texts} {guard : SafetyGuard} {context : AgentContext}

/-- The symbol of an intent is allowed, its spread is narrow enough and what it declares it
is worth is within the bounds. -/
structure Eligible (guard : SafetyGuard) (context : AgentContext)
    (intent : OrderIntentProposal) : Prop where
  allowed : intent.symbol ∈ guard.symbolAllowlist
  declared : guard.minNotionalTry ≤ intent.notionalTry ∧
    intent.notionalTry ≤ guard.maxOrderNotionalTry
  narrow : (context.marketSpreadsBps.get intent.symbol).getD 0 ≤ guard.maxSpreadBps

/-- No switch holds the agent back, its entries of the risk state read and are below their
bounds, and what it saw of the market is fresh. -/
structure Open (texts : Texts) (guard : SafetyGuard) (context : AgentContext) : Prop where
  killSwitch : guard.killSwitch = false
  safeMode : guard.safeMode = false
  observeOnlyOverride : guard.observeOnlyOverride = false
  drawdown : context.atLeast texts "drawdown_pct" guard.maxDrawdownPct = .ok false
  fresh : context.marketDataAgeSeconds < guard.staleDataSeconds
  cooldown : context.coolingDown texts = .ok false
  exposure : context.atLeast texts "gross_exposure_try" guard.maxExposureTry = .ok false

theorem reasons_eq_nil (intent : OrderIntentProposal) :
    reasons guard context intent = [] ↔ Eligible guard context intent := by
  have hconj : reasons guard context intent = [] ↔
      intent.symbol ∈ guard.symbolAllowlist ∧
        (guard.minNotionalTry ≤ intent.notionalTry ∧
          intent.notionalTry ≤ guard.maxOrderNotionalTry) ∧
        (context.marketSpreadsBps.get intent.symbol).getD 0 ≤ guard.maxSpreadBps := by
    simp [reasons, and_assoc]
  rw [hconj]
  exact ⟨fun ⟨hallowed, hdeclared, hnarrow⟩ => ⟨hallowed, hdeclared, hnarrow⟩,
    fun h => ⟨h.allowed, h.declared, h.narrow⟩⟩

theorem blocked_eq_nil : blocked texts guard context = .ok [] ↔ Open texts guard context := by
  constructor
  · intro h
    obtain ⟨drawdown, hdrawdown, h⟩ := Runs.bind_ok h
    obtain ⟨cooldown, hcooldown, h⟩ := Runs.bind_ok h
    obtain ⟨exposure, hexposure, h⟩ := Runs.bind_ok h
    have hnil := Except.ok.inj h
    simp only [List.append_eq_nil_iff, ite_eq_right_iff, reduceCtorEq, imp_false,
      Bool.not_eq_true, not_le, and_assoc] at hnil
    obtain ⟨hkill, hsafe, hoverride, rfl, hfresh, rfl, rfl⟩ := hnil
    exact ⟨hkill, hsafe, hoverride, hdrawdown, hfresh, hcooldown, hexposure⟩
  · intro h
    have hfresh : ¬ (guard.staleDataSeconds : ℚ) ≤ context.marketDataAgeSeconds :=
      not_le.mpr h.fresh
    simp [blocked, h.drawdown, h.cooldown, h.exposure, h.killSwitch, h.safeMode,
      h.observeOnlyOverride, hfresh, pure, Except.pure, bind, Except.bind]

/-- What the guard leaves to build of a decision: nothing, or the intents it has no reason to
drop. -/
theorem toStage4Orders_apply {decision : AgentDecision} {safe : SafeDecision}
    (h : apply texts guard context decision = .ok safe) (nowUtc : DateTime) (liveMode : Bool) :
    toStage4Orders safe nowUtc liveMode =
      if blocked texts guard context = .ok [] ∧ decision.observeOnly = false then
        (safeIntents guard context decision.proposeIntents).map (orderOf nowUtc liveMode)
      else [] := by
  obtain ⟨found, hblocked, hsafe⟩ := Runs.bind_ok h
  obtain rfl := Except.ok.inj hsafe
  rw [hblocked]
  cases found with
  | nil => cases hobserve : decision.observeOnly <;> simp [letThrough, toStage4Orders, hobserve]
  | cons reason rest => simp [heldBack, toStage4Orders]

/-- The real notional of every order is within the guard's bounds. -/
def Bounded (guard : SafetyGuard) (orders : List Order) : Prop :=
  ∀ order ∈ orders, guard.minNotionalTry ≤ order.price * order.qty ∧
    order.price * order.qty ≤ guard.maxOrderNotionalTry

/-- The orders of a decision are within the bounds exactly if the guard is not open, the agent
itself only observes, or every eligible intent is worth an amount within them as well. -/
theorem orders_bounded_iff (texts : Texts) (guard : SafetyGuard) (context : AgentContext)
    (decision : AgentDecision) (nowUtc : DateTime) (liveMode : Bool) :
    (∀ safe, apply texts guard context decision = .ok safe →
        Bounded guard (toStage4Orders safe nowUtc liveMode)) ↔
      ¬ Open texts guard context ∨ decision.observeOnly = true ∨
        ∀ intent ∈ decision.proposeIntents, Eligible guard context intent →
          guard.minNotionalTry ≤ intent.priceTry * intent.qty ∧
            intent.priceTry * intent.qty ≤ guard.maxOrderNotionalTry := by
  have hbuilt : Bounded guard
      ((safeIntents guard context decision.proposeIntents).map (orderOf nowUtc liveMode)) ↔
      ∀ intent ∈ decision.proposeIntents, Eligible guard context intent →
        guard.minNotionalTry ≤ intent.priceTry * intent.qty ∧
          intent.priceTry * intent.qty ≤ guard.maxOrderNotionalTry := by
    simp only [Bounded, safeIntents, List.forall_mem_map, List.mem_filter, decide_eq_true_eq,
      and_imp, reasons_eq_nil]
    rfl
  constructor
  · intro hbounded
    by_cases hopen : Open texts guard context
    · cases hobserve : decision.observeOnly with
      | true => exact .inr (.inl rfl)
      | false =>
        have hblocked := blocked_eq_nil.mpr hopen
        have happly : apply texts guard context decision =
            .ok (letThrough guard context decision) := by
          simp [apply, hblocked, pure, Except.pure, bind, Except.bind]
        have horders := hbounded _ happly
        rw [toStage4Orders_apply happly, if_pos ⟨hblocked, hobserve⟩] at horders
        exact .inr (.inr (hbuilt.mp horders))
    · exact .inl hopen
  · intro hcondition safe hsafe
    rw [toStage4Orders_apply hsafe]
    split
    · next hboth =>
      rcases hcondition with hclosed | hobserve | hreal
      · exact absurd (blocked_eq_nil.mp hboth.1) hclosed
      · simp [hobserve] at hboth
      · exact hbuilt.mpr hreal
    · intro order horder
      cases horder

/-- An intent of a hundred at a price of a hundred, for a thousand units. -/
def inflated : OrderIntentProposal where
  symbol := "BTCTRY"
  side := .buy
  notionalTry := 100
  qty := 1000
  priceTry := 100
  reason := "llm"
  clientOrderId := none
  notionalTry_pos := by decide
  qty_pos := by decide
  priceTry_pos := by decide
  reason_length := by decide
  clientOrderId_length := by simp

def openGuard : SafetyGuard where
  maxExposureTry := 1000
  maxOrderNotionalTry := 200
  maxDrawdownPct := 10
  minNotionalTry := 10
  maxSpreadBps := 100
  symbolAllowlist := ["BTCTRY"]
  cooldownSeconds := 60
  staleDataSeconds := 30
  killSwitch := false
  safeMode := false
  observeOnlyOverride := false

theorem inflated_unbounded :
    ¬ ∀ (texts : Texts) (guard : SafetyGuard) (context : AgentContext)
        (decision : AgentDecision) (safe : SafeDecision) (nowUtc : DateTime) (liveMode : Bool),
      apply texts guard context decision = .ok safe →
        Bounded guard (toStage4Orders safe nowUtc liveMode) := by
  intro h
  let texts : Texts := ⟨fun _ _ => none, fun _ => none⟩
  let context : AgentContext := { generatedAt := ⟨0, true⟩, riskState := Mapping.empty }
  let decision : AgentDecision := { action := .proposeIntents, proposeIntents := [inflated] }
  have hpass : reasons openGuard context inflated = [] := by decide +kernel
  have horder : orderOf ⟨0, true⟩ true inflated ∈
      toStage4Orders (letThrough openGuard context decision) ⟨0, true⟩ true := by
    simp [toStage4Orders, letThrough, safeIntents, decision, hpass]
  have hbounded := h texts openGuard context decision _ ⟨0, true⟩ true rfl _ horder
  have habove : ¬ inflated.priceTry * inflated.qty ≤ openGuard.maxOrderNotionalTry := by
    decide +kernel
  exact habove hbounded.2

/-- The intents of a decision declare what they are worth. -/
def Declared (decision : AgentDecision) : Prop :=
  ∀ intent ∈ decision.proposeIntents, intent.notionalTry = intent.priceTry * intent.qty

theorem Declared.orders_bounded {decision : AgentDecision} (h : Declared decision)
    {safe : SafeDecision} (happly : apply texts guard context decision = .ok safe)
    (nowUtc : DateTime) (liveMode : Bool) :
    Bounded guard (toStage4Orders safe nowUtc liveMode) := by
  intro order horder
  rw [toStage4Orders_apply happly] at horder
  split at horder
  · obtain ⟨intent, hin, rfl⟩ := List.mem_map.mp horder
    obtain ⟨hintent, hpass⟩ := List.mem_filter.mp hin
    have hbounds := ((reasons_eq_nil intent).mp (of_decide_eq_true hpass)).declared
    rw [h intent hintent] at hbounds
    exact hbounds
  · cases horder

end Bounds

section Policy

/-- The settings of the agent's policy. -/
structure Settings where
  agentPolicyEnabled : Bool := false
  riskMaxGrossExposureTry : ℚ := 10000
  riskMaxOrderNotionalTry : ℚ := 3000
  agentMaxOrderNotionalTry : ℚ := 0
  maxDrawdownPct : ℚ := 10
  minOrderNotionalTry : ℚ := 10
  agentMaxSpreadBps : ℚ := 120
  agentSymbolAllowlist : List String := []
  symbols : List String
  cooldownSeconds : ℤ := 60
  staleMarketDataSeconds : ℤ := 30
  killSwitchEffective : Bool := false
  safeMode : Bool := true
  agentObserveOnly : Bool := false

structure Position where
  symbol : String
  qty : ℚ
  avgCostTry : ℚ
  deriving DecidableEq, Repr

/-- What a cycle hands to the policy. -/
structure PolicyInput where
  cycleNow : DateTime
  intents : List Order
  markPrices : Mapping ℚ
  marketSpreadsBps : Mapping ℚ
  marketDataAgeSeconds : ℚ
  positions : List Position
  drawdownPct : ℚ
  liveMode : Bool
  budgetGuardMultiplier : ℚ

variable (texts : Texts) (settings : Settings) (input : PolicyInput)

def grossExposureTry : ℚ :=
  (input.positions.map fun position =>
    position.qty *
      (input.markPrices.get (normalizeSymbol position.symbol)).getD position.avgCostTry).sum

def riskState : Mapping RiskValue where
  entries :=
    [("kill_switch", .flag settings.killSwitchEffective),
      ("safe_mode", .flag settings.safeMode),
      ("drawdown_pct", .decimal input.drawdownPct),
      ("gross_exposure_try", .decimal (grossExposureTry input)),
      ("stale_data_seconds", .decimal settings.staleMarketDataSeconds)]
  nodup := by simp [KeyedTable.keys]

def contextOf : Except GuardError AgentContext :=
  if h : 0 ≤ input.marketDataAgeSeconds then
    .ok
      { generatedAt := input.cycleNow
        marketSpreadsBps := input.marketSpreadsBps
        marketDataAgeSeconds := input.marketDataAgeSeconds
        riskState := riskState settings input
        marketDataAgeSeconds_nonneg := h }
  else .error .validationError

/-- A planned order as the intent of an agent. -/
def proposalOf (order : Order) : ProposalFields where
  symbol := normalizeSymbol order.symbol
  side := order.side
  priceTry := order.price
  qty := order.qty
  notionalTry := order.price * order.qty
  reason := if order.clientOrderId.getD "" = "" then "pipeline_intent"
    else order.clientOrderId.getD ""
  clientOrderId := order.clientOrderId

def baseDecision : Except GuardError AgentDecision :=
  (input.intents.mapM fun order => (proposalOf order).accept).map fun proposals =>
    { action := .proposeIntents, proposeIntents := proposals }

def guardMultiplier : ℚ := min 1 (max 0 input.budgetGuardMultiplier)

def agentGuard : SafetyGuard where
  maxExposureTry := settings.riskMaxGrossExposureTry * guardMultiplier input
  maxOrderNotionalTry :=
    (if 0 < settings.agentMaxOrderNotionalTry then settings.agentMaxOrderNotionalTry
      else settings.riskMaxOrderNotionalTry) * guardMultiplier input
  maxDrawdownPct := settings.maxDrawdownPct
  minNotionalTry := settings.minOrderNotionalTry
  maxSpreadBps := settings.agentMaxSpreadBps
  symbolAllowlist :=
    (if settings.agentSymbolAllowlist = [] then settings.symbols
      else settings.agentSymbolAllowlist).map normalizeSymbol
  cooldownSeconds := settings.cooldownSeconds
  staleDataSeconds := settings.staleMarketDataSeconds
  killSwitch := settings.killSwitchEffective
  safeMode := settings.safeMode
  observeOnlyOverride := settings.agentObserveOnly

/-- A policy that has nothing to propose leaves planning as it is. -/
def evaluated (answer baseDecision : AgentDecision) : AgentDecision :=
  if answer.action ∈ [.noOp, .adjustRisk] then baseDecision else answer

/-- The orders that a policy leaves of the planned ones, or puts in their place. -/
def applyAgentPolicy (evaluate : AgentContext → AgentDecision) :
    Except GuardError (List Order) :=
  if settings.agentPolicyEnabled then do
    let context ← contextOf settings input
    let baseDecision ← baseDecision input
    let safeDecision ← apply texts (agentGuard settings input) context
      (evaluated (evaluate context) baseDecision)
    return toStage4Orders safeDecision input.cycleNow input.liveMode
  else .ok input.intents

theorem baseDecision_declared {decision : AgentDecision}
    (h : baseDecision input = .ok decision) : Declared decision := by
  unfold baseDecision at h
  cases hproposals : input.intents.mapM fun order => (proposalOf order).accept with
  | error error =>
    rw [hproposals] at h
    cases h
  | ok proposals =>
    rw [hproposals] at h
    cases h
    intro intent hintent
    obtain ⟨order, -, horder⟩ := Runs.mem_of_forall₂ (Runs.mapM_ok hproposals) hintent
    obtain ⟨hnotional, hqty, hprice⟩ := ProposalFields.accept_amounts horder
    rw [hnotional, hqty, hprice]
    rfl

/-- A policy that leaves planning alone gets orders within the bounds of its guard. -/
theorem applyAgentPolicy_bounded {evaluate : AgentContext → AgentDecision} {orders : List Order}
    (henabled : settings.agentPolicyEnabled = true)
    (hkeep : ∀ context, (evaluate context).action ∈ [DecisionAction.noOp, .adjustRisk])
    (h : applyAgentPolicy texts settings input evaluate = .ok orders) :
    Bounded (agentGuard settings input) orders := by
  unfold applyAgentPolicy at h
  rw [if_pos henabled] at h
  obtain ⟨context, -, h⟩ := Runs.bind_ok h
  obtain ⟨decision, hbase, h⟩ := Runs.bind_ok h
  obtain ⟨safe, happly, h⟩ := Runs.bind_ok h
  obtain rfl := Except.ok.inj h
  have hevaluated : evaluated (evaluate context) decision = decision := if_pos (hkeep context)
  rw [hevaluated] at happly
  exact (baseDecision_declared input hbase).orders_bounded happly _ _

end Policy

end AgentGuard
