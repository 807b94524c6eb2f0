import Btcbot.ExchangeRules
import Btcbot.BuiltOrders

/-!
# Orders under the rules the exchange lists

The builder asks the rules service for each symbol. Where metadata is required, what it
builds keeps to what the exchange has listed of the symbol not long before.
-/
namespace ListedOrders

open Grid (OnGrid)
open OrderBuilder (BuildInput ClientOrderId OrderIntent buildActionIntent buildIntents stepAction)
open BuiltOrders (WithinRules buildActionIntent_valid)
open ExchangeRules

/-- The builder's rules are those of the service. -/
structure Serves (served : SymbolRules) (rules : OrderBuilder.SymbolRules) : Prop where
  tickSize : rules.tickSize = served.tickSize
  lotSize : rules.lotSize = served.lotSize
  minNotionalTry : rules.minNotionalTry = served.minNotionalTry
  minQty : rules.minQty = served.minQty
  maxQty : rules.maxQty = served.maxQty
  pricePrecision : rules.pricePrecision = served.pricePrecision

/-- What the builder is told of a symbol is the boundary decision of a request for it, after
those before. -/
def ServedBy (settings : Settings) (cacheTtlSec : ℤ) (before : String → List Request)
    (request : String → Request) (exchange : OrderBuilder.ExchangeRules) : Prop :=
  ∀ symbol, (request symbol).symbol = symbol ∧ ∀ rules ∈ (exchange symbol).rules,
    ∃ served ∈ (resolveBoundary settings cacheTtlSec
      (cacheAfter settings cacheTtlSec ∅ (before symbol)) (request symbol)).rules,
      Serves served rules

/-- An order keeps to the rules of a pair and meets every minimum that is stated for it. -/
structure KeepsTo (settings : Settings) (pair : Pair) (intent : OrderIntent) : Prop where
  priceGrid : OnGrid (rulesOf settings pair).1.tickSize intent.priceTry
  qtyGrid : OnGrid (rulesOf settings pair).1.lotSize intent.qty
  minQty : ∀ least ∈ (foundIn pair).minQty, least ≤ intent.qty
  maxQty : ∀ most ∈ (foundIn pair).maxQty, intent.qty ≤ most
  minimums : ∀ minimum ∈ collectMinNotionalCandidates pair,
    minimum ≤ intent.priceTry * intent.qty

variable {settings : Settings} {cacheTtlSec : ℤ} {exchange : OrderBuilder.ExchangeRules}
  {before : String → List Request} {request : String → Request}
  {planSettings : PortfolioPolicy.Settings} {input : BuildInput} {clientOrderId : ClientOrderId}

theorem buildIntents_built {intents : List OrderIntent}
    (h : buildIntents exchange planSettings input clientOrderId = .ok intents) :
    ∀ intent ∈ intents, ∃ capRemaining action,
      buildActionIntent exchange planSettings input clientOrderId capRemaining action =
        .ok intent := by
  obtain ⟨final, hrun, rfl⟩ := PlanFunding.buildIntents_run h
  refine Runs.foldlM_ok_induct (f := stepAction exchange planSettings input clientOrderId)
    (I := fun _ progress => ∀ intent ∈ progress.intents, ∃ capRemaining action,
      buildActionIntent exchange planSettings input clientOrderId capRemaining action =
        .ok intent) ?_ _ (fun _ hin => by cases hin) hrun
  intro _ action progress next hprogress hstep intent hin
  obtain ⟨built, hbuilt, hnext⟩ := Runs.bind_ok hstep
  obtain rfl := Except.ok.inj hnext
  rcases List.mem_append.mp hin with hin | hin
  · exact hprogress intent hin
  · obtain rfl := List.mem_singleton.mp hin
    exact ⟨_, action, hbuilt⟩

/-- An order under the rules read off a pair keeps to the pair. -/
theorem KeepsTo.of_rules {pair : Pair} {served : SymbolRules} {source : String}
    {rules : OrderBuilder.SymbolRules} {intent : OrderIntent}
    (hread : extractRules settings pair = .rules served source) (hserves : Serves served rules)
    (htick : 0 < rules.tickSize → OnGrid rules.tickSize intent.priceTry)
    (hlot : 0 < rules.lotSize → OnGrid rules.lotSize intent.qty)
    (hwithin : WithinRules input rules intent) : KeepsTo settings pair intent := by
  obtain ⟨heq, htickpos, hlotpos, -⟩ := extractRules_rules hread
  rw [← hserves.tickSize] at htickpos
  rw [← hserves.lotSize] at hlotpos
  have hleast := hwithin.minQty
  have hmost := hwithin.maxQty
  have hnotional := hwithin.minNotional
  have hprice := htick htickpos
  have hqty := hlot hlotpos
  rw [hserves.minQty, heq] at hleast
  rw [hserves.maxQty, heq] at hmost
  rw [hserves.minNotionalTry, heq] at hnotional
  rw [hserves.tickSize, heq] at hprice
  rw [hserves.lotSize, heq] at hqty
  exact ⟨hprice, hqty, hleast, hmost, fun minimum hmin =>
    (minNotional_ge settings hmin).trans hnotional⟩

/-- Where metadata is required, an order that is built keeps to a pair which the exchange
listed under its symbol less than the cache's time ago. -/
theorem built_order_listed (hrequire : settings.requireMetadata = true)
    (hserved : ServedBy settings cacheTtlSec before request exchange) {intents : List OrderIntent}
    (h : buildIntents exchange planSettings input clientOrderId = .ok intents) :
    ∀ intent ∈ intents, intent.skipped = false →
      ∃ asked ∈ before intent.symbol ++ [request intent.symbol],
        (request intent.symbol).now - asked.now < ttl cacheTtlSec ∧
        ∃ pair ∈ asked.info.list, normSymbol intent.symbol ∈ namesOf pair ∧
          KeepsTo settings pair intent := by
  intro intent hin hbuilt
  obtain ⟨capRemaining, action, hintent⟩ := buildIntents_built h intent hin
  obtain ⟨rules, hrules, htick, hlot, hwithin⟩ := buildActionIntent_valid hintent hbuilt
  obtain ⟨hsymbol, hboundary⟩ := hserved intent.symbol
  obtain ⟨served, hresolved, hserves⟩ := hboundary rules hrules
  rw [resolveBoundary_rules] at hresolved
  obtain ⟨asked, hasked, hfresh, hrests⟩ := (cacheAfter_kept (before intent.symbol)).rules_rest
    hresolved
  generalize (resolveSymbolRules settings cacheTtlSec
    (cacheAfter settings cacheTtlSec ∅ (before intent.symbol))
    (request intent.symbol)).1.status = status at hrests
  cases hrests with
  | fallback hfall =>
    rw [hrequire] at hfall
    cases hfall
  | @ok pair _ source hpair hkey hread =>
    rw [hsymbol] at hkey
    exact ⟨asked, hasked, hfresh, pair, hpair, hkey,
      KeepsTo.of_rules hread hserves htick hlot hwithin⟩

/-- The rules that were listed, for one symbol. -/
def listedExchange : OrderBuilder.ExchangeRules := fun symbol =>
  if symbol = "BTCTRY" then
    ⟨"ok", some
      { tickSize := 10
        lotSize := 1 / 10000
        minNotionalTry := 241 / 2
        pricePrecision := 0
        tickSize_nonneg := by norm_num
        lotSize_nonneg := by norm_num }⟩
  else ⟨"missing", none⟩

def laterFor (symbol : String) : Request := { laterRequest with symbol }

theorem listedRules_boundary :
    (resolveBoundary {} 300 (cacheAfter {} 300 ∅ [firstRequest]) (laterFor "BTCTRY")).rules =
      some listedRules := by
  have hkey : normSymbol (laterFor "BTCTRY").symbol = "BTCTRY" := by decide +kernel
  have hentry : (cacheAfter {} 300 ∅ [firstRequest])[normSymbol (laterFor "BTCTRY").symbol]? =
      some ⟨listedRules, .ok, 0⟩ := by
    rw [hkey]
    exact listedPair_cached
  exact resolveBoundary_cached hentry (by decide)

theorem listedExchange_served :
    ServedBy {} 300 (fun _ => [firstRequest]) laterFor listedExchange := by
  intro symbol
  refine ⟨rfl, fun rules hrules => ?_⟩
  unfold listedExchange at hrules
  split at hrules
  · next hsymbol =>
    subst hsymbol
    obtain rfl := Option.some.inj hrules
    exact ⟨listedRules, listedRules_boundary, rfl, rfl, rfl, rfl, rfl, rfl⟩
  · cases hrules

/-- A buy of a thousand. -/
def buyInput : BuildInput where
  cycleId := "c"
  plan :=
    { timestamp := ⟨0, true⟩
      symbols := ["BTCTRY"]
      cashTargetTry := 0
      allocations := []
      actions := [⟨"BTC_TRY", .buy, 1000, 1, ⟨false, 0, 1000, none⟩⟩]
      snapshot := none
      balances := [] }
  markPricesTry := ⟨[("BTCTRY", 3000000)], by decide⟩
  finalMode := .normal

def listedBuy : OrderIntent where
  cycleId := "c"
  symbol := "BTCTRY"
  side := .buy
  priceTry := 2998500
  qty := 1 / 5000
  notionalTry := 5997 / 10
  clientOrderId := ""
  reason := ⟨false, 0, 1000, none⟩

theorem listedBuy_listed :
    ∃ asked ∈ [firstRequest] ++ [laterFor "BTCTRY"],
      (laterFor "BTCTRY").now - asked.now < ttl 300 ∧
      ∃ pair ∈ asked.info.list, normSymbol "BTCTRY" ∈ namesOf pair ∧ KeepsTo {} pair listedBuy :=
  @built_order_listed {} 300 listedExchange (fun _ => [firstRequest]) laterFor
    { notionalCapTryPerCycle := 10000 } buyInput (fun _ _ _ _ _ _ => "") rfl listedExchange_served
    [listedBuy] (by decide +kernel) listedBuy List.mem_cons_self rfl

end ListedOrders
