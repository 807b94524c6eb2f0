import Btcbot.DecimalText
import Btcbot.Degrade
import Btcbot.Runs

/-!
# The trading rules of a symbol

The rules are read off what the exchange lists of a pair, which comes in several shapes, and
are kept for a while under every name of the pair. What is not understood is refused, or
replaced by fixed rules where the settings allow it.
-/
namespace ExchangeRules

open PyData DecimalText
open Degrade (Instant)

section Metadata

/-- A value as the exchange lists it: numbers print and read back as decimals. -/
inductive Value where
  | null
  | text (s : String)
  | number (n : PrintedDecimal)
  | mapping (entries : List (String × Value))
  | list (items : List Value)

/-- A pair as it is listed: a mapping, or an object with the fields as attributes. -/
structure Pair where
  typeName : String
  isMapping : Bool
  fields : List (String × Value)

def normSymbol (s : String) : String := String.ofList (s.toUpper.toList.filter Char.isAlphanum)

@[simp] theorem normSymbol_idem (s : String) : normSymbol (normSymbol s) = normSymbol s := by
  have hupper : (s.toUpper.toList.filter Char.isAlphanum).map Char.toUpper =
      s.toUpper.toList.filter Char.isAlphanum := by
    refine (List.map_congr_left fun c hc => ?_).trans (List.map_id _)
    have hmem := (List.mem_filter.mp hc).1
    rw [String.toUpper, String.toList_map] at hmem
    obtain ⟨b, -, rfl⟩ := List.mem_map.mp hmem
    exact toUpper_idem b
  simp only [normSymbol, String.toUpper, String.toList_map, String.toList_ofList] at hupper ⊢
  rw [hupper, List.filter_filter]
  simp only [Bool.and_self]

def Pair.get (pair : Pair) (name : String) : Value := (pair.fields.lookup name).getD .null

/-- The first of the fields that the pair has, be it null. -/
def readField (pair : Pair) (names : List String) : Value :=
  (names.findSome? fun name => pair.fields.lookup name).getD .null

def candidateFields (pair : Pair) : List String :=
  if pair.isMapping then
    ["pairSymbol", "pairSymbolNormalized", "symbol", "name", "nameNormalized", "name_normalized"]
  else
    ["pair_symbol", "pair_symbol_normalized", "symbol", "name", "name_normalized",
      "nameNormalized"]

/-- The names the pair is listed under. -/
def pairSymbolCandidates (pair : Pair) : List String :=
  (candidateFields pair).filterMap fun field =>
    match pair.get field with
    | .text s => if s = "" then none else some s
    | _ => none

/-- A text may also have a plus sign. -/
def readSigned (text : String) : Option ℚ :=
  match text.toList with
  | '+' :: rest => readUnsigned rest
  | _ => readDecimal text

/-- The source's `_to_decimal`, but for three things it also does: a mapping or a list, being
unhashable, raises there, and the texts of `NaN`, `Infinity` and digits joined by underscores
read there as decimals. All of them are none here. -/
def toDecimal : Value → Option ℚ
  | .text s => readSigned (strip s).toUpper
  | .number n => some n.value
  | _ => none

def readInt (text : String) : Option ℤ :=
  match text.toList with
  | '-' :: c :: rest => (readDigits 0 (c :: rest)).map fun n => -(n : ℤ)
  | '+' :: c :: rest => (readDigits 0 (c :: rest)).map fun n => (n : ℤ)
  | c :: rest => (readDigits 0 (c :: rest)).map fun n => (n : ℤ)
  | [] => none

def toInt : Value → Option ℤ
  | .text s => readInt (strip s)
  | .number n => readInt n.text
  | _ => none

def truthy : Value → Bool
  | .null => false
  | .text s => s ≠ ""
  | .number n => n.value ≠ 0
  | .mapping entries => !entries.isEmpty
  | .list items => !items.isEmpty

def getEntry (entries : List (String × Value)) (name : String) : Value :=
  (entries.lookup name).getD .null

/-- The first of the entries that is not empty or zero, or the last. -/
def firstTruthy (entries : List (String × Value)) : List String → Value
  | [] => .null
  | [name] => getEntry entries name
  | name :: names =>
    if truthy (getEntry entries name) then getEntry entries name else firstTruthy entries names

/-- A value that is missing or zero gives way to the next. -/
def orElse (value next : Option ℚ) : Option ℚ :=
  match value with
  | none => next
  | some x => if x = 0 then next else some x

/-- Only a missing value gives way. -/
def orMissing (value next : Option ℚ) : Option ℚ := if value.isSome then value else next

def positiveDecimalValues (values : List Value) : List ℚ :=
  (values.filterMap toDecimal).filter (0 < ·)

/-- The filters of a pair; a mapping stands for its values. -/
inductive Filters where
  | absent
  | items (filters : List Value)
  | unsupported

def filtersOf (pair : Pair) : Filters :=
  match readField pair ["filters"] with
  | .null => .absent
  | .mapping entries => .items (entries.map Prod.snd)
  | .list filters => .items filters
  | _ => .unsupported

def Filters.list : Filters → List Value
  | .items filters => filters
  | _ => []

def constraintsOf (pair : Pair) : Option (List (String × Value)) :=
  match readField pair ["constraints", "ruleSet", "tradingRules"] with
  | .mapping entries => some entries
  | _ => none

def minNotionalFields : List String :=
  ["min_total_amount", "minTotalAmount", "minExchangeValue", "minTotal", "minNotional",
    "minNotionalValue", "minOrderAmount", "minimumOrderAmount", "minQuoteAmount",
    "min_trade_amount"]

def filterFields : List String :=
  ["minTotalAmount", "minExchangeValue", "minAmount", "minNotional", "minNotionalValue",
    "minOrderAmount", "minQuoteAmount"]

def constraintFields : List String :=
  ["minTotalAmount", "minExchangeValue", "minNotional", "minNotionalValue", "minOrderAmount",
    "minQuoteAmount"]

/-- The minima under the fields looked for, in the pair, its filters and its constraints. The
`min_total_amount` of the constraints is not one of them. -/
def collectMinNotionalCandidates (pair : Pair) : List ℚ :=
  positiveDecimalValues
    (minNotionalFields.map (fun field => readField pair [field]) ++
      (filtersOf pair).list.flatMap (fun item =>
        match item with
        | .mapping entries => filterFields.map (getEntry entries)
        | _ => []) ++
      match constraintsOf pair with
      | some entries => constraintFields.map (getEntry entries)
      | none => [])

def isTryQuotePair (pair : Pair) : Bool :=
  (match readField pair ["denominator", "quoteAsset", "quote"] with
    | .text s => (strip s).toUpper = "TRY"
    | _ => false) ||
  (pairSymbolCandidates pair).any fun candidate => (normSymbol candidate).endsWith "TRY"

end Metadata

section Extraction

structure SymbolRules where
  tickSize : ℚ
  lotSize : ℚ
  minNotionalTry : ℚ
  minQty : Option ℚ := none
  maxQty : Option ℚ := none
  pricePrecision : ℤ := 8
  qtyPrecision : ℤ := 8
  deriving DecidableEq, Repr

structure Settings where
  fallbackTickSize : ℚ := 1 / 100
  fallbackLotSize : ℚ := 1 / 10 ^ 8
  fallbackMinNotionalTry : ℚ := 10
  safeMinNotionalTry : ℚ := 100
  minOrderNotionalTry : ℚ := 0
  requireMetadata : Bool := true

def fallbackRules (settings : Settings) : SymbolRules where
  tickSize := settings.fallbackTickSize
  lotSize := settings.fallbackLotSize
  minNotionalTry := settings.fallbackMinNotionalTry

def deriveSafeMinNotionalTry (settings : Settings) : ℚ :=
  max (max (max settings.safeMinNotionalTry settings.fallbackMinNotionalTry)
    settings.minOrderNotionalTry) 100

/-- The values found so far. -/
structure Found where
  tickSize : Option ℚ
  lotSize : Option ℚ
  minNotionalTry : Option ℚ
  minQty : Option ℚ
  maxQty : Option ℚ

def initiallyFound (pair : Pair) : Found where
  tickSize := toDecimal (readField pair ["tick_size", "tickSize"])
  lotSize := toDecimal (readField pair ["step_size", "stepSize", "lotSize"])
  minNotionalTry := (collectMinNotionalCandidates pair).max?
  minQty := toDecimal (readField pair ["min_quantity", "minQuantity", "minQty"])
  maxQty := toDecimal (readField pair ["max_quantity", "maxQuantity", "maxQty"])

def filterType (entries : List (String × Value)) : String :=
  match getEntry entries "filterType" with
  | .text s => s.toUpper
  | .number n => if n.value = 0 then "" else n.text.toUpper
  | _ => ""

/-- The minimum is taken from the first of the entries that has one. -/
def orMinimum (entries : List (String × Value)) (names : List String) (value : Option ℚ) :
    Option ℚ :=
  names.foldl (fun value name => orElse value (toDecimal (getEntry entries name))) value

def applyFilter (found : Found) : Value → Found
  | .mapping entries =>
    let priced := if filterType entries = "PRICE_FILTER" then
      { found with
        tickSize := orElse found.tickSize (toDecimal (getEntry entries "tickSize"))
        minNotionalTry := orMinimum entries ["minExchangeValue", "minAmount", "minNotional"]
          found.minNotionalTry }
      else found
    let sized := if filterType entries ∈ ["LOT_SIZE", "MARKET_LOT_SIZE", "QUANTITY_FILTER"] then
      { priced with
        lotSize := orElse priced.lotSize (toDecimal (getEntry entries "stepSize"))
        minQty := orMissing priced.minQty (toDecimal (getEntry entries "minQty"))
        maxQty := orMissing priced.maxQty (toDecimal (getEntry entries "maxQty")) }
      else priced
    if filterType entries ∈ ["MIN_TOTAL", "MIN_NOTIONAL", "NOTIONAL"] then
      { sized with
        minNotionalTry := orMinimum entries
          ["minTotalAmount", "minExchangeValue", "minAmount", "minNotional"]
          sized.minNotionalTry }
    else sized
  | _ => found

def applyConstraints (found : Found) (entries : List (String × Value)) : Found where
  tickSize := orElse found.tickSize (toDecimal (firstTruthy entries ["tickSize", "tick_size"]))
  lotSize := orElse found.lotSize (toDecimal (firstTruthy entries ["stepSize", "step_size"]))
  minNotionalTry := orElse found.minNotionalTry
    (toDecimal (firstTruthy entries ["minNotional", "min_total_amount", "minExchangeValue"]))
  minQty := orMissing found.minQty (toDecimal (getEntry entries "minQty"))
  maxQty := orMissing found.maxQty (toDecimal (getEntry entries "maxQty"))

/-- The decimal places of a positive value without its trailing zeros. -/
def inferPrecision (value : Option ℚ) : ℤ :=
  match value with
  | none => 8
  | some x =>
    if x ≤ 0 then 8
    else ((List.range (x.den.log2 + 1)).find? fun places => x.den ∣ 10 ^ places).getD 0

/-- A lot that is missing or zero is the least quantity, or the last place of the scale. -/
def lotSizeOf (found : Found) (numeratorScale : Option ℤ) : Option ℚ :=
  let fromQty := if found.lotSize.getD 0 = 0 ∧ 0 < found.minQty.getD 0 then found.minQty
    else found.lotSize
  match numeratorScale with
  | some scale => if fromQty.getD 0 = 0 then some ((10 : ℚ) ^ (-scale)) else fromQty
  | none => fromQty

inductive Status where
  | ok
  | fallback
  | missing
  | invalidMetadata
  | unsupportedSchemaVariant
  | upstreamFetchFailure
  deriving DecidableEq, Repr

inductive Extraction where
  | rules (rules : SymbolRules) (minNotionalSource : String)
  | refused (status : Status) (missingFields invalidFields : List String)

def foundIn (pair : Pair) : Found :=
  let filtered := (filtersOf pair).list.foldl applyFilter (initiallyFound pair)
  match constraintsOf pair with
  | some entries => applyConstraints filtered entries
  | none => filtered

/-- The fields of which something holds, in the order they are named. -/
def fieldsWhere (tickSize lotSize minNotionalTry : Bool) : List String :=
  (if lotSize then ["lot_size"] else []) ++ (if minNotionalTry then ["min_notional_try"] else []) ++
    (if tickSize then ["tick_size"] else [])

def rulesOf (settings : Settings) (pair : Pair) : SymbolRules × Option ℚ × String :=
  let found := foundIn pair
  let numeratorScale := toInt (readField pair ["numerator_scale", "numeratorScale"])
  let denominatorScale := toInt (readField pair ["denominator_scale", "denominatorScale"])
  let lotSize := lotSizeOf found numeratorScale
  let safe := found.minNotionalTry = none ∧ isTryQuotePair pair = true
  let minNotionalTry := if safe then some (deriveSafeMinNotionalTry settings)
    else found.minNotionalTry
  ({ tickSize := found.tickSize.getD 0
     lotSize := lotSize.getD 0
     minNotionalTry := minNotionalTry.getD 0
     minQty := found.minQty
     maxQty := found.maxQty
     pricePrecision := denominatorScale.getD (inferPrecision found.tickSize)
     qtyPrecision := numeratorScale.getD (inferPrecision lotSize) },
    minNotionalTry, if safe then "safe_default_try_quote" else "metadata")

def extractRules (settings : Settings) (pair : Pair) : Extraction :=
  match filtersOf pair with
  | .unsupported => .refused .unsupportedSchemaVariant [] []
  | _ =>
    let (rules, minNotionalTry, source) := rulesOf settings pair
    let numeratorScale := toInt (readField pair ["numerator_scale", "numeratorScale"])
    let missingFields := fieldsWhere (foundIn pair).tickSize.isNone
      (lotSizeOf (foundIn pair) numeratorScale).isNone minNotionalTry.isNone
    let invalidFields := fieldsWhere (rules.tickSize ≤ 0) (rules.lotSize ≤ 0)
      (rules.minNotionalTry ≤ 0)
    if missingFields ≠ [] ∨ invalidFields ≠ [] then
      .refused .invalidMetadata missingFields invalidFields
    else .rules rules source

theorem fieldsWhere_eq_nil (tickSize lotSize minNotionalTry : Bool) :
    fieldsWhere tickSize lotSize minNotionalTry = [] ↔
      tickSize = false ∧ lotSize = false ∧ minNotionalTry = false := by
  cases tickSize <;> cases lotSize <;> cases minNotionalTry <;> decide

/-- Rules that were read are those of the pair, and usable. -/
theorem extractRules_rules {settings : Settings} {pair : Pair} {rules : SymbolRules}
    {source : String} (h : extractRules settings pair = .rules rules source) :
    rules = (rulesOf settings pair).1 ∧ 0 < rules.tickSize ∧ 0 < rules.lotSize ∧
      0 < rules.minNotionalTry := by
  unfold extractRules at h
  split at h
  · exact absurd h Extraction.noConfusion
  · simp only at h
    split at h
    · exact absurd h Extraction.noConfusion
    · next hissues =>
      obtain ⟨rfl, -⟩ := Extraction.rules.inj h
      obtain ⟨-, hvalid⟩ := not_or.mp hissues
      have hfields := (fieldsWhere_eq_nil _ _ _).mp (not_not.mp hvalid)
      simpa using hfields

theorem orElse_of_ne_zero {x : ℚ} (hx : x ≠ 0) (next : Option ℚ) :
    orElse (some x) next = some x := if_neg hx

/-- Filters replace no minimum that was stated. -/
theorem orMinimum_of_ne_zero {x : ℚ} (hx : x ≠ 0) (entries : List (String × Value))
    (names : List String) : orMinimum entries names (some x) = some x := by
  induction names with
  | nil => rfl
  | cons name names ih =>
    rw [orMinimum, List.foldl_cons, orElse_of_ne_zero hx]
    exact ih

theorem applyFilter_minNotional {x : ℚ} (hx : x ≠ 0) {found : Found}
    (h : found.minNotionalTry = some x) (filter : Value) :
    (applyFilter found filter).minNotionalTry = some x := by
  cases filter with
  | mapping entries =>
    simp only [applyFilter]
    split <;> split <;> split <;> simp [h, orMinimum_of_ne_zero hx]
  | _ => exact h

theorem applyFilters_minNotional {x : ℚ} (hx : x ≠ 0) {found : Found}
    (h : found.minNotionalTry = some x) (filters : List Value) :
    (filters.foldl applyFilter found).minNotionalTry = some x := by
  induction filters generalizing found with
  | nil => exact h
  | cons filter filters ih => exact ih (applyFilter_minNotional hx h filter)

theorem foundIn_minNotional {x : ℚ} (hx : x ≠ 0) {pair : Pair}
    (h : (collectMinNotionalCandidates pair).max? = some x) :
    (foundIn pair).minNotionalTry = some x := by
  have hfilters := @applyFilters_minNotional x hx (initiallyFound pair) h (filtersOf pair).list
  unfold foundIn
  cases hconstraints : constraintsOf pair with
  | none => exact hfilters
  | some entries => simp [applyConstraints, hfilters, orElse_of_ne_zero hx]

theorem collectMinNotionalCandidates_pos {pair : Pair} {minimum : ℚ}
    (h : minimum ∈ collectMinNotionalCandidates pair) : 0 < minimum := by
  simpa using (List.mem_filter.mp h).2

/-- The least notional is no less than any minimum that is stated. -/
theorem minNotional_ge (settings : Settings) {pair : Pair} {minimum : ℚ}
    (h : minimum ∈ collectMinNotionalCandidates pair) :
    minimum ≤ (rulesOf settings pair).1.minNotionalTry := by
  obtain ⟨greatest, hmax⟩ := Option.isSome_iff_exists.mp (List.isSome_max?_of_mem h)
  obtain ⟨hmem, hge⟩ := List.max?_eq_some_iff.mp hmax
  have hne := (collectMinNotionalCandidates_pos hmem).ne'
  have hfound := foundIn_minNotional hne hmax
  have heq : (rulesOf settings pair).1.minNotionalTry = greatest := by
    simp [rulesOf, hfound]
  rw [heq]
  exact hge minimum h

end Extraction

section Service

structure CachedRules where
  rules : SymbolRules
  status : Status
  cachedAt : Instant

structure SymbolRulesResolution where
  symbol : String
  status : Status
  rules : Option SymbolRules
  reason : Option String := none
  deriving DecidableEq, Repr

/-- What the exchange answers when it is asked for its pairs. -/
inductive ExchangeInfo where
  | notCallable
  | raises (errorType : String)
  | pairs (listed : List Pair)

structure Request where
  now : Instant
  info : ExchangeInfo
  symbol : String

abbrev Cache := Dict CachedRules

variable (settings : Settings) (cacheTtlSec : ℤ)

/-- A cache keeps its rules for a second at least. -/
def ttl : ℤ := max 1 cacheTtlSec * 1000000

theorem ttl_pos : 0 < ttl cacheTtlSec := by
  unfold ttl
  omega

def ExchangeInfo.list : ExchangeInfo → List Pair
  | .pairs listed => listed
  | _ => []

def indexPair (index : Dict Pair) (pair : Pair) : Dict Pair :=
  (pairSymbolCandidates pair).foldl (fun index candidate =>
    index.insert (normSymbol candidate) pair) index

/-- The pairs by their names; of two pairs of one name the later is kept. -/
def indexOf (pairs : List Pair) : Dict Pair := pairs.foldl indexPair ∅

def serializeIssues (source : String) (missing invalid : List String) : String :=
  ";".intercalate (["source=" ++ source] ++
    (if missing = [] then [] else ["missing=" ++ ",".intercalate missing]) ++
    (if invalid = [] then [] else ["invalid=" ++ ",".intercalate invalid]))

def storeAliases (cache : Cache) (entry : CachedRules) (names : List String) : Cache :=
  names.foldl (fun cache name => cache.insert (normSymbol name) entry) cache

/-- The fixed rules, kept under the one name asked for. -/
def resolveFallback (cache : Cache) (key : String) (now : Instant) :
    SymbolRulesResolution × Cache :=
  (⟨key, .fallback, some (fallbackRules settings), none⟩,
    cache.insert key ⟨fallbackRules settings, .fallback, now⟩)

/-- The rules of the pair that was found, if any. -/
def resolvePair (cache : Cache) (key : String) (now : Instant) (found : Option Pair) :
    SymbolRulesResolution × Cache :=
  match found with
  | none =>
    if settings.requireMetadata then (⟨key, .missing, none, some "metadata_missing"⟩, cache)
    else resolveFallback settings cache key now
  | some pair =>
    match extractRules settings pair with
    | .rules rules _ =>
      (⟨key, .ok, some rules, none⟩,
        (storeAliases cache ⟨rules, .ok, now⟩ (pairSymbolCandidates pair)).insert key
          ⟨rules, .ok, now⟩)
    | .refused status missing invalid =>
      if settings.requireMetadata then
        (⟨key, status, none, some (serializeIssues pair.typeName missing invalid)⟩, cache)
      else resolveFallback settings cache key now

/-- The rules fetched now. -/
def fetchRules (cache : Cache) (request : Request) : SymbolRulesResolution × Cache :=
  let key := normSymbol request.symbol
  match request.info with
  | .raises errorType =>
    (⟨key, .upstreamFetchFailure, none, some ("upstream_fetch_failure:" ++ errorType)⟩, cache)
  | info => resolvePair settings cache key request.now (indexOf info.list)[key]?

def resolveSymbolRules (cache : Cache) (request : Request) : SymbolRulesResolution × Cache :=
  let key := normSymbol request.symbol
  match cache[key]? with
  | some entry =>
    if request.now - entry.cachedAt < ttl cacheTtlSec then
      (⟨key, entry.status, some entry.rules, none⟩, cache)
    else fetchRules settings cache request
  | none => fetchRules settings cache request

/-- The cache after some requests. -/
abbrev cacheAfter (cache : Cache) (requests : List Request) : Cache :=
  Runs.run (fun cache request => (resolveSymbolRules settings cacheTtlSec cache request).2) cache
    requests

inductive Outcome where
  | ok
  | skip
  | degrade
  deriving DecidableEq, Repr

def statusText : Status → String
  | .ok => "ok"
  | .fallback => "fallback"
  | .missing => "missing"
  | .invalidMetadata => "invalid_metadata"
  | .unsupportedSchemaVariant => "unsupported_schema_variant"
  | .upstreamFetchFailure => "upstream_fetch_failure"

def statusToBoundary (status : Status) (requireMetadata : Bool) : Outcome × String :=
  match status with
  | .ok => (.ok, "ok")
  | .fallback => (.degrade, "fallback_rules")
  | .upstreamFetchFailure => (.skip, "upstream_fetch_failure")
  | status => (.skip, if requireMetadata then statusText status else "fallback_blocked")

structure RulesBoundaryDecision where
  symbol : String
  outcome : Outcome
  rules : Option SymbolRules
  reason : String

def resolveBoundary (cache : Cache) (request : Request) : RulesBoundaryDecision :=
  let normalized := normSymbol request.symbol
  let resolution :=
    (resolveSymbolRules settings cacheTtlSec cache { request with symbol := normalized }).1
  let (outcome, reason) := statusToBoundary resolution.status settings.requireMetadata
  ⟨normalized, outcome, resolution.rules, resolution.reason.getD reason⟩

def getRules (cache : Cache) (request : Request) : Except String SymbolRules :=
  let resolution := (resolveSymbolRules settings cacheTtlSec cache request).1
  match resolution.rules with
  | some rules => .ok rules
  | none => .error ("No usable exchange rules for symbol=" ++ request.symbol ++ " status=" ++
      statusText resolution.status ++ (resolution.reason.map (" reason=" ++ ·)).getD "")

def namesOf (pair : Pair) : List String := (pairSymbolCandidates pair).map normSymbol

theorem foldl_insert_get {α V : Type} (name : α → String) (value : V) (items : List α)
    (d : Dict V) (key : String) :
    (items.foldl (fun d item => d.insert (name item) value) d)[key]? =
      if key ∈ items.map name then some value else d[key]? := by
  induction items generalizing d with
  | nil => simp
  | cons item items ih =>
    rw [List.foldl_cons, ih, Dict.insert_get]
    by_cases hitem : name item = key
    · simp [hitem]
    · simp [hitem, Ne.symm hitem]

theorem indexPair_get (index : Dict Pair) (pair : Pair) (key : String) :
    (indexPair index pair)[key]? = if key ∈ namesOf pair then some pair else index[key]? :=
  foldl_insert_get normSymbol pair (pairSymbolCandidates pair) index key

theorem storeAliases_get (cache : Cache) (entry : CachedRules) (names : List String)
    (key : String) :
    (storeAliases cache entry names)[key]? =
      if key ∈ names.map normSymbol then some entry else cache[key]? :=
  foldl_insert_get normSymbol entry names cache key

theorem indexOf_append (pairs : List Pair) (pair : Pair) (key : String) :
    (indexOf (pairs ++ [pair]))[key]? =
      if key ∈ namesOf pair then some pair else (indexOf pairs)[key]? := by
  rw [indexOf, List.foldl_append]
  exact indexPair_get _ pair key

/-- What is found under a name is a pair listed under it. -/
theorem indexOf_listed {pairs : List Pair} {key : String} {pair : Pair}
    (h : (indexOf pairs)[key]? = some pair) : pair ∈ pairs ∧ key ∈ namesOf pair := by
  induction pairs using List.reverseRecOn with
  | nil => simp [indexOf] at h
  | append_singleton pairs last ih =>
    rw [indexOf_append] at h
    split at h
    · next hkey =>
      obtain rfl := Option.some.inj h
      exact ⟨List.mem_append_right pairs (List.mem_singleton_self _), hkey⟩
    · obtain ⟨hmem, hkey⟩ := ih h
      exact ⟨List.mem_append_left _ hmem, hkey⟩

theorem indexOf_isSome {pairs : List Pair} {key : String} {pair : Pair} (hmem : pair ∈ pairs)
    (hkey : key ∈ namesOf pair) : ∃ other, (indexOf pairs)[key]? = some other := by
  induction pairs using List.reverseRecOn with
  | nil => cases hmem
  | append_singleton pairs last ih =>
    rw [indexOf_append]
    split
    · exact ⟨last, rfl⟩
    · next hlast =>
      rcases List.mem_append.mp hmem with hmem | hmem
      · exact ih hmem
      · rw [List.mem_singleton.mp hmem] at hkey
        exact absurd hkey hlast

/-- No two pairs share a name. -/
def Unambiguous (pairs : List Pair) : Prop :=
  ∀ pair ∈ pairs, ∀ other ∈ pairs, ∀ key ∈ namesOf pair, key ∈ namesOf other → pair = other

theorem Unambiguous.indexOf_eq {pairs : List Pair} (h : Unambiguous pairs) {key : String}
    {pair : Pair} (hmem : pair ∈ pairs) (hkey : key ∈ namesOf pair) :
    (indexOf pairs)[key]? = some pair := by
  obtain ⟨other, hother⟩ := indexOf_isSome hmem hkey
  obtain ⟨hlisted, hnamed⟩ := indexOf_listed hother
  rw [hother, h pair hmem other hlisted key hkey hnamed]

/-- What the rules of a symbol rest on: a pair that is listed under it, or the settings. -/
inductive RestsOn (listed : List Pair) (key : String) : Status → SymbolRules → Prop
  | ok {pair : Pair} {rules : SymbolRules} {source : String} (hpair : pair ∈ listed)
      (hkey : key ∈ namesOf pair) (hrules : extractRules settings pair = .rules rules source) :
      RestsOn listed key .ok rules
  | fallback (hrequire : settings.requireMetadata = false) :
      RestsOn listed key .fallback (fallbackRules settings)

variable {settings cacheTtlSec}

theorem resolveFallback_entry {cache : Cache} {key name : String} {now : Instant}
    {entry : CachedRules} (h : (resolveFallback settings cache key now).2[name]? = some entry)
    (hrequire : settings.requireMetadata = false) (listed : List Pair) :
    cache[name]? = some entry ∨
      entry.cachedAt = now ∧ RestsOn settings listed name entry.status entry.rules := by
  rw [resolveFallback, Dict.insert_get] at h
  split at h
  · obtain rfl := Option.some.inj h
    exact Or.inr ⟨rfl, .fallback hrequire⟩
  · exact Or.inl h

/-- What a fetch does: it refuses, falls back, or keeps the rules of the pair it found. -/
theorem resolvePair_cases (cache : Cache) (key : String) (now : Instant) (found : Option Pair) :
    (∃ status reason,
      resolvePair settings cache key now found = (⟨key, status, none, some reason⟩, cache)) ∨
    (settings.requireMetadata = false ∧
      resolvePair settings cache key now found = resolveFallback settings cache key now) ∨
    (∃ pair rules source, found = some pair ∧ extractRules settings pair = .rules rules source ∧
      resolvePair settings cache key now found =
        (⟨key, .ok, some rules, none⟩,
          (storeAliases cache ⟨rules, .ok, now⟩ (pairSymbolCandidates pair)).insert key
            ⟨rules, .ok, now⟩)) := by
  cases hrequire : settings.requireMetadata <;> cases found with
  | none => simp [resolvePair, hrequire]
  | some pair => cases hrules : extractRules settings pair <;>
      simp [resolvePair, hrequire, hrules]

/-- A fetch stores only what the rules of their names rest on now. -/
theorem resolvePair_entry {cache : Cache} {pairs : List Pair} {key name : String} {now : Instant}
    {entry : CachedRules}
    (h : (resolvePair settings cache key now (indexOf pairs)[key]?).2[name]? = some entry) :
    cache[name]? = some entry ∨
      entry.cachedAt = now ∧ RestsOn settings pairs name entry.status entry.rules := by
  obtain ⟨status, reason, heq⟩ | ⟨hrequire, heq⟩ | ⟨pair, rules, source, hfound, hrules, heq⟩ :=
    @resolvePair_cases settings cache key now (indexOf pairs)[key]?
  · rw [heq] at h
    exact Or.inl h
  · rw [heq] at h
    exact resolveFallback_entry h hrequire pairs
  · obtain ⟨hpair, hkey⟩ := indexOf_listed hfound
    simp only [heq, Dict.insert_get, storeAliases_get] at h
    split at h
    · next hname =>
      obtain rfl := Option.some.inj h
      exact Or.inr ⟨rfl, .ok hpair (hname ▸ hkey) hrules⟩
    · split at h
      · next halias =>
        obtain rfl := Option.some.inj h
        exact Or.inr ⟨rfl, .ok hpair halias hrules⟩
      · exact Or.inl h

/-- What a fetch answers rests on what is listed now. -/
theorem resolvePair_rules {cache : Cache} {pairs : List Pair} {key : String} {now : Instant}
    {rules : SymbolRules}
    (h : (resolvePair settings cache key now (indexOf pairs)[key]?).1.rules = some rules) :
    RestsOn settings pairs key (resolvePair settings cache key now (indexOf pairs)[key]?).1.status
      rules := by
  obtain ⟨status, reason, heq⟩ | ⟨hrequire, heq⟩ | ⟨pair, read, source, hfound, hrules, heq⟩ :=
    @resolvePair_cases settings cache key now (indexOf pairs)[key]?
  · rw [heq] at h
    cases h
  · rw [heq] at h ⊢
    obtain rfl : fallbackRules settings = rules := Option.some.inj h
    exact .fallback hrequire
  · rw [heq] at h ⊢
    obtain rfl : read = rules := Option.some.inj h
    obtain ⟨hpair, hkey⟩ := indexOf_listed hfound
    exact .ok hpair hkey hrules

/-- A request is served from the cache, cannot be answered, or is resolved by a fetch. -/
theorem resolveSymbolRules_cases (cache : Cache) (request : Request) :
    (∃ entry, cache[normSymbol request.symbol]? = some entry ∧
      request.now - entry.cachedAt < ttl cacheTtlSec ∧
      resolveSymbolRules settings cacheTtlSec cache request =
        (⟨normSymbol request.symbol, entry.status, some entry.rules, none⟩, cache)) ∨
    (∃ errorType, request.info = .raises errorType ∧
      resolveSymbolRules settings cacheTtlSec cache request =
        (⟨normSymbol request.symbol, .upstreamFetchFailure, none,
          some ("upstream_fetch_failure:" ++ errorType)⟩, cache)) ∨
    ((∀ errorType, request.info ≠ .raises errorType) ∧
      resolveSymbolRules settings cacheTtlSec cache request =
        resolvePair settings cache (normSymbol request.symbol) request.now
          (indexOf request.info.list)[normSymbol request.symbol]?) := by
  have hfetch : (∃ errorType, request.info = .raises errorType ∧
      fetchRules settings cache request =
        (⟨normSymbol request.symbol, .upstreamFetchFailure, none,
          some ("upstream_fetch_failure:" ++ errorType)⟩, cache)) ∨
      ((∀ errorType, request.info ≠ .raises errorType) ∧
        fetchRules settings cache request =
          resolvePair settings cache (normSymbol request.symbol) request.now
            (indexOf request.info.list)[normSymbol request.symbol]?) := by
    unfold fetchRules
    cases request.info with
    | raises errorType => exact Or.inl ⟨errorType, rfl, rfl⟩
    | notCallable => exact Or.inr ⟨fun _ => ExchangeInfo.noConfusion, rfl⟩
    | pairs listed => exact Or.inr ⟨fun _ => ExchangeInfo.noConfusion, rfl⟩
  cases hentry : cache[normSymbol request.symbol]? with
  | none =>
    have heq : resolveSymbolRules settings cacheTtlSec cache request =
        fetchRules settings cache request := by simp only [resolveSymbolRules, hentry]
    rw [heq]
    exact Or.inr hfetch
  | some entry =>
    by_cases hfresh : request.now - entry.cachedAt < ttl cacheTtlSec
    · exact Or.inl ⟨entry, rfl, hfresh, by simp only [resolveSymbolRules, hentry, if_pos hfresh]⟩
    · have heq : resolveSymbolRules settings cacheTtlSec cache request =
          fetchRules settings cache request := by
        simp only [resolveSymbolRules, hentry, if_neg hfresh]
      rw [heq]
      exact Or.inr hfetch

/-- What is kept rests on what some request was answered. -/
def Kept (settings : Settings) (requests : List Request) (cache : Cache) : Prop :=
  ∀ key entry, cache[key]? = some entry → ∃ asked ∈ requests, asked.now = entry.cachedAt ∧
    RestsOn settings asked.info.list key entry.status entry.rules

theorem Kept.append {requests : List Request} {cache : Cache} (h : Kept settings requests cache)
    (request : Request) : Kept settings (requests ++ [request]) cache := by
  intro key entry hentry
  obtain ⟨asked, hasked, hrests⟩ := h key entry hentry
  exact ⟨asked, List.mem_append_left _ hasked, hrests⟩

theorem Kept.resolve {requests : List Request} {cache : Cache} (h : Kept settings requests cache)
    (request : Request) :
    Kept settings (requests ++ [request])
      (resolveSymbolRules settings cacheTtlSec cache request).2 := by
  obtain ⟨served, -, -, heq⟩ | ⟨errorType, -, heq⟩ | ⟨hanswers, heq⟩ :=
    @resolveSymbolRules_cases settings cacheTtlSec cache request
  · rw [heq]
    exact h.append request
  · rw [heq]
    exact h.append request
  · intro key entry hentry
    rw [heq] at hentry
    rcases resolvePair_entry hentry with hold | ⟨hnow, hrests⟩
    · exact h.append request key entry hold
    · exact ⟨request, List.mem_append_right _ (List.mem_singleton_self _), hnow.symm, hrests⟩

theorem cacheAfter_kept (requests : List Request) :
    Kept settings requests (cacheAfter settings cacheTtlSec ∅ requests) :=
  Runs.run_induct (fun _ request _ hkept => hkept.resolve request) ∅ requests fun key entry h => by
    simp at h

/-- A boundary decision has the rules that its request is answered. -/
theorem resolveBoundary_rules (cache : Cache) (request : Request) :
    (resolveBoundary settings cacheTtlSec cache request).rules =
      (resolveSymbolRules settings cacheTtlSec cache request).1.rules := by
  simp [resolveBoundary, resolveSymbolRules, fetchRules]

/-- Rules that are served rest on what a request was answered not long ago. -/
theorem Kept.rules_rest {requests : List Request} {cache : Cache}
    (h : Kept settings requests cache) {request : Request} {rules : SymbolRules}
    (hrules : (resolveSymbolRules settings cacheTtlSec cache request).1.rules = some rules) :
    ∃ asked ∈ requests ++ [request], request.now - asked.now < ttl cacheTtlSec ∧
      RestsOn settings asked.info.list (normSymbol request.symbol)
        (resolveSymbolRules settings cacheTtlSec cache request).1.status rules := by
  obtain ⟨served, hserved, hfresh, heq⟩ | ⟨errorType, -, heq⟩ | ⟨hanswers, heq⟩ :=
    @resolveSymbolRules_cases settings cacheTtlSec cache request
  · obtain ⟨asked, hasked, hnow, hrests⟩ := h _ _ hserved
    rw [heq] at hrules ⊢
    obtain rfl : served.rules = rules := Option.some.inj hrules
    rw [← hnow] at hfresh
    exact ⟨asked, List.mem_append_left _ hasked, hfresh, hrests⟩
  · rw [heq] at hrules
    cases hrules
  · rw [heq] at hrules ⊢
    refine ⟨request, List.mem_append_right _ (List.mem_singleton_self _), ?_,
      resolvePair_rules hrules⟩
    rw [sub_self]
    exact ttl_pos cacheTtlSec

/-- What is wrong with an order under the rules, or `ok`. -/
def validateNotional (rules : SymbolRules) (price qty : ℚ) : Bool × String :=
  if price ≤ 0 then (false, "price_non_positive")
  else if qty ≤ 0 then (false, "qty_non_positive")
  else if rules.minQty.any (qty < ·) then (false, "min_qty")
  else if rules.maxQty.any (· < qty) then (false, "max_qty")
  else if price * qty < rules.minNotionalTry then (false, "min_notional")
  else (true, "ok")

theorem validateNotional_ok {rules : SymbolRules} {price qty : ℚ}
    (h : (validateNotional rules price qty).1 = true) :
    0 < price ∧ 0 < qty ∧ (∀ least ∈ rules.minQty, least ≤ qty) ∧
      (∀ most ∈ rules.maxQty, qty ≤ most) ∧ rules.minNotionalTry ≤ price * qty := by
  rw [validateNotional] at h
  split at h
  · cases h
  · next hprice =>
    split at h
    · cases h
    · next hqty =>
      split at h
      · cases h
      · next hleast =>
        split at h
        · cases h
        · next hmost =>
          split at h
          · cases h
          · next hnotional =>
            refine ⟨not_le.mp hprice, not_le.mp hqty, fun least hmem => ?_, fun most hmem => ?_,
              not_lt.mp hnotional⟩
            · rw [Option.mem_def.mp hmem] at hleast
              simpa using hleast
            · rw [Option.mem_def.mp hmem] at hmost
              simpa using hmost

/-- An order that passes under the rules of its symbol meets every minimum that the exchange
stated for a pair of that name less than the cache's time ago; where metadata is not required
it may have passed under the fixed rules instead. -/
theorem validated_order (requests : List Request) (request : Request) {rules : SymbolRules}
    {price qty : ℚ}
    (hrules : getRules settings cacheTtlSec (cacheAfter settings cacheTtlSec ∅ requests) request =
      .ok rules)
    (hvalid : (validateNotional rules price qty).1 = true) :
    (settings.requireMetadata = false ∧ rules = fallbackRules settings) ∨
    ∃ asked ∈ requests ++ [request], request.now - asked.now < ttl cacheTtlSec ∧
      ∃ pair ∈ asked.info.list, normSymbol request.symbol ∈ namesOf pair ∧
        0 < rules.tickSize ∧ 0 < rules.lotSize ∧
        (∀ least ∈ (foundIn pair).minQty, least ≤ qty) ∧
        (∀ most ∈ (foundIn pair).maxQty, qty ≤ most) ∧
        ∀ minimum ∈ collectMinNotionalCandidates pair, minimum ≤ price * qty := by
  have hsome : (resolveSymbolRules settings cacheTtlSec
      (cacheAfter settings cacheTtlSec ∅ requests) request).1.rules = some rules := by
    simp only [getRules] at hrules
    split at hrules
    · next heq => rw [heq, Except.ok.inj hrules]
    · cases hrules
  obtain ⟨asked, hasked, hfresh, hrests⟩ := (cacheAfter_kept requests).rules_rest hsome
  generalize (resolveSymbolRules settings cacheTtlSec
    (cacheAfter settings cacheTtlSec ∅ requests) request).1.status = status at hrests
  cases hrests with
  | fallback hrequire => exact Or.inl ⟨hrequire, rfl⟩
  | @ok pair _ source hpair hkey hread =>
    obtain ⟨heq, htick, hlot, -⟩ := extractRules_rules hread
    obtain ⟨-, -, hleast, hmost, hnotional⟩ := validateNotional_ok hvalid
    rw [heq] at hleast hmost
    refine Or.inr ⟨asked, hasked, hfresh, pair, hpair, hkey, htick, hlot, hleast, hmost,
      fun minimum hmin => ?_⟩
    have hge := minNotional_ge settings hmin
    rw [← heq] at hge
    exact hge.trans hnotional

theorem resolveSymbolRules_fetched {settings : Settings} {cacheTtlSec : ℤ} {cache : Cache}
    {request : Request} {listed : List Pair} {pair : Pair} {rules : SymbolRules} {source : String}
    (hinfo : request.info = .pairs listed) (hnone : cache[normSymbol request.symbol]? = none)
    (hfound : (indexOf listed)[normSymbol request.symbol]? = some pair)
    (hread : extractRules settings pair = .rules rules source) :
    (resolveSymbolRules settings cacheTtlSec cache request).2[normSymbol request.symbol]? =
      some ⟨rules, .ok, request.now⟩ := by
  simp [resolveSymbolRules, fetchRules, hnone, hinfo, ExchangeInfo.list, hfound, resolvePair, hread]

theorem getRules_cached {settings : Settings} {cacheTtlSec : ℤ} {cache : Cache}
    {request : Request} {entry : CachedRules}
    (hentry : cache[normSymbol request.symbol]? = some entry)
    (hfresh : request.now - entry.cachedAt < ttl cacheTtlSec) :
    getRules settings cacheTtlSec cache request = .ok entry.rules := by
  simp [getRules, resolveSymbolRules, hentry, hfresh]

theorem resolveBoundary_cached {settings : Settings} {cacheTtlSec : ℤ} {cache : Cache}
    {request : Request} {entry : CachedRules}
    (hentry : cache[normSymbol request.symbol]? = some entry)
    (hfresh : request.now - entry.cachedAt < ttl cacheTtlSec) :
    (resolveBoundary settings cacheTtlSec cache request).rules = some entry.rules := by
  simp [resolveBoundary, resolveSymbolRules, hentry, hfresh]

/-- A pair under two names, and a request for each; the second finds the exchange down. -/
def listedPair : Pair where
  typeName := "dict"
  isMapping := true
  fields := [("pairSymbol", .text "BTC-TRY"), ("name", .text "BTCTRY"),
    ("filters", .list [.mapping [("filterType", .text "PRICE_FILTER"), ("tickSize", .text "10"),
      ("minExchangeValue", .text "99.91")]]),
    ("numeratorScale", .text "4"), ("minTotalAmount", .text "120.5")]

def listedRules : SymbolRules where
  tickSize := 10
  lotSize := 1 / 10000
  minNotionalTry := 241 / 2
  pricePrecision := 0
  qtyPrecision := 4

def firstRequest : Request := ⟨0, .pairs [listedPair], "BTC-TRY"⟩

def laterRequest : Request := ⟨60000000, .raises "TimeoutError", "btc_try"⟩

theorem listedPair_found : foundIn listedPair = ⟨some 10, none, some (241 / 2), none, none⟩ := by
  have htick : (foundIn listedPair).tickSize = some 10 := by decide +kernel
  have hlot : (foundIn listedPair).lotSize = none := by decide +kernel
  have hminimum : (foundIn listedPair).minNotionalTry = some (241 / 2) := by decide +kernel
  have hleast : (foundIn listedPair).minQty = none := by decide +kernel
  have hmost : (foundIn listedPair).maxQty = none := by decide +kernel
  generalize foundIn listedPair = found at *
  cases found
  simp_all

theorem listedPair_read : extractRules {} listedPair = .rules listedRules "metadata" := by
  have hscale : toInt (readField listedPair ["numerator_scale", "numeratorScale"]) = some 4 := by
    decide +kernel
  have hdenominator :
      toInt (readField listedPair ["denominator_scale", "denominatorScale"]) = none := by
    decide +kernel
  have hrules : rulesOf {} listedPair = (listedRules, some (241 / 2), "metadata") := by
    unfold rulesOf
    rw [listedPair_found, hscale, hdenominator]
    decide +kernel
  unfold extractRules
  rw [listedPair_found, hscale, hrules]
  split
  · next hfilters =>
    exact absurd (congrArg (fun filters => filters matches .unsupported) hfilters)
      (by decide +kernel)
  · exact if_neg (by decide +kernel)

theorem listedPair_cached :
    (cacheAfter {} 300 ∅ [firstRequest])["BTCTRY"]? = some ⟨listedRules, .ok, 0⟩ := by
  have hkey : normSymbol firstRequest.symbol = "BTCTRY" := by decide +kernel
  have hnamed : "BTCTRY" ∈ namesOf listedPair := by decide +kernel
  have hfound : (indexOf [listedPair])[normSymbol firstRequest.symbol]? = some listedPair := by
    rw [hkey]
    exact (indexOf_append [] listedPair "BTCTRY").trans (if_pos hnamed)
  have hfetched := @resolveSymbolRules_fetched {} 300 ∅ firstRequest [listedPair] listedPair
    listedRules "metadata" rfl Std.ExtTreeMap.getElem?_empty hfound listedPair_read
  rw [hkey] at hfetched
  rw [cacheAfter, Runs.run_cons, Runs.run_nil]
  exact hfetched

theorem listedRules_served :
    getRules {} 300 (cacheAfter {} 300 ∅ [firstRequest]) laterRequest = .ok listedRules := by
  have hkey : normSymbol laterRequest.symbol = "BTCTRY" := by decide +kernel
  have hentry : (cacheAfter {} 300 ∅ [firstRequest])[normSymbol laterRequest.symbol]? =
      some ⟨listedRules, .ok, 0⟩ := by
    rw [hkey]
    exact listedPair_cached
  exact getRules_cached hentry (by decide)

theorem validated_later :
    getRules {} 300 (cacheAfter {} 300 ∅ [firstRequest]) laterRequest = .ok listedRules ∧
    ((Settings.requireMetadata {} = false ∧ listedRules = fallbackRules {}) ∨
      ∃ asked ∈ [firstRequest] ++ [laterRequest], laterRequest.now - asked.now < ttl 300 ∧
        ∃ pair ∈ asked.info.list, normSymbol laterRequest.symbol ∈ namesOf pair ∧
          0 < listedRules.tickSize ∧ 0 < listedRules.lotSize ∧
          (∀ least ∈ (foundIn pair).minQty, least ≤ 1 / 1000) ∧
          (∀ most ∈ (foundIn pair).maxQty, 1 / 1000 ≤ most) ∧
          ∀ minimum ∈ collectMinNotionalCandidates pair, minimum ≤ 3000000 * (1 / 1000)) :=
  ⟨listedRules_served,
    validated_order [firstRequest] laterRequest listedRules_served (by decide +kernel)⟩

theorem resolvePair_answer (cache other : Cache) (key : String) (now later : Instant)
    (found : Option Pair) :
    (resolvePair settings cache key now found).1 =
      (resolvePair settings other key later found).1 := by
  cases hrequire : settings.requireMetadata <;> cases found with
  | none => simp [resolvePair, resolveFallback, hrequire]
  | some pair => cases hrules : extractRules settings pair <;>
      simp [resolvePair, resolveFallback, hrequire, hrules]

/-- Every entry is what a fetch would answer of these pairs. -/
def Current (settings : Settings) (pairs : List Pair) (cache : Cache) : Prop :=
  ∀ key entry, cache[key]? = some entry →
    (resolvePair settings ∅ key 0 (indexOf pairs)[key]?).1 =
      ⟨key, entry.status, some entry.rules, none⟩

theorem Current.insert {pairs : List Pair} {cache : Cache} (h : Current settings pairs cache)
    {key : String} {entry : CachedRules}
    (hentry : (resolvePair settings ∅ key 0 (indexOf pairs)[key]?).1 =
      ⟨key, entry.status, some entry.rules, none⟩) :
    Current settings pairs (cache.insert key entry) := by
  intro name other hother
  rw [Dict.insert_get] at hother
  split at hother
  · next hname =>
    rw [← hname, hentry, Option.some.inj hother]
  · exact h name other hother

theorem Current.storeAliases {pairs : List Pair} {cache : Cache}
    (h : Current settings pairs cache) {entry : CachedRules} {names : List String}
    (hentry : ∀ key ∈ names.map normSymbol,
      (resolvePair settings ∅ key 0 (indexOf pairs)[key]?).1 =
        ⟨key, entry.status, some entry.rules, none⟩) :
    Current settings pairs (storeAliases cache entry names) := by
  induction names generalizing cache with
  | nil => exact h
  | cons name names ih =>
    exact ih (h.insert (hentry _ List.mem_cons_self)) fun key hkey =>
      hentry key (List.mem_cons_of_mem _ hkey)

/-- Under pairs of which no two share a name, a fetch keeps what it would answer again. -/
theorem Current.resolvePair {pairs : List Pair} {cache : Cache}
    (h : Current settings pairs cache) (hnames : Unambiguous pairs) (key : String)
    (now : Instant) :
    Current settings pairs (resolvePair settings cache key now (indexOf pairs)[key]?).2 := by
  have hanswer := @resolvePair_answer settings cache ∅ key now 0 (indexOf pairs)[key]?
  obtain ⟨status, reason, heq⟩ | ⟨hrequire, heq⟩ | ⟨pair, rules, source, hfound, hrules, heq⟩ :=
    @resolvePair_cases settings cache key now (indexOf pairs)[key]?
  · rw [heq]
    exact h
  · rw [heq] at hanswer ⊢
    exact h.insert hanswer.symm
  · rw [heq] at hanswer ⊢
    obtain ⟨hpair, -⟩ := indexOf_listed hfound
    refine (h.storeAliases fun name hname => ?_).insert hanswer.symm
    rw [hnames.indexOf_eq hpair hname]
    simp [ExchangeRules.resolvePair, hrules]

/-- Whenever the exchange answers the request, it lists these pairs. -/
def Lists (pairs : List Pair) (request : Request) : Prop :=
  request.info = .pairs pairs ∨ ∃ errorType, request.info = .raises errorType

theorem Current.resolveSymbolRules {pairs : List Pair} {cache : Cache}
    (h : Current settings pairs cache) (hnames : Unambiguous pairs) {request : Request}
    (hlists : Lists pairs request) :
    Current settings pairs (resolveSymbolRules settings cacheTtlSec cache request).2 := by
  obtain ⟨served, -, -, heq⟩ | ⟨errorType, -, heq⟩ | ⟨hanswers, heq⟩ :=
    @resolveSymbolRules_cases settings cacheTtlSec cache request
  · rw [heq]
    exact h
  · rw [heq]
    exact h
  · rcases hlists with hinfo | ⟨errorType, hraises⟩
    · rw [heq, hinfo]
      exact h.resolvePair hnames _ _
    · exact absurd hraises (hanswers errorType)

theorem cacheAfter_current {pairs : List Pair} (hnames : Unambiguous pairs)
    {requests : List Request} (hlists : ∀ asked ∈ requests, Lists pairs asked) :
    Current settings pairs (cacheAfter settings cacheTtlSec ∅ requests) := by
  refine Runs.run_meets (fun _ _ hcurrent hlists => hcurrent.resolveSymbolRules hnames hlists) ∅
    requests (fun key entry h => by simp at h) (Runs.meets_iff_split.mpr ?_)
  rintro before asked after rfl
  exact hlists asked (List.mem_append_right before List.mem_cons_self)

/-- While the exchange lists the same pairs and no two of them share a name, a resolution is
what an empty cache gives of these pairs, unless the exchange could not be asked. -/
theorem cache_agrees {pairs : List Pair} (hnames : Unambiguous pairs) (requests : List Request)
    (request : Request) (hlists : ∀ asked ∈ requests ++ [request], Lists pairs asked) :
    (∃ errorType, request.info = .raises errorType ∧
      (resolveSymbolRules settings cacheTtlSec (cacheAfter settings cacheTtlSec ∅ requests)
        request).1.status = .upstreamFetchFailure) ∨
    (resolveSymbolRules settings cacheTtlSec (cacheAfter settings cacheTtlSec ∅ requests)
        request).1 =
      (resolveSymbolRules settings cacheTtlSec ∅ { request with info := .pairs pairs }).1 := by
  have hcurrent : Current settings pairs (cacheAfter settings cacheTtlSec ∅ requests) :=
    cacheAfter_current hnames fun asked hasked => hlists asked (List.mem_append_left _ hasked)
  have hplain : (resolveSymbolRules settings cacheTtlSec ∅
      { request with info := .pairs pairs }).1 =
      (resolvePair settings ∅ (normSymbol request.symbol) 0
        (indexOf pairs)[normSymbol request.symbol]?).1 := by
    simpa [resolveSymbolRules, fetchRules, ExchangeInfo.list] using resolvePair_answer ∅ ∅ _ _ _ _
  rw [hplain]
  obtain ⟨served, hserved, -, heq⟩ | ⟨errorType, hraises, heq⟩ | ⟨hanswers, heq⟩ :=
    @resolveSymbolRules_cases settings cacheTtlSec (cacheAfter settings cacheTtlSec ∅ requests)
      request
  · rw [heq, hcurrent _ _ hserved]
    exact Or.inr rfl
  · rw [heq]
    exact Or.inl ⟨errorType, hraises, rfl⟩
  · rcases hlists request (List.mem_append_right _ (List.mem_singleton_self _)) with
      hinfo | ⟨errorType, hraises⟩
    · rw [heq, hinfo]
      exact Or.inr (resolvePair_answer _ _ _ _ _ _)
    · exact absurd hraises (hanswers errorType)

theorem listedPair_unambiguous : Unambiguous [listedPair] := by
  intro pair hpair other hother key _ _
  rw [List.mem_singleton.mp hpair, List.mem_singleton.mp hother]

theorem listedPair_agrees :
    (∃ errorType, laterRequest.info = .raises errorType ∧
      (resolveSymbolRules {} 300 (cacheAfter {} 300 ∅ [firstRequest]) laterRequest).1.status =
        .upstreamFetchFailure) ∨
    (resolveSymbolRules {} 300 (cacheAfter {} 300 ∅ [firstRequest]) laterRequest).1 =
      (resolveSymbolRules {} 300 ∅ { laterRequest with info := .pairs [listedPair] }).1 :=
  cache_agrees listedPair_unambiguous [firstRequest] laterRequest (by
    intro asked hasked
    rcases List.mem_cons.mp hasked with rfl | hasked
    · exact Or.inl rfl
    · rw [List.mem_singleton.mp hasked]
      exact Or.inr ⟨"TimeoutError", rfl⟩)

end Service

end ExchangeRules
