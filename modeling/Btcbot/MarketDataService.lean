import Btcbot.ExchangeErrors
import Btcbot.Grid
import Btcbot.KeyedTable
import Btcbot.Runs
import Mathlib.Data.Int.ConditionallyCompleteOrder
import Mathlib.Data.Int.Log
import Mathlib.Data.List.Sort
import Mathlib.Order.ConditionallyCompleteLattice.Basic

/-!
# Best bids and their freshness

Bids come from the stream's last quotes or from the order book, by way of a cache that is
also served from when a fetch fails. The age of an answer is taken from the timestamp of
its snapshot. Times are microseconds; the clock and the order book are read in turn. The
milliseconds of a time or of an age are cut off from a floating-point product, which may fall
just short of a whole number.
-/
namespace MarketDataService

open PyData ExchangeErrors KeyedTable

section Data

/-- A bid and the time it was observed. -/
structure Quote where
  bid : ℚ
  observedAt : ℤ
  deriving DecidableEq, Repr

/-- The source keeps the milliseconds; the time they are of is what a bid is judged by. -/
structure OrderbookCacheEntry where
  bestBid : ℚ
  bestAsk : ℚ
  observedAtMs : ℤ
  observedAt : ℤ
  deriving DecidableEq, Repr

structure MarketDataSnapshot where
  bids : List (String × Quote)
  source : String
  fetchedAt : Option ℤ
  connected : Bool
  missingSymbols : List String := []
  deriving DecidableEq, Repr

structure MarketDataFreshness where
  isStale : Bool
  observedAgeMs : Option ℤ
  maxAgeMs : ℤ
  sourceMode : String
  connected : Bool
  missingSymbols : List String
  deriving DecidableEq, Repr

structure Settings where
  mode : String
  wsRestFallback : Bool
  orderbookTtlMs : ℤ := 2000
  orderbookMaxStalenessMs : ℤ := 5000

/-- The clock and the order book, by how often the clock was read before. -/
structure Environment where
  now : ℕ → ℤ
  getOrderbook : ℕ → String → Except Exc (ℚ × ℚ)

structure Service where
  cache : List (String × OrderbookCacheEntry) := []
  bestBids : List (String × Quote) := []
  connected : Bool := false
  lastSnapshot : Option MarketDataSnapshot := none
  readings : ℕ := 0
  deriving DecidableEq, Repr

/-- The nearest number of 53 binary digits; no time is near the bounds of the exponent. -/
def nearestFloat (x : ℚ) : ℚ :=
  if x = 0 then 0 else Grid.snap Grid.halfEven (2 ^ (Int.log 2 |x| - 52)) x

def totalSeconds (micros : ℤ) : ℚ := nearestFloat (micros / 10 ^ 6)

/-- `int(seconds * 1000)`, of a timestamp or of an age. -/
def toMs (micros : ℤ) : ℤ := Grid.trunc (nearestFloat (totalSeconds micros * 1000))

/-- A millisecond over a second counts as the second. -/
example : toMs 1001000 = 1000 ∧ toMs 1002000 = 1002 := by decide +kernel

def OrderbookCacheEntry.quote (entry : OrderbookCacheEntry) : Quote :=
  ⟨entry.bestBid, entry.observedAt⟩

def Settings.isWs (settings : Settings) : Bool := (strip settings.mode).toLower = "ws"

def Settings.ttlMs (settings : Settings) : ℤ := max 0 settings.orderbookTtlMs

def Settings.maxStalenessMs (settings : Settings) : ℤ :=
  max settings.ttlMs settings.orderbookMaxStalenessMs

def Service.afterReading (s : Service) : Service := { s with readings := s.readings + 1 }

end Data

section Provider

variable (env : Environment) (settings : Settings)

def isFresh (entry : OrderbookCacheEntry) (nowMs : ℤ) : Bool :=
  nowMs - entry.observedAtMs ≤ settings.ttlMs

def isUsableStale (entry : OrderbookCacheEntry) (nowMs : ℤ) : Bool :=
  nowMs - entry.observedAtMs ≤ settings.maxStalenessMs

/-- `except Exception` does not see a crash. -/
def getOrFetch (symbol : String) (s : Service) : Except Exc OrderbookCacheEntry × Service :=
  let nowMs := toMs (env.now s.readings)
  let s := s.afterReading
  let cached := get? s.cache symbol
  match cached.filter (isFresh settings · nowMs) with
  | some entry => (.ok entry, s)
  | none =>
    match env.getOrderbook s.readings symbol with
    | .ok (bid, ask) =>
      let entry := ⟨bid, ask, toMs (env.now s.readings), env.now s.readings⟩
      (.ok entry, { s.afterReading with cache := setItem s.cache symbol entry })
    | .error exc =>
      match cached.filter fun entry => exc ≠ .crash && isUsableStale settings entry nowMs with
      | some entry => (.ok entry, s)
      | none => (.error exc, s)

/-- The entries of the symbols in turn; of two under one symbol the later one stays. -/
def collect : List String → List (String × Quote) → Service →
    Except Exc (List (String × Quote)) × Service
  | [], bids, s => (.ok bids, s)
  | symbol :: symbols, bids, s =>
    match getOrFetch env settings symbol s with
    | (.ok entry, s) => collect symbols (setItem bids symbol entry.quote) s
    | (.error exc, s) => (.error exc, s)

def restSnapshot (symbols : List String) (s : Service) : Except Exc MarketDataSnapshot × Service :=
  let fetchedAt := env.now s.readings
  match collect env settings symbols [] s.afterReading with
  | (.ok bids, s) =>
    (.ok { bids, source := "rest", fetchedAt := some fetchedAt, connected := true }, s)
  | (.error exc, s) => (.error exc, s)

def seenQuotes (symbols : List String) (s : Service) : List (String × Quote) :=
  symbols.filterMap fun symbol => (get? s.bestBids symbol).map fun quote => (symbol, quote)

def wsSnapshot (symbols : List String) (s : Service) : MarketDataSnapshot where
  bids := ofEntries (seenQuotes symbols s)
  source := "ws"
  fetchedAt := ((seenQuotes symbols s).map fun entry => entry.2.observedAt).min?
  connected := s.connected
  missingSymbols :=
    (symbols.filter fun symbol => get? s.bestBids symbol = none).insertionSort (· ≤ ·)

def resolveSnapshot (symbols : List String) (s : Service) :
    Except Exc MarketDataSnapshot × Service :=
  if settings.isWs then (.ok (wsSnapshot symbols s), s) else restSnapshot env settings symbols s

/-- The clock is read only for the age of a snapshot that has a timestamp. -/
def freshnessFromSnapshot (snapshot : MarketDataSnapshot) (maxAgeMs : ℤ) (s : Service) :
    MarketDataFreshness × Service :=
  let freshness : MarketDataFreshness :=
    { isStale := true
      observedAgeMs := none
      maxAgeMs
      sourceMode := snapshot.source
      connected := snapshot.connected
      missingSymbols := snapshot.missingSymbols }
  match snapshot.fetchedAt with
  | none => (freshness, s)
  | some fetchedAt =>
    let observedAgeMs := toMs (env.now s.readings - fetchedAt)
    ({ freshness with
        isStale := maxAgeMs < observedAgeMs || !snapshot.connected
        observedAgeMs := some observedAgeMs }, s.afterReading)

abbrev Answer := List (String × Quote) × MarketDataFreshness

def getBestBidsWithFreshness (symbols : List String) (maxAgeMs : ℤ) (s : Service) :
    Except Exc Answer × Service :=
  match resolveSnapshot env settings symbols s with
  | (.error exc, s) => (.error exc, s)
  | (.ok snapshot, s) =>
    let (freshness, s) := freshnessFromSnapshot env snapshot maxAgeMs s
    if settings.isWs && settings.wsRestFallback && freshness.isStale then
      match restSnapshot env settings symbols s with
      | (.error exc, s) => (.error exc, s)
      | (.ok fallback, s) =>
        let snapshot := { fallback with source := "rest_fallback" }
        let (freshness, s) := freshnessFromSnapshot env snapshot maxAgeMs s
        (.ok (snapshot.bids, freshness), { s with lastSnapshot := some snapshot })
    else (.ok (snapshot.bids, freshness), { s with lastSnapshot := some snapshot })

def getBestBids (symbols : List String) (s : Service) :
    Except Exc (List (String × Quote)) × Service :=
  match resolveSnapshot env settings symbols s with
  | (.error exc, s) => (.error exc, s)
  | (.ok snapshot, s) => (.ok snapshot.bids, { s with lastSnapshot := some snapshot })

def getMarketDataFreshness (maxAgeMs : ℤ) (s : Service) : MarketDataFreshness × Service :=
  match s.lastSnapshot with
  | none => (⟨true, none, maxAgeMs, (strip settings.mode).toLower, false, []⟩, s)
  | some snapshot => freshnessFromSnapshot env snapshot maxAgeMs s

def setWsConnected (connected : Bool) (s : Service) : Service := { s with connected }

/-- Without a time of its own a bid counts as observed now. -/
def ingestWsBestBid (symbol : String) (bid : ℚ) (observedAt : Option ℤ) (s : Service) : Service :=
  match observedAt with
  | some observedAt => { s with bestBids := setItem s.bestBids symbol ⟨bid, observedAt⟩ }
  | none =>
    { s.afterReading with bestBids := setItem s.bestBids symbol ⟨bid, env.now s.readings⟩ }

inductive Event where
  | ingest (symbol : String) (bid : ℚ) (observedAt : Option ℤ)
  | connect (connected : Bool)
  | bestBids (symbols : List String)
  | bestBidsWithFreshness (symbols : List String) (maxAgeMs : ℤ)
  | freshness (maxAgeMs : ℤ)
  /-- The clock advances. -/
  | read

def step (s : Service) : Event → Service
  | .ingest symbol bid observedAt => ingestWsBestBid env symbol bid observedAt s
  | .connect connected => setWsConnected connected s
  | .bestBids symbols => (getBestBids env settings symbols s).2
  | .bestBidsWithFreshness symbols maxAgeMs =>
    (getBestBidsWithFreshness env settings symbols maxAgeMs s).2
  | .freshness maxAgeMs => (getMarketDataFreshness env settings maxAgeMs s).2
  | .read => s.afterReading

end Provider

section Served

variable (env : Environment) (settings : Settings)

/-- The entry of the cache that is served without a fetch. -/
def freshEntry (s : Service) (symbol : String) : Option OrderbookCacheEntry :=
  (get? s.cache symbol).filter (isFresh settings · (toMs (env.now s.readings)))

/-- When what a lookup answers with was observed. -/
inductive Served (s : Service) (symbol : String) : ℤ → Prop where
  | hit {entry : OrderbookCacheEntry} (hfresh : freshEntry env settings s symbol = some entry) :
    Served s symbol entry.observedAt
  | degraded {entry : OrderbookCacheEntry} {exc : Exc}
    (hmiss : freshEntry env settings s symbol = none)
    (hfailed : env.getOrderbook (s.readings + 1) symbol = .error exc) (hcrash : exc ≠ .crash)
    (hcached : get? s.cache symbol = some entry)
    (husable : isUsableStale settings entry (toMs (env.now s.readings)) = true) :
    Served s symbol entry.observedAt
  | fetched {book : ℚ × ℚ} (hmiss : freshEntry env settings s symbol = none)
    (hbook : env.getOrderbook (s.readings + 1) symbol = .ok book) :
    Served s symbol (env.now (s.readings + 1))

variable {env settings} {s : Service} {symbol : String}

theorem served_iff (t : ℤ) :
    Served env settings s symbol t ↔
      ∃ entry, (getOrFetch env settings symbol s).1 = .ok entry ∧ entry.observedAt = t := by
  unfold getOrFetch
  dsimp only [Service.afterReading]
  rw [← freshEntry]
  constructor
  · rintro (hfresh | ⟨hmiss, hfailed, hcrash, hcached, husable⟩ | @⟨book, hmiss, hbook⟩)
    · exact ⟨_, by rw [hfresh], rfl⟩
    · exact ⟨_, by simp [hmiss, hfailed, hcached, hcrash, husable, Option.filter_some], rfl⟩
    · exact ⟨⟨book.1, book.2, toMs (env.now (s.readings + 1)), env.now (s.readings + 1)⟩,
        by simp only [hmiss, hbook], rfl⟩
  · rintro ⟨entry, hentry, rfl⟩
    split at hentry
    · next found hfound =>
      obtain rfl := Except.ok.inj hentry
      exact .hit hfound
    · next hmiss =>
      split at hentry
      · next bid ask hbook =>
        obtain rfl := Except.ok.inj hentry
        exact .fetched hmiss hbook
      · next exc hfailed =>
        split at hentry
        · next found hfound =>
          obtain rfl := Except.ok.inj hentry
          obtain ⟨hcached, husable⟩ := Option.filter_eq_some_iff.mp hfound
          rw [Bool.and_eq_true, decide_eq_true_eq] at husable
          exact .degraded hmiss hfailed husable.1 hcached husable.2
        · cases hentry

variable (env settings) in
/-- The state after a lookup. -/
def lookup (s : Service) (symbol : String) : Service := (getOrFetch env settings symbol s).2

variable (env settings) in
/-- Every lookup of the list answers. -/
abbrev AllServed (s : Service) (symbols : List String) : Prop :=
  Runs.Meets (lookup env settings) (fun s symbol => ∃ t, Served env settings s symbol t) s symbols

variable (env settings) in
/-- The last lookup of some symbol answers with what was observed before the limit. -/
def LastOld (limit : ℤ) : Service → List String → Prop
  | _, [] => False
  | s, symbol :: symbols =>
    (symbol ∉ symbols ∧ ∃ t, Served env settings s symbol t ∧ t < limit) ∨
      LastOld limit (lookup env settings s symbol) symbols

/-- Some bid was observed before the limit. -/
def HasOld (limit : ℤ) (bids : List (String × Quote)) : Prop :=
  ∃ symbol quote, get? bids symbol = some quote ∧ quote.observedAt < limit

theorem collect_error {symbols : List String} {bids : List (String × Quote)} {exc : Exc}
    (h : (collect env settings symbols bids s).1 = .error exc) :
    ¬ AllServed env settings s symbols := by
  induction symbols generalizing s bids with
  | nil => cases h
  | cons symbol symbols ih =>
    rintro ⟨⟨t, hserved⟩, hrest⟩
    obtain ⟨entry, hentry, -⟩ := (served_iff t).mp hserved
    unfold lookup at hrest
    rw [collect] at h
    cases hlookup : getOrFetch env settings symbol s with
    | mk result next =>
      rw [hlookup] at h hentry hrest
      obtain rfl : result = .ok entry := hentry
      exact ih h hrest

theorem collect_ok {symbols : List String} {bids found : List (String × Quote)} {last : Service}
    (h : collect env settings symbols bids s = (.ok found, last)) (limit : ℤ) :
    last = Runs.run (lookup env settings) s symbols ∧ AllServed env settings s symbols ∧
      (HasOld limit found ↔ LastOld env settings limit s symbols ∨
        ∃ symbol ∉ symbols, ∃ quote, get? bids symbol = some quote ∧ quote.observedAt < limit) := by
  induction symbols generalizing s bids with
  | nil =>
    cases h
    refine ⟨rfl, trivial, ?_⟩
    simp [HasOld, LastOld]
  | cons symbol symbols ih =>
    rw [collect] at h
    cases hlookup : getOrFetch env settings symbol s with
    | mk result next =>
      rw [hlookup] at h
      cases result with
      | error exc => cases h
      | ok entry =>
        obtain ⟨hlast, hserved, hold⟩ := ih h
        have hnext : lookup env settings s symbol = next := congrArg Prod.snd hlookup
        have htime (t : ℤ) : Served env settings s symbol t ↔ entry.observedAt = t := by
          rw [served_iff, hlookup]
          simp
        refine ⟨?_, ⟨⟨_, (htime _).mpr rfl⟩, ?_⟩, ?_⟩
        · rw [Runs.run_cons, hnext]
          exact hlast
        · rw [hnext]
          exact hserved
        · rw [hold, LastOld, hnext]
          simp only [htime, exists_eq_left']
          constructor
          · rintro (hlater | ⟨other, hother, quote, hquote, hlt⟩)
            · exact .inl (.inr hlater)
            · rw [get?_setItem] at hquote
              split at hquote
              · next hsame =>
                obtain rfl := Option.some.inj hquote
                exact .inl (.inl ⟨hsame ▸ hother, hlt⟩)
              · next hne =>
                exact .inr ⟨other, by simp [Ne.symm hne, hother], quote, hquote, hlt⟩
          · rintro ((⟨hnot, hlt⟩ | hlater) | ⟨other, hother, quote, hquote, hlt⟩)
            · exact .inr ⟨symbol, hnot, entry.quote, by rw [get?_setItem, if_pos rfl], hlt⟩
            · exact .inl hlater
            · rw [List.mem_cons, not_or] at hother
              refine .inr ⟨other, hother.2, quote, ?_, hlt⟩
              rwa [get?_setItem, if_neg (Ne.symm hother.1)]

end Served

section Honest

variable (env : Environment) (settings : Settings)

/-- Of an answer that is not stale, every bid was observed within the age at the last reading of
the clock. -/
def Honest (maxAgeMs : ℤ) (outcome : Except Exc Answer × Service) : Prop :=
  ∀ bids freshness, outcome.1 = .ok (bids, freshness) → freshness.isStale = false →
    ∀ symbol quote, get? bids symbol = some quote →
      env.now (outcome.2.readings - 1) - quote.observedAt ≤ 1000 * maxAgeMs

/-- What a call for best bids and any other event must answer. -/
def EventHonest (s : Service) : Event → Prop
  | .bestBidsWithFreshness symbols maxAgeMs =>
    Honest env maxAgeMs (getBestBidsWithFreshness env settings symbols maxAgeMs s)
  | _ => True

/-- The timestamp of a snapshot is recent enough, in milliseconds, when the clock is read. -/
def Recent (snapshot : MarketDataSnapshot) (maxAgeMs : ℤ) (s : Service) : Prop :=
  snapshot.connected = true ∧
    ∃ fetchedAt, snapshot.fetchedAt = some fetchedAt ∧
      toMs (env.now s.readings - fetchedAt) ≤ maxAgeMs

/-- The stream's oldest quote is older than the age by what is cut off. -/
def WsOverstates (symbols : List String) (maxAgeMs : ℤ) (s : Service) : Prop :=
  Recent env (wsSnapshot symbols s) maxAgeMs s ∧
    ∃ oldest, (wsSnapshot symbols s).fetchedAt = some oldest ∧
      1000 * maxAgeMs < env.now s.readings - oldest

/-- The lookups take less than the age, and the last one of some symbol answers with what is
older. -/
def RestOverstates (symbols : List String) (maxAgeMs : ℤ) (s : Service) : Prop :=
  let last := env.now (Runs.run (lookup env settings) s.afterReading symbols).readings
  toMs (last - env.now s.readings) ≤ maxAgeMs ∧
    AllServed env settings s.afterReading symbols ∧
    LastOld env settings (last - 1000 * maxAgeMs) s.afterReading symbols

/-- The state in which the order book is asked instead of a stream that is stale. -/
def fallbackState (symbols : List String) (maxAgeMs : ℤ) (s : Service) : Service :=
  (freshnessFromSnapshot env (wsSnapshot symbols s) maxAgeMs s).2

/-- The calls that pass an old bid as a recent one. -/
def Overstates (s : Service) : Event → Prop
  | .bestBidsWithFreshness symbols maxAgeMs =>
    if settings.isWs then
      WsOverstates env symbols maxAgeMs s ∨
        (settings.wsRestFallback = true ∧ ¬ Recent env (wsSnapshot symbols s) maxAgeMs s ∧
          RestOverstates env settings symbols maxAgeMs (fallbackState env symbols maxAgeMs s))
    else RestOverstates env settings symbols maxAgeMs s
  | _ => False

variable {env settings} {s : Service} {symbols : List String} {maxAgeMs : ℤ}

theorem freshness_recent (snapshot : MarketDataSnapshot) :
    (freshnessFromSnapshot env snapshot maxAgeMs s).1.isStale = false ↔
      Recent env snapshot maxAgeMs s := by
  unfold freshnessFromSnapshot Recent
  cases snapshot.fetchedAt with
  | none => simp
  | some fetchedAt => simp [and_comm]

/-- An answer from a snapshot is honest unless the snapshot is recent and has an old bid. -/
theorem honest_iff {snapshot : MarketDataSnapshot} {bids : List (String × Quote)}
    (hbids : snapshot.bids = bids) (kept : Service)
    (hkept : kept.readings = (freshnessFromSnapshot env snapshot maxAgeMs s).2.readings) :
    Honest env maxAgeMs
        (.ok (bids, (freshnessFromSnapshot env snapshot maxAgeMs s).1), kept) ↔
      ¬ (Recent env snapshot maxAgeMs s ∧
        HasOld (env.now s.readings - 1000 * maxAgeMs) snapshot.bids) := by
  have hread (hrecent : Recent env snapshot maxAgeMs s) : kept.readings - 1 = s.readings := by
    obtain ⟨-, fetchedAt, hfetched, -⟩ := hrecent
    rw [hkept, freshnessFromSnapshot, hfetched]
    rfl
  subst hbids
  constructor
  · rintro hhonest ⟨hrecent, symbol, quote, hquote, hold⟩
    have hage := hhonest _ _ rfl ((freshness_recent snapshot).mpr hrecent) symbol quote hquote
    rw [hread hrecent] at hage
    omega
  · intro hnot bids freshness heq hstale symbol quote hquote
    obtain ⟨rfl, rfl⟩ := Prod.mk.inj (Except.ok.inj heq)
    have hrecent := (freshness_recent snapshot).mp hstale
    dsimp only
    rw [hread hrecent]
    by_contra hage
    exact hnot ⟨hrecent, symbol, quote, hquote, by omega⟩

theorem get?_wsBids (symbols : List String) (s : Service) (symbol : String) :
    get? (wsSnapshot symbols s).bids symbol =
      if symbol ∈ symbols then get? s.bestBids symbol else none := by
  unfold wsSnapshot seenQuotes
  dsimp only
  induction symbols using List.reverseRecOn with
  | nil => rfl
  | append_singleton symbols last ih =>
    rw [List.filterMap_append]
    cases hlast : get? s.bestBids last with
    | none =>
      simp only [List.filterMap_cons, List.filterMap_nil, hlast, Option.map_none, List.append_nil,
        ih, List.mem_append, List.mem_singleton]
      by_cases hsame : symbol = last
      · simp [hsame, hlast]
      · simp [hsame]
    | some quote =>
      simp only [List.filterMap_cons, List.filterMap_nil, hlast, Option.map_some,
        ofEntries_concat, get?_setItem, ih, List.mem_append, List.mem_singleton]
      by_cases hsame : symbol = last
      · simp [hsame, hlast]
      · simp [hsame, Ne.symm hsame]

/-- The timestamp of a stream snapshot is that of its oldest quote. -/
theorem wsOverstates_iff :
    WsOverstates env symbols maxAgeMs s ↔ Recent env (wsSnapshot symbols s) maxAgeMs s ∧
      HasOld (env.now s.readings - 1000 * maxAgeMs) (wsSnapshot symbols s).bids := by
  refine and_congr_right fun ⟨_, oldest, holdest, _⟩ => ?_
  have hmin := List.min?_eq_some_iff.mp holdest
  simp only [holdest, Option.some.injEq, exists_eq_left', HasOld, get?_wsBids]
  constructor
  · intro hold
    obtain ⟨entry, hentry, hobserved⟩ := List.mem_map.mp hmin.1
    obtain ⟨symbol, hsymbol, hfound⟩ := List.mem_filterMap.mp hentry
    obtain ⟨quote, hquote, rfl⟩ := Option.map_eq_some_iff.mp hfound
    exact ⟨symbol, quote, by rw [if_pos hsymbol, hquote], by dsimp only at hobserved; omega⟩
  · rintro ⟨symbol, quote, hquote, hold⟩
    split at hquote
    · next hsymbol =>
      have hseen : (symbol, quote) ∈ seenQuotes symbols s :=
        List.mem_filterMap.mpr ⟨symbol, hsymbol, by rw [hquote, Option.map_some]⟩
      have hle := hmin.2 _ (List.mem_map_of_mem hseen)
      dsimp only at hle
      omega
    · cases hquote

theorem restSnapshot_error {exc : Exc} {last : Service}
    (h : restSnapshot env settings symbols s = (.error exc, last)) :
    ¬ RestOverstates env settings symbols maxAgeMs s := by
  rintro ⟨-, hserved, -⟩
  unfold restSnapshot at h
  dsimp only at h
  split at h
  · cases h
  · next exc' last' hcollect =>
    exact collect_error (congrArg Prod.fst hcollect) hserved

theorem restSnapshot_ok {snapshot : MarketDataSnapshot} {last : Service}
    (h : restSnapshot env settings symbols s = (.ok snapshot, last)) (source : String) :
    RestOverstates env settings symbols maxAgeMs s ↔
      Recent env { snapshot with source } maxAgeMs last ∧
        HasOld (env.now last.readings - 1000 * maxAgeMs) snapshot.bids := by
  unfold restSnapshot at h
  dsimp only at h
  split at h
  · next bids last' hcollect =>
    cases h
    obtain ⟨rfl, hserved, hold⟩ := collect_ok hcollect
      (env.now last.readings - 1000 * maxAgeMs)
    simp [RestOverstates, Recent, hserved, hold, get?]
  · cases h

/-- A call is honest exactly if it does not pass an old bid as a recent one. -/
theorem event_honest_iff (env : Environment) (settings : Settings) (s : Service) (event : Event) :
    EventHonest env settings s event ↔ ¬ Overstates env settings s event := by
  cases event with
  | bestBidsWithFreshness symbols maxAgeMs =>
    unfold EventHonest Overstates getBestBidsWithFreshness resolveSnapshot
    dsimp only
    by_cases hws : settings.isWs = true
    · simp only [hws, if_true, Bool.true_and, Bool.and_eq_true]
      split
      · next hfallback =>
        have hstale : ¬ Recent env (wsSnapshot symbols s) maxAgeMs s := by
          rw [← freshness_recent, hfallback.2]
          decide
        have hws : ¬ WsOverstates env symbols maxAgeMs s := fun h => hstale h.1
        rw [← fallbackState]
        simp only [hws, false_or, hfallback.1, true_and, hstale, not_false_iff]
        split
        · next exc last herror =>
          exact iff_of_true nofun (restSnapshot_error herror)
        · next fallback last hfound =>
          rw [restSnapshot_ok hfound "rest_fallback"]
          exact @honest_iff env last maxAgeMs { fallback with source := "rest_fallback" } _ rfl _
            rfl
      · next hanswered =>
        have hrest : ¬ (settings.wsRestFallback = true ∧
            ¬ Recent env (wsSnapshot symbols s) maxAgeMs s ∧
            RestOverstates env settings symbols maxAgeMs
              (fallbackState env symbols maxAgeMs s)) := by
          rintro ⟨hallowed, hstale, -⟩
          refine hanswered ⟨hallowed, ?_⟩
          rw [← freshness_recent] at hstale
          simpa using hstale
        rw [wsOverstates_iff, or_iff_left hrest]
        exact honest_iff rfl _ rfl
    · have hws := Bool.eq_false_iff.mpr hws
      simp only [hws, if_false, Bool.false_and, Bool.false_eq_true]
      split
      · next exc last herror =>
        exact iff_of_true nofun (restSnapshot_error herror)
      · next snapshot last hfound =>
        rw [restSnapshot_ok hfound snapshot.source]
        exact honest_iff rfl _ rfl
  | _ => simp [EventHonest, Overstates]

theorem readings_le_lookup (s : Service) (symbol : String) :
    s.readings ≤ (lookup env settings s symbol).readings := by
  unfold lookup getOrFetch
  dsimp only [Service.afterReading]
  split
  · exact Nat.le_succ _
  · split
    · exact (Nat.le_succ _).trans (Nat.le_succ _)
    · split <;> exact Nat.le_succ _

/-- Where the clock does not go back, what is fetched is not older than the first reading. -/
theorem lastOld_cached (hclock : Monotone env.now) {first : ℕ} (hfirst : first ≤ s.readings)
    {limit : ℤ} (hlimit : limit ≤ env.now first) (h : LastOld env settings limit s symbols) :
    ∃ before symbol after entry, symbols = before ++ symbol :: after ∧
      get? (Runs.run (lookup env settings) s before).cache symbol = some entry ∧
      entry.observedAt < limit := by
  induction symbols generalizing s with
  | nil => exact h.elim
  | cons symbol symbols ih =>
    rcases h with ⟨-, t, hserved, hold⟩ | hlater
    · cases hserved with
      | hit hfresh =>
        exact ⟨[], symbol, symbols, _, rfl, (Option.filter_eq_some_iff.mp hfresh).1, hold⟩
      | degraded _ _ _ hcached => exact ⟨[], symbol, symbols, _, rfl, hcached, hold⟩
      | fetched =>
        have hread : env.now first ≤ env.now (s.readings + 1) := hclock (by omega)
        omega
    · obtain ⟨before, other, after, entry, rfl, hcached, hentry⟩ :=
        ih (hfirst.trans (readings_le_lookup s symbol)) hlater
      exact ⟨symbol :: before, other, after, entry, rfl, hcached, hentry⟩

/-- But for what is cut off, only an old entry of the cache is passed as recent. -/
theorem rest_overstates_cached (hclock : Monotone env.now)
    (hwhole : env.now (Runs.run (lookup env settings) s.afterReading symbols).readings -
      env.now s.readings ≤ 1000 * maxAgeMs)
    (h : RestOverstates env settings symbols maxAgeMs s) :
    ∃ before symbol after entry, symbols = before ++ symbol :: after ∧
      get? (Runs.run (lookup env settings) s.afterReading before).cache symbol = some entry ∧
      1000 * maxAgeMs <
        env.now (Runs.run (lookup env settings) s.afterReading symbols).readings -
          entry.observedAt := by
  obtain ⟨before, symbol, after, entry, hsplit, hcached, hold⟩ :=
    lastOld_cached hclock (Nat.le_succ s.readings) (by omega) h.2.2
  exact ⟨before, symbol, after, entry, hsplit, hcached, by omega⟩

/-- Every call of a run is honest exactly if none of them passes an old bid as a recent one. -/
theorem run_honest_iff (env : Environment) (settings : Settings) (s : Service)
    (events : List Event) :
    Runs.Meets (step env settings) (EventHonest env settings) s events ↔
      Runs.Meets (step env settings) (fun s event => ¬ Overstates env settings s event) s events :=
  Runs.meets_congr (event_honest_iff env settings)

/-- The clock stands still in the first call and is a second and a half later in the second. -/
def laterCall : Environment where
  now readings := if readings < 4 then 0 else 1500000
  getOrderbook _ _ := .ok (100, 101)

def askTwice : List Event :=
  [.bestBidsWithFreshness ["BTCTRY"] 1000, .bestBidsWithFreshness ["BTCTRY"] 1000]

/-- The second call answers out of the cache and gives the bid no age. -/
theorem cached_bid_without_age :
    ¬ Runs.Meets (step laterCall ⟨"rest", false, 2000, 5000⟩)
      (EventHonest laterCall ⟨"rest", false, 2000, 5000⟩) {} askTwice := by
  rintro ⟨-, hsecond, -⟩
  have hage := hsecond [("BTCTRY", ⟨100, 0⟩)]
    { isStale := false
      observedAgeMs := some 0
      maxAgeMs := 1000
      sourceMode := "rest"
      connected := true
      missingSymbols := [] }
    (by decide +kernel) rfl "BTCTRY" ⟨100, 0⟩ (by decide +kernel)
  revert hage
  decide +kernel

end Honest

end MarketDataService
