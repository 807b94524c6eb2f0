import Btcbot.PyData
import Btcbot.Runs
import Btcbot.SortedFold
import Mathlib.Data.List.Dedup

/-!
# Replayed market data

The recorded rows of every symbol, read up to a clock that only moves forward.
Timestamps are microseconds since the epoch, in UTC. No answer depends on a row
that the clock has not reached.
-/
namespace MarketDataReplay

open PyData (Dict Decimal canonicalSymbol)

structure Candle where
  ts : Int
  open_ : Decimal
  high : Decimal
  low : Decimal
  close : Decimal
  volume : Decimal
  deriving DecidableEq, Repr

structure OrderBookTop where
  ts : Int
  bestBid : Decimal
  bestAsk : Decimal
  deriving DecidableEq, Repr

structure TickerStat where
  ts : Int
  last : Decimal
  high : Decimal
  low : Decimal
  volume : Decimal
  quoteVolume : Option Decimal := none
  deriving DecidableEq, Repr

section Series

variable {α : Type} (ts : α → Int)

/-- Rows in the order of their timestamps. -/
structure Series where
  rows : List α
  sorted : rows.Pairwise fun a b => ts a ≤ ts b

local instance ts_total : Std.Total fun a b : α => ts a ≤ ts b :=
  ⟨fun a b => Int.le_total (ts a) (ts b)⟩

local instance ts_trans : IsTrans α fun a b => ts a ≤ ts b := ⟨fun _ _ _ => Int.le_trans⟩

/-- Rows of one timestamp keep their order. -/
def Series.ofRows (rows : List α) : Series ts :=
  ⟨rows.insertionSort fun a b => ts a ≤ ts b, List.pairwise_insertionSort _ rows⟩

/-- Series under canonical symbols only. -/
structure SeriesBySymbol where
  series : Dict (Series ts)
  canonical : ∀ symbol ∈ series, canonicalSymbol symbol = symbol

def SeriesBySymbol.empty : SeriesBySymbol ts := ⟨∅, by simp⟩

variable {ts} in
def SeriesBySymbol.insert (out : SeriesBySymbol ts) (symbol : String) (rows : Series ts) :
    SeriesBySymbol ts where
  series := out.series.insert (canonicalSymbol symbol) rows
  canonical := by
    intro other hother
    rcases Std.ExtTreeMap.mem_insert.mp hother with heq | hin
    · rw [← Std.LawfulEqCmp.eq_of_compare heq]
      exact PyData.normalizeSymbol_idem symbol
    · exact out.canonical other hin

/-- A later spelling of the same symbol replaces the rows of an earlier one. -/
def normalizeSeries (seriesBySymbol : List (String × List α)) : SeriesBySymbol ts :=
  seriesBySymbol.foldl (fun out entry => out.insert entry.1 (Series.ofRows ts entry.2))
    (SeriesBySymbol.empty ts)

variable {ts} in
/-- The rows under a key, none when the key is missing. -/
def seriesOf (book : SeriesBySymbol ts) (symbol : String) : List α :=
  (book.series[symbol]?.map Series.rows).getD []

/-- The loop stops at the first row after the time asked for. -/
def nearestPriorFrom (nowTs : Int) (last : Option α) : List α → Option α
  | [] => last
  | item :: series => if ts item ≤ nowTs then nearestPriorFrom nowTs (some item) series else last

def nearestPrior (series : List α) (nowTs : Int) : Option α := nearestPriorFrom ts nowTs none series

def upTo (t : Int) (rows : List α) : List α := rows.filter fun item => ts item ≤ t

/-- What is seen at a time is seen in what is kept up to a later one. -/
theorem upTo_upTo {now t : Int} (h : now ≤ t) (rows : List α) :
    upTo ts now (upTo ts t rows) = upTo ts now rows := by
  rw [upTo, upTo, upTo, List.filter_filter]
  refine List.filter_congr fun item _ => ?_
  rw [Bool.eq_iff_iff]
  simp only [Bool.and_eq_true, decide_eq_true_eq]
  omega

/-- The search with a break finds the last of the rows up to the time. -/
theorem nearestPriorFrom_eq (now : Int) (last : Option α) (rows : List α)
    (hsorted : rows.Pairwise fun a b => ts a ≤ ts b) :
    nearestPriorFrom ts now last rows = (upTo ts now rows).getLast?.or last := by
  induction rows generalizing last with
  | nil => rfl
  | cons item rows ih =>
    obtain ⟨hlater, hsorted⟩ := List.pairwise_cons.mp hsorted
    by_cases hitem : ts item ≤ now
    · rw [nearestPriorFrom, if_pos hitem, ih (some item) hsorted, upTo, upTo,
        List.filter_cons_of_pos (by simpa using hitem), List.getLast?_cons]
      cases (rows.filter fun item => decide (ts item ≤ now)).getLast? <;> rfl
    · have hnone : upTo ts now (item :: rows) = [] := by
        refine List.filter_eq_nil_iff.mpr fun other hother => ?_
        rw [decide_eq_true_eq]
        rcases List.mem_cons.mp hother with rfl | hrest
        · exact hitem
        · have hle := hlater other hrest
          omega
      rw [nearestPriorFrom, if_neg hitem, hnone]
      rfl

theorem nearestPrior_eq (rows : List α) (hsorted : rows.Pairwise fun a b => ts a ≤ ts b)
    (now : Int) : nearestPrior ts rows now = (upTo ts now rows).getLast? := by
  rw [nearestPrior, nearestPriorFrom_eq ts now none rows hsorted]
  cases (upTo ts now rows).getLast? <;> rfl

variable {ts}

theorem seriesOf_sorted (book : SeriesBySymbol ts) (symbol : String) :
    (seriesOf book symbol).Pairwise fun a b => ts a ≤ ts b := by
  rw [seriesOf]
  cases book.series[symbol]? with
  | none => exact List.Pairwise.nil
  | some found => exact found.sorted

/-- The rows a recording holds for a symbol: those of the last key that spells it. -/
def rowsOf (seriesBySymbol : List (String × List α)) (symbol : String) : List α :=
  (((seriesBySymbol.filter fun entry => canonicalSymbol entry.1 = symbol).getLast?).map
    Prod.snd).getD []

/-- Under keys that are canonical and distinct they are the rows of the key itself. -/
theorem rowsOf_canonical (seriesBySymbol : List (String × List α))
    (hcanonical : ∀ entry ∈ seriesBySymbol, canonicalSymbol entry.1 = entry.1)
    (hnodup : (seriesBySymbol.map Prod.fst).Nodup) (entry : String × List α)
    (hentry : entry ∈ seriesBySymbol) : rowsOf seriesBySymbol entry.1 = entry.2 := by
  have hkey : seriesBySymbol.filter (fun other => canonicalSymbol other.1 = entry.1) =
      [entry] := by
    have hsame : seriesBySymbol.filter (fun other => canonicalSymbol other.1 = entry.1) =
        seriesBySymbol.filter fun other => other.1 = entry.1 := by
      refine List.filter_congr fun other hother => ?_
      rw [hcanonical other hother]
    rw [hsame]
    clear hsame hcanonical
    induction seriesBySymbol with
    | nil => cases hentry
    | cons first rest ih =>
      obtain ⟨hfresh, hnodup⟩ := List.nodup_cons.mp hnodup
      rcases List.mem_cons.mp hentry with rfl | hrest
      · have hnone : rest.filter (fun other => other.1 = entry.1) = [] := by
          refine List.filter_eq_nil_iff.mpr fun other hother => ?_
          rw [decide_eq_true_eq]
          intro heq
          exact hfresh (heq ▸ List.mem_map_of_mem hother)
        rw [List.filter_cons_of_pos (by simp), hnone]
      · have hother : ¬ first.1 = entry.1 := by
          intro heq
          exact hfresh (heq ▸ List.mem_map_of_mem hrest)
        rw [List.filter_cons_of_neg (by simpa using hother)]
        exact ih hnodup hrest
  rw [rowsOf, hkey]
  rfl

theorem normalizeSeries_get (seriesBySymbol : List (String × List α)) (symbol : String) :
    seriesOf (normalizeSeries ts seriesBySymbol) symbol =
      (rowsOf seriesBySymbol symbol).insertionSort fun a b => ts a ≤ ts b := by
  induction seriesBySymbol using List.reverseRecOn with
  | nil => simp [normalizeSeries, SeriesBySymbol.empty, seriesOf, rowsOf]
  | append_singleton earlier entry ih =>
    have hinsert : normalizeSeries ts (earlier ++ [entry]) =
        (normalizeSeries ts earlier).insert entry.1 (Series.ofRows ts entry.2) := by
      rw [normalizeSeries, List.foldl_append]
      rfl
    by_cases hkey : canonicalSymbol entry.1 = symbol
    · simp [hinsert, SeriesBySymbol.insert, seriesOf, rowsOf, List.filter_append, hkey,
        Series.ofRows]
    · rw [hinsert, SeriesBySymbol.insert, seriesOf, PyData.Dict.insert_get, if_neg hkey]
      rw [rowsOf, List.filter_append, List.filter_cons_of_neg (by simpa using hkey),
        List.filter_nil, List.append_nil]
      exact ih

end Series

structure Dataset where
  candlesBySymbol : List (String × List Candle)
  orderbookBySymbol : List (String × List OrderBookTop)
  tickerBySymbol : List (String × List TickerStat)
  deriving Repr

structure Provider where
  current : Int
  endTs : Int
  step : Int
  stepPos : 0 < step
  candles : SeriesBySymbol Candle.ts
  orderbooks : SeriesBySymbol OrderBookTop.ts
  tickers : SeriesBySymbol TickerStat.ts

def microsPerSecond : Int := 1000000

def init (data : Dataset) (startTs endTs stepSeconds : Int) : Except String Provider :=
  if hstep : stepSeconds ≤ 0 then .error "step_seconds must be > 0"
  else if endTs < startTs then .error "end_ts must be >= start_ts"
  else
    .ok {
      current := startTs
      endTs := endTs
      step := stepSeconds * microsPerSecond
      stepPos := by
        rw [microsPerSecond]
        omega
      candles := normalizeSeries Candle.ts data.candlesBySymbol
      orderbooks := normalizeSeries OrderBookTop.ts data.orderbookBySymbol
      tickers := normalizeSeries TickerStat.ts data.tickerBySymbol }

def advance (provider : Provider) : Provider × Bool :=
  let nxt := provider.current + provider.step
  if nxt > provider.endTs then (provider, false) else ({ provider with current := nxt }, true)

def getCandles (provider : Provider) (symbol : String) (limit : Int) : List Candle :=
  if limit ≤ 0 then []
  else
    (upTo Candle.ts provider.current (seriesOf provider.candles (canonicalSymbol symbol))).rtake
      limit.toNat

def getOrderbook (provider : Provider) (symbol : String) : Option (Decimal × Decimal) :=
  (nearestPrior OrderBookTop.ts (seriesOf provider.orderbooks (canonicalSymbol symbol))
    provider.current).map fun point => (point.bestBid, point.bestAsk)

structure TickerRow where
  pairSymbol : String
  last : String
  high : String
  low : String
  volume : String
  quoteVolume : String
  ts : Int
  deriving DecidableEq, Repr

/-- A symbol without a ticker yet shows its last candle. -/
def tickerAt (provider : Provider) (symbol : String) : Option TickerStat :=
  match nearestPrior TickerStat.ts (seriesOf provider.tickers symbol) provider.current with
  | some ticker => some ticker
  | none =>
    (getCandles provider symbol 1).getLast?.map fun candle : Candle =>
      { ts := candle.ts, last := candle.close, high := candle.close, low := candle.close,
        volume := ⟨0, "0"⟩, quoteVolume := none }

/-- The fraction of a second is cut off. -/
def tickerRow (symbol : String) (ticker : TickerStat) : TickerRow where
  pairSymbol := symbol
  last := ticker.last.text
  high := ticker.high.text
  low := ticker.low.text
  volume := ticker.volume.text
  quoteVolume := (ticker.quoteVolume.map Decimal.text).getD ticker.volume.text
  ts := ticker.ts.tdiv microsPerSecond

def tickerSymbols (provider : Provider) : List String :=
  (provider.candles.series.keys ++ provider.orderbooks.series.keys ++
    provider.tickers.series.keys).dedup.insertionSort (· ≤ ·)

def getTickerStats (provider : Provider) : List TickerRow :=
  (tickerSymbols provider).filterMap fun symbol =>
    (tickerAt provider symbol).map (tickerRow symbol)

inductive Call where
  | now | advance
  | getCandles (symbol : String) (limit : Int)
  | getOrderbook (symbol : String)
  | getTickerStats
  deriving DecidableEq, Repr

inductive Answer where
  | time (ts : Int)
  | moved (advanced : Bool)
  | candles (rows : List Candle)
  | top (bidAsk : Option (Decimal × Decimal))
  | stats (rows : List TickerRow)
  deriving DecidableEq, Repr

def answer (provider : Provider) : Call → Answer
  | .now => .time provider.current
  | .advance => .moved (advance provider).2
  | .getCandles symbol limit => .candles (getCandles provider symbol limit)
  | .getOrderbook symbol => .top (getOrderbook provider symbol)
  | .getTickerStats => .stats (getTickerStats provider)

/-- Only the clock is changed by a call. -/
def after (provider : Provider) : Call → Provider
  | .advance => (advance provider).1
  | _ => provider

def answers (provider : Provider) : List Call → List Answer
  | [] => []
  | call :: calls => answer provider call :: answers (after provider call) calls

/-- Two providers on one clock that hold the same rows up to a time. -/
structure SameUntil (t : Int) (p q : Provider) : Prop where
  current : p.current = q.current
  endTs : p.endTs = q.endTs
  step : p.step = q.step
  candles : ∀ symbol, upTo Candle.ts t (seriesOf p.candles symbol) =
    upTo Candle.ts t (seriesOf q.candles symbol)
  orderbooks : ∀ symbol, upTo OrderBookTop.ts t (seriesOf p.orderbooks symbol) =
    upTo OrderBookTop.ts t (seriesOf q.orderbooks symbol)
  tickers : ∀ symbol, upTo TickerStat.ts t (seriesOf p.tickers symbol) =
    upTo TickerStat.ts t (seriesOf q.tickers symbol)

section SameUntil

variable {t : Int} {p q : Provider} (h : SameUntil t p q) (ht : p.current ≤ t)

include h ht

/-- What the clock has reached is the same in series that agree up to a later time. -/
theorem SameUntil.reached {α : Type} {ts : α → Int} {rows others : List α}
    (hrows : upTo ts t rows = upTo ts t others) :
    upTo ts p.current rows = upTo ts q.current others := by
  rw [← upTo_upTo ts ht rows, hrows, upTo_upTo ts ht others, h.current]

theorem SameUntil.getCandles_eq (symbol : String) (limit : Int) :
    getCandles p symbol limit = getCandles q symbol limit := by
  rw [getCandles, getCandles, h.reached ht (h.candles (canonicalSymbol symbol))]

theorem SameUntil.nearestPrior_eq {α : Type} {ts : α → Int} {book other : SeriesBySymbol ts}
    {symbol : String}
    (hrows : upTo ts t (seriesOf book symbol) = upTo ts t (seriesOf other symbol)) :
    nearestPrior ts (seriesOf book symbol) p.current =
      nearestPrior ts (seriesOf other symbol) q.current := by
  rw [MarketDataReplay.nearestPrior_eq ts _ (seriesOf_sorted book symbol),
    MarketDataReplay.nearestPrior_eq ts _ (seriesOf_sorted other symbol), h.reached ht hrows]

theorem SameUntil.getOrderbook_eq (symbol : String) :
    getOrderbook p symbol = getOrderbook q symbol := by
  rw [getOrderbook, getOrderbook, h.nearestPrior_eq ht (h.orderbooks (canonicalSymbol symbol))]

theorem SameUntil.tickerAt_eq (symbol : String) : tickerAt p symbol = tickerAt q symbol := by
  rw [tickerAt, tickerAt, h.nearestPrior_eq ht (h.tickers symbol), h.getCandles_eq ht symbol 1]

end SameUntil

theorem seriesOf_missing {α : Type} {ts : α → Int} {book : SeriesBySymbol ts} {symbol : String}
    (h : symbol ∉ book.series) : seriesOf book symbol = [] := by
  rw [seriesOf, Std.ExtTreeMap.getElem?_eq_none h]
  rfl

theorem mem_tickerSymbols (provider : Provider) (symbol : String) :
    symbol ∈ tickerSymbols provider ↔ symbol ∈ provider.candles.series ∨
      symbol ∈ provider.orderbooks.series ∨ symbol ∈ provider.tickers.series := by
  simp [tickerSymbols, Std.ExtTreeMap.mem_keys]

theorem tickerSymbols_canonical {provider : Provider} {symbol : String}
    (h : symbol ∈ tickerSymbols provider) : canonicalSymbol symbol = symbol := by
  rcases (mem_tickerSymbols provider symbol).mp h with hcandles | hbooks | htickers
  · exact provider.candles.canonical symbol hcandles
  · exact provider.orderbooks.canonical symbol hbooks
  · exact provider.tickers.canonical symbol htickers

/-- A symbol with something to show is listed. -/
theorem mem_of_tickerAt {provider : Provider} {symbol : String}
    (hcanonical : canonicalSymbol symbol = symbol) (h : (tickerAt provider symbol).isSome) :
    symbol ∈ tickerSymbols provider := by
  by_contra hmissing
  simp only [mem_tickerSymbols, not_or] at hmissing
  obtain ⟨hcandles, -, htickers⟩ := hmissing
  have hnone : tickerAt provider symbol = none := by
    rw [tickerAt, getCandles, hcanonical, seriesOf_missing hcandles, seriesOf_missing htickers]
    rfl
  rw [hnone] at h
  cases h

/-- Two sorted listings show the same when they differ in symbols without a row only. -/
theorem filterMap_listings {β : Type} (row : String → Option β) {l m : List String}
    (hl : l.Pairwise (· ≤ ·)) (hm : m.Pairwise (· ≤ ·)) (hlnodup : l.Nodup) (hmnodup : m.Nodup)
    (hmem : ∀ symbol, (row symbol).isSome → (symbol ∈ l ↔ symbol ∈ m)) :
    l.filterMap row = m.filterMap row := by
  have hkept (listing : List String) :
      listing.filterMap row = (listing.filter fun symbol => (row symbol).isSome).filterMap row := by
    rw [List.filterMap_filter]
    refine List.filterMap_congr fun symbol _ => ?_
    cases row symbol <;> rfl
  have hperm : (l.filter fun symbol => (row symbol).isSome).Perm
      (m.filter fun symbol => (row symbol).isSome) := by
    refine (List.perm_ext_iff_of_nodup (hlnodup.filter _) (hmnodup.filter _)).mpr fun symbol => ?_
    rw [List.mem_filter, List.mem_filter]
    exact and_congr_left (hmem symbol)
  have heq := hperm.eq_of_pairwise (fun a b _ _ => le_antisymm) (hl.filter _) (hm.filter _)
  rw [hkept l, hkept m, heq]

theorem tickerSymbols_sorted (provider : Provider) :
    (tickerSymbols provider).Pairwise (· ≤ ·) := List.pairwise_insertionSort _ _

theorem tickerSymbols_nodup (provider : Provider) : (tickerSymbols provider).Nodup :=
  (List.perm_insertionSort _ _).nodup_iff.mpr (List.nodup_dedup _)

theorem SameUntil.getTickerStats_eq {t : Int} {p q : Provider} (h : SameUntil t p q)
    (ht : p.current ≤ t) : getTickerStats p = getTickerStats q := by
  have hrow : (fun symbol => (tickerAt p symbol).map (tickerRow symbol)) =
      fun symbol => (tickerAt q symbol).map (tickerRow symbol) := by
    funext symbol
    rw [h.tickerAt_eq ht symbol]
  rw [getTickerStats, getTickerStats, hrow]
  refine filterMap_listings _ (tickerSymbols_sorted p) (tickerSymbols_sorted q)
    (tickerSymbols_nodup p) (tickerSymbols_nodup q) fun symbol hsome => ?_
  rw [Option.isSome_map] at hsome
  constructor
  · intro hin
    exact mem_of_tickerAt (tickerSymbols_canonical hin) hsome
  · intro hin
    refine mem_of_tickerAt (tickerSymbols_canonical hin) ?_
    rw [h.tickerAt_eq ht symbol]
    exact hsome

/-- Both clocks stop at the same step. -/
theorem SameUntil.stops_iff {t : Int} {p q : Provider} (h : SameUntil t p q) :
    p.current + p.step > p.endTs ↔ q.current + q.step > q.endTs := by
  rw [h.current, h.endTs, h.step]

/-- Every call answers alike while the clock is within the common rows. -/
theorem SameUntil.answer_eq {t : Int} {p q : Provider} (h : SameUntil t p q) (ht : p.current ≤ t)
    (call : Call) : answer p call = answer q call := by
  cases call with
  | now => exact congrArg Answer.time h.current
  | advance =>
    by_cases hstops : p.current + p.step > p.endTs
    · simp [answer, advance, if_pos hstops, if_pos (h.stops_iff.mp hstops)]
    · simp [answer, advance, if_neg hstops, if_neg (mt h.stops_iff.mpr hstops)]
  | getCandles symbol limit => exact congrArg Answer.candles (h.getCandles_eq ht symbol limit)
  | getOrderbook symbol => exact congrArg Answer.top (h.getOrderbook_eq ht symbol)
  | getTickerStats => exact congrArg Answer.stats (h.getTickerStats_eq ht)

/-- The clock moves by the same step, and the rows are left alone. -/
theorem SameUntil.after {t : Int} {p q : Provider} (h : SameUntil t p q) (call : Call) :
    SameUntil t (after p call) (after q call) := by
  cases call with
  | advance =>
    rw [MarketDataReplay.after, MarketDataReplay.after, advance, advance]
    by_cases hstops : p.current + p.step > p.endTs
    · rw [if_pos hstops, if_pos (h.stops_iff.mp hstops)]
      exact h
    · have hnext : p.current + p.step = q.current + q.step := by rw [h.current, h.step]
      rw [if_neg hstops, if_neg (mt h.stops_iff.mpr hstops)]
      exact {
        current := hnext
        endTs := h.endTs
        step := h.step
        candles := h.candles
        orderbooks := h.orderbooks
        tickers := h.tickers }
  | now => exact h
  | getCandles symbol limit => exact h
  | getOrderbook symbol => exact h
  | getTickerStats => exact h

theorem current_le_after (provider : Provider) (call : Call) :
    provider.current ≤ (after provider call).current := by
  cases call with
  | advance =>
    have hstep := provider.stepPos
    simp only [after, advance]
    split
    · exact le_refl _
    · show provider.current ≤ provider.current + provider.step
      omega
  | now => exact le_refl _
  | getCandles symbol limit => exact le_refl _
  | getOrderbook symbol => exact le_refl _
  | getTickerStats => exact le_refl _

/-- The clock never goes back. -/
theorem current_le_run (provider : Provider) (calls : List Call) :
    provider.current ≤ (Runs.run after provider calls).current :=
  Runs.run_keeps (I := fun later => provider.current ≤ later.current)
    (fun later call h => h.trans (current_le_after later call)) provider calls (le_refl _)

theorem SameUntil.answers_eq {t : Int} (calls : List Call) {p q : Provider}
    (h : SameUntil t p q) (ht : (Runs.run MarketDataReplay.after p calls).current ≤ t) :
    answers p calls = answers q calls := by
  induction calls generalizing p q with
  | nil => rfl
  | cons call calls ih =>
    have hnow : p.current ≤ t := (current_le_run p (call :: calls)).trans ht
    rw [answers, answers, h.answer_eq hnow call, ih (h.after call) ht]

/-- Two recordings with the same rows up to a time, under canonical symbols. -/
structure Dataset.SameUntil (t : Int) (data other : Dataset) : Prop where
  candles : ∀ symbol, upTo Candle.ts t (rowsOf data.candlesBySymbol symbol) =
    upTo Candle.ts t (rowsOf other.candlesBySymbol symbol)
  orderbooks : ∀ symbol, upTo OrderBookTop.ts t (rowsOf data.orderbookBySymbol symbol) =
    upTo OrderBookTop.ts t (rowsOf other.orderbookBySymbol symbol)
  tickers : ∀ symbol, upTo TickerStat.ts t (rowsOf data.tickerBySymbol symbol) =
    upTo TickerStat.ts t (rowsOf other.tickerBySymbol symbol)

/-- Sorting a recording keeps what it shares with another one. -/
theorem upTo_normalizeSeries {α : Type} {ts : α → Int} {t : Int}
    {seriesBySymbol others : List (String × List α)} {symbol : String}
    (h : upTo ts t (rowsOf seriesBySymbol symbol) = upTo ts t (rowsOf others symbol)) :
    upTo ts t (seriesOf (normalizeSeries ts seriesBySymbol) symbol) =
      upTo ts t (seriesOf (normalizeSeries ts others) symbol) := by
  have htotal : Std.Total fun a b : α => ts a ≤ ts b := ⟨fun a b => Int.le_total (ts a) (ts b)⟩
  have htrans : IsTrans α fun a b => ts a ≤ ts b := ⟨fun _ _ _ => Int.le_trans⟩
  rw [upTo, upTo] at h
  rw [normalizeSeries_get, normalizeSeries_get, upTo, upTo, SortedFold.filter_insertionSort,
    SortedFold.filter_insertionSort, h]

theorem init_sameUntil {t startTs endTs stepSeconds : Int} {data other : Dataset}
    (h : data.SameUntil t other) {p q : Provider}
    (hp : init data startTs endTs stepSeconds = .ok p)
    (hq : init other startTs endTs stepSeconds = .ok q) : SameUntil t p q := by
  rw [init] at hp hq
  split at hp
  · cases hp
  · split at hp
    · cases hp
    · next hstep hend =>
      rw [dif_neg hstep, if_neg hend] at hq
      obtain rfl := Except.ok.inj hp
      obtain rfl := Except.ok.inj hq
      exact {
        current := rfl
        endTs := rfl
        step := rfl
        candles := fun symbol => upTo_normalizeSeries (h.candles symbol)
        orderbooks := fun symbol => upTo_normalizeSeries (h.orderbooks symbol)
        tickers := fun symbol => upTo_normalizeSeries (h.tickers symbol) }

/-- Recordings that differ only after a time are told apart by no call before it. -/
theorem no_look_ahead (t startTs endTs stepSeconds : Int) (data other : Dataset)
    (hsame : data.SameUntil t other) (p q : Provider)
    (hp : init data startTs endTs stepSeconds = .ok p)
    (hq : init other startTs endTs stepSeconds = .ok q) (calls : List Call)
    (htime : (Runs.run after p calls).current ≤ t) : answers p calls = answers q calls :=
  (init_sameUntil hsame hp hq).answers_eq calls htime

def candleOf (ts : Int) (price : Decimal) : Candle := ⟨ts, price, price, price, price, ⟨1, "1"⟩⟩

def risingCandles : Dataset :=
  ⟨[("BTC_TRY", [candleOf 10 ⟨100, "100"⟩, candleOf 70000000 ⟨200, "200"⟩])], [], []⟩

def fallingCandles : Dataset :=
  ⟨[("BTC_TRY", [candleOf 10 ⟨100, "100"⟩, candleOf 65000000 ⟨50, "50"⟩])], [], []⟩

def readAtTheMinute : List Call := [.advance, .getTickerStats, .getCandles "btctry" 5]

/-- A rise and a fall after the first minute read alike at the minute. -/
theorem no_look_ahead_candles :
    ∃ p q, init risingCandles 0 120000000 60 = .ok p ∧ init fallingCandles 0 120000000 60 = .ok q ∧
      answers p readAtTheMinute = answers q readAtTheMinute := by
  have hsame : risingCandles.SameUntil 60000000 fallingCandles := by
    constructor
    · intro symbol
      by_cases hsymbol : canonicalSymbol "BTC_TRY" = symbol
      · simp [risingCandles, fallingCandles, rowsOf, upTo, candleOf, hsymbol]
      · simp [risingCandles, fallingCandles, rowsOf, upTo, hsymbol]
    · exact fun symbol => rfl
    · exact fun symbol => rfl
  exact ⟨_, _, rfl, rfl, no_look_ahead 60000000 0 120000000 60 risingCandles fallingCandles hsame
    _ _ rfl rfl readAtTheMinute (by decide)⟩

end MarketDataReplay
