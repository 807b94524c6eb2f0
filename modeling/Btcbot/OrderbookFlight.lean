import Btcbot.MarketDataService
import Btcbot.SingleFlight

/-!
# Order book lookups from several threads

The cache of the order book provider is shared by threads, and a fetch is shared by the
callers that come while it is under way. A step of a thread is a locked section, the answer
of the exchange with the reading of the clock after it, the setting of the future, or a
return. Threads that take turns get what the sequential lookup gives.
-/
namespace OrderbookFlight

open MarketDataService ExchangeErrors SingleFlight

abbrev FlightWorld := World String ℤ OrderbookCacheEntry Exc

abbrev FlightEvent := Event String ℤ OrderbookCacheEntry Exc

variable (settings : Settings)

/-- `except Exception` does not see a crash, which leaves the future registered and pending. -/
def orderbookPolicy : Policy ℤ OrderbookCacheEntry Exc where
  fresh nowMs entry := isFresh settings entry nowMs
  usable nowMs entry := isUsableStale settings entry nowMs
  caught exc := exc ≠ .crash

/-- The steps of the threads, in any order; a call carries its own reading of the clock. -/
def flights (events : List FlightEvent) : FlightWorld :=
  Runs.run (SingleFlight.step (orderbookPolicy settings)) World.init events

/-- Two callers share a fetch that fails, and are served what an earlier one stored. -/
def sharedFailure : List FlightEvent :=
  let found : Except Exc OrderbookCacheEntry := .ok ⟨100, 101, 0, 0⟩
  let failed : Except Exc OrderbookCacheEntry := .error (.networkError "reset")
  [.ask "BTC_TRY" 0, .move 0 found, .move 0 found, .move 0 found, .move 0 found,
    .ask "BTC_TRY" 3000, .ask "BTC_TRY" 4000, .move 1 failed, .move 2 failed, .move 1 failed,
    .move 1 failed, .move 2 failed, .move 1 failed, .move 2 failed]

/-- In any order of steps a symbol has at most one fetch under way, and the callers that share a
flight get the same result. -/
theorem one_fetch_per_symbol (events : List FlightEvent) :
    let w := flights settings events
    ∀ (i j : ℕ) (c d : Call String ℤ OrderbookCacheEntry Exc), w.calls[i]? = some c →
      w.calls[j]? = some d →
      (c.key = d.key → c.phase.flight ≠ none → d.phase.flight ≠ none → i = j) ∧
      ∀ future result other, c.phase = .done (some future) result →
        d.phase = .done (some future) other → c.key = d.key ∧ result = other := by
  intro w i j c d hc hd
  have hsound : Sound (orderbookPolicy settings) w := run_sound events
  refine ⟨fun hkey hleads hleads' => ?_, fun future result other hphase hphase' =>
    hsound.agree hc hd hphase hphase'⟩
  obtain ⟨future, hfuture⟩ := Option.ne_none_iff_exists'.mp hleads
  obtain ⟨future', hfuture'⟩ := Option.ne_none_iff_exists'.mp hleads'
  exact hsound.one_leader hc hd hkey hfuture hfuture'

theorem sharedFailure_agrees :
    let w := flights ⟨"rest", false, 2000, 5000⟩ sharedFailure
    ∃ c d result other, w.calls[1]? = some c ∧ w.calls[2]? = some d ∧
      c.phase = .done (some 1) result ∧ d.phase = .done (some 1) other ∧
      c.key = d.key ∧ result = other :=
  ⟨_, _, _, _, rfl, rfl, rfl, rfl,
    (one_fetch_per_symbol ⟨"rest", false, 2000, 5000⟩ sharedFailure 1 2 _ _ rfl rfl).2 1 _ _ rfl rfl⟩

/-- What a caller is given is an answer to its own symbol: one that was fresh at its own reading,
or the result of the flight it was on, which is the answer to the leader's fetch or else, for a
failed fetch, an entry usable at the leader's reading. -/
theorem served_entry (events : List FlightEvent) :
    let w := flights settings events
    ∀ (i : ℕ) (c : Call String ℤ OrderbookCacheEntry Exc), w.calls[i]? = some c →
      ∀ future result, c.phase = .done future result → (c.key, result) ∈ w.answers ∧
        ((∃ entry, result = .ok entry ∧ isFresh settings entry c.now = true) ∨
          ∃ leader ∈ w.calls, leader.key = c.key ∧ leader.phase = c.phase ∧
            (leader.answer = some result ∨ ∃ exc entry, leader.answer = some (.error exc) ∧
              result = .ok entry ∧ isUsableStale settings entry leader.now = true)) := by
  intro w i c hc future result hphase
  have hsound : Sound (orderbookPolicy settings) w := run_sound events
  cases hsound.explained hc hphase with
  | hit entry hfresh hanswer => exact ⟨hanswer, .inl ⟨entry, rfl, hfresh⟩⟩
  | flight result future j leader hown hleader hkey hsame hdecided =>
    rw [hown]
    exact ⟨hkey ▸ hdecided.1,
      .inr ⟨leader, List.mem_of_getElem? hleader, hkey, hsame, hdecided.2⟩⟩

theorem sharedFailure_served :
    let w := flights ⟨"rest", false, 2000, 5000⟩ sharedFailure
    let entry : OrderbookCacheEntry := ⟨100, 101, 0, 0⟩
    (("BTC_TRY", .ok entry) ∈ w.answers) ∧ ∃ leader ∈ w.calls, leader.key = "BTC_TRY" ∧
      (leader.answer = some (.ok entry) ∨
        isUsableStale ⟨"rest", false, 2000, 5000⟩ entry leader.now = true) := by
  intro w entry
  obtain ⟨hanswer, hserved⟩ := served_entry ⟨"rest", false, 2000, 5000⟩ sharedFailure 2
    ⟨"BTC_TRY", 4000, none, .done (some 1) (.ok entry)⟩ rfl (some 1) (.ok entry) rfl
  refine ⟨hanswer, ?_⟩
  rcases hserved with ⟨found, heq, hfresh⟩ | ⟨leader, hin, hkey, -, hown | hback⟩
  · cases heq
    exact absurd hfresh (by decide +kernel)
  · exact ⟨leader, hin, hkey, .inl hown⟩
  · obtain ⟨exc, found, -, heq, husable⟩ := hback
    cases heq
    exact ⟨leader, hin, hkey, .inr husable⟩

/-- The clock does not fall from a caller's reading to the one after its fetch. -/
def ReadsOn (w : FlightWorld) (event : FlightEvent) : Prop :=
  Suits (fun nowMs entry => nowMs ≤ entry.observedAtMs) w event

/-- While clocks do not fall within a call, the entries stored for a symbol are observed more than
the time to live apart. -/
theorem stored_apart (events : List FlightEvent)
    (hclock : Runs.Meets (SingleFlight.step (orderbookPolicy settings)) ReadsOn World.init events) :
    (flights settings events).stores.Pairwise fun first later => first.1 = later.1 →
      first.2.observedAtMs + settings.ttlMs < later.2.observedAtMs := by
  have httl : 0 ≤ settings.ttlMs := le_max_left _ _
  have hsep : ∀ (nowMs : ℤ) (first later : OrderbookCacheEntry),
      (orderbookPolicy settings).fresh nowMs first = false → nowMs ≤ later.observedAtMs →
      first.observedAtMs + settings.ttlMs < later.observedAtMs := by
    intro nowMs first later hstale hreads
    have hold : ¬ nowMs - first.observedAtMs ≤ settings.ttlMs := of_decide_eq_false hstale
    omega
  have htrans : ∀ first later last : OrderbookCacheEntry,
      first.observedAtMs + settings.ttlMs < later.observedAtMs →
      later.observedAtMs + settings.ttlMs < last.observedAtMs →
      first.observedAtMs + settings.ttlMs < last.observedAtMs := by
    intro first later last hfirst hlast
    omega
  exact run_spaced hsep htrans events hclock

theorem readsOn_move {w : FlightWorld} {i : ℕ} {c : Call String ℤ OrderbookCacheEntry Exc}
    {answer : Except Exc OrderbookCacheEntry} (hc : w.calls[i]? = some c)
    (hreads : ∀ entry, answer = .ok entry → c.now ≤ entry.observedAtMs) :
    ReadsOn w (.move i answer) := by
  intro d hd future hphase entry hentry
  obtain rfl := Option.some.inj (hc.symm.trans hd)
  exact hreads entry hentry

theorem two_fetches_apart :
    let found (ms : ℤ) : Except Exc OrderbookCacheEntry := .ok ⟨100, 101, ms, 1000 * ms⟩
    let w := flights ⟨"rest", false, 2000, 5000⟩
      [.ask "BTC_TRY" 0, .move 0 (found 1), .move 0 (found 1), .move 0 (found 1),
        .move 0 (found 1), .ask "BTC_TRY" 2002, .move 1 (found 2002),
        .move 1 (found 2002), .move 1 (found 2002)]
    w.stores.length = 2 ∧ w.stores.Pairwise fun first later => first.1 = later.1 →
      first.2.observedAtMs + 2000 < later.2.observedAtMs := by
  refine ⟨rfl, stored_apart ⟨"rest", false, 2000, 5000⟩ _ ?_⟩
  refine ⟨trivial, readsOn_move rfl ?_, readsOn_move rfl ?_, readsOn_move rfl ?_,
    readsOn_move rfl ?_, trivial, readsOn_move rfl ?_, readsOn_move rfl ?_, readsOn_move rfl ?_,
    trivial⟩
  all_goals
    rintro _ ⟨⟩
    decide +kernel

/-- If no fetch was cut short by a crash, every call ends after at most four more steps a call,
whatever the exchange answers; and whoever waits for a fetch that was cut short never ends. -/
theorem all_finish (events : List FlightEvent) :
    let w := flights settings events
    (¬ Lost w → ∀ answer : ℕ → Except Exc OrderbookCacheEntry, (∀ i, answer i ≠ .error .crash) →
      ∃ moves : List ℕ, moves.length ≤ w.calls.length * 4 ∧
        ∀ c ∈ (Runs.run (SingleFlight.step (orderbookPolicy settings)) w
          (moves.map fun i => .move i (answer i))).calls,
          ∃ future result, c.phase = .done future result) ∧
    ∀ (i j : ℕ) (c leader : Call String ℤ OrderbookCacheEntry Exc) future exc,
      w.calls[i]? = some c → w.calls[j]? = some leader → leader.phase = .lost future exc →
      c.phase = .waiting future → ∀ more,
        (Runs.run (SingleFlight.step (orderbookPolicy settings)) w more).calls[i]? =
        some c := by
  intro w
  have hsound : Sound (orderbookPolicy settings) w := run_sound events
  refine ⟨fun hlost answer hcrash => ?_, fun i j c leader future exc hc hleader hlost hwaiting
    more => hsound.stuck hleader hlost hc hwaiting more⟩
  obtain ⟨moves, hlength, hdone⟩ := hsound.finishes hlost answer fun i exc hanswer => by
    refine decide_eq_true fun hexc => hcrash i ?_
    rw [hanswer, hexc]
  exact ⟨moves, hlength.trans (total_le w), hdone⟩

/-- One of two callers waits for a fetch that is under way. -/
def underWay : List FlightEvent :=
  [.ask "BTC_TRY" 0, .ask "BTC_TRY" 1, .move 0 (.error .crash), .move 1 (.error .crash)]

theorem underWay_finishes :
    let w := flights ⟨"rest", false, 2000, 5000⟩ underWay
    ∃ moves : List ℕ, moves.length ≤ 8 ∧
      ∀ c ∈ (Runs.run (SingleFlight.step (orderbookPolicy ⟨"rest", false, 2000, 5000⟩)) w
        (moves.map fun i => .move i (.ok ⟨100, 101, 0, 0⟩))).calls,
        ∃ future result, c.phase = .done future result := by
  refine (all_finish ⟨"rest", false, 2000, 5000⟩ underWay).1 ?_ (fun _ => .ok ⟨100, 101, 0, 0⟩)
    fun _ h => by cases h
  rintro ⟨c, hc, future, exc, hphase⟩
  have hphases : ((flights ⟨"rest", false, 2000, 5000⟩ underWay).calls.map Call.phase) =
      [.fetching 0, .waiting 0] := rfl
  have hin := List.mem_map_of_mem (f := Call.phase) hc
  rw [hphases, hphase] at hin
  simp at hin

section Turns

variable (env : Environment)

/-- What a call ends with, that of a crash included. -/
def resultOf (c : Call String ℤ OrderbookCacheEntry Exc) :
    Option (Except Exc OrderbookCacheEntry) :=
  match c.phase with
  | .done _ result => some result
  | .lost _ exc => some (.error exc)
  | _ => none

/-- The answer of the exchange to a lookup, with the reading after it. -/
def fetchAnswer (s : Service) (symbol : String) : Except Exc OrderbookCacheEntry :=
  match env.getOrderbook (s.readings + 1) symbol with
  | .ok (bid, ask) => .ok ⟨bid, ask, toMs (env.now (s.readings + 1)), env.now (s.readings + 1)⟩
  | .error exc => .error exc

/-- All the steps of one call in a row. -/
def turn (s : Service) (symbol : String) (i : ℕ) : List FlightEvent :=
  .ask symbol (toMs (env.now s.readings)) :: List.replicate 4 (.move i (fetchAnswer env s symbol))

/-- The turns of calls after one another. -/
def turns : List String → Service → ℕ → List FlightEvent
  | [], _, _ => []
  | symbol :: symbols, s, i =>
    turn env s symbol i ++ turns symbols (lookup env settings s symbol) (i + 1)

/-- The results of sequential lookups. -/
def lookups : List String → Service → List (Except Exc OrderbookCacheEntry)
  | [], _ => []
  | symbol :: symbols, s =>
    (getOrFetch env settings symbol s).1 :: lookups symbols (lookup env settings s symbol)

/-- The caches hold the same and no fetch is under way. -/
structure Agrees (w : FlightWorld) (s : Service) : Prop where
  cache : ∀ symbol, w.cache symbol = KeyedTable.get? s.cache symbol
  quiet : ∀ symbol, w.inflight symbol = none

variable {env settings} {w : FlightWorld} {s : Service} {symbol : String}
  {calls : List (Call String ℤ OrderbookCacheEntry Exc)}
  {c c' : Call String ℤ OrderbookCacheEntry Exc}

/-- One call from its asking to its end, while no other one is under way. -/
theorem turn_spec (h : Agrees w s)
    (hcrash : env.getOrderbook (s.readings + 1) symbol ≠ .error .crash) :
    let final := Runs.run (SingleFlight.step (orderbookPolicy settings)) w
      (turn env s symbol w.calls.length)
    (∃ c, final.calls = w.calls ++ [c] ∧
      resultOf c = some (getOrFetch env settings symbol s).1) ∧
    Agrees final (lookup env settings s symbol) := by
  obtain ⟨calls, futures, cache, inflight, answers, stores⟩ := w
  obtain ⟨hcache, hquiet⟩ := h
  dsimp only at hcache hquiet ⊢
  simp only [turn, List.replicate, Runs.run_cons, Runs.run_nil]
  cases hhit : (cache symbol).filter
      ((orderbookPolicy settings).fresh (toMs (env.now s.readings))) with
  | some entry =>
    have hget : (KeyedTable.get? s.cache symbol).filter
        (isFresh settings · (toMs (env.now s.readings))) = some entry := hcache symbol ▸ hhit
    have hlookup : getOrFetch env settings symbol s = (.ok entry, s.afterReading) := by
      simp only [getOrFetch, Service.afterReading, hget]
    simp only [SingleFlight.step, World.ask, List.getElem?_concat_length, move, hhit, World.put,
      List.set_append_right, le_refl, Nat.sub_self, List.set_cons_zero, lookup, hlookup]
    exact ⟨⟨_, rfl, rfl⟩, hcache, hquiet⟩
  | none =>
    have hget : (KeyedTable.get? s.cache symbol).filter
        (isFresh settings · (toMs (env.now s.readings))) = none := hcache symbol ▸ hhit
    cases hanswer : env.getOrderbook (s.readings + 1) symbol with
    | ok quote =>
      let entry : OrderbookCacheEntry := ⟨quote.1, quote.2, toMs (env.now (s.readings + 1)),
        env.now (s.readings + 1)⟩
      have hlookup : getOrFetch env settings symbol s =
          (.ok entry, { s.afterReading.afterReading with
            cache := KeyedTable.setItem s.cache symbol entry }) := by
        simp only [getOrFetch, Service.afterReading, hget, hanswer, entry]
      have hfetch : fetchAnswer env s symbol = .ok entry := by rw [fetchAnswer, hanswer]
      simp only [SingleFlight.step, World.ask, List.getElem?_concat_length, move, hhit, World.put,
        List.set_append_right, le_refl, Nat.sub_self, List.set_cons_zero, lookup, hlookup, hquiet,
        hfetch, Policy.answered]
      refine ⟨⟨_, rfl, rfl⟩, fun other => ?_, fun other => ?_⟩
      · dsimp only
        rw [KeyedTable.get?_setItem]
        by_cases hother : other = symbol
        · rw [hother, Function.update_self, if_pos rfl]
        · rw [Function.update_of_ne hother, if_neg (Ne.symm hother), hcache]
      · dsimp only
        by_cases hother : other = symbol
        · rw [hother, Function.update_self]
        · rw [Function.update_of_ne hother, Function.update_of_ne hother, hquiet]
    | error exc =>
      have hexc : exc ≠ .crash := fun heq => hcrash (by rw [hanswer, heq])
      have hlookup : getOrFetch env settings symbol s = ((orderbookPolicy settings).fallBack
          (toMs (env.now s.readings)) (cache symbol) exc, s.afterReading) := by
        simp only [getOrFetch, Service.afterReading, hget, hanswer, Policy.fallBack, hcache,
          orderbookPolicy, ne_eq, hexc, not_false_eq_true, decide_true, Bool.true_and]
        split
        · next hback => rw [hback]
        · next hback => rw [hback]
      have hcaught : (orderbookPolicy settings).caught exc = true := decide_eq_true hexc
      have hfetch : fetchAnswer env s symbol = .error exc := by rw [fetchAnswer, hanswer]
      simp only [SingleFlight.step, World.ask, List.getElem?_concat_length, move, hhit, World.put,
        List.set_append_right, le_refl, Nat.sub_self, List.set_cons_zero, lookup, hlookup, hquiet,
        hfetch, Policy.answered, hcaught, if_true]
      refine ⟨⟨_, rfl, rfl⟩, hcache, fun other => ?_⟩
      dsimp only
      by_cases hother : other = symbol
      · rw [hother, Function.update_self]
      · rw [Function.update_of_ne hother, Function.update_of_ne hother, hquiet]

end Turns

/-- Callers that take turns get what sequential lookups give, and leave the same cache. -/
theorem turns_sequential (env : Environment) (symbols : List String) (s : Service)
    (w : FlightWorld) (h : Agrees w s)
    (hcrash : ∀ n symbol, env.getOrderbook n symbol ≠ .error .crash) :
    let final := Runs.run (SingleFlight.step (orderbookPolicy settings)) w
      (turns settings env symbols s w.calls.length)
    (∃ more, final.calls = w.calls ++ more ∧
      more.map resultOf = (lookups settings env symbols s).map some) ∧
    Agrees final (symbols.foldl (lookup env settings) s) := by
  induction symbols generalizing s w with
  | nil => exact ⟨⟨[], (List.append_nil _).symm, rfl⟩, h⟩
  | cons symbol symbols ih =>
    obtain ⟨⟨c, hcalls, hresult⟩, hagrees⟩ := turn_spec h (hcrash (s.readings + 1) symbol)
    rw [turns, Runs.run_append]
    generalize Runs.run (SingleFlight.step (orderbookPolicy settings)) w
      (turn env s symbol w.calls.length) = after at hcalls hagrees ⊢
    have hlength : after.calls.length = w.calls.length + 1 := by
      rw [hcalls, List.length_append, List.length_singleton]
    obtain ⟨⟨more, hmore, hresults⟩, hfinal⟩ := ih (lookup env settings s symbol) after hagrees
    rw [hlength] at hmore hfinal
    refine ⟨⟨c :: more, ?_, ?_⟩, hfinal⟩
    · rw [hmore, hcalls, List.append_assoc]
      rfl
    · rw [List.map_cons, hresult, hresults]
      rfl

/-- An exchange that answers every lookup. -/
def answering : Environment := ⟨fun n => n * 1000000, fun n _ => .ok (n, n + 1)⟩

theorem answering_turns :
    let final := Runs.run (SingleFlight.step (orderbookPolicy ⟨"rest", false, 2000, 5000⟩)) World.init
      (turns ⟨"rest", false, 2000, 5000⟩ answering ["BTC_TRY", "ETH_TRY", "BTC_TRY"] {} 0)
    ∃ more, final.calls = more ∧ more.map resultOf =
      (lookups ⟨"rest", false, 2000, 5000⟩ answering ["BTC_TRY", "ETH_TRY", "BTC_TRY"] {}).map some :=
  (turns_sequential ⟨"rest", false, 2000, 5000⟩ answering _ {} World.init
    ⟨fun _ => rfl, fun _ => rfl⟩ fun _ _ h => by cases h).1

end OrderbookFlight
