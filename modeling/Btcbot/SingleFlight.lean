import Btcbot.Runs
import Mathlib.Algebra.GroupWithZero.Nat
import Mathlib.Algebra.Order.BigOperators.Group.List
import Mathlib.Algebra.Order.Group.Nat
import Mathlib.Data.List.Basic
import Mathlib.Logic.Function.Basic

/-!
# Single flights

Callers that miss a cache share one request: the first one fetches, and those that come
while its future is registered wait for it. A caller looks up the cache and the register
in one locked section, and so does the owner when it stores what it fetched or withdraws;
everything between is in steps of its own, that other callers may come between.
-/
namespace SingleFlight

/-- When a cached value is served, when it stands in for a failed fetch, and which failures
are handled at all. -/
structure Policy (τ α ε : Type) where
  fresh : τ → α → Bool
  usable : τ → α → Bool
  caught : ε → Bool

inductive Phase (α ε : Type) where
  | asked
  | fetching (future : ℕ)
  | fetched (future : ℕ) (value : α)
  | failed (future : ℕ) (error : ε)
  | lost (future : ℕ) (error : ε)
  | settling (future : ℕ) (result : Except ε α)
  | waiting (future : ℕ)
  | done (future : Option ℕ) (result : Except ε α)

namespace Phase

variable {α ε : Type}

/-- The future that is registered and not yet withdrawn. -/
def flight : Phase α ε → Option ℕ
  | .fetching future | .fetched future _ | .failed future _ | .lost future _ => some future
  | _ => none

/-- The future that is still to be set. -/
def owned : Phase α ε → Option ℕ
  | .fetching future | .fetched future _ | .failed future _ | .lost future _
  | .settling future _ => some future
  | _ => none

/-- The steps left. -/
def left : Phase α ε → ℕ
  | .asked => 4
  | .fetching _ => 3
  | .fetched _ _ | .failed _ _ => 2
  | .settling _ _ | .waiting _ => 1
  | .lost _ _ | .done _ _ => 0

end Phase

/-- A call with the reading it goes by, and what it was answered if it fetched. -/
structure Call (κ τ α ε : Type) where
  key : κ
  now : τ
  answer : Option (Except ε α) := none
  phase : Phase α ε := .asked

/-- A future with the call that made it. -/
structure Future (κ α ε : Type) where
  owner : ℕ
  key : κ
  result : Option (Except ε α)

/-- With every answer to a fetch and every value that was stored. -/
structure World (κ τ α ε : Type) where
  calls : List (Call κ τ α ε)
  futures : List (Future κ α ε)
  cache : κ → Option α
  inflight : κ → Option ℕ
  answers : List (κ × Except ε α)
  stores : List (κ × α)

inductive Event (κ τ α ε : Type) where
  | ask (key : κ) (now : τ)
  /-- The answer is the one to a fetch. -/
  | move (i : ℕ) (answer : Except ε α)

variable {κ τ α ε : Type}

def World.init : World κ τ α ε := ⟨[], [], fun _ => none, fun _ => none, [], []⟩

def World.put (w : World κ τ α ε) (i : ℕ) (c : Call κ τ α ε) : World κ τ α ε :=
  { w with calls := w.calls.set i c }

def World.ask (w : World κ τ α ε) (key : κ) (now : τ) : World κ τ α ε :=
  { w with calls := w.calls ++ [⟨key, now, none, .asked⟩] }

/-- A value that may stand in, or else the error. -/
def Policy.fallBack (policy : Policy τ α ε) (now : τ) (cached : Option α) (error : ε) :
    Except ε α :=
  match cached.filter (policy.usable now) with
  | some value => .ok value
  | none => .error error

def Policy.answered (policy : Policy τ α ε) (future : ℕ) : Except ε α → Phase α ε
  | .ok value => .fetched future value
  | .error error => if policy.caught error then .failed future error else .lost future error

section Steps

variable [DecidableEq κ] (policy : Policy τ α ε)

/-- The next step of a call. -/
def move (w : World κ τ α ε) (i : ℕ) (c : Call κ τ α ε) (answer : Except ε α) : World κ τ α ε :=
  match c.phase with
  | .asked =>
    match (w.cache c.key).filter (policy.fresh c.now) with
    | some value => w.put i { c with phase := .done none (.ok value) }
    | none =>
      match w.inflight c.key with
      | some future => w.put i { c with phase := .waiting future }
      | none =>
        { w.put i { c with phase := .fetching w.futures.length } with
          futures := w.futures ++ [⟨i, c.key, none⟩]
          inflight := Function.update w.inflight c.key (some w.futures.length) }
  | .fetching future =>
    { w.put i { c with answer := some answer, phase := policy.answered future answer } with
      answers := w.answers ++ [(c.key, answer)] }
  | .fetched future value =>
    { w.put i { c with phase := .settling future (.ok value) } with
      cache := Function.update w.cache c.key (some value)
      inflight := Function.update w.inflight c.key none
      stores := w.stores ++ [(c.key, value)] }
  | .failed future error =>
    { w.put i { c with
        phase := .settling future (policy.fallBack c.now (w.cache c.key) error) } with
      inflight := Function.update w.inflight c.key none }
  | .settling future result =>
    { w.put i { c with phase := .done (some future) result } with
      futures := w.futures.set future ⟨i, c.key, some result⟩ }
  | .waiting future =>
    match (w.futures[future]?).bind Future.result with
    | some result => w.put i { c with phase := .done (some future) result }
    | none => w
  | .lost _ _ | .done _ _ => w

def step (w : World κ τ α ε) : Event κ τ α ε → World κ τ α ε
  | .ask key now => w.ask key now
  | .move i answer =>
    match w.calls[i]? with
    | some c => move policy w i c answer
    | none => w

end Steps

section Invariant

variable (policy : Policy τ α ε) (w : World κ τ α ε)

/-- What a flight may come to: the answer to the fetch, or a usable value in place of a failure. -/
def Decided (c : Call κ τ α ε) (result : Except ε α) : Prop :=
  (c.key, result) ∈ w.answers ∧ (c.answer = some result ∨ ∃ error value,
    c.answer = some (.error error) ∧ result = .ok value ∧ policy.usable c.now value = true)

/-- The call leads the flight of its key, whose cached value was not fresh. -/
structure Leads (i : ℕ) (c : Call κ τ α ε) (future : ℕ) : Prop where
  owned : w.futures[future]? = some ⟨i, c.key, none⟩
  registered : w.inflight c.key = some future
  stale : ∀ value, w.cache c.key = some value → policy.fresh c.now value = false

def CallOk (i : ℕ) (c : Call κ τ α ε) : Prop :=
  match c.phase with
  | .asked => True
  | .fetching future => Leads policy w i c future
  | .fetched future value => Leads policy w i c future ∧ c.answer = some (.ok value) ∧
    (c.key, .ok value) ∈ w.answers
  | .failed future error | .lost future error => Leads policy w i c future ∧
    c.answer = some (.error error) ∧ (c.key, .error error) ∈ w.answers
  | .settling future result => w.futures[future]? = some ⟨i, c.key, none⟩ ∧
    Decided policy w c result
  | .waiting future => ∃ made : Future κ α ε, w.futures[future]? = some made ∧ made.key = c.key
  | .done none result => ∃ value, result = .ok value ∧ policy.fresh c.now value = true ∧
    (c.key, .ok value) ∈ w.answers
  | .done (some future) result =>
    ∃ made : Future κ α ε, w.futures[future]? = some made ∧ made.key = c.key ∧
      made.result = some result

/-- The owner of a future is still to set it, or has set it and returned the same. -/
def FutureOk (future : ℕ) (made : Future κ α ε) : Prop :=
  ∃ c : Call κ τ α ε, w.calls[made.owner]? = some c ∧ c.key = made.key ∧
    match made.result with
    | none => c.phase.owned = some future
    | some result => c.phase = .done (some future) result ∧ Decided policy w c result

structure Sound : Prop where
  calls : ∀ i c, w.calls[i]? = some c → CallOk policy w i c
  futures : ∀ (future : ℕ) (made : Future κ α ε), w.futures[future]? = some made →
    FutureOk policy w future made
  inflight : ∀ key future, w.inflight key = some future → ∃ (i : ℕ) (c : Call κ τ α ε),
    w.calls[i]? = some c ∧ c.key = key ∧ c.phase.flight = some future
  cached : ∀ key value, w.cache key = some value → (key, .ok value) ∈ w.answers

end Invariant

section Frame

variable {policy : Policy τ α ε} {w w' : World κ τ α ε} {i j : ℕ} {c c' d : Call κ τ α ε}

theorem get_put (hi : w.calls[i]? = some c) (j : ℕ) :
    (w.put i c').calls[j]? = if j = i then some c' else w.calls[j]? := by
  have hlt : i < w.calls.length := (List.getElem?_eq_some_iff.mp hi).1
  rw [World.put, List.getElem?_set]
  by_cases hij : i = j
  · subst hij
    rw [if_pos rfl, if_pos hlt, if_pos rfl]
  · rw [if_neg hij, if_neg (Ne.symm hij)]

theorem Decided.mono {result : Except ε α} (h : Decided policy w d result)
    (hanswers : ∀ answer ∈ w.answers, answer ∈ w'.answers) : Decided policy w' d result :=
  ⟨hanswers _ h.1, h.2⟩

theorem CallOk.leads (h : CallOk policy w i c) {future : ℕ}
    (hflight : c.phase.flight = some future) :
    Leads policy w i c future := by
  unfold CallOk at h
  cases hphase : c.phase <;> rw [hphase] at h hflight <;> cases hflight
  · exact h
  · exact h.1
  · exact h.1
  · exact h.1

theorem CallOk.owns (h : CallOk policy w i c) {future : ℕ} (howned : c.phase.owned = some future) :
    w.futures[future]? = some ⟨i, c.key, none⟩ := by
  unfold CallOk at h
  cases hphase : c.phase <;> rw [hphase] at h howned <;> cases howned
  · exact h.owned
  · exact h.1.owned
  · exact h.1.owned
  · exact h.1.owned
  · exact h.1

/-- A call is left as it is by what others do to answers, to their own futures and to the keys
it does not lead. -/
theorem CallOk.frame (h : CallOk policy w j d)
    (hanswers : ∀ answer ∈ w.answers, answer ∈ w'.answers)
    (hfutures : ∀ (future : ℕ) (made : Future κ α ε), w.futures[future]? = some made →
      made.owner = j ∨ made.result ≠ none → w'.futures[future]? = some made)
    (hkeys : ∀ (future : ℕ) (made : Future κ α ε), w.futures[future]? = some made →
      ∃ made' : Future κ α ε, w'.futures[future]? = some made' ∧ made'.key = made.key)
    (hquiet : d.phase.flight ≠ none →
      w'.inflight d.key = w.inflight d.key ∧ w'.cache d.key = w.cache d.key) :
    CallOk policy w' j d := by
  have hleads : ∀ future, d.phase.flight = some future → Leads policy w' j d future := by
    intro future hflight
    obtain ⟨howned, hregistered, hstale⟩ := h.leads hflight
    obtain ⟨hinflight, hcache⟩ := hquiet (by rw [hflight]; exact Option.some_ne_none future)
    exact ⟨hfutures future _ howned (.inl rfl), hinflight.trans hregistered,
      fun value hvalue => hstale value (hcache.symm.trans hvalue)⟩
  unfold CallOk at h ⊢
  cases hphase : d.phase <;> rw [hphase] at h hleads
  case asked => trivial
  case fetching future => exact hleads future rfl
  case fetched future value => exact ⟨hleads future rfl, h.2.1, hanswers _ h.2.2⟩
  case failed future error => exact ⟨hleads future rfl, h.2.1, hanswers _ h.2.2⟩
  case lost future error => exact ⟨hleads future rfl, h.2.1, hanswers _ h.2.2⟩
  case settling future result => exact ⟨hfutures future _ h.1 (.inl rfl), h.2.mono hanswers⟩
  case waiting future =>
    obtain ⟨made, hmade, hkey⟩ := h
    obtain ⟨made', hmade', hkey'⟩ := hkeys future made hmade
    exact ⟨made', hmade', hkey'.trans hkey⟩
  case done future result =>
    cases future with
    | none =>
      obtain ⟨value, hresult, hfresh, hin⟩ := h
      exact ⟨value, hresult, hfresh, hanswers _ hin⟩
    | some future =>
      obtain ⟨made, hmade, hkey, hresult⟩ := h
      refine ⟨made, hfutures future made hmade (.inr ?_), hkey, hresult⟩
      rw [hresult]
      exact Option.some_ne_none result

/-- What one call changed, by its step from one phase to the next. -/
structure Moved (policy : Policy τ α ε) (w w' : World κ τ α ε) (i : ℕ) (c c' : Call κ τ α ε) :
    Prop where
  was : w.calls[i]? = some c
  calls : w'.calls = (w.put i c').calls
  key : c'.key = c.key
  ok : CallOk policy w' i c'
  answers : ∀ answer ∈ w.answers, answer ∈ w'.answers
  kept : ∀ (future : ℕ) (made : Future κ α ε), w.futures[future]? = some made →
    made.owner ≠ i ∨ made.result ≠ none →
    w'.futures[future]? = some made
  keys : ∀ (future : ℕ) (made : Future κ α ε), w.futures[future]? = some made →
    ∃ made' : Future κ α ε, w'.futures[future]? = some made' ∧ made'.key = made.key
  old : ∀ (future : ℕ) (made : Future κ α ε), w'.futures[future]? = some made → made.owner ≠ i →
    w.futures[future]? = some made
  own : ∀ (future : ℕ) (made : Future κ α ε), w'.futures[future]? = some made → made.owner = i →
    FutureOk policy w' future made
  quiet : ∀ (j : ℕ) (d : Call κ τ α ε), w.calls[j]? = some d → j ≠ i → d.phase.flight ≠ none →
    w'.inflight d.key = w.inflight d.key ∧ w'.cache d.key = w.cache d.key
  inflight : ∀ key future, w'.inflight key = some future →
    key = c.key ∧ c'.phase.flight = some future ∨
      w.inflight key = some future ∧ (key ≠ c.key ∨ c.phase.flight = none)
  cached : ∀ key value, w'.cache key = some value →
    w.cache key = some value ∨ (key, .ok value) ∈ w'.answers

theorem Sound.moved (h : Sound policy w) (hm : Moved policy w w' i c c') : Sound policy w' := by
  have hget (j : ℕ) : w'.calls[j]? = if j = i then some c' else w.calls[j]? := by
    rw [hm.calls, get_put hm.was]
  refine ⟨fun j d hd => ?_, fun future made hmade => ?_, fun key future hkey => ?_,
    fun key value hvalue => ?_⟩
  · rw [hget] at hd
    split at hd
    · next hij =>
      obtain rfl := Option.some.inj hd
      exact hij ▸ hm.ok
    · next hij =>
      refine (h.calls j d hd).frame hm.answers (fun future made hmade howner => ?_) hm.keys
        (hm.quiet j d hd hij)
      exact hm.kept future made hmade (howner.imp_left fun heq heq' => hij (heq.symm.trans heq'))
  · by_cases howner : made.owner = i
    · exact hm.own future made hmade howner
    · obtain ⟨d, hd, hkey, hresult⟩ := h.futures future made (hm.old future made hmade howner)
      refine ⟨d, ?_, hkey, ?_⟩
      · rw [hget, if_neg howner]
        exact hd
      · cases hcase : made.result with
        | none =>
          rw [hcase] at hresult
          exact hresult
        | some result =>
          rw [hcase] at hresult
          exact ⟨hresult.1, hresult.2.mono hm.answers⟩
  · rcases hm.inflight key future hkey with ⟨rfl, hflight⟩ | ⟨hold, hother⟩
    · refine ⟨i, c', ?_, hm.key, hflight⟩
      rw [hget, if_pos rfl]
    · obtain ⟨j, d, hd, hdkey, hflight⟩ := h.inflight key future hold
      by_cases hij : j = i
      · -- the call itself led no flight of this key
        obtain rfl : d = c := by
          rw [hij, hm.was] at hd
          exact (Option.some.inj hd).symm
        rcases hother with hne | hnone
        · exact absurd hdkey.symm hne
        · rw [hnone] at hflight
          cases hflight
      · refine ⟨j, d, ?_, hdkey, hflight⟩
        rw [hget, if_neg hij]
        exact hd
  · rcases hm.cached key value hvalue with hold | hin
    · exact hm.answers _ (h.cached key value hold)
    · exact hin

/-- The futures a call still owns stay its own through a step that keeps what it owns. -/
theorem own_kept (h : Sound policy w) (hwas : w.calls[i]? = some c)
    (hget : w'.calls[i]? = some c') (hkey : c'.key = c.key)
    (howned : c'.phase.owned = c.phase.owned)
    (hrunning : ∀ future result, c.phase ≠ .done future result) {future : ℕ}
    {made : Future κ α ε} (hmade : w.futures[future]? = some made) (howner : made.owner = i) :
    FutureOk policy w' future made := by
  obtain ⟨d, hd, hdkey, hresult⟩ := h.futures future made hmade
  obtain rfl : d = c := by
    rw [howner, hwas] at hd
    exact (Option.some.inj hd).symm
  cases hcase : made.result with
  | none =>
    rw [hcase] at hresult
    refine ⟨c', howner ▸ hget, hkey.trans hdkey, ?_⟩
    rw [hcase]
    exact howned.trans hresult
  | some result =>
    rw [hcase] at hresult
    exact absurd hresult.1 (hrunning _ _)

/-- A step that only changes the phase of its call and adds to the answers. -/
theorem Moved.aside (h : Sound policy w) (hwas : w.calls[i]? = some c)
    (hcalls : w'.calls = (w.put i c').calls) (hfutures : w'.futures = w.futures)
    (hinflight : w'.inflight = w.inflight) (hcache : w'.cache = w.cache)
    (hanswers : ∀ answer ∈ w.answers, answer ∈ w'.answers) (hkey : c'.key = c.key)
    (howned : c'.phase.owned = c.phase.owned) (hflight : c'.phase.flight = c.phase.flight)
    (hrunning : ∀ future result, c.phase ≠ .done future result) (hok : CallOk policy w' i c') :
    Moved policy w w' i c c' where
  was := hwas
  calls := hcalls
  key := hkey
  ok := hok
  answers := hanswers
  kept _ _ hmade _ := by rwa [hfutures]
  keys _ made hmade := ⟨made, by rwa [hfutures], rfl⟩
  old _ _ hmade _ := by rwa [← hfutures]
  own _ _ hmade howner := by
    rw [hfutures] at hmade
    refine own_kept h hwas ?_ hkey howned hrunning hmade howner
    rw [hcalls, get_put hwas, if_pos rfl]
  quiet _ _ _ _ _ := ⟨congrFun hinflight _, congrFun hcache _⟩
  inflight key future hin := by
    rw [hinflight] at hin
    by_cases hsame : key = c.key
    · cases hled : c.phase.flight with
      | none => exact .inr ⟨hin, .inr rfl⟩
      | some led =>
        have hregistered := ((h.calls i c hwas).leads hled).registered
        rw [← hsame, hin] at hregistered
        obtain rfl := Option.some.inj hregistered
        exact .inl ⟨hsame, hflight.trans hled⟩
    · exact .inr ⟨hin, .inl hsame⟩
  cached _ _ hvalue := by
    rw [hcache] at hvalue
    exact .inl hvalue

/-- Two calls that lead the flight of one key are the same. -/
theorem Sound.one_leader (h : Sound policy w) (hc : w.calls[i]? = some c)
    (hd : w.calls[j]? = some d) (hkey : c.key = d.key) {future other : ℕ}
    (hflight : c.phase.flight = some future) (hother : d.phase.flight = some other) : i = j := by
  have hleads := (h.calls i c hc).leads hflight
  have hleads' := (h.calls j d hd).leads hother
  have hsame : some future = some other := by
    rw [← hleads.registered, ← hleads'.registered, hkey]
  obtain rfl := Option.some.inj hsame
  have howner := hleads.owned.symm.trans hleads'.owned
  exact congrArg Future.owner (Option.some.inj howner)

/-- The owner sets its future and returns. -/
theorem Moved.settle (h : Sound policy w) (hwas : w.calls[i]? = some c) {future : ℕ}
    {result : Except ε α} (hphase : c.phase = .settling future result)
    (hc' : c' = { c with phase := .done (some future) result })
    (hcalls : w'.calls = (w.put i c').calls)
    (hfutures : w'.futures = w.futures.set future ⟨i, c.key, some result⟩)
    (hinflight : w'.inflight = w.inflight) (hanswers : w'.answers = w.answers)
    (hcache : w'.cache = w.cache) : Moved policy w w' i c c' := by
  have hok := h.calls i c hwas
  unfold CallOk at hok
  rw [hphase] at hok
  obtain ⟨howned, hdecided⟩ := hok
  have hlt := (List.getElem?_eq_some_iff.mp howned).1
  have hget (other : ℕ) : w'.futures[other]? =
      if other = future then some ⟨i, c.key, some result⟩ else w.futures[other]? := by
    rw [hfutures, List.getElem?_set]
    by_cases hsame : future = other
    · rw [if_pos hsame, if_pos hlt, if_pos hsame.symm]
    · rw [if_neg hsame, if_neg (Ne.symm hsame)]
  have hcall : w'.calls[i]? = some c' := by rw [hcalls, get_put hwas, if_pos rfl]
  refine
    { was := hwas, calls := hcalls, key := by rw [hc'], ok := ?_, answers := ?_, kept := ?_,
      keys := ?_, old := ?_, own := ?_, quiet := ?_, inflight := ?_, cached := ?_ }
  · subst hc'
    exact ⟨_, (hget future).trans (if_pos rfl), rfl, rfl⟩
  · exact fun _ hin => hanswers ▸ hin
  · intro other made hmade hkept
    have hne : other ≠ future := by
      rintro rfl
      rw [howned] at hmade
      obtain rfl := Option.some.inj hmade
      rcases hkept with hother | hset
      · exact hother rfl
      · exact hset rfl
    rw [hget, if_neg hne]
    exact hmade
  · intro other made hmade
    by_cases hsame : other = future
    · rw [hsame, howned] at hmade
      obtain rfl := Option.some.inj hmade
      exact ⟨_, (hget other).trans (if_pos hsame), rfl⟩
    · exact ⟨made, (hget other).trans ((if_neg hsame).trans hmade), rfl⟩
  · intro other made hmade hother
    rw [hget] at hmade
    split at hmade
    · obtain rfl := Option.some.inj hmade
      exact absurd rfl hother
    · exact hmade
  · intro other made hmade howner
    rw [hget] at hmade
    split at hmade
    · next hsame =>
      obtain rfl := Option.some.inj hmade
      subst hc'
      exact ⟨_, hcall, rfl, by rw [hsame], hdecided.mono fun _ hin => hanswers ▸ hin⟩
    · next hne =>
      obtain ⟨d, hd, -, hresult⟩ := h.futures other made hmade
      rw [howner, hwas] at hd
      obtain rfl := Option.some.inj hd
      cases hcase : made.result with
      | none =>
        rw [hcase, hphase] at hresult
        exact absurd (Option.some.inj hresult).symm hne
      | some result =>
        rw [hcase, hphase] at hresult
        cases hresult.1
  · exact fun _ _ _ _ _ => ⟨congrFun hinflight _, congrFun hcache _⟩
  · intro key other hin
    rw [hinflight] at hin
    refine .inr ⟨hin, .inr ?_⟩
    rw [hphase]
    rfl
  · intro key value hvalue
    rw [hcache] at hvalue
    exact .inl hvalue

variable [DecidableEq κ]

/-- The owner leaves the register, with or without a value to store. -/
theorem Moved.leave (h : Sound policy w) (hwas : w.calls[i]? = some c) {future : ℕ}
    (hflight : c.phase.flight = some future) {result : Except ε α}
    (hc' : c' = { c with phase := .settling future result })
    (hdecided : Decided policy w c result) (hcalls : w'.calls = (w.put i c').calls)
    (hfutures : w'.futures = w.futures)
    (hinflight : w'.inflight = Function.update w.inflight c.key none)
    (hanswers : w'.answers = w.answers) (hcache : ∀ key ≠ c.key, w'.cache key = w.cache key)
    (hcached : ∀ value, w'.cache c.key = some value →
      w.cache c.key = some value ∨ (c.key, .ok value) ∈ w.answers) :
    Moved policy w w' i c c' where
  was := hwas
  calls := hcalls
  key := by rw [hc']
  ok := by
    subst hc'
    refine ⟨?_, hdecided.mono fun _ hin => hanswers ▸ hin⟩
    rw [hfutures]
    exact ((h.calls i c hwas).leads hflight).owned
  answers _ hin := hanswers ▸ hin
  kept _ _ hmade _ := by rwa [hfutures]
  keys _ made hmade := ⟨made, by rwa [hfutures], rfl⟩
  old _ _ hmade _ := by rwa [← hfutures]
  own _ _ hmade howner := by
    rw [hfutures] at hmade
    have howned : c.phase.owned = some future := by
      cases hphase : c.phase <;> rw [hphase] at hflight <;> cases hflight <;> rfl
    have hget : w'.calls[i]? = some c' := by rw [hcalls, get_put hwas, if_pos rfl]
    refine own_kept h hwas hget (by rw [hc']) ?_ (fun _ _ hdone => ?_) hmade howner
    · rw [hc', howned]
      rfl
    · rw [hdone] at hflight
      cases hflight
  quiet j d hd hij hled := by
    have hne : d.key ≠ c.key := by
      intro hkey
      obtain ⟨other, hother⟩ := Option.ne_none_iff_exists'.mp hled
      exact hij (h.one_leader hd hwas hkey hother hflight)
    rw [hinflight]
    exact ⟨Function.update_of_ne hne _ _, hcache d.key hne⟩
  inflight key other hin := by
    rw [hinflight] at hin
    by_cases hsame : key = c.key
    · rw [hsame, Function.update_self] at hin
      cases hin
    · rw [Function.update_of_ne hsame] at hin
      exact .inr ⟨hin, .inl hsame⟩
  cached key value hvalue := by
    rw [hanswers]
    by_cases hsame : key = c.key
    · subst hsame
      exact hcached value hvalue
    · exact .inl ((hcache key hsame).symm.trans hvalue)

/-- The first caller of a key registers a future of its own. -/
theorem Moved.lead (h : Sound policy w) (hwas : w.calls[i]? = some c) (hphase : c.phase = .asked)
    (hfree : w.inflight c.key = none)
    (hstale : ∀ value, w.cache c.key = some value → policy.fresh c.now value = false)
    (hc' : c' = { c with phase := .fetching w.futures.length })
    (hcalls : w'.calls = (w.put i c').calls)
    (hfutures : w'.futures = w.futures ++ [⟨i, c.key, none⟩])
    (hinflight : w'.inflight = Function.update w.inflight c.key (some w.futures.length))
    (hanswers : w'.answers = w.answers) (hcache : w'.cache = w.cache) :
    Moved policy w w' i c c' where
  was := hwas
  calls := hcalls
  key := by rw [hc']
  ok := by
    subst hc'
    refine ⟨?_, ?_, ?_⟩
    · rw [hfutures]
      exact List.getElem?_concat_length
    · rw [hinflight, Function.update_self]
    · rw [hcache]
      exact hstale
  answers _ hin := hanswers ▸ hin
  kept future made hmade _ := by
    rw [hfutures, List.getElem?_append_left (List.getElem?_eq_some_iff.mp hmade).1]
    exact hmade
  keys future made hmade := by
    refine ⟨made, ?_, rfl⟩
    rw [hfutures, List.getElem?_append_left (List.getElem?_eq_some_iff.mp hmade).1]
    exact hmade
  old future made hmade hother := by
    rw [hfutures, List.getElem?_append] at hmade
    split at hmade
    · exact hmade
    · obtain rfl := List.mem_singleton.mp (List.mem_of_getElem? hmade)
      exact absurd rfl hother
  own future made hmade howner := by
    have hget : w'.calls[i]? = some c' := by rw [hcalls, get_put hwas, if_pos rfl]
    rw [hfutures, List.getElem?_append] at hmade
    split at hmade
    · -- a call that has just asked owns nothing
      obtain ⟨d, hd, -, hresult⟩ := h.futures future made hmade
      rw [howner, hwas] at hd
      obtain rfl := Option.some.inj hd
      cases hcase : made.result with
      | none =>
        rw [hcase, hphase] at hresult
        cases hresult
      | some result =>
        rw [hcase, hphase] at hresult
        cases hresult.1
    · next hnew =>
      have hlength := (List.getElem?_eq_some_iff.mp hmade).1
      obtain rfl := List.mem_singleton.mp (List.mem_of_getElem? hmade)
      refine ⟨c', hget, by rw [hc'], ?_⟩
      rw [List.length_singleton] at hlength
      rw [hc']
      exact congrArg some (by omega)
  quiet j d hd hij hled := by
    have hne : d.key ≠ c.key := by
      intro hkey
      obtain ⟨other, hother⟩ := Option.ne_none_iff_exists'.mp hled
      have hregistered := ((h.calls j d hd).leads hother).registered
      rw [hkey, hfree] at hregistered
      cases hregistered
    rw [hinflight, hcache]
    exact ⟨Function.update_of_ne hne _ _, rfl⟩
  inflight key future hin := by
    rw [hinflight] at hin
    by_cases hsame : key = c.key
    · rw [hsame, Function.update_self] at hin
      refine .inl ⟨hsame, ?_⟩
      rw [hc']
      exact hin
    · rw [Function.update_of_ne hsame] at hin
      exact .inr ⟨hin, .inl hsame⟩
  cached _ _ hvalue := by
    rw [hcache] at hvalue
    exact .inl hvalue

end Frame

section Run

variable {policy : Policy τ α ε} {w : World κ τ α ε} {i j : ℕ} {c d : Call κ τ α ε}

theorem filter_none {test : α → Bool} {cached : Option α} (h : cached.filter test = none)
    {value : α} (hvalue : cached = some value) : test value = false := by
  rw [hvalue, Option.filter_some] at h
  split at h
  · cases h
  · next hfalse => exact eq_false_of_ne_true hfalse

theorem filter_some {test : α → Bool} {cached : Option α} {value : α}
    (h : cached.filter test = some value) : cached = some value ∧ test value = true :=
  Option.filter_eq_some_iff.mp h

theorem fallBack_decided (h : Sound policy w) {error : ε}
    (hanswer : c.answer = some (.error error)) (hin : (c.key, .error error) ∈ w.answers) :
    Decided policy w c (policy.fallBack c.now (w.cache c.key) error) := by
  unfold Policy.fallBack
  split
  · next value hvalue =>
    obtain ⟨hcached, husable⟩ := filter_some hvalue
    exact ⟨h.cached c.key value hcached, .inr ⟨error, value, hanswer, rfl, husable⟩⟩
  · exact ⟨hin, .inl hanswer⟩

theorem sound_init : Sound policy (World.init : World κ τ α ε) where
  calls i c hc := by cases hc
  futures future made hmade := by cases hmade
  inflight key future hkey := by cases hkey
  cached key value hvalue := by cases hvalue

theorem ask_sound (h : Sound policy w) (key : κ) (now : τ) : Sound policy (w.ask key now) := by
  have hkept : ∀ (j : ℕ) (d : Call κ τ α ε), w.calls[j]? = some d →
      (w.ask key now).calls[j]? = some d := by
    intro j d hd
    exact (List.getElem?_append_left (List.getElem?_eq_some_iff.mp hd).1).trans hd
  refine ⟨fun j d hd => ?_, fun future made hmade => ?_, fun other future hin => ?_, h.cached⟩
  · rw [World.ask, List.getElem?_append] at hd
    split at hd
    · exact (h.calls j d hd).frame (fun _ hin => hin) (fun _ _ hmade _ => hmade)
        (fun _ made hmade => ⟨made, hmade, rfl⟩) fun _ => ⟨rfl, rfl⟩
    · obtain rfl := List.mem_singleton.mp (List.mem_of_getElem? hd)
      trivial
  · obtain ⟨d, hd, hrest⟩ := h.futures future made hmade
    exact ⟨d, hkept _ d hd, hrest⟩
  · obtain ⟨j, d, hd, hrest⟩ := h.inflight other future hin
    exact ⟨j, d, hkept j d hd, hrest⟩

/-- The result of a call, by the way it came to it: a fresh value of the cache, or what the
flight it was on came to, which the leader of that flight got as well. -/
inductive Explained (policy : Policy τ α ε) (w : World κ τ α ε) (c : Call κ τ α ε) :
    Except ε α → Prop where
  | hit (value : α) (hfresh : policy.fresh c.now value = true)
      (hanswer : (c.key, .ok value) ∈ w.answers) : Explained policy w c (.ok value)
  | flight (result : Except ε α) (future i : ℕ) (leader : Call κ τ α ε)
      (hphase : c.phase = .done (some future) result) (hleader : w.calls[i]? = some leader)
      (hkey : leader.key = c.key) (hsame : leader.phase = .done (some future) result)
      (hdecided : Decided policy w leader result) : Explained policy w c result

theorem Sound.explained (h : Sound policy w) (hc : w.calls[i]? = some c) {future : Option ℕ}
    {result : Except ε α} (hphase : c.phase = .done future result) :
    Explained policy w c result := by
  have hok := h.calls i c hc
  unfold CallOk at hok
  rw [hphase] at hok
  cases future with
  | none =>
    obtain ⟨value, rfl, hfresh, hin⟩ := hok
    exact .hit value hfresh hin
  | some future =>
    obtain ⟨made, hmade, hkey, hresult⟩ := hok
    obtain ⟨leader, hleader, hkey', howner⟩ := h.futures future made hmade
    rw [hresult] at howner
    exact .flight result future made.owner leader hphase hleader (hkey'.trans hkey) howner.1 howner.2

/-- Calls of one flight are of one key and end alike. -/
theorem Sound.agree (h : Sound policy w) (hc : w.calls[i]? = some c) (hd : w.calls[j]? = some d)
    {future : ℕ} {result other : Except ε α} (hphase : c.phase = .done (some future) result)
    (hphase' : d.phase = .done (some future) other) : c.key = d.key ∧ result = other := by
  have hok := h.calls i c hc
  have hok' := h.calls j d hd
  unfold CallOk at hok hok'
  rw [hphase] at hok
  rw [hphase'] at hok'
  obtain ⟨made, hmade, hkey, hresult⟩ := hok
  obtain ⟨made', hmade', hkey', hresult'⟩ := hok'
  obtain rfl := Option.some.inj (hmade.symm.trans hmade')
  exact ⟨hkey.symm.trans hkey', Option.some.inj (hresult.symm.trans hresult')⟩

variable [DecidableEq κ]

theorem move_sound (h : Sound policy w) (hwas : w.calls[i]? = some c) (answer : Except ε α) :
    Sound policy (move policy w i c answer) := by
  have hok := h.calls i c hwas
  unfold CallOk at hok
  unfold move
  cases hphase : c.phase <;> rw [hphase] at hok
  case asked =>
    dsimp only
    split
    · next value hvalue =>
      obtain ⟨hcached, hfresh⟩ := filter_some hvalue
      exact h.moved (.aside h hwas rfl rfl rfl rfl (fun _ hin => hin) rfl (by rw [hphase]; rfl)
        (by rw [hphase]; rfl) (by simp [hphase])
        ⟨value, rfl, hfresh, h.cached c.key value hcached⟩)
    · next hstale =>
      split
      · next future hfuture =>
        obtain ⟨j, d, hd, hkey, hflight⟩ := h.inflight c.key future hfuture
        have howned := ((h.calls j d hd).leads hflight).owned
        exact h.moved (.aside h hwas rfl rfl rfl rfl (fun _ hin => hin) rfl (by rw [hphase]; rfl)
          (by rw [hphase]; rfl) (by simp [hphase]) ⟨_, howned, hkey⟩)
      · next hfree =>
        exact h.moved (.lead h hwas hphase hfree (fun value hvalue => filter_none hstale hvalue)
          rfl rfl rfl rfl rfl rfl)
  case fetching future =>
    dsimp only
    have hlast : (c.key, answer) ∈ w.answers ++ [(c.key, answer)] :=
      List.mem_append_right _ (List.mem_singleton_self _)
    refine h.moved (.aside h hwas rfl rfl rfl rfl (fun _ hin => List.mem_append_left _ hin) rfl
      ?_ ?_ (by simp [hphase]) ?_)
    · cases answer with
      | ok value => rw [hphase]; rfl
      | error error => rw [hphase]; dsimp only [Policy.answered]; split <;> rfl
    · cases answer with
      | ok value => rw [hphase]; rfl
      | error error => rw [hphase]; dsimp only [Policy.answered]; split <;> rfl
    · have hleads : Leads policy w i c future := hok
      cases answer with
      | ok value => exact ⟨⟨hleads.owned, hleads.registered, hleads.stale⟩, rfl, hlast⟩
      | error error =>
        by_cases hcaught : policy.caught error = true <;>
          simp only [CallOk, Policy.answered, hcaught, if_true, Bool.false_eq_true, if_false, true_and]
        · exact ⟨⟨hleads.owned, hleads.registered, hleads.stale⟩, hlast⟩
        · exact ⟨⟨hleads.owned, hleads.registered, hleads.stale⟩, hlast⟩
  case fetched future value =>
    obtain ⟨hleads, hanswer, hin⟩ := hok
    dsimp only
    refine h.moved (.leave h hwas (by rw [hphase]; rfl) rfl ⟨hin, .inl hanswer⟩ rfl rfl rfl rfl
      (fun key hne => Function.update_of_ne hne _ _) fun other hother => .inr ?_)
    dsimp only at hother
    rw [Function.update_self] at hother
    obtain rfl := Option.some.inj hother
    exact hin
  case failed future error =>
    obtain ⟨hleads, hanswer, hin⟩ := hok
    exact h.moved (.leave h hwas (by rw [hphase]; rfl) rfl (fallBack_decided h hanswer hin) rfl rfl
      rfl rfl (fun _ _ => rfl) fun _ hvalue => .inl hvalue)
  case lost future error => exact h
  case settling future result => exact h.moved (.settle h hwas hphase rfl rfl rfl rfl rfl rfl)
  case waiting future =>
    obtain ⟨made, hmade, hkey⟩ := hok
    dsimp only
    rw [hmade, Option.bind_some]
    split
    · next result hresult =>
      exact h.moved (.aside h hwas rfl rfl rfl rfl (fun _ hin => hin) rfl (by rw [hphase]; rfl)
        (by rw [hphase]; rfl) (by simp [hphase]) ⟨made, hmade, hkey, hresult⟩)
    · exact h
  case done future result => exact h

theorem step_sound (w : World κ τ α ε) (event : Event κ τ α ε) (h : Sound policy w) :
    Sound policy (step policy w event) := by
  cases event with
  | ask key now => exact ask_sound h key now
  | move i answer =>
    unfold step
    dsimp only
    split
    · next c hc => exact move_sound h hc answer
    · exact h

theorem run_sound (events : List (Event κ τ α ε)) :
    Sound policy (Runs.run (step policy) World.init events) :=
  Runs.run_keeps step_sound World.init events sound_init

end Run

section Spacing

variable {policy : Policy τ α ε} {w : World κ τ α ε}

/-- A fetch is answered by a value that suits the reading of its caller. -/
def Suits (valid : τ → α → Prop) (w : World κ τ α ε) : Event κ τ α ε → Prop
  | .ask _ _ => True
  | .move i answer => ∀ c, w.calls[i]? = some c → ∀ future, c.phase = .fetching future →
    ∀ value, answer = .ok value → valid c.now value

/-- The stored values of one key are apart, and what is cached is the last of them. -/
structure Spaced (valid : τ → α → Prop) (sep : α → α → Prop) (w : World κ τ α ε) : Prop where
  fetched : ∀ c ∈ w.calls, ∀ future value, c.phase = .fetched future value → valid c.now value
  apart : w.stores.Pairwise fun first later => first.1 = later.1 → sep first.2 later.2
  last : ∀ stored ∈ w.stores, ∃ value, w.cache stored.1 = some value ∧
    (stored.2 = value ∨ sep stored.2 value)

variable {valid : τ → α → Prop} {sep : α → α → Prop}

theorem spaced_init : Spaced valid sep (World.init : World κ τ α ε) where
  fetched c hc := by cases hc
  apart := List.Pairwise.nil
  last stored hin := by cases hin

/-- A step that stores nothing. -/
theorem Spaced.put (h : Spaced valid sep w) {w' : World κ τ α ε} {i : ℕ} {c : Call κ τ α ε}
    (hcalls : w'.calls = (w.put i c).calls) (hstores : w'.stores = w.stores)
    (hcache : w'.cache = w.cache)
    (hc : ∀ future value, c.phase = .fetched future value → valid c.now value) :
    Spaced valid sep w' where
  fetched d hd := by
    rw [hcalls] at hd
    rcases List.mem_or_eq_of_mem_set hd with hold | rfl
    · exact h.fetched d hold
    · exact hc
  apart := hstores ▸ h.apart
  last stored hin := by
    rw [hstores] at hin
    rw [hcache]
    exact h.last stored hin

variable [DecidableEq κ]

theorem Spaced.store (h : Spaced valid sep w) (htrans : ∀ u v t, sep u v → sep v t → sep u t)
    {w' : World κ τ α ε} {i : ℕ} {c : Call κ τ α ε} {value : α}
    (hcalls : w'.calls = (w.put i c).calls) (hstores : w'.stores = w.stores ++ [(c.key, value)])
    (hcache : w'.cache = Function.update w.cache c.key (some value))
    (hc : ∀ future other, c.phase ≠ .fetched future other)
    (hafter : ∀ cached, w.cache c.key = some cached → sep cached value) :
    Spaced valid sep w' := by
  have hbefore : ∀ stored ∈ w.stores, stored.1 = c.key → sep stored.2 value := by
    intro stored hin hkey
    obtain ⟨cached, hcached, hlast⟩ := h.last stored hin
    have hsep := hafter cached (hkey ▸ hcached)
    rcases hlast with heq | hlast
    · exact heq ▸ hsep
    · exact htrans _ _ _ hlast hsep
  refine ⟨fun d hd => ?_, ?_, fun stored hin => ?_⟩
  · rw [hcalls] at hd
    rcases List.mem_or_eq_of_mem_set hd with hold | rfl
    · exact h.fetched d hold
    · exact fun future other hphase => absurd hphase (hc future other)
  · rw [hstores, List.pairwise_append]
    refine ⟨h.apart, List.pairwise_singleton _ _, fun first hfirst later hlater hkey => ?_⟩
    rw [List.mem_singleton.mp hlater] at hkey ⊢
    exact hbefore first hfirst hkey
  · rw [hstores] at hin
    rw [hcache]
    by_cases hkey : stored.1 = c.key
    · refine ⟨value, by rw [hkey, Function.update_self], ?_⟩
      rcases List.mem_append.mp hin with hold | hnew
      · exact .inr (hbefore stored hold hkey)
      · rw [List.mem_singleton.mp hnew]
        exact .inl rfl
    · rcases List.mem_append.mp hin with hold | hnew
      · rw [Function.update_of_ne hkey]
        exact h.last stored hold
      · rw [List.mem_singleton.mp hnew] at hkey
        exact absurd rfl hkey

theorem step_spaced (hsep : ∀ now u v, policy.fresh now u = false → valid now v → sep u v)
    (htrans : ∀ u v t, sep u v → sep v t → sep u t) (hsound : Sound policy w)
    (h : Spaced valid sep w) {event : Event κ τ α ε} (hsuits : Suits valid w event) :
    Spaced valid sep (step policy w event) := by
  cases event with
  | ask key now =>
    refine ⟨fun c hc => ?_, h.apart, h.last⟩
    rcases List.mem_append.mp hc with hold | hnew
    · exact h.fetched c hold
    · rw [List.mem_singleton.mp hnew]
      exact fun _ _ hphase => by cases hphase
  | move i answer =>
    unfold step
    dsimp only
    split
    · next c hc =>
      unfold move
      cases hphase : c.phase
      case asked =>
        dsimp only
        split
        · exact h.put rfl rfl rfl fun _ _ hnext => by cases hnext
        · split
          · exact h.put rfl rfl rfl fun _ _ hnext => by cases hnext
          · exact h.put rfl rfl rfl fun _ _ hnext => by cases hnext
      case fetching future =>
        refine h.put rfl rfl rfl fun other value hnext => ?_
        cases answer with
        | ok found =>
          cases hnext
          exact hsuits c hc future hphase _ rfl
        | error error =>
          dsimp only [Policy.answered] at hnext
          split at hnext <;> cases hnext
      case fetched future value =>
        have hok := hsound.calls i c hc
        unfold CallOk at hok
        rw [hphase] at hok
        have hin : c ∈ w.calls := List.mem_of_getElem? hc
        have hvalid := h.fetched c hin future value hphase
        exact h.store htrans (c := { c with phase := .settling future (.ok value) }) rfl rfl rfl
          (fun _ _ hnext => by cases hnext)
          fun cached hcached => hsep _ _ _ (hok.1.stale cached hcached) hvalid
      case failed future error => exact h.put rfl rfl rfl fun _ _ hnext => by cases hnext
      case settling future result => exact h.put rfl rfl rfl fun _ _ hnext => by cases hnext
      case waiting future =>
        dsimp only
        split
        · exact h.put rfl rfl rfl fun _ _ hnext => by cases hnext
        · exact h
      case lost future error => exact h
      case done future result => exact h
    · exact h

/-- If a value that is no longer fresh is apart from any that suits a later reading, the values
stored for one key in a run are apart. -/
theorem run_spaced (hsep : ∀ now u v, policy.fresh now u = false → valid now v → sep u v)
    (htrans : ∀ u v t, sep u v → sep v t → sep u t) (events : List (Event κ τ α ε))
    (hsuits : Runs.Meets (step policy) (Suits valid) World.init events) :
    (Runs.run (step policy) World.init events).stores.Pairwise fun first later =>
      first.1 = later.1 → sep first.2 later.2 := by
  have hboth := Runs.run_meets (I := fun w => Sound policy w ∧ Spaced valid sep w)
    (fun w event hw hok => ⟨step_sound w event hw.1, step_spaced hsep htrans hw.1 hw.2 hok⟩)
    World.init events ⟨sound_init, spaced_init⟩ hsuits
  exact hboth.2.apart

end Spacing

section Progress

variable {policy : Policy τ α ε} {w : World κ τ α ε} {i : ℕ} {c c' : Call κ τ α ε}

/-- The call waits for a future that is not set. -/
def Blocked (w : World κ τ α ε) (c : Call κ τ α ε) : Prop :=
  ∃ future made, c.phase = .waiting future ∧ w.futures[future]? = some made ∧ made.result = none

def Lost (w : World κ τ α ε) : Prop := ∃ c ∈ w.calls, ∃ future error, c.phase = .lost future error

def total (w : World κ τ α ε) : ℕ := (w.calls.map fun c => c.phase.left).sum

theorem sum_set_lt {β : Type} (f : β → ℕ) {items : List β} {a b : β} {i : ℕ}
    (ha : items[i]? = some a) (hlt : f b < f a) :
    ((items.set i b).map f).sum < (items.map f).sum := by
  induction items generalizing i with
  | nil => cases ha
  | cons first rest ih =>
    cases i with
    | zero =>
      obtain rfl := Option.some.inj ha
      simpa using hlt
    | succ i => simpa using ih ha

theorem total_le (w : World κ τ α ε) : total w ≤ w.calls.length * 4 := by
  have hle : ∀ left ∈ w.calls.map (fun c => c.phase.left), left ≤ 4 := by
    intro left hleft
    obtain ⟨c, -, rfl⟩ := List.mem_map.mp hleft
    cases c.phase <;> simp [Phase.left]
  simpa [total] using List.sum_le_card_nsmul _ 4 hle

/-- Unless every call has ended or a leader was lost, some call can take a step. -/
theorem Sound.unblocked (h : Sound policy w) (hlost : ¬ Lost w) (hc : c ∈ w.calls)
    (hleft : 0 < c.phase.left) :
    ∃ (i : ℕ) (d : Call κ τ α ε), w.calls[i]? = some d ∧ 0 < d.phase.left ∧ ¬ Blocked w d := by
  obtain ⟨i, hi⟩ := List.mem_iff_getElem?.mp hc
  by_cases hblocked : Blocked w c
  · obtain ⟨future, made, hphase, hmade, hpending⟩ := hblocked
    -- the leader of the flight has still to set the future
    obtain ⟨leader, hleader, -, howned⟩ := h.futures future made hmade
    rw [hpending] at howned
    refine ⟨made.owner, leader, hleader, ?_, ?_⟩
    · cases hcase : leader.phase with
      | lost other error =>
        exact absurd ⟨leader, List.mem_of_getElem? hleader, other, error, hcase⟩ hlost
      | fetching _ | fetched _ _ | failed _ _ | settling _ _ => exact Nat.succ_pos _
      | asked | waiting _ | done _ _ =>
        rw [hcase] at howned
        cases howned
    · rintro ⟨other, -, hwaiting, -⟩
      rw [hwaiting] at howned
      cases howned
  · exact ⟨i, c, hi, hleft, hblocked⟩

variable [DecidableEq κ]

/-- One call changes in a move: it comes closer to its end, and is lost only by a failure that
is not handled. -/
theorem move_spec (h : Sound policy w) (hc : w.calls[i]? = some c) (answer : Except ε α) :
    ∃ c', (move policy w i c answer).calls = (w.put i c').calls ∧
      (0 < c.phase.left → ¬ Blocked w c → c'.phase.left < c.phase.left) ∧
      ∀ future error, c'.phase = .lost future error →
        c.phase = .lost future error ∨ answer = .error error ∧ policy.caught error = false := by
  have hsame : w.calls = (w.put i c).calls := by
    obtain ⟨hlt, heq⟩ := List.getElem?_eq_some_iff.mp hc
    rw [World.put, ← heq, List.set_getElem_self]
  unfold move
  cases hphase : c.phase
  case asked =>
    dsimp only
    split
    · exact ⟨_, rfl, fun _ _ => Nat.succ_pos _, fun _ _ hnext => by cases hnext⟩
    · split
      · exact ⟨_, rfl, fun _ _ => by simp [Phase.left], fun _ _ hnext => by cases hnext⟩
      · exact ⟨_, rfl, fun _ _ => by simp [Phase.left], fun _ _ hnext => by cases hnext⟩
  case fetching future =>
    refine ⟨_, rfl, fun _ _ => ?_, fun other error hnext => .inr ?_⟩
    · cases answer with
      | ok value => simp [Policy.answered, Phase.left]
      | error error => by_cases hcaught : policy.caught error = true <;>
          simp [Policy.answered, Phase.left, hcaught]
    · cases answer with
      | ok value => cases hnext
      | error found =>
        dsimp only [Policy.answered] at hnext
        split at hnext
        · cases hnext
        · next hescapes =>
          cases hnext
          exact ⟨rfl, eq_false_of_ne_true hescapes⟩
  case fetched future value =>
    exact ⟨_, rfl, fun _ _ => by simp [Phase.left], fun _ _ hnext => by cases hnext⟩
  case failed future error =>
    exact ⟨_, rfl, fun _ _ => by simp [Phase.left], fun _ _ hnext => by cases hnext⟩
  case settling future result =>
    exact ⟨_, rfl, fun _ _ => by simp [Phase.left], fun _ _ hnext => by cases hnext⟩
  case waiting future =>
    have hok := h.calls i c hc
    unfold CallOk at hok
    rw [hphase] at hok
    obtain ⟨made, hmade, -⟩ := hok
    dsimp only
    rw [hmade, Option.bind_some]
    split
    · exact ⟨_, rfl, fun _ _ => by simp [Phase.left], fun _ _ hnext => by cases hnext⟩
    · next hpending =>
      refine ⟨c, hsame, fun _ hblocked => absurd ⟨future, made, hphase, hmade, hpending⟩ hblocked,
        fun _ _ hnext => ?_⟩
      rw [hphase] at hnext
      cases hnext
  case lost future error =>
    exact ⟨c, hsame, fun hleft => by simp [Phase.left] at hleft,
      fun _ _ hnext => .inl (hphase ▸ hnext)⟩
  case done future result =>
    refine ⟨c, hsame, fun hleft => by simp [Phase.left] at hleft, fun _ _ hnext => ?_⟩
    rw [hphase] at hnext
    cases hnext

/-- With answers that are handled, every call ends within as many moves as there are steps
left. -/
theorem Sound.finishes (h : Sound policy w) (hlost : ¬ Lost w) (answer : ℕ → Except ε α)
    (hcaught : ∀ i error, answer i = .error error → policy.caught error = true) :
    ∃ moves : List ℕ, moves.length ≤ total w ∧
      ∀ c ∈ (Runs.run (step policy) w (moves.map fun i => .move i (answer i))).calls,
        ∃ future result, c.phase = .done future result := by
  induction hn : total w using Nat.strong_induction_on generalizing w with
  | _ n ih =>
    by_cases hall : ∀ c ∈ w.calls, c.phase.left = 0
    · refine ⟨[], Nat.zero_le _, fun c hc => ?_⟩
      have hzero := hall c hc
      cases hphase : c.phase with
      | done future result => exact ⟨future, result, rfl⟩
      | lost future error => exact absurd ⟨c, hc, future, error, hphase⟩ hlost
      | _ =>
        rw [hphase] at hzero
        cases hzero
    · push Not at hall
      obtain ⟨c, hc, hleft⟩ := hall
      obtain ⟨i, d, hd, hleft', hfree⟩ := h.unblocked hlost hc (Nat.pos_of_ne_zero hleft)
      obtain ⟨d', hcalls, hcloser, hescape⟩ := move_spec h hd (answer i)
      have hmoved : step policy w (.move i (answer i)) = move policy w i d (answer i) := by
        simp only [step, hd]
      have hlower : total (move policy w i d (answer i)) < total w := by
        rw [total, total, hcalls]
        exact sum_set_lt _ hd (hcloser hleft' hfree)
      have hkept : ¬ Lost (move policy w i d (answer i)) := by
        rintro ⟨e, he, future, error, hphase⟩
        rw [hcalls] at he
        rcases List.mem_or_eq_of_mem_set he with hold | rfl
        · exact hlost ⟨e, hold, future, error, hphase⟩
        · rcases hescape future error hphase with hwas | ⟨hanswer, hmissed⟩
          · exact hlost ⟨d, List.mem_of_getElem? hd, future, error, hwas⟩
          · rw [hcaught i error hanswer] at hmissed
            cases hmissed
      obtain ⟨moves, hlength, hdone⟩ :=
        ih _ (hn ▸ hlower) (move_sound h hd (answer i)) hkept rfl
      refine ⟨i :: moves, ?_, ?_⟩
      · rw [List.length_cons]
        exact (Nat.succ_le_succ hlength).trans (hn ▸ hlower)
      · rw [List.map_cons, Runs.run_cons, hmoved]
        exact hdone

/-- Whoever waits on the flight of a lost leader waits for ever. -/
theorem Sound.stuck (h : Sound policy w) {j : ℕ} {leader : Call κ τ α ε} {future : ℕ} {error : ε}
    (hleader : w.calls[j]? = some leader) (hlost : leader.phase = .lost future error)
    (hc : w.calls[i]? = some c) (hwaiting : c.phase = .waiting future)
    (more : List (Event κ τ α ε)) :
    (Runs.run (step policy) w more).calls[i]? = some c := by
  have hkeeps : ∀ w event, Sound policy w ∧ w.calls[j]? = some leader ∧ w.calls[i]? = some c →
      Sound policy (step policy w event) ∧ (step policy w event).calls[j]? = some leader ∧
        (step policy w event).calls[i]? = some c := by
    rintro w event ⟨hsound, hj, hi⟩
    refine ⟨step_sound w event hsound, ?_⟩
    cases event with
    | ask key now =>
      exact ⟨(List.getElem?_append_left (List.getElem?_eq_some_iff.mp hj).1).trans hj,
        (List.getElem?_append_left (List.getElem?_eq_some_iff.mp hi).1).trans hi⟩
    | move k answer =>
      cases hk : w.calls[k]? with
      | none =>
        simp only [step, hk]
        exact ⟨hj, hi⟩
      | some d =>
        simp only [step, hk]
        by_cases hkj : k = j
        · obtain rfl : d = leader := Option.some.inj ((hkj ▸ hk).symm.trans hj)
          rw [move, hlost]
          exact ⟨hj, hi⟩
        by_cases hki : k = i
        · obtain rfl : d = c := Option.some.inj ((hki ▸ hk).symm.trans hi)
          have hflight : leader.phase.flight = some future := by rw [hlost]; rfl
          have howned := ((hsound.calls j leader hj).leads hflight).owned
          rw [move, hwaiting]
          dsimp only
          rw [howned]
          exact ⟨hj, hi⟩
        · obtain ⟨d', hcalls, -⟩ := move_spec hsound hk answer
          rw [hcalls, get_put hk, get_put hk, if_neg (Ne.symm hkj), if_neg (Ne.symm hki)]
          exact ⟨hj, hi⟩
  exact (Runs.run_keeps hkeeps w more ⟨h, hleader, hc⟩).2.2

end Progress

end SingleFlight
