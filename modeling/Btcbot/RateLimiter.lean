import Btcbot.PyData
import Btcbot.Runs
import Btcbot.TokenBucket
import Mathlib.Algebra.Order.Field.Rat
import Mathlib.Order.Monotone.Defs

/-!
# The token bucket rate limiter

One bucket for each endpoint group, made when the group is first asked for. Every
section under the lock fills the bucket up to a reading of the clock, reads the clock
again to see whether a cooldown is over, and takes the tokens if they are there. A
429 empties the bucket and sets a cooldown. The clock is a sequence of readings that
do not fall, with any time between them.
-/
namespace RateLimiter

open PyData
open TokenBucket (Metered grantedIn)

structure EndpointBudget where
  name : String
  rps : ℚ
  burst : ℤ
  deriving DecidableEq, Repr

inductive LimiterError where
  | emptyBudgets
  | missingDefault
  | rpsNotPositive (name : String)
  | burstBelowOne (name : String)
  deriving DecidableEq, Repr

/-- The error a budget is refused with. -/
def EndpointBudget.validate (budget : EndpointBudget) : Option LimiterError :=
  if budget.rps ≤ 0 then some (.rpsNotPositive budget.name)
  else if budget.burst < 1 then some (.burstBelowOne budget.name)
  else none

theorem EndpointBudget.valid {budget : EndpointBudget} (h : budget.validate = none) :
    0 < budget.rps ∧ 1 ≤ budget.burst := by
  unfold validate at h
  split at h
  · cases h
  · next hrps =>
    split at h
    · cases h
    · next hburst => exact ⟨not_le.mp hrps, not_lt.mp hburst⟩

/-- Budgets that the constructor accepts. -/
structure Budgets where
  table : Dict EndpointBudget
  default : EndpointBudget
  default_get : table["default"]? = some default
  valid : ∀ (group : String) (budget : EndpointBudget), table[group]? = some budget →
    budget.validate = none

/-- The checks of the constructor. -/
def Budgets.create (budgets : Dict EndpointBudget) : Except LimiterError Budgets :=
  if budgets.isEmpty then .error .emptyBudgets
  else
    match hdefault : budgets["default"]? with
    | none => .error .missingDefault
    | some default =>
      match hvalid : budgets.toList.findSome? fun entry => entry.2.validate with
      | some error => .error error
      | none => .ok
        { table := budgets
          default := default
          default_get := hdefault
          valid := fun group budget hget => List.findSome?_eq_none_iff.mp hvalid (group, budget)
            ((Dict.mem_toList budgets (group, budget)).mpr hget) }

namespace Budgets

variable (budgets : Budgets)

def budgetFor (group : String) : EndpointBudget := budgets.table.getD group budgets.default

theorem budgetFor_valid (group : String) :
    0 < (budgets.budgetFor group).rps ∧ 1 ≤ (budgets.budgetFor group).burst := by
  apply EndpointBudget.valid
  unfold budgetFor
  rw [Std.ExtTreeMap.getD_eq_getD_getElem?]
  cases hget : budgets.table[group]? with
  | none => exact budgets.valid "default" _ budgets.default_get
  | some budget => exact budgets.valid group budget hget

end Budgets

structure Bucket where
  tokens : ℚ
  updatedAt : ℚ
  cooldownUntil : ℚ
  deriving DecidableEq, Repr

/-- What the limiter did to a group, with the readings it went by. -/
inductive Event where
  | granted (group : String) (tokens refilledAt checkedAt : ℚ)
  | penalized (group : String) (cooldownUntil : ℚ)
  deriving DecidableEq, Repr

structure World where
  buckets : Dict Bucket := ∅
  /-- How often the clock was read. -/
  readings : ℕ := 0
  events : List Event := []

namespace World

def tick (w : World) : World := { w with readings := w.readings + 1 }

def put (w : World) (group : String) (bucket : Bucket) : World :=
  { w with buckets := w.buckets.insert group bucket }

def log (w : World) (event : Event) : World := { w with events := w.events ++ [event] }

@[simp] theorem tick_buckets (w : World) : w.tick.buckets = w.buckets := rfl
@[simp] theorem tick_readings (w : World) : w.tick.readings = w.readings + 1 := rfl
@[simp] theorem tick_events (w : World) : w.tick.events = w.events := rfl
@[simp] theorem put_readings (w : World) (group : String) (bucket : Bucket) :
    (w.put group bucket).readings = w.readings := rfl
@[simp] theorem put_events (w : World) (group : String) (bucket : Bucket) :
    (w.put group bucket).events = w.events := rfl
@[simp] theorem log_buckets (w : World) (event : Event) : (w.log event).buckets = w.buckets := rfl
@[simp] theorem log_readings (w : World) (event : Event) :
    (w.log event).readings = w.readings := rfl
@[simp] theorem log_events (w : World) (event : Event) :
    (w.log event).events = w.events ++ [event] := rfl

@[simp] theorem put_get (w : World) (group other : String) (bucket : Bucket) :
    (w.put group bucket).buckets[other]? =
      if group = other then some bucket else w.buckets[other]? := Dict.insert_get _ _ _ _

end World

section Code

variable (budgets : Budgets) (clock : ℕ → ℚ)

def freshBucket (group : String) (now : ℚ) : Bucket := ⟨(budgets.budgetFor group).burst, now, 0⟩

/-- The state after the constructor, which reads the clock once for each group. -/
def init : World :=
  (budgets.table.toList.map Prod.fst).foldl
    (fun w group => (w.put group (freshBucket budgets group (clock w.readings))).tick) {}

def stateFor (group : String) (w : World) : Bucket × World :=
  match w.buckets[group]? with
  | some state => (state, w)
  | none =>
    let state := freshBucket budgets group (clock w.readings)
    (state, (w.put group state).tick)

/-- With the reading the bucket is filled up to. -/
def refill (group : String) (w : World) : ℚ × World :=
  let (state, w) := stateFor budgets clock group w
  let budget := budgets.budgetFor group
  let now := clock w.readings
  let elapsed := max 0 (now - state.updatedAt)
  (now, if 0 < elapsed then
      (w.put group { state with
        tokens := min (budget.burst : ℚ) (state.tokens + elapsed * budget.rps)
        updatedAt := now }).tick
    else w.tick)

structure Wait where
  seconds : ℚ
  refilledAt : ℚ
  checkedAt : ℚ

def waitSecondsLocked (group : String) (tokens : ℚ) (w : World) : Wait × World :=
  let (refilledAt, w) := refill budgets clock group w
  let (state, w) := stateFor budgets clock group w
  let now := clock w.readings
  let cooldownWait := max 0 (state.cooldownUntil - now)
  let seconds :=
    if 0 < cooldownWait then cooldownWait
    else if tokens ≤ state.tokens then 0
    else (tokens - state.tokens) / max (budgets.budgetFor group).rps (1 / 10 ^ 9)
  (⟨seconds, refilledAt, now⟩, w.tick)

def take (group : String) (tokens : ℚ) (wait : Wait) (w : World) : World :=
  let (state, w) := stateFor budgets clock group w
  (w.put group { state with tokens := state.tokens - tokens }).log
    (.granted group tokens wait.refilledAt wait.checkedAt)

/-- At most so many rounds of the loop; without a result the call is still waiting. -/
def acquire (group : String) : ℕ → ℚ → World → Option ℚ × World
  | 0, _, w => (none, w)
  | rounds + 1, waited, w =>
    let (wait, w) := waitSecondsLocked budgets clock group 1 w
    if wait.seconds = 0 then (some waited, take budgets clock group 1 wait w)
    else acquire group rounds (waited + wait.seconds) w

def consume (group : String) (tokens : ℚ) (w : World) : Bool × World :=
  if tokens ≤ 0 then (true, w)
  else
    let (wait, w) := waitSecondsLocked budgets clock group tokens w
    if 0 < wait.seconds then (false, w) else (true, take budgets clock group tokens wait w)

def secondsUntilAvailable (group : String) (tokens : ℚ) (w : World) : ℚ × World :=
  if tokens ≤ 0 then (0, w)
  else
    let (wait, w) := waitSecondsLocked budgets clock group tokens w
    (max 0 wait.seconds, w)

def penalizeOn429 (group : String) (retryAfterSeconds : Option ℚ) (w : World) : World :=
  let (state, w) := stateFor budgets clock group w
  let budget := budgets.budgetFor group
  let fallbackCooldown := min (3 / 2) (max (1 / 4) (1 / budget.rps))
  let cooldown := match retryAfterSeconds with
    | some seconds => if 0 < seconds then seconds else fallbackCooldown
    | none => fallbackCooldown
  let cooldownEnd := clock w.readings + cooldown
  ((w.put group { state with
    tokens := 0
    cooldownUntil := max state.cooldownUntil cooldownEnd }).tick).log (.penalized group cooldownEnd)

inductive Call where
  | acquire (group : String) (rounds : ℕ)
  | consume (group : String) (tokens : ℚ)
  | secondsUntilAvailable (group : String) (tokens : ℚ)
  | penalizeOn429 (group : String) (retryAfterSeconds : Option ℚ)

def step (w : World) : Call → World
  | .acquire group rounds => (acquire budgets clock group rounds 0 w).2
  | .consume group tokens => (consume budgets clock group tokens w).2
  | .secondsUntilAvailable group tokens => (secondsUntilAvailable budgets clock group tokens w).2
  | .penalizeOn429 group retryAfterSeconds => penalizeOn429 budgets clock group retryAfterSeconds w

end Code

section Events

/-- The grants of a group, dated by the reading its bucket was filled up to. -/
def grantsOf (group : String) (events : List Event) : List (ℚ × ℚ) :=
  events.filterMap fun event => match event with
    | .granted other tokens refilledAt _ => if other = group then some (refilledAt, tokens) else none
    | .penalized _ _ => none

def cooldownsOf (group : String) (events : List Event) : List ℚ :=
  events.filterMap fun event => match event with
    | .penalized other cooldownUntil => if other = group then some cooldownUntil else none
    | .granted _ _ _ _ => none

/-- A grant after a cooldown of its group was set found it over when it read the clock. -/
def Respects : Event → Event → Prop
  | .penalized group cooldownUntil, .granted other _ _ checkedAt =>
    group = other → cooldownUntil ≤ checkedAt
  | _, _ => True

def Event.group : Event → String
  | .granted group _ _ _ => group
  | .penalized group _ => group

theorem grantsOf_other {group : String} {event : Event} (h : event.group ≠ group)
    (events : List Event) : grantsOf group (events ++ [event]) = grantsOf group events := by
  cases event with
  | granted other tokens refilledAt checkedAt => simpa [grantsOf, Event.group] using h
  | penalized other cooldownUntil => simp [grantsOf]

theorem cooldownsOf_other {group : String} {event : Event} (h : event.group ≠ group)
    (events : List Event) : cooldownsOf group (events ++ [event]) = cooldownsOf group events := by
  cases event with
  | granted other tokens refilledAt checkedAt => simp [cooldownsOf]
  | penalized other cooldownUntil => simpa [cooldownsOf, Event.group] using h

theorem grantsOf_granted (group : String) (events : List Event)
    (tokens refilledAt checkedAt : ℚ) :
    grantsOf group (events ++ [.granted group tokens refilledAt checkedAt]) =
      grantsOf group events ++ [(refilledAt, tokens)] := by
  simp [grantsOf]

theorem grantsOf_penalized (group : String) (events : List Event) (cooldownUntil : ℚ) :
    grantsOf group (events ++ [.penalized group cooldownUntil]) = grantsOf group events := by
  simp [grantsOf]

theorem cooldownsOf_granted (group : String) (events : List Event)
    (tokens refilledAt checkedAt : ℚ) :
    cooldownsOf group (events ++ [.granted group tokens refilledAt checkedAt]) =
      cooldownsOf group events := by
  simp [cooldownsOf]

theorem cooldownsOf_penalized (group : String) (events : List Event) (cooldownUntil : ℚ) :
    cooldownsOf group (events ++ [.penalized group cooldownUntil]) =
      cooldownsOf group events ++ [cooldownUntil] := by
  simp [cooldownsOf]

theorem mem_cooldownsOf {group : String} {events : List Event} {cooldownUntil : ℚ}
    (h : .penalized group cooldownUntil ∈ events) : cooldownUntil ∈ cooldownsOf group events :=
  List.mem_filterMap.mpr ⟨_, h, by simp⟩

end Events

section Invariant

variable (budgets : Budgets) (clock : ℕ → ℚ)

/-- A bucket accounts for the grants and the cooldowns of its group. -/
structure Held (w : World) (group : String) (bucket : Bucket) : Prop where
  metered : Metered (budgets.budgetFor group).rps ((budgets.budgetFor group).burst : ℚ)
    bucket.tokens bucket.updatedAt (grantsOf group w.events)
  past : ∀ n, w.readings ≤ n → bucket.updatedAt ≤ clock n
  cooled : ∀ cooldownUntil ∈ cooldownsOf group w.events, cooldownUntil ≤ bucket.cooldownUntil

structure Sound (w : World) : Prop where
  held : ∀ (group : String) (bucket : Bucket), w.buckets[group]? = some bucket →
    Held budgets clock w group bucket
  absent : ∀ group : String, w.buckets[group]? = none →
    grantsOf group w.events = [] ∧ cooldownsOf group w.events = []
  spaced : w.events.Pairwise Respects

variable {budgets clock} {w : World} {group : String} {bucket : Bucket}

theorem Held.of_readings {w' : World} (h : Held budgets clock w group bucket)
    (hevents : w'.events = w.events) (hreadings : w.readings ≤ w'.readings) :
    Held budgets clock w' group bucket where
  metered := hevents ▸ h.metered
  past n hn := h.past n (hreadings.trans hn)
  cooled := hevents ▸ h.cooled

theorem sound_empty : Sound budgets clock {} where
  held _ _ h := by simp at h
  absent _ _ := ⟨rfl, rfl⟩
  spaced := List.Pairwise.nil

theorem Sound.tick (h : Sound budgets clock w) : Sound budgets clock w.tick where
  held group bucket hget := (h.held group bucket hget).of_readings rfl (Nat.le_succ _)
  absent := h.absent
  spaced := h.spaced

theorem Sound.put (h : Sound budgets clock w) (hheld : Held budgets clock w group bucket) :
    Sound budgets clock (w.put group bucket) where
  held other found hget := by
    rw [World.put_get] at hget
    split at hget
    · next hsame =>
      obtain rfl := Option.some.inj hget
      exact (hsame ▸ hheld).of_readings rfl le_rfl
    · exact (h.held other found hget).of_readings rfl le_rfl
  absent other hget := by
    rw [World.put_get] at hget
    split at hget
    · cases hget
    · exact h.absent other hget
  spaced := h.spaced

/-- An event of a group is recorded together with the bucket that accounts for it. -/
theorem Sound.record (h : Sound budgets clock w) {event : Event}
    (hheld : Held budgets clock (w.log event) event.group bucket)
    (hspaced : ∀ earlier ∈ w.events, Respects earlier event) :
    Sound budgets clock ((w.put event.group bucket).log event) where
  held other found hget := by
    rw [World.log_buckets, World.put_get] at hget
    split at hget
    · next hsame =>
      obtain rfl := Option.some.inj hget
      exact (hsame ▸ hheld).of_readings rfl le_rfl
    · next hother =>
      have hold := h.held other found hget
      refine ⟨?_, hold.past, ?_⟩
      · rw [World.log_events, World.put_events, grantsOf_other hother]
        exact hold.metered
      · rw [World.log_events, World.put_events, cooldownsOf_other hother]
        exact hold.cooled
  absent other hget := by
    rw [World.log_buckets, World.put_get] at hget
    split at hget
    · cases hget
    · next hother =>
      rw [World.log_events, World.put_events, grantsOf_other hother, cooldownsOf_other hother]
      exact h.absent other hget
  spaced := by
    rw [World.log_events, World.put_events, List.pairwise_append]
    refine ⟨h.spaced, List.pairwise_singleton _ _, fun earlier hin later hlater => ?_⟩
    rw [List.mem_singleton.mp hlater]
    exact hspaced earlier hin

/-- A bucket that is just made holds its burst. -/
theorem Sound.fresh (h : Sound budgets clock w) (hmono : Monotone clock)
    (hnone : w.buckets[group]? = none) :
    Sound budgets clock (w.put group (freshBucket budgets group (clock w.readings))).tick := by
  obtain ⟨hgrants, hcooldowns⟩ := h.absent group hnone
  obtain ⟨hrps, hburst⟩ := budgets.budgetFor_valid group
  refine (h.put ⟨?_, fun n hn => hmono hn, ?_⟩).tick
  · rw [hgrants]
    exact Metered.full hrps.le (by exact_mod_cast (zero_le_one.trans hburst)) _
  · simp [hcooldowns]

theorem sound_init (hmono : Monotone clock) : Sound budgets clock (init budgets clock) := by
  have hnodup := Dict.keys_nodup budgets.table
  -- a group is made once, as the keys of the table are different
  have hloop : ∀ groups : List String, groups.Nodup → ∀ w : World, Sound budgets clock w →
      (∀ group ∈ groups, w.buckets[group]? = none) →
      Sound budgets clock (groups.foldl
        (fun w group => (w.put group (freshBucket budgets group (clock w.readings))).tick) w) := by
    intro groups
    induction groups with
    | nil => exact fun _ w h _ => h
    | cons group groups ih =>
      intro hnodup w h hnone
      obtain ⟨hnew, hrest⟩ := List.nodup_cons.mp hnodup
      refine ih hrest _ (h.fresh hmono (hnone group List.mem_cons_self)) fun other hin => ?_
      have hne : group ≠ other := fun heq => hnew (heq ▸ hin)
      rw [World.tick_buckets, World.put_get, if_neg hne]
      exact hnone other (List.mem_cons_of_mem group hin)
  exact hloop _ hnodup {} sound_empty fun group _ => by simp

/-- The bucket of a group is there once it is asked for. -/
theorem stateFor_spec (h : Sound budgets clock w) (hmono : Monotone clock) (group : String) :
    Sound budgets clock (stateFor budgets clock group w).2 ∧
      (stateFor budgets clock group w).2.buckets[group]? =
        some (stateFor budgets clock group w).1 ∧
      (stateFor budgets clock group w).2.events = w.events := by
  unfold stateFor
  cases hget : w.buckets[group]? with
  | some state => exact ⟨h, hget, rfl⟩
  | none =>
    refine ⟨h.fresh hmono hget, ?_, rfl⟩
    rw [World.tick_buckets, World.put_get, if_pos rfl]

theorem stateFor_present {w : World} (h : w.buckets[group]? = some bucket) :
    stateFor budgets clock group w = (bucket, w) := by
  rw [stateFor, h]

theorem Held.refilled (h : Held budgets clock w group bucket) (hmono : Monotone clock) :
    Held budgets clock w group { bucket with
      tokens := min ((budgets.budgetFor group).burst : ℚ)
        (bucket.tokens + (clock w.readings - bucket.updatedAt) * (budgets.budgetFor group).rps)
      updatedAt := clock w.readings } where
  metered := h.metered.refill (budgets.budgetFor_valid group).1.le (h.past w.readings le_rfl)
  past _ hn := hmono hn
  cooled := h.cooled

/-- A refill leaves the bucket filled up to its reading. -/
theorem refill_spec (h : Sound budgets clock w) (hmono : Monotone clock) (group : String) :
    Sound budgets clock (refill budgets clock group w).2 ∧
      ∃ bucket, (refill budgets clock group w).2.buckets[group]? = some bucket ∧
        bucket.updatedAt = (refill budgets clock group w).1 := by
  obtain ⟨hsound, hget, -⟩ := stateFor_spec h hmono group
  unfold refill
  generalize stateFor budgets clock group w = found at hsound hget
  obtain ⟨state, w'⟩ := found
  have hheld := hsound.held group state hget
  have hpast := hheld.past w'.readings le_rfl
  dsimp only at hsound hget ⊢
  split
  · next helapsed =>
    have hflow : max 0 (clock w'.readings - state.updatedAt) =
        clock w'.readings - state.updatedAt := max_eq_right (sub_nonneg.mpr hpast)
    rw [hflow]
    have hfull := hheld.refilled hmono
    refine ⟨(hsound.put hfull).tick, ?_⟩
    exact ⟨_, by rw [World.tick_buckets, World.put_get, if_pos rfl], rfl⟩
  · next hnone =>
    have hsame : clock w'.readings - state.updatedAt ≤ 0 :=
      (le_max_right _ _).trans (not_lt.mp hnone)
    exact ⟨hsound.tick, state, hget, le_antisymm hpast (sub_nonpos.mp hsame)⟩

/-- Nothing to wait for means that the tokens are there and no cooldown is on. -/
theorem waitSecondsLocked_spec (h : Sound budgets clock w) (hmono : Monotone clock)
    (group : String) (tokens : ℚ) :
    Sound budgets clock (waitSecondsLocked budgets clock group tokens w).2 ∧
      ((waitSecondsLocked budgets clock group tokens w).1.seconds ≤ 0 → ∃ bucket,
        (waitSecondsLocked budgets clock group tokens w).2.buckets[group]? = some bucket ∧
        tokens ≤ bucket.tokens ∧
        bucket.updatedAt = (waitSecondsLocked budgets clock group tokens w).1.refilledAt ∧
        bucket.cooldownUntil ≤ (waitSecondsLocked budgets clock group tokens w).1.checkedAt) := by
  obtain ⟨hsound, bucket, hget, hfilled⟩ := refill_spec h hmono group
  unfold waitSecondsLocked
  generalize refill budgets clock group w = filled at hsound hget hfilled
  obtain ⟨refilledAt, w'⟩ := filled
  dsimp only at hsound hget hfilled ⊢
  rw [stateFor_present hget]
  refine ⟨hsound.tick, fun hwait => ⟨bucket, hget, ?_, hfilled, ?_⟩⟩
  · by_contra hshort
    dsimp only at hwait
    split at hwait
    · next hcooling => exact absurd hcooling (not_lt.mpr hwait)
    · have hrate : (0 : ℚ) < max (budgets.budgetFor group).rps (1 / 10 ^ 9) :=
        lt_max_of_lt_right (by norm_num)
      exact absurd (div_pos (sub_pos.mpr (not_le.mp hshort)) hrate) (not_lt.mpr hwait)
  · by_contra hcooling
    have hleft : 0 < bucket.cooldownUntil - clock w'.readings :=
      sub_pos.mpr (not_le.mp hcooling)
    have hpos : 0 < max 0 (bucket.cooldownUntil - clock w'.readings) := lt_max_of_lt_right hleft
    dsimp only at hwait
    rw [if_pos hpos] at hwait
    exact absurd hpos (not_lt.mpr hwait)

theorem take_sound (h : Sound budgets clock w) (hget : w.buckets[group]? = some bucket)
    {tokens : ℚ} (htokens : 0 ≤ tokens) (hle : tokens ≤ bucket.tokens) {wait : Wait}
    (hfilled : bucket.updatedAt = wait.refilledAt) (hover : bucket.cooldownUntil ≤ wait.checkedAt) :
    Sound budgets clock (take budgets clock group tokens wait w) := by
  have hheld := h.held group bucket hget
  have hrps := (budgets.budgetFor_valid group).1
  unfold take
  rw [stateFor_present hget]
  have hpaid : Held budgets clock
      (w.log (.granted group tokens wait.refilledAt wait.checkedAt)) group
      { bucket with tokens := bucket.tokens - tokens } := by
    refine ⟨?_, hheld.past, ?_⟩
    · rw [World.log_events, grantsOf_granted, ← hfilled]
      exact hheld.metered.grant hrps.le htokens hle
    · rw [World.log_events, cooldownsOf_granted]
      exact hheld.cooled
  refine h.record hpaid fun earlier hin => ?_
  cases earlier with
  | granted _ _ _ _ => trivial
  | penalized other cooldownUntil =>
    rintro rfl
    exact (hheld.cooled cooldownUntil (mem_cooldownsOf hin)).trans hover

theorem consume_sound (h : Sound budgets clock w) (hmono : Monotone clock) (group : String)
    (tokens : ℚ) : Sound budgets clock (consume budgets clock group tokens w).2 := by
  obtain ⟨hsound, hready⟩ := waitSecondsLocked_spec h hmono group tokens
  unfold consume
  split
  · exact h
  · next htokens =>
    dsimp only
    split
    · exact hsound
    · next hwait =>
      obtain ⟨bucket, hget, hle, hfilled, hover⟩ := hready (not_lt.mp hwait)
      exact take_sound hsound hget (not_le.mp htokens).le hle hfilled hover

theorem acquire_sound (hmono : Monotone clock) (group : String) (rounds : ℕ) (waited : ℚ)
    (h : Sound budgets clock w) :
    Sound budgets clock (acquire budgets clock group rounds waited w).2 := by
  induction rounds generalizing w waited with
  | zero => exact h
  | succ rounds ih =>
    obtain ⟨hsound, hready⟩ := waitSecondsLocked_spec h hmono group 1
    unfold acquire
    dsimp only
    split
    · next hwait =>
      obtain ⟨bucket, hget, hle, hfilled, hover⟩ := hready hwait.le
      exact take_sound hsound hget zero_le_one hle hfilled hover
    · exact ih _ hsound

theorem secondsUntilAvailable_sound (h : Sound budgets clock w) (hmono : Monotone clock)
    (group : String) (tokens : ℚ) :
    Sound budgets clock (secondsUntilAvailable budgets clock group tokens w).2 := by
  unfold secondsUntilAvailable
  split
  · exact h
  · exact (waitSecondsLocked_spec h hmono group tokens).1

theorem penalizeOn429_sound (h : Sound budgets clock w) (hmono : Monotone clock) (group : String)
    (retryAfterSeconds : Option ℚ) :
    Sound budgets clock (penalizeOn429 budgets clock group retryAfterSeconds w) := by
  obtain ⟨hsound, hget, -⟩ := stateFor_spec h hmono group
  unfold penalizeOn429
  generalize stateFor budgets clock group w = found at hsound hget
  obtain ⟨state, w'⟩ := found
  have hheld := hsound.held group state hget
  have hemptied (cooldownEnd : ℚ) : Held budgets clock (w'.log (.penalized group cooldownEnd)) group
      { state with tokens := 0, cooldownUntil := max state.cooldownUntil cooldownEnd } := by
    refine ⟨?_, hheld.past, ?_⟩
    · rw [World.log_events, grantsOf_penalized]
      exact hheld.metered.drain le_rfl hheld.metered.nonneg
    · rw [World.log_events, cooldownsOf_penalized]
      intro cooldownUntil hin
      rcases List.mem_append.mp hin with hold | hnew
      · exact (hheld.cooled cooldownUntil hold).trans (le_max_left _ _)
      · rw [List.mem_singleton.mp hnew]
        exact le_max_right _ _
  exact (hsound.record (hemptied _) fun earlier _ => by cases earlier <;> trivial).tick

theorem step_sound (hmono : Monotone clock) (w : World) (call : Call)
    (h : Sound budgets clock w) : Sound budgets clock (step budgets clock w call) := by
  cases call with
  | acquire group rounds => exact acquire_sound hmono group rounds 0 h
  | consume group tokens => exact consume_sound h hmono group tokens
  | secondsUntilAvailable group tokens => exact secondsUntilAvailable_sound h hmono group tokens
  | penalizeOn429 group retryAfterSeconds =>
    exact penalizeOn429_sound h hmono group retryAfterSeconds

theorem run_sound (hmono : Monotone clock) (calls : List Call) :
    Sound budgets clock (Runs.run (step budgets clock) (init budgets clock) calls) :=
  Runs.run_keeps (step_sound hmono) _ calls (sound_init hmono)

end Invariant

/-- In every run no window of time sees more grants to a group than its burst and its rate
times the window, no grant reads the clock before the end of a cooldown set earlier, and every
bucket is between empty and its burst. -/
theorem run_bounded (budgets : Budgets) (clock : ℕ → ℚ) (hmono : Monotone clock)
    (calls : List Call) (group : String) :
    let w := Runs.run (step budgets clock) (init budgets clock) calls
    let budget := budgets.budgetFor group
    (∀ first last, first ≤ last →
      grantedIn (grantsOf group w.events) first last ≤ budget.burst + budget.rps * (last - first)) ∧
    w.events.Pairwise Respects ∧
    ∀ bucket, w.buckets[group]? = some bucket → 0 ≤ bucket.tokens ∧ bucket.tokens ≤ budget.burst := by
  intro w budget
  have hsound : Sound budgets clock w := run_sound hmono calls
  obtain ⟨hrps, hburst⟩ := budgets.budgetFor_valid group
  refine ⟨fun first last hle => ?_, hsound.spaced, fun bucket hget => ?_⟩
  · cases hget : w.buckets[group]? with
    | some bucket => exact (hsound.held group bucket hget).metered.window first last hle
    | none =>
      rw [(hsound.absent group hget).1, TokenBucket.grantedIn_nil]
      have hflow := mul_nonneg hrps.le (sub_nonneg.mpr hle)
      have hfull : (0 : ℚ) ≤ budget.burst := by exact_mod_cast zero_le_one.trans hburst
      exact add_nonneg hfull hflow
  · have hheld := hsound.held group bucket hget
    exact ⟨hheld.metered.nonneg, hheld.metered.le_burst⟩

/-- Two requests a second, with a burst of two. -/
def twoPerSecond : Budgets where
  table := (∅ : Dict EndpointBudget).insert "default" ⟨"default", 2, 2⟩
  default := ⟨"default", 2, 2⟩
  default_get := by rw [Dict.insert_get, if_pos rfl]
  valid group budget hget := by
    rw [Dict.insert_get] at hget
    split at hget
    · obtain rfl := Option.some.inj hget
      decide +kernel
    · simp at hget

theorem twoPerSecond_bounded :
    let w := Runs.run (step twoPerSecond (fun n => n / 4)) (init twoPerSecond (fun n => n / 4))
      [.consume "default" 2, .penalizeOn429 "default" (some 1), .acquire "default" 9]
    let budget := twoPerSecond.budgetFor "default"
    (∀ first last, first ≤ last →
      grantedIn (grantsOf "default" w.events) first last ≤
        budget.burst + budget.rps * (last - first)) ∧
    w.events.Pairwise Respects ∧
    ∀ bucket, w.buckets["default"]? = some bucket →
      0 ≤ bucket.tokens ∧ bucket.tokens ≤ budget.burst :=
  run_bounded twoPerSecond (fun n => n / 4)
    (fun _ _ h => div_le_div_of_nonneg_right (by exact_mod_cast h) (by norm_num)) _ _

end RateLimiter
