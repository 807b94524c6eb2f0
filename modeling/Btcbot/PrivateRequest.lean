import Btcbot.Attempts
import Btcbot.ExchangeErrors
import Btcbot.Grid

/-!
# Private requests of the exchange client

One request is sent at most four times. A write is tried again after a rate limit
answer and after a lost answer; a server error ends it. A breaker that rate limit
answers open, and a cap on the waits, can end the attempts before.
-/
namespace PrivateRequest

open ExchangeErrors Attempts

structure Payload where
  success : Option Bool := none
  code : Option ErrorCode := none
  message : Option String := none
  deriving DecidableEq, Repr

inductive Body where
  | unreadable
  | notObject
  | object (payload : Payload)
  deriving DecidableEq, Repr

/-- How a transmission ends. -/
inductive Answer where
  | response (status : ℤ) (retryAfterHeader : Option String) (body : Body)
  | timeoutException
  | transportError
  deriving DecidableEq, Repr

structure Request where
  method : String
  path : String
  group : String

structure Config where
  apiKey : Option String
  apiSecret : Option String
  breaker429ConsecutiveThreshold : ℤ
  breakerCooldownSeconds : ℚ

/-- What surrounds an attempt: two readings of the clock, the header as read at that
time, the draw of the backoff, the answer. -/
structure Surroundings where
  checkedAt : ℚ
  answeredAt : ℚ
  parseRetryAfterSeconds : Option String → Option ℚ
  random : ℚ
  answer : Answer

structure Client where
  openUntil : ℚ
  consecutive429 : ℤ
  consecutiveNetworkErrors : ℤ
  deriving DecidableEq, Repr

inductive Raised where
  | configurationError
  | retryableRequestError (error : ExchangeError) (retryAfterHeader : Option String)
  | exchangeError (error : ExchangeError)
  | valueError
  | timeoutException
  | transportError
  | runtimeError
  deriving DecidableEq, Repr

def isPrivateWrite (method : String) : Bool := method ∈ ["POST", "PUT", "PATCH", "DELETE"]

def statusError (request : Request) (status : ℤ) (body : Body) : ExchangeError :=
  let payload := match body with
    | .object payload => payload
    | _ => {}
  { message := "BTCTurk private endpoint error status=" ++ toString status ++ " method=" ++
      request.method.toUpper ++ " path=" ++ request.path
    statusCode := some status
    errorCode := payload.code
    errorMessage := payload.message }

def breakerError (request : Request) : ExchangeError where
  message := "rate limit breaker open for group=" ++ request.group
  statusCode := some 429
  errorCode := some (.text "breaker_open")
  errorMessage := some "breaker_open"

/-- What one answer returns or raises. -/
def call (request : Request) : Answer → Except Raised Payload
  | .timeoutException => .error .timeoutException
  | .transportError => .error .transportError
  | .response status retryAfterHeader body =>
    if status ≠ 200 then
      if status = 429 ∨ (500 ≤ status ∧ ¬ isPrivateWrite request.method.toUpper) then
        .error (.retryableRequestError (statusError request status body) retryAfterHeader)
      else .error (.exchangeError (statusError request status body))
    else
      match body with
      | .unreadable => .error .valueError
      | .notObject =>
        .error (.exchangeError { message := "BTCTurk response payload must be a JSON object" })
      | .object payload =>
        if payload.success = some false then
          .error (.exchangeError
            { message := "BTCTurk API returned unsuccessful payload"
              statusCode := some 200
              errorCode := payload.code
              errorMessage := payload.message })
        else .ok payload

def record429 (config : Config) (now : ℚ) (retryAfter : Option ℚ) (client : Client) : Client :=
  let consecutive := client.consecutive429 + 1
  { client with
    consecutive429 := consecutive
    openUntil := if max 1 config.breaker429ConsecutiveThreshold ≤ consecutive
      then max client.openUntil (now + retryAfter.getD (max 0 config.breakerCooldownSeconds))
      else client.openUntil }

/-- Only a rate limit answer is recorded at once. -/
def afterAnswer (config : Config) (around : Surroundings) (client : Client) : Client :=
  match around.answer with
  | .response 429 retryAfterHeader _ =>
    record429 config around.answeredAt (around.parseRetryAfterSeconds retryAfterHeader) client
  | _ => client

def retryOnExceptions : Raised → Bool
  | .retryableRequestError _ _ | .timeoutException | .transportError => true
  | _ => false

def retryAfterGetter : Raised → Option String
  | .retryableRequestError _ retryAfterHeader => retryAfterHeader
  | _ => none

def computeDelayMs (attempt : ℕ) (random : ℚ) : Option ℚ → ℤ
  | some seconds => min 4000 (Grid.trunc (seconds * 1000))
  | none => Grid.trunc (min 4000 (400 * 2 ^ (attempt - 1)) * (1 / 2 + random))

/-- The wait after an attempt, in seconds. -/
def delaySeconds (attempt : ℕ) (around : Surroundings) (raised : Raised) : ℚ :=
  computeDelayMs attempt around.random
    (around.parseRetryAfterSeconds (retryAfterGetter raised)) / 1000

structure LoopState where
  client : Client
  totalSleep : ℚ
  deriving DecidableEq, Repr

def retryAttempts : ℕ := 4

def retryTotalWaitCapSeconds : ℚ := 8

/-- What leaves the loop: a wrapped error is taken out of its wrapping, and giving up on
a lost answer is counted. -/
def leave (raised : Raised) (client : Client) : Raised × Client :=
  match raised with
  | .retryableRequestError error _ => (.exchangeError error, client)
  | .timeoutException | .transportError =>
    (raised, { client with consecutiveNetworkErrors := client.consecutiveNetworkErrors + 1 })
  | _ => (raised, client)

def turn (config : Config) (request : Request) (surroundings : ℕ → Surroundings) (attempt : ℕ)
    (s : LoopState) : Turn Answer LoopState (Except Raised Payload) :=
  let around := surroundings attempt
  if around.checkedAt < s.client.openUntil then
    .held (.error (.exchangeError (breakerError request))) s
  else
    match call request around.answer with
    | .ok payload =>
      .last around.answer (.ok payload)
        { s with client := { s.client with consecutive429 := 0, consecutiveNetworkErrors := 0 } }
    | .error raised =>
      let client := afterAnswer config around s.client
      let delay := delaySeconds attempt around raised
      if ¬ retryOnExceptions raised ∨ retryAttempts ≤ attempt ∨
          retryTotalWaitCapSeconds < s.totalSleep + delay then
        .last around.answer (.error (leave raised client).1)
          { s with client := (leave raised client).2 }
      else .again around.answer ⟨client, s.totalSleep + delay⟩

def missing (credential : Option String) : Bool := credential.getD "" = ""

def privateRequest (config : Config) (request : Request) (surroundings : ℕ → Surroundings)
    (client : Client) : Trace Answer LoopState (Except Raised Payload) :=
  if missing config.apiKey ∨ missing config.apiSecret then
    ⟨[], .error .configurationError, client, 0⟩
  else
    attempts (turn config request surroundings) (.error .runtimeError) retryAttempts 1 ⟨client, 0⟩

/-- The one answer that says the write was not executed. -/
def Answer.RateLimited : Answer → Prop
  | .response status _ _ => status = 429
  | _ => False

instance (answer : Answer) : Decidable answer.RateLimited := by
  cases answer <;> unfold Answer.RateLimited <;> infer_instance

/-- No answer came: the write may have been executed. -/
def Answer.Lost (answer : Answer) : Prop := answer = .timeoutException ∨ answer = .transportError

/-- Nothing but the answers keeps the next attempts from being made: the breaker is closed
at each of them and the waits between them are within the cap. -/
def Unhindered (config : Config) (request : Request) (surroundings : ℕ → Surroundings) :
    ℕ → ℕ → LoopState → Prop
  | 0, attempt, s => s.client.openUntil ≤ (surroundings attempt).checkedAt
  | more + 1, attempt, s =>
    let around := surroundings attempt
    s.client.openUntil ≤ around.checkedAt ∧
      ∃ raised, call request around.answer = .error raised ∧
        s.totalSleep + delaySeconds attempt around raised ≤ retryTotalWaitCapSeconds ∧
        Unhindered config request surroundings more (attempt + 1)
          ⟨afterAnswer config around s.client, s.totalSleep + delaySeconds attempt around raised⟩

section Resending

variable {config : Config} {request : Request} {surroundings : ℕ → Surroundings}

theorem turn_sends (attempt : ℕ) (s : LoopState) :
    (turn config request surroundings attempt s).Sends ↔
      s.client.openUntil ≤ (surroundings attempt).checkedAt := by
  unfold turn
  dsimp only
  split
  · next h => exact iff_of_false (fun h => h) (not_le.mpr h)
  · next h =>
    refine iff_of_true ?_ (not_lt.mp h)
    split
    · trivial
    · split <;> trivial

/-- A write is tried again after a rate limit and after a lost answer only. -/
theorem retried_iff (hwrite : isPrivateWrite request.method.toUpper = true) (answer : Answer) :
    (∃ raised, call request answer = .error raised ∧ retryOnExceptions raised = true) ↔
      answer.RateLimited ∨ answer.Lost := by
  cases answer with
  | timeoutException => exact iff_of_true ⟨_, rfl, rfl⟩ (.inr (.inl rfl))
  | transportError => exact iff_of_true ⟨_, rfl, rfl⟩ (.inr (.inr rfl))
  | response status header body =>
    have hlost : ¬ (Answer.response status header body).Lost := by
      rintro (h | h) <;> cases h
    simp only [hlost, or_false, Answer.RateLimited]
    constructor
    · rintro ⟨raised, hcall, hretry⟩
      by_contra hstatus
      simp only [call, hstatus, hwrite, not_true_eq_false, and_false, or_false, if_false] at hcall
      split at hcall
      · cases hcall
        cases hretry
      · cases body with
        | unreadable =>
          cases hcall
          cases hretry
        | notObject =>
          cases hcall
          cases hretry
        | object payload =>
          dsimp only at hcall
          split at hcall
          · cases hcall
            cases hretry
          · cases hcall
    · rintro rfl
      exact ⟨_, rfl, rfl⟩

/-- When an attempt asks for another one. -/
theorem turn_again_iff (hwrite : isPrivateWrite request.method.toUpper = true) {attempt : ℕ}
    {s s' : LoopState} {sent : Answer} :
    turn config request surroundings attempt s = .again sent s' ↔
      sent = (surroundings attempt).answer ∧ (sent.RateLimited ∨ sent.Lost) ∧
      s.client.openUntil ≤ (surroundings attempt).checkedAt ∧ attempt < retryAttempts ∧
      ∃ raised, call request (surroundings attempt).answer = .error raised ∧
        s.totalSleep + delaySeconds attempt (surroundings attempt) raised ≤
          retryTotalWaitCapSeconds ∧
        s' = ⟨afterAnswer config (surroundings attempt) s.client,
          s.totalSleep + delaySeconds attempt (surroundings attempt) raised⟩ := by
  have hretried := retried_iff hwrite (surroundings attempt).answer
  unfold turn
  dsimp only
  split
  · next hopen =>
    refine iff_of_false nofun ?_
    rintro ⟨-, -, hclosed, -⟩
    exact absurd hopen (not_lt.mpr hclosed)
  · next hclosed =>
    cases hcall : call request (surroundings attempt).answer with
    | ok payload =>
      refine iff_of_false nofun ?_
      rintro ⟨-, -, -, -, raised, hraised, -⟩
      cases hraised
    | error raised =>
      dsimp only
      split
      · next hstop =>
        refine iff_of_false nofun ?_
        rintro ⟨rfl, hkind, -, hleft, raised', hraised, hwait, -⟩
        cases hraised
        obtain ⟨raised', hraised, hretry⟩ := hretried.mpr hkind
        rw [hcall] at hraised
        cases hraised
        rcases hstop with h | h | h
        · exact h hretry
        · omega
        · exact absurd h (not_lt.mpr hwait)
      · next hgo =>
        obtain ⟨hretry, hleft, hwait⟩ : retryOnExceptions raised = true ∧
            attempt < retryAttempts ∧ s.totalSleep +
              delaySeconds attempt (surroundings attempt) raised ≤ retryTotalWaitCapSeconds := by
          simpa using hgo
        have hkind := hretried.mp ⟨raised, hcall, hretry⟩
        constructor
        · intro h
          cases h
          exact ⟨rfl, hkind, not_lt.mp hclosed, hleft, raised, rfl, hwait, rfl⟩
        · rintro ⟨rfl, -, -, -, raised', hraised, -, rfl⟩
          cases hraised
          rfl

/-- By induction on the rate limit answers before the lost one. -/
theorem resends_iff (hwrite : isPrivateWrite request.method.toUpper = true) (k : ℕ) :
    ∀ (attempt : ℕ) (s : LoopState), attempt + k < retryAttempts →
      (Resends (turn config request surroundings) Answer.RateLimited k attempt s ↔
        (∀ j < k, (surroundings (attempt + j)).answer.RateLimited) ∧
          (surroundings (attempt + k)).answer.Lost ∧
          Unhindered config request surroundings (k + 1) attempt s) := by
  induction k with
  | zero =>
    intro attempt s hleft
    simp only [Nat.not_lt_zero, false_implies, implies_true, true_and, Nat.add_zero]
    constructor
    · intro hresends
      obtain ⟨t, s', hturn⟩ := hresends.again
      simp only [Resends, hturn] at hresends
      obtain ⟨rfl, hkind, hclosed, -, raised, hcall, hwait, rfl⟩ := (turn_again_iff hwrite).mp hturn
      refine ⟨hkind.resolve_left hresends.1, hclosed, raised, hcall, hwait, ?_⟩
      exact (turn_sends _ _).mp hresends.2
    · rintro ⟨hlost, hclosed, raised, hcall, hwait, hnext⟩
      have hturn := (@turn_again_iff config request surroundings hwrite attempt s _ _).mpr
        ⟨rfl, .inr hlost, hclosed, hleft, raised, hcall, hwait, rfl⟩
      simp only [Resends, hturn]
      refine ⟨?_, (turn_sends _ _).mpr hnext⟩
      rcases hlost with h | h <;> rw [h] <;> exact fun h => h
  | succ k ih =>
    intro attempt s hleft
    constructor
    · intro hresends
      obtain ⟨t, s', hturn⟩ := hresends.again
      simp only [Resends, hturn] at hresends
      obtain ⟨rfl, -, hclosed, -, raised, hcall, hwait, rfl⟩ := (turn_again_iff hwrite).mp hturn
      obtain ⟨hlimited, hlost, hnext⟩ := (ih (attempt + 1) _ (by omega)).mp hresends.2
      refine ⟨fun j hj => ?_, ?_, hclosed, raised, hcall, hwait, hnext⟩
      · cases j with
        | zero => exact hresends.1
        | succ j =>
          have := hlimited j (by omega)
          rwa [show attempt + 1 + j = attempt + (j + 1) by omega] at this
      · rwa [show attempt + 1 + k = attempt + (k + 1) by omega] at hlost
    · rintro ⟨hlimited, hlost, hclosed, raised, hcall, hwait, hnext⟩
      have hfirst := hlimited 0 (by omega)
      have hturn := (@turn_again_iff config request surroundings hwrite attempt s _ _).mpr
        ⟨rfl, .inl hfirst, hclosed, by omega, raised, hcall, hwait, rfl⟩
      simp only [Resends, hturn]
      refine ⟨hfirst, (ih (attempt + 1) _ (by omega)).mpr ⟨fun j hj => ?_, ?_, hnext⟩⟩
      · rw [show attempt + 1 + j = attempt + (j + 1) by omega]
        exact hlimited (j + 1) (by omega)
      · rwa [show attempt + 1 + k = attempt + (k + 1) by omega]

/-- A write is sent again on a rate limit only, unless a lost answer follows rate limits in
one of the first three attempts and nothing else ends them. -/
theorem no_ambiguous_resend_iff (config : Config) (request : Request)
    (surroundings : ℕ → Surroundings) (client : Client)
    (hmethod : request.method.toUpper = "POST" ∨ request.method.toUpper = "DELETE") :
    (∀ answer ∈ (privateRequest config request surroundings client).sent.dropLast,
        answer.RateLimited) ↔
      (missing config.apiKey ∨ missing config.apiSecret) ∨
        ∀ k < 3, (∀ j < k, (surroundings (1 + j)).answer.RateLimited) →
          (surroundings (1 + k)).answer.Lost →
          ¬ Unhindered config request surroundings (k + 1) 1 ⟨client, 0⟩ := by
  have hwrite : isPrivateWrite request.method.toUpper = true := by
    rcases hmethod with h | h <;> rw [h] <;> decide
  unfold privateRequest
  split
  · next hmissing => exact iff_of_true nofun (.inl hmissing)
  · next hpresent =>
    rw [dropLast_harmless_iff]
    simp only [hpresent, false_or]
    refine forall_congr' fun k => ?_
    by_cases hk : k < 3
    · have hbound : k + 1 < retryAttempts := by unfold retryAttempts; omega
      simp only [hk, hbound, true_implies,
        resends_iff hwrite k 1 ⟨client, 0⟩ (by unfold retryAttempts; omega), not_and]
    · have hbound : ¬ k + 1 < retryAttempts := by unfold retryAttempts; omega
      simp only [hk, hbound, false_implies]

end Resending

/-- A client with credentials and a closed breaker. -/
def sampleConfig : Config where
  apiKey := some "key"
  apiSecret := some "c2VjcmV0"
  breaker429ConsecutiveThreshold := 3
  breakerCooldownSeconds := 10

def sampleClient : Client := ⟨0, 0, 0⟩

def submitRequest : Request := ⟨"POST", "/api/v1/order", "orders"⟩

/-- A timeout, then an accepted order. -/
def timeoutThenAccepted (attempt : ℕ) : Surroundings where
  checkedAt := attempt
  answeredAt := attempt
  parseRetryAfterSeconds := fun _ => none
  random := 1 / 2
  answer := if attempt = 1 then .timeoutException
    else .response 200 none (.object { success := some true })

theorem no_ambiguous_resend_iff_submit :
    (∀ answer ∈ (privateRequest sampleConfig submitRequest timeoutThenAccepted
        sampleClient).sent.dropLast, answer.RateLimited) ↔
      (missing sampleConfig.apiKey ∨ missing sampleConfig.apiSecret) ∨
        ∀ k < 3, (∀ j < k, (timeoutThenAccepted (1 + j)).answer.RateLimited) →
          (timeoutThenAccepted (1 + k)).answer.Lost →
          ¬ Unhindered sampleConfig submitRequest timeoutThenAccepted (k + 1) 1
            ⟨sampleClient, 0⟩ :=
  no_ambiguous_resend_iff sampleConfig submitRequest timeoutThenAccepted sampleClient
    (.inl (by decide +kernel))

/-- The order is sent twice. -/
theorem timeout_resent :
    (privateRequest sampleConfig submitRequest timeoutThenAccepted sampleClient).sent =
        [.timeoutException, .response 200 none (.object { success := some true })] ∧
      ¬ ∀ answer ∈ (privateRequest sampleConfig submitRequest timeoutThenAccepted
        sampleClient).sent.dropLast, answer.RateLimited := by
  have hsent : (privateRequest sampleConfig submitRequest timeoutThenAccepted sampleClient).sent =
      [.timeoutException, .response 200 none (.object { success := some true })] := by
    decide +kernel
  rw [hsent]
  exact ⟨rfl, by decide⟩

end PrivateRequest
