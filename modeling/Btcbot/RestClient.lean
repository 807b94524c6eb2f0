import Btcbot.Attempts
import Mathlib.Data.List.Range
import Mathlib.Algebra.Order.Group.Int

/-!
# Safe submission of the rest client

A submission looks an order up before it gives up on it, on top of a request that
tries again by itself after network errors, server errors and rate limits.
-/
namespace RestClient

open Attempts

inductive Json where
  | null
  | bool (value : Bool)
  | number (text : String)
  | string (text : String)
  | array (items : List Json)
  | object (members : List (String × Json))

/-- The last member of a name counts. -/
def Json.get? (key : String) : Json → Option Json
  | .object members => members.reverse.lookup key
  | _ => none

def Json.isObject : Json → Bool
  | .object _ => true
  | _ => false

def Json.isString (text : String) : Option Json → Bool
  | some (.string s) => s = text
  | _ => false

def Json.isFalse : Option Json → Bool
  | some (.bool b) => !b
  | _ => false

def Json.items : Option Json → List Json
  | some (.array items) => items
  | _ => []

inductive RestErrorKind where
  | network
  | rateLimit
  | server
  | client
  | exchange
  deriving DecidableEq, Repr

def RestErrorKind.value : RestErrorKind → String
  | .network => "network"
  | .rateLimit => "rate_limit"
  | .server => "server"
  | .client => "client"
  | .exchange => "exchange"

structure RestRequestError where
  kind : RestErrorKind
  message : String
  statusCode : Option ℤ := none
  payload : Option Json := none

structure ExchangeError where
  message : String
  statusCode : Option ℤ
  errorCode : Option Json
  errorMessage : Option Json
  requestMethod : String
  requestPath : String
  responseBody : String

inductive Raised where
  | restRequestError (error : RestRequestError)
  | exchangeError (error : ExchangeError)
  | valueError (message : String)
  | runtimeError (message : String)
  /-- The time provider failed. -/
  | clockSyncError (message : String)

/-- How a transmission ends: the text of a response, and what it reads as. -/
inductive Answer where
  | networkError (message : String)
  | response (status : ℤ) (text : String) (body : Option Json)

structure Policy where
  maxAttempts : ℤ
  safeSubmitRetries : Bool

/-- The surroundings of one request: the clock synchronisation before it and the answers
to its transmissions. -/
structure Surroundings where
  clockSyncError : Option String
  answers : ℕ → Answer

def httpError (status : ℤ) (text : String) (body : Option Json) : RestRequestError where
  kind := if status = 429 then .rateLimit else if 500 ≤ status then .server else .client
  message := String.ofList (text.toList.take 300)
  statusCode := some status
  payload := body.filter Json.isObject

def exchangeMessage (payload : Json) : String :=
  match payload.get? "message" with
  | some (.string text) => if text = "" then "exchange error" else text
  | _ => "exchange error"

/-- What one answer returns or raises. -/
def call : Answer → Except Raised Json
  | .networkError message => .error (.restRequestError { kind := .network, message := message })
  | .response status text body =>
    if 400 ≤ status then .error (.restRequestError (httpError status text body))
    else
      match body with
      | none => .error (.valueError "not a JSON document")
      | some payload =>
        if ¬ payload.isObject then
          .error (.restRequestError
            { kind := .exchange
              message := "BTCTurk payload must be dict"
              statusCode := some status })
        else if Json.isFalse (payload.get? "success") then
          .error (.restRequestError
            { kind := .exchange
              message := exchangeMessage payload
              statusCode := some status
              payload := some payload })
        else .ok payload

def classify : Raised → Bool
  | .restRequestError error => error.kind ∈ [.network, .server, .rateLimit]
  | _ => false

def toExchangeError (error : RestRequestError) (method path : String) : ExchangeError where
  message := "BTCTurk REST error kind=" ++ error.kind.value
  statusCode := error.statusCode
  errorCode := error.payload.bind (Json.get? "code")
  errorMessage := match error.payload with
    | some payload => payload.get? "message"
    | none => some (.string error.message)
  requestMethod := method
  requestPath := path
  responseBody := error.message

def turn (maxAttempts : ℤ) (answers : ℕ → Answer) (attempt : ℕ) (_ : Unit) :
    Turn Answer Unit (Except Raised Json) :=
  match call (answers attempt) with
  | .ok payload => .last (answers attempt) (.ok payload) ()
  | .error raised =>
    if ¬ classify raised ∨ maxAttempts ≤ attempt + 1 then
      .last (answers attempt) (.error raised) ()
    else .again (answers attempt) ()

/-- What was sent, and what was returned or raised. -/
abbrev Requested := List Answer × Except Raised Json

/-- Errors of the rest client leave it as exchange errors. -/
def leave (method path : String) : Except Raised Json → Except Raised Json
  | .error (.restRequestError error) => .error (.exchangeError (toExchangeError error method path))
  | result => result

def request (policy : Policy) (method path : String) (around : Surroundings) : Requested :=
  match around.clockSyncError with
  | some message => ([], .error (.clockSyncError message))
  | none =>
    if policy.maxAttempts < 1 then ([], .error (.valueError "max_attempts must be >= 1"))
    else
      let trace := attempts (turn policy.maxAttempts around.answers)
        (.error (.runtimeError "Retry loop exhausted unexpectedly")) policy.maxAttempts.toNat 0 ()
      (trace.sent, leave method path trace.result)

def openOrderRows (payload : Json) : List Json :=
  ["bids", "asks"].flatMap fun sideKey =>
    Json.items ((payload.get? "data").bind (Json.get? sideKey))

def findRow (clientOrderId : String) (payload : Json) : Option Json :=
  (openOrderRows payload).find? fun row => Json.isString clientOrderId (row.get? "orderClientId")

/-- What was sent for a lookup, and the order it found. -/
def findOpenOrderByClientOrderId (policy : Policy) (around : Surroundings)
    (clientOrderId : String) : List Answer × Except Raised (Option Json) :=
  let requested := request policy "GET" "/api/v1/openOrders" around
  (requested.1, requested.2.map (findRow clientOrderId))

inductive Submitted where
  | payload (payload : Json)
  | idempotent (existing : Json)

inductive Event where
  | posted (answer : Answer)
  | lookedUp (outcome : Except Raised (Option Json))

/-- A lookup that sent anything. -/
def lookupEvents (lookup : List Answer × Except Raised (Option Json)) : List Event :=
  if lookup.1 = [] then [] else [.lookedUp lookup.2]

def lookupStatuses : List ℤ := [429, 500, 502, 503, 504]

/-- What follows a failed submission: the events and the outcome. -/
def afterExchangeError (policy : Policy) (around : Surroundings) (clientOrderId : String)
    (error : ExchangeError) : List Event × Except Raised Submitted :=
  if ¬ policy.safeSubmitRetries then ([], .error (.exchangeError error))
  else if error.statusCode.getD 0 ∈ lookupStatuses then
    let lookup := findOpenOrderByClientOrderId policy around clientOrderId
    (lookupEvents lookup,
      match lookup.2 with
      | .error raised => .error raised
      | .ok (some existing) => .ok (.idempotent existing)
      | .ok none => .error (.exchangeError error))
  else ([], .error (.exchangeError error))

def submitOrderSafe (policy : Policy) (post lookup : Surroundings) (clientOrderId : String) :
    List Event × Except Raised Submitted :=
  let requested := request policy "POST" "/api/v1/order" post
  let rest : List Event × Except Raised Submitted := match requested.2 with
    | .ok payload => ([], .ok (.payload payload))
    | .error (.exchangeError error) => afterExchangeError policy lookup clientOrderId error
    | .error raised => ([], .error raised)
  (requested.1.map Event.posted ++ rest.1, rest.2)

/-- A network error or a server error: the order may have been created. -/
def Answer.Ambiguous : Answer → Prop
  | .networkError _ => True
  | .response status _ _ => 500 ≤ status

def Answer.RateLimited : Answer → Prop
  | .networkError _ => False
  | .response status _ _ => status = 429

/-- A submission with an ambiguous outcome is repeated only after a lookup that found no
order. -/
def NeverBlind (events : List Event) : Prop :=
  ∀ before a middle b after,
    events = before ++ .posted a :: (middle ++ .posted b :: after) → a.Ambiguous →
      .lookedUp (.ok none) ∈ middle

/-- Giving up after an ambiguous outcome comes after a lookup. -/
def LookedUpFirst (outcome : List Event × Except Raised Submitted) : Prop :=
  (∃ raised, outcome.2 = .error raised) → (∃ a, .posted a ∈ outcome.1 ∧ a.Ambiguous) →
    ∃ found, .lookedUp found ∈ outcome.1

section Blind

def Event.post? : Event → Option Answer
  | .posted a => some a
  | .lookedUp _ => none

/-- Two submissions are never blind just when only the last of them is ambiguous, as no
lookup comes between them. -/
theorem neverBlind_iff (posts : List Answer) {tail : List Event}
    (htail : ∀ a, Event.posted a ∉ tail) :
    NeverBlind (posts.map Event.posted ++ tail) ↔ ∀ a ∈ posts.dropLast, ¬ a.Ambiguous := by
  have htail' : tail.filterMap Event.post? = [] := by
    rw [List.filterMap_eq_nil_iff]
    intro event hevent
    cases event with
    | posted a => exact absurd hevent (htail a)
    | lookedUp found => rfl
  have hposts : (posts.map Event.posted ++ tail).filterMap Event.post? = posts := by
    rw [List.filterMap_append, htail', List.append_nil, List.filterMap_map]
    exact List.filterMap_some
  constructor
  · intro hnever a ha hambiguous
    obtain ⟨before, rest, hsplit⟩ := List.append_of_mem ha
    have hne : posts ≠ [] := by
      rintro rfl
      cases ha
    have hwhole := List.dropLast_append_getLast hne
    rw [hsplit, List.append_assoc, List.cons_append] at hwhole
    generalize posts.getLast hne = final at hwhole
    cases rest with
    | nil =>
      have hnone := hnever (before.map Event.posted) a [] final tail
        (by rw [← hwhole]; simp) hambiguous
      cases hnone
    | cons b rest =>
      have hnone := hnever (before.map Event.posted) a [] b
        (rest.map Event.posted ++ .posted final :: tail)
        (by rw [← hwhole]; simp) hambiguous
      cases hnone
  · intro hall before a middle b after hevents hambiguous
    refine absurd hambiguous (hall a ?_)
    have hsplit : posts = before.filterMap Event.post? ++
        a :: (middle.filterMap Event.post? ++ b :: after.filterMap Event.post?) := by
      rw [← hposts, hevents]
      simp [Event.post?]
    rw [hsplit, List.dropLast_append_of_ne_nil (by simp), List.dropLast_cons_of_ne_nil (by simp)]
    simp

end Blind

section Request

def Answer.Retried (answer : Answer) : Prop :=
  ∃ raised, call answer = .error raised ∧ classify raised = true

theorem retried_iff (answer : Answer) :
    answer.Retried ↔ answer.RateLimited ∨ answer.Ambiguous := by
  cases answer with
  | networkError message => exact iff_of_true ⟨_, rfl, rfl⟩ (.inr trivial)
  | response status text body =>
    show _ ↔ status = 429 ∨ 500 ≤ status
    constructor
    · rintro ⟨raised, hcall, hclassify⟩
      by_contra hneither
      obtain ⟨hlimit, hserver⟩ := not_or.mp hneither
      simp only [call] at hcall
      split at hcall
      · cases hcall
        simp [classify, httpError, hlimit, hserver] at hclassify
      · cases body with
        | none =>
          cases hcall
          cases hclassify
        | some payload =>
          dsimp only at hcall
          split at hcall
          · cases hcall
            cases hclassify
          · split at hcall
            · cases hcall
              cases hclassify
            · cases hcall
    · intro hstatus
      have hfailed : 400 ≤ status := by omega
      refine ⟨.restRequestError (httpError status text body), by simp only [call, hfailed, if_true], ?_⟩
      rcases hstatus with rfl | hserver
      · rfl
      · have hlimit : status ≠ 429 := by omega
        simp [classify, httpError, hlimit, hserver]

theorem turn_again {maxAttempts : ℤ} {answers : ℕ → Answer} {i : ℕ}
    (hretried : (answers i).Retried) (hleft : (i : ℤ) + 1 < maxAttempts) :
    turn maxAttempts answers i () = .again (answers i) () := by
  obtain ⟨raised, hcall, hclassify⟩ := hretried
  have hnot : ¬ maxAttempts ≤ i + 1 := by omega
  simp [turn, hcall, hclassify, hnot]

theorem turn_last {maxAttempts : ℤ} {answers : ℕ → Answer} {i : ℕ}
    (hlast : ¬ (answers i).Retried ∨ maxAttempts ≤ i + 1) :
    turn maxAttempts answers i () = .last (answers i) (call (answers i)) () := by
  unfold turn
  cases hcall : call (answers i) with
  | ok payload => rfl
  | error raised =>
    have hstop : ¬ classify raised ∨ maxAttempts ≤ i + 1 :=
      hlast.imp_left fun hnot hclassify => hnot ⟨raised, hcall, hclassify⟩
    simp only [hstop, if_true]

/-- A request sends up to the first answer it does not try again, or as often as it may. -/
theorem attempts_shape (answers : ℕ → Answer) (exhausted : Except Raised Json) (left : ℕ) :
    ∀ i : ℕ, ∃ k ≤ left, (∀ j < k, (answers (i + j)).Retried) ∧
      (k < left → ¬ (answers (i + k)).Retried) ∧
      (attempts (turn (i + left + 1) answers) exhausted (left + 1) i ()).sent =
        (List.range (k + 1)).map (fun j => answers (i + j)) ∧
      (attempts (turn (i + left + 1) answers) exhausted (left + 1) i ()).result =
        call (answers (i + k)) := by
  induction left with
  | zero =>
    intro i
    have hturn := @turn_last (i + (0 : ℕ) + 1) answers i (.inr (by omega))
    refine ⟨0, le_rfl, nofun, nofun, ?_, ?_⟩ <;> simp only [attempts, hturn] <;> rfl
  | succ left ih =>
    intro i
    by_cases hretried : (answers i).Retried
    · have hturn := @turn_again (i + (left + 1 : ℕ) + 1) answers i hretried (by omega)
      obtain ⟨k, hk, hall, hend, hsent, hresult⟩ := ih (i + 1)
      have hmax : ((i + 1 : ℕ) : ℤ) + left + 1 = i + (left + 1 : ℕ) + 1 := by omega
      rw [hmax] at hsent hresult
      refine ⟨k + 1, by omega, fun j hj => ?_, fun hlt => ?_, ?_, ?_⟩
      · cases j with
        | zero => exact hretried
        | succ j =>
          have := hall j (by omega)
          rwa [show i + 1 + j = i + (j + 1) by omega] at this
      · have := hend (by omega)
        rwa [show i + 1 + k = i + (k + 1) by omega] at this
      · rw [attempts, hturn, List.range_succ_eq_map, List.map_cons, List.map_map]
        simp only [hsent, Nat.add_zero, List.cons.injEq, true_and]
        refine List.map_congr_left fun j _ => ?_
        exact congrArg answers (by omega)
      · rw [attempts, hturn]
        simp only [hresult, show i + 1 + k = i + (k + 1) by omega]
    · have hturn := @turn_last (i + (left + 1 : ℕ) + 1) answers i (.inl hretried)
      refine ⟨0, by omega, nofun, fun _ => hretried, ?_, ?_⟩ <;> simp only [attempts, hturn] <;> rfl

theorem request_shape {policy : Policy} {around : Surroundings} (method path : String)
    (hsync : around.clockSyncError = none) (hpositive : 1 ≤ policy.maxAttempts) :
    ∃ k : ℕ, k < policy.maxAttempts ∧ (∀ j < k, (around.answers j).Retried) ∧
      ((k : ℤ) + 1 < policy.maxAttempts → ¬ (around.answers k).Retried) ∧
      request policy method path around =
        ((List.range (k + 1)).map around.answers, leave method path (call (around.answers k))) := by
  obtain ⟨left, hleft⟩ : ∃ left : ℕ, policy.maxAttempts = left + 1 :=
    ⟨(policy.maxAttempts - 1).toNat, by omega⟩
  obtain ⟨k, hk, hall, hend, hsent, hresult⟩ := attempts_shape around.answers
    (.error (.runtimeError "Retry loop exhausted unexpectedly")) left 0
  have hmax : ((0 : ℕ) : ℤ) + left + 1 = policy.maxAttempts := by omega
  have hturns : policy.maxAttempts.toNat = left + 1 := by omega
  simp only [Nat.zero_add] at hall hend hsent hresult
  rw [hmax] at hsent hresult
  refine ⟨k, by omega, hall, fun h => hend (by omega), ?_⟩
  have hnot : ¬ policy.maxAttempts < 1 := by omega
  simp only [request, hsync, hnot, if_false, hturns, hsent, hresult]

end Request

section Submit

variable {policy : Policy} {post lookup : Surroundings} {clientOrderId : String}

/-- The statuses a lookup follows. -/
def Answer.LookedUpAfter : Answer → Prop
  | .networkError _ => False
  | .response status _ _ => status ∈ lookupStatuses

theorem lookupEvents_not_posted (found : List Answer × Except Raised (Option Json)) (a : Answer) :
    Event.posted a ∉ lookupEvents found := by
  unfold lookupEvents
  split <;> simp

/-- A lookup sends something unless the clock synchronisation before it fails. -/
theorem lookup_sends (hpositive : 1 ≤ policy.maxAttempts) :
    lookupEvents (findOpenOrderByClientOrderId policy lookup clientOrderId) ≠ [] ↔
      lookup.clockSyncError = none := by
  unfold findOpenOrderByClientOrderId
  cases hsync : lookup.clockSyncError with
  | some message => simp [request, hsync, lookupEvents]
  | none =>
    obtain ⟨k, -, -, -, hrequest⟩ :=
      @request_shape policy _ "GET" "/api/v1/openOrders" hsync hpositive
    simp [hrequest, lookupEvents]

theorem ambiguous_error {answer : Answer} (h : answer.Ambiguous) :
    ∃ error, call answer = .error (.restRequestError error) ∧
      (error.statusCode.getD 0 ∈ lookupStatuses ↔ answer.LookedUpAfter) := by
  cases answer with
  | networkError message => exact ⟨_, rfl, iff_of_false (show (0 : ℤ) ∉ lookupStatuses by decide) id⟩
  | response status text body =>
    have hfailed : 400 ≤ status := le_trans (by decide) h
    exact ⟨httpError status text body, by simp only [call, hfailed, if_true], Iff.rfl⟩

theorem afterExchangeError_not_posted (error : ExchangeError) (a : Answer) :
    Event.posted a ∉ (afterExchangeError policy lookup clientOrderId error).1 := by
  unfold afterExchangeError
  split
  · exact List.not_mem_nil
  · split
    · exact lookupEvents_not_posted _ a
    · exact List.not_mem_nil

/-- Whether a lookup follows an answer. -/
def LookupMade (policy : Policy) (lookup : Surroundings) (answer : Answer) : Prop :=
  policy.safeSubmitRetries = true ∧ answer.LookedUpAfter ∧ lookup.clockSyncError = none

theorem afterExchangeError_made {error : ExchangeError} {answer : Answer}
    (hpositive : 1 ≤ policy.maxAttempts)
    (hstatus : error.statusCode.getD 0 ∈ lookupStatuses ↔ answer.LookedUpAfter) :
    (LookupMade policy lookup answer →
      ∃ found, Event.lookedUp found ∈
        (afterExchangeError policy lookup clientOrderId error).1) ∧
    (¬ LookupMade policy lookup answer →
      (afterExchangeError policy lookup clientOrderId error).1 = [] ∧
        ∃ raised, (afterExchangeError policy lookup clientOrderId error).2 = .error raised) := by
  have hsends := @lookup_sends policy lookup clientOrderId hpositive
  unfold afterExchangeError
  constructor
  · rintro ⟨hsafe, hafter, hsync⟩
    simp only [hsafe, not_true_eq_false, if_false, hstatus.mpr hafter, if_true]
    obtain ⟨event, hevent⟩ := List.exists_mem_of_ne_nil _ (hsends.mpr hsync)
    cases event with
    | posted a => exact absurd hevent (lookupEvents_not_posted _ a)
    | lookedUp found => exact ⟨found, hevent⟩
  · intro hnot
    split
    · exact ⟨rfl, _, rfl⟩
    · next hsafe =>
      split
      · next hin =>
        have hsync : lookup.clockSyncError ≠ none := fun hsync =>
          hnot ⟨not_not.mp hsafe, hstatus.mp hin, hsync⟩
        refine ⟨not_not.mp (hsends.not.mpr hsync), ?_⟩
        obtain ⟨message, hmessage⟩ := Option.ne_none_iff_exists'.mp hsync
        refine ⟨.clockSyncError message, ?_⟩
        simp [findOpenOrderByClientOrderId, request, hmessage, Except.map]
      · exact ⟨rfl, _, rfl⟩

/-- A submission that is sent ends at the first answer it does not try again, and what
comes after an ambiguous one depends on the lookup. -/
theorem submit_shape (hsync : post.clockSyncError = none) (hpositive : 1 ≤ policy.maxAttempts) :
    ∃ k : ℕ, k < policy.maxAttempts ∧ (∀ j < k, (post.answers j).Retried) ∧
      ((k : ℤ) + 1 < policy.maxAttempts → ¬ (post.answers k).Retried) ∧
      ∃ tail outcome, submitOrderSafe policy post lookup clientOrderId =
          (((List.range (k + 1)).map post.answers).map Event.posted ++ tail, outcome) ∧
        (∀ a, Event.posted a ∉ tail) ∧
        ((post.answers k).Ambiguous →
          (LookupMade policy lookup (post.answers k) → ∃ found, Event.lookedUp found ∈ tail) ∧
          (¬ LookupMade policy lookup (post.answers k) →
            tail = [] ∧ ∃ raised, outcome = .error raised)) := by
  obtain ⟨k, hk, hall, hend, hrequest⟩ :=
    @request_shape policy _ "POST" "/api/v1/order" hsync hpositive
  refine ⟨k, hk, hall, hend, ?_⟩
  unfold submitOrderSafe
  simp only [hrequest]
  refine ⟨_, _, rfl, ?_, ?_⟩
  · intro a
    split
    · exact List.not_mem_nil
    · exact afterExchangeError_not_posted _ a
    · exact List.not_mem_nil
  · intro hambiguous
    obtain ⟨error, hcall, hstatus⟩ := ambiguous_error hambiguous
    simp only [hcall, leave]
    exact afterExchangeError_made hpositive hstatus

/-- The first ambiguous answer of a submission that keeps to the rule is its last, and is
looked up. -/
theorem first_ambiguous_last {k k' : ℕ}
    (hend : (k : ℤ) + 1 < policy.maxAttempts → ¬ (post.answers k).Retried)
    (hclear : ∀ j < k, ¬ (post.answers j).Ambiguous) (hk : k < policy.maxAttempts)
    (hk' : k' < policy.maxAttempts) (hlimited : ∀ j < k', (post.answers j).RateLimited)
    (hambiguous : (post.answers k').Ambiguous) : k = k' ∧ (k : ℤ) + 1 = policy.maxAttempts := by
  -- The request ends at this answer: it goes past the rate limits, and not past it.
  have hsame : k = k' := by
    rcases Nat.lt_trichotomy k k' with hlt | heq | hgt
    · exact absurd ((retried_iff _).mpr (.inl (hlimited k hlt))) (hend (by omega))
    · exact heq
    · exact absurd hambiguous (hclear k' hgt)
  refine ⟨hsame, ?_⟩
  by_contra hne
  exact hend (by omega) ((retried_iff _).mpr (.inr (hsame ▸ hambiguous)))

/-- Where an ambiguous answer after rate limits is the last one allowed, none comes before
the end. -/
theorem none_ambiguous_before {k : ℕ} (hk : k < policy.maxAttempts)
    (hall : ∀ j < k, (post.answers j).Retried)
    (hrule : ∀ k : ℕ, k < policy.maxAttempts → (∀ j < k, (post.answers j).RateLimited) →
      (post.answers k).Ambiguous →
      (k : ℤ) + 1 = policy.maxAttempts ∧ LookupMade policy lookup (post.answers k)) :
    ∀ j < k, ¬ (post.answers j).Ambiguous := by
  intro j
  induction j using Nat.strong_induction_on with
  | _ j ih =>
    intro hj hambiguous
    have hlimited : ∀ i < j, (post.answers i).RateLimited := fun i hi =>
      ((retried_iff _).mp (hall i (by omega))).resolve_right (ih i hi (by omega))
    have hlast := (hrule j (by omega) hlimited hambiguous).1
    omega

/-- A submission that sends nothing keeps to the rule. -/
theorem idle_keeps_rule {outcome : List Event × Except Raised Submitted} (h : outcome.1 = []) :
    NeverBlind outcome.1 ∧ LookedUpFirst outcome := by
  refine ⟨fun before a middle b after hevents => ?_, fun _ ⟨a, ha, _⟩ => ?_⟩
  · rw [h] at hevents
    exact absurd hevents.symm (List.append_ne_nil_of_right_ne_nil before (List.cons_ne_nil _ _))
  · rw [h] at ha
    cases ha

/-- A submission keeps to the rule unless a network or server error comes after rate limits
alone and either may be tried again or is not looked up. -/
theorem never_blind_iff (policy : Policy) (post lookup : Surroundings) (clientOrderId : String) :
    (NeverBlind (submitOrderSafe policy post lookup clientOrderId).1 ∧
        LookedUpFirst (submitOrderSafe policy post lookup clientOrderId)) ↔
      post.clockSyncError ≠ none ∨
        ∀ k : ℕ, k < policy.maxAttempts → (∀ j < k, (post.answers j).RateLimited) →
          (post.answers k).Ambiguous →
          (k : ℤ) + 1 = policy.maxAttempts ∧ LookupMade policy lookup (post.answers k) := by
  by_cases hsync : post.clockSyncError = none
  · by_cases hpositive : 1 ≤ policy.maxAttempts
    · obtain ⟨k, hk, hall, hend, tail, outcome, hsubmit, htail, hlookup⟩ :=
        @submit_shape policy post lookup clientOrderId hsync hpositive
      rw [hsubmit, neverBlind_iff _ htail, List.range_succ, List.map_append, List.map_singleton,
        List.dropLast_concat]
      simp only [List.forall_mem_map, List.mem_range, hsync, ne_eq, not_true_eq_false, false_or]
      constructor
      · rintro ⟨hclear, hfirst⟩ k' hk' hlimited hambiguous
        obtain ⟨rfl, hlast⟩ := first_ambiguous_last hend hclear hk hk' hlimited hambiguous
        refine ⟨hlast, ?_⟩
        by_contra hnot
        obtain ⟨hnil, hraised⟩ := (hlookup hambiguous).2 hnot
        obtain ⟨found, hfound⟩ := hfirst hraised ⟨_, by simp, hambiguous⟩
        simp [hnil] at hfound
      · intro hrule
        have hclear := none_ambiguous_before hk hall hrule
        refine ⟨hclear, fun _ => ?_⟩
        rintro ⟨a, ha, hambiguous⟩
        have hlast : a = post.answers k := by
          simp only [List.map_append, List.mem_append, List.mem_map, List.mem_range,
            List.map_cons, List.map_nil, List.mem_singleton] at ha
          rcases ha with (⟨b, ⟨j, hj, rfl⟩, hb⟩ | hb) | hb
          · cases hb
            exact absurd hambiguous (hclear j hj)
          · cases hb
            rfl
          · exact absurd hb (htail a)
        subst hlast
        have hlimited : ∀ j < k, (post.answers j).RateLimited := fun j hj =>
          ((retried_iff _).mp (hall j hj)).resolve_right (hclear j hj)
        obtain ⟨found, hfound⟩ := (hlookup hambiguous).1 (hrule k hk hlimited hambiguous).2
        exact ⟨found, List.mem_append_right _ hfound⟩
    · refine iff_of_true (idle_keeps_rule ?_) (.inr fun k hk => absurd hk (by omega))
      have hnone : policy.maxAttempts < 1 := by omega
      simp [submitOrderSafe, request, hsync, hnone]
  · obtain ⟨message, hmessage⟩ := Option.ne_none_iff_exists'.mp hsync
    refine iff_of_true (idle_keeps_rule ?_) (.inl hsync)
    simp [submitOrderSafe, request, hmessage]

end Submit

/-- Four attempts with safe retries, as by default. -/
def defaultPolicy : Policy := ⟨4, true⟩

/-- The connection breaks after the order arrived. -/
def brokenConnection : Surroundings where
  clockSyncError := none
  answers := fun attempt =>
    if attempt = 0 then .networkError "read timeout"
    else .response 200 "" (some (.object [("success", .bool true)]))

/-- The order is sent twice with no lookup at all. -/
theorem broken_connection_blind :
    ¬ NeverBlind (submitOrderSafe defaultPolicy brokenConnection brokenConnection "cid-1").1 := by
  have hevents : (submitOrderSafe defaultPolicy brokenConnection brokenConnection "cid-1").1 =
      [.posted (.networkError "read timeout"),
        .posted (.response 200 "" (some (.object [("success", .bool true)])))] := rfl
  intro hnever
  have hmem := hnever [] (.networkError "read timeout") [] _ [] hevents trivial
  cases hmem

end RestClient
