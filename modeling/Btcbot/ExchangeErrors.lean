import Btcbot.PyData
import Btcbot.Idempotency

/-!
# Exceptions and their classification

The exceptions a call can raise, kept apart as far as the services tell them
apart, and the category the execution paths act on. A crash is the process
stopping: no handler sees it.
-/
namespace ExchangeErrors

open PyData

inductive ErrorCode where
  | number (n : ℤ)
  | text (s : String)
  deriving DecidableEq, Repr

structure ExchangeError where
  message : String
  statusCode : Option ℤ := none
  errorCode : Option ErrorCode := none
  errorMessage : Option String := none
  responseBody : Option String := none
  deriving DecidableEq, Repr

inductive Exc where
  /-- `httpx.TimeoutException` and its kinds. -/
  | timeoutException (message : String)
  /-- `httpx.NetworkError` and its kinds, `httpx.ConnectError` among them. -/
  | networkError (message : String)
  | httpStatusError (statusCode : ℤ) (message : String)
  | exchangeError (error : ExchangeError)
  | breakerOpenError (message : String)
  /-- Any other `httpx.TransportError`. -/
  | transportError (message : String)
  /-- The built-in `TimeoutError`. -/
  | timeoutError (message : String)
  | valueError (message : String)
  | runtimeError (message : String)
  | integrityError
  | idempotencyConflict (conflict : Idempotency.IdempotencyConflict)
  | submitBlockedDueToUnknown (message : String)
  | liveTradingNotArmed (message : String) (reasons : List String)
  | crash
  deriving DecidableEq, Repr

inductive ExecutionErrorCategory where
  | rateLimit
  | transient
  | auth
  | reject
  | uncertain
  | fatal
  deriving DecidableEq, Repr

section StatusText

def dropPrefix? (front text : List Char) : Option (List Char) :=
  if front.isPrefixOf text then some (text.drop front.length) else none

def threeDigits : List Char → Option ℤ
  | a :: b :: c :: _ =>
    if a.isDigit ∧ b.isDigit ∧ c.isDigit then
      some (100 * (a.toNat - 48) + 10 * (b.toNat - 48) + (c.toNat - 48) : ℕ)
    else none
  | _ => none

/-- The pattern `(?:status|code)\s*[=:]\s*(\d{3})` at the start of a text. -/
def statusAt (text : List Char) : Option ℤ :=
  ((dropPrefix? "status".toList text).or (dropPrefix? "code".toList text)).bind fun rest =>
    match rest.dropWhile Char.isWhitespace with
    | mark :: digits =>
      if mark = '=' ∨ mark = ':' then threeDigits (digits.dropWhile Char.isWhitespace) else none
    | [] => none

/-- The first place the pattern matches. -/
def searchStatus : List Char → Option ℤ
  | [] => none
  | c :: rest => (statusAt (c :: rest)).or (searchStatus rest)

end StatusText

def ExchangeError.status (error : ExchangeError) : Option ℤ :=
  match error.statusCode with
  | some code => some code
  | none =>
    (searchStatus error.message.toList).or (searchStatus (error.responseBody.getD "").toList)

def breakerText (candidate : String) : Bool := (strip candidate).toLower == "breaker_open"

def isBreakerOpenError : Exc → Bool
  | .breakerOpenError _ => true
  | .exchangeError error =>
    (match error.errorCode with
      | some (.text code) => breakerText code
      | _ => false) ||
    (match error.errorMessage with
      | some message => breakerText message
      | none => false)
  | _ => false

def statusOf : Exc → Option ℤ
  | .httpStatusError statusCode _ => some statusCode
  | .exchangeError error => error.status
  | _ => none

def classifyExchangeError (exc : Exc) : ExecutionErrorCategory :=
  match exc with
  | .timeoutException _ => .uncertain
  | .networkError _ => .transient
  | _ =>
    let status := statusOf exc
    if isBreakerOpenError exc then .rateLimit
    else if status = some 429 then .rateLimit
    else if status = some 401 ∨ status = some 403 then .auth
    else if status.any (500 ≤ ·) then .transient
    else if status = some 400 ∨ status = some 404 ∨ status = some 409 ∨ status = some 422 then
      .reject
    else match exc with
      | .transportError _ => .transient
      | .timeoutError _ => .uncertain
      | _ => .fatal

example : classifyExchangeError (.exchangeError { message := "failed status = 503" }) =
    .transient := by decide +kernel

/-- The errors after which the request may still have been carried out. -/
def isUncertainError (exc : Exc) : Bool :=
  match classifyExchangeError exc with
  | .uncertain | .transient | .rateLimit => true
  | _ => false

/-- `except Exception`: a crash goes through. -/
def tryExcept {σ α : Type} (m : EStateM Exc σ α) (handler : Exc → EStateM Exc σ α) :
    EStateM Exc σ α :=
  tryCatch m fun exc => if exc = .crash then throw .crash else handler exc

end ExchangeErrors
