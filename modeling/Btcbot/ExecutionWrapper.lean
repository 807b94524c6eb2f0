import Btcbot.Effects
import Btcbot.ExchangeErrors

/-!
# The retrying wrapper around exchange writes

A write is tried again after a rate limit or a transient error, up to the
attempts allowed. An uncertain error ends it with an uncertain result; so does
the last retryable error of a cancel, while that of a submit is raised.
-/
namespace ExecutionWrapper

open ExchangeErrors Effects

inductive WrapperAction where
  | submit
  | cancel
  deriving DecidableEq, Repr

inductive WrapperResult (α : Type) where
  | value (a : α)
  | uncertainResult (error : Exc)

variable {σ α : Type}

/-- The attempts from number `attempt` on, `left` of them. -/
def attempts (action : WrapperAction) (sleep : EStateM Exc σ Unit)
    (call : ℕ → EStateM Exc σ α) : ℕ → ℕ → EStateM Exc σ (WrapperResult α)
  | 0, _ => throw (.runtimeError "retry loop exhausted unexpectedly")
  | left + 1, attempt =>
    tryExcept (do
      let a ← call attempt
      pure (.value a)) fun exc =>
      match classifyExchangeError exc with
      | .rateLimit | .transient =>
        if left = 0 then
          match action with
          | .cancel => pure (.uncertainResult exc)
          | .submit => throw exc
        else do
          sleep
          attempts action sleep call left (attempt + 1)
      | .uncertain => pure (.uncertainResult exc)
      | _ => throw exc

def execute (action : WrapperAction) (maxAttempts : ℕ) (sleep : EStateM Exc σ Unit)
    (call : ℕ → EStateM Exc σ α) : EStateM Exc σ (WrapperResult α) :=
  attempts action sleep call (max 1 maxAttempts) 1

section Rules

variable {P : σ → Prop} {Q : α → σ → Prop} {E : Exc → σ → Prop}

/-- The handler runs where the body left off, after anything but a crash. -/
theorem tryExcept_triple {m : EStateM Exc σ α} {handler : Exc → EStateM Exc σ α}
    {R : Exc → σ → Prop} (hm : Triple P m Q R) (hcrash : ∀ s, R .crash s → E .crash s)
    (hh : ∀ exc, exc ≠ .crash → Triple (R exc) (handler exc) Q E) :
    Triple P (tryExcept m handler) Q E := by
  refine hm.tryCatch fun exc => Triple.ite (fun hc => ?_) (fun hc => hh exc hc)
  subst hc
  exact Triple.throw hcrash

theorem tryExcept_keeps {R : σ → σ → Prop} [IsPreorder σ R] {m : EStateM Exc σ α}
    {handler : Exc → EStateM Exc σ α} (hm : Keeps R m) (hh : ∀ exc, Keeps R (handler exc)) :
    Keeps R (tryExcept m handler) :=
  hm.tryCatch fun exc => (Keeps.throw .crash).ite (hh exc)

variable {sleep : EStateM Exc σ Unit} {call : ℕ → EStateM Exc σ α}

theorem attempts_maintains {I : σ → Prop} (action : WrapperAction) (hsleep : Maintains I sleep)
    (hcall : ∀ n, Maintains I (call n)) (left n : ℕ) :
    Maintains I (attempts action sleep call left n) := by
  induction left generalizing n with
  | zero => exact Triple.throw fun _ hs => hs
  | succ left ih =>
    refine tryExcept_triple ((hcall n).bind fun a => Triple.pure fun _ hs => hs)
      (fun _ hs => hs) fun exc _ => ?_
    cases classifyExchangeError exc with
    | rateLimit | transient =>
      refine Triple.ite (fun _ => ?_) fun _ => hsleep.bind fun _ => ih (n + 1)
      cases action with
      | submit => exact Triple.throw fun _ hs => hs
      | cancel => exact Triple.pure fun _ hs => hs
    | uncertain => exact Triple.pure fun _ hs => hs
    | auth | reject | fatal => exact Triple.throw fun _ hs => hs

/-- A relation that every attempt keeps is kept by the attempts. -/
theorem attempts_keeps {R : σ → σ → Prop} [IsPreorder σ R] (action : WrapperAction)
    (hsleep : Keeps R sleep) (hcall : ∀ n, Keeps R (call n)) (left n : ℕ) :
    Keeps R (attempts action sleep call left n) := by
  induction left generalizing n with
  | zero => exact Keeps.throw _
  | succ left ih =>
    refine tryExcept_keeps ((hcall n).bind fun _ => Keeps.pure _) fun exc => ?_
    cases classifyExchangeError exc with
    | rateLimit | transient =>
      refine Keeps.ite ?_ (hsleep.bind fun _ => ih (n + 1))
      cases action with
      | submit => exact Keeps.throw _
      | cancel => exact Keeps.pure _
    | uncertain => exact Keeps.pure _
    | auth | reject | fatal => exact Keeps.throw _

/-- The errors a write is tried again after. -/
def Retryable (exc : Exc) : Prop :=
  classifyExchangeError exc = .rateLimit ∨ classifyExchangeError exc = .transient

/-- A submit, attempt by attempt: a failure that is tried again leads back to `P`. -/
theorem attempts_submit (last : ℕ) {F : ℕ → Exc → σ → Prop} (hsleep : Triple P sleep (fun _ => P) E)
    (hcall : ∀ n, Triple P (call n) Q (F n)) (hend : ∀ n exc s, F n exc s → E exc s)
    (hretry : ∀ n exc s, Retryable exc → n < last → F n exc s → P s) (left n : ℕ)
    (hn : n + left = last) :
    Triple P (attempts .submit sleep call (left + 1) n)
      (fun result s => match result with
        | .value a => Q a s
        | .uncertainResult exc => classifyExchangeError exc = .uncertain ∧ E exc s) E := by
  induction left generalizing n with
  | zero =>
    refine tryExcept_triple ((hcall n).bind fun a => Triple.pure fun _ hs => hs) (hend n .crash)
      fun exc _ => ?_
    cases hc : classifyExchangeError exc with
    | rateLimit | transient => exact Triple.throw (hend n exc)
    | uncertain => exact Triple.pure fun s hs => ⟨hc, hend n exc s hs⟩
    | auth | reject | fatal => exact Triple.throw (hend n exc)
  | succ left ih =>
    refine tryExcept_triple ((hcall n).bind fun a => Triple.pure fun _ hs => hs) (hend n .crash)
      fun exc _ => ?_
    have again (hr : Retryable exc) : Triple (F n exc) (do
        sleep
        attempts .submit sleep call (left + 1) (n + 1)) _ E :=
      (hsleep.conseq (fun s hs => hretry n exc s hr (by omega) hs) (fun _ _ h => h)
        (fun _ _ h => h)).bind fun _ => ih (n + 1) (by omega)
    cases hc : classifyExchangeError exc with
    | rateLimit => exact again (.inl hc)
    | transient => exact again (.inr hc)
    | uncertain => exact Triple.pure fun s hs => ⟨hc, hend n exc s hs⟩
    | auth | reject | fatal => exact Triple.throw (hend n exc)

end Rules

end ExecutionWrapper
