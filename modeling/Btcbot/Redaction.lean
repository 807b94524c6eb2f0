import Btcbot.KeyedTable
import Btcbot.PyData
import Btcbot.TextPattern
import Mathlib.Data.List.Infix

/-!
# Redaction of payloads

A mapping is gone through key by key: what is stored under a sensitive key becomes one
fixed text, whatever it is, and the rest is redacted in turn. A call too deep for the
interpreter raises, and the nearest call around it that is still running answers with
a mask or an empty mapping. Texts are rewritten by patterns.
-/
namespace Redaction

open TextPattern

def REDACTED : String := "***REDACTED***"

def TEXT_REDACTED : String := "[REDACTED]"

section Keys

def SENSITIVE_KEYS : List String :=
  ["API_KEY", "API_SECRET", "SECRET", "SIGNATURE", "AUTHORIZATION", "TOKEN", "PASSWORD",
    "PASSPHRASE", "BTCTURK_API_KEY", "BTCTURK_API_SECRET", "X_API_KEY", "X_PCK", "X_SIGNATURE",
    "X_STAMP"]

def SENSITIVE_EXACT_KEYS : List String :=
  ["api_key", "apikey", "secret", "api_secret", "passphrase", "password", "token",
    "access_token", "refresh_token", "signature", "authorization", "auth"]

def withoutUnderscores (key : String) : String := .ofList (key.toList.filter (· ≠ '_'))

def SENSITIVE_COMPACT_KEYS : List String := SENSITIVE_EXACT_KEYS.map withoutUnderscores

def SENSITIVE_PARTS : List String := SENSITIVE_KEYS.map String.toLower

/-- The case is taken off the ASCII letters alone, where the source folds the case of any. -/
def isSensitiveKey (key : String) : Bool :=
  let normalized := (key.map fun c => if c = '-' then '_' else c).toLower
  let compact := withoutUnderscores normalized
  SENSITIVE_COMPACT_KEYS.contains compact ||
    SENSITIVE_PARTS.any fun part => decide (part.toList <:+: normalized.toList)

example : isSensitiveKey "X-Pck" = true := by decide +kernel

end Keys

section Texts

def notSpaceOr (stops : List Char) (c : Char) : Bool := !isSpace c && !stops.contains c

/-- A name, a colon or an equals sign, and a value up to a comma or a semicolon. -/
def header (name : String) (scheme : List Piece) : List Piece :=
  ⟨.sequence [.word name, .many isSpace, .one (fun c => c = ':' || c = '='), .many isSpace],
    false⟩ :: scheme ++ [⟨.some (notSpaceOr [',', ';']), true⟩]

def PLAIN_SECRET_PATTERNS : List (List Piece) :=
  [header "authorization" [⟨.optional (.seq (.word "bearer") (.some isSpace)), false⟩],
    header "x-api-key" [], header "x-pck" [], header "x-signature" [], header "x-stamp" [],
    header "btcturk_api_key" [], header "btcturk_api_secret" []]

def QUERY_PARAM_PATTERN : List Piece :=
  [⟨.alt (.one fun c => c = '?' || c = '&') .boundary, false⟩,
    ⟨.anyOf (["apiKey", "signature", "token"].map .word), false⟩, ⟨.literal "=", false⟩,
    ⟨.some (notSpaceOr ['&']), true⟩]

def JSON_KEY_VALUE_PATTERN : List Piece :=
  [⟨.sequence [.literal "\"", .anyOf (["api_key", "apiKey", "secret", "api_secret", "passphrase",
      "password", "token", "access_token", "refresh_token", "signature", "authorization",
      "auth"].map .word), .literal "\"", .many isSpace, .literal ":", .many isSpace,
      .literal "\""], false⟩,
    ⟨.many fun c => c ≠ '"' && c ≠ '\\', true⟩, ⟨.literal "\"", false⟩]

def sanitizeText (text : String) (knownSecrets : List String) : String :=
  let redacted := (knownSecrets.filter (· ≠ "")).foldl
    (fun redacted secret => substitute TEXT_REDACTED [⟨.literal secret, true⟩] redacted) text
  let redacted := PLAIN_SECRET_PATTERNS.foldl
    (fun redacted pattern => substitute TEXT_REDACTED pattern redacted) redacted
  substitute TEXT_REDACTED JSON_KEY_VALUE_PATTERN
    (substitute TEXT_REDACTED QUERY_PARAM_PATTERN redacted)

example : sanitizeText "token=ab&x" [] = "token=[REDACTED]&x" := by decide +kernel

end Texts

/-- A key is known by the text `str` makes of it, a scalar is passed through. -/
inductive Payload (κ σ : Type) where
  | mapping (items : List (κ × Payload κ σ))
  | list (items : List (Payload κ σ))
  | tuple (items : List (Payload κ σ))
  | text (value : String)
  | scalar (value : σ)

section Redact

variable {κ σ : Type} (str : κ → Option String)

def safeToStr (value : κ) : String := (str value).getD TEXT_REDACTED

/-- The entry a mapping's item becomes, with the redaction of its value. -/
def sanitizeItem (redact : Payload κ σ → Option (Payload String σ)) (item : κ × Payload κ σ) :
    Option (String × Payload String σ) :=
  let keyStr := safeToStr str item.1
  if isSensitiveKey keyStr then some (keyStr, .text REDACTED)
  else (redact item.2).map fun value => (keyStr, value)

mutual

/-- With so many calls left before the interpreter raises; none is its exception. -/
def redactData : ℕ → Payload κ σ → Option (Payload String σ)
  | 0, _ => none
  | frames + 1, payload =>
    some <| match payload with
    | .mapping items => (sanitizeMapping frames items).getD (.text REDACTED)
    | .list items => ((items.mapM (redactData frames)).map .list).getD (.text REDACTED)
    | .tuple items => ((items.mapM (redactData frames)).map .tuple).getD (.text REDACTED)
    | .text value => .text (sanitizeText value [])
    | .scalar value => .scalar value

def sanitizeMapping : ℕ → List (κ × Payload κ σ) → Option (Payload String σ)
  | 0, _ => none
  | frames + 1, items =>
    let sanitized := items.mapM (sanitizeItem str (redactData frames))
    some ((sanitized.map fun entries => .mapping (KeyedTable.ofEntries entries)).getD
      (.mapping []))

end

mutual

/-- The payloads differ only in what is stored under sensitive keys. -/
inductive Agree : Payload κ σ → Payload κ σ → Prop where
  | mapping {items items' : List (κ × Payload κ σ)} (h : AgreeItems items items') :
      Agree (.mapping items) (.mapping items')
  | list {items items' : List (Payload κ σ)} (h : AgreeAll items items') :
      Agree (.list items) (.list items')
  | tuple {items items' : List (Payload κ σ)} (h : AgreeAll items items') :
      Agree (.tuple items) (.tuple items')
  | text (value : String) : Agree (.text value) (.text value)
  | scalar (value : σ) : Agree (.scalar value) (.scalar value)

inductive AgreeItems : List (κ × Payload κ σ) → List (κ × Payload κ σ) → Prop where
  | nil : AgreeItems [] []
  | masked {key : κ} (hkey : isSensitiveKey (safeToStr str key) = true)
      (value value' : Payload κ σ) {items items' : List (κ × Payload κ σ)}
      (h : AgreeItems items items') : AgreeItems ((key, value) :: items) ((key, value') :: items')
  | kept (key : κ) {value value' : Payload κ σ} (hvalue : Agree value value')
      {items items' : List (κ × Payload κ σ)} (h : AgreeItems items items') :
      AgreeItems ((key, value) :: items) ((key, value') :: items')

inductive AgreeAll : List (Payload κ σ) → List (Payload κ σ) → Prop where
  | nil : AgreeAll [] []
  | cons {item item' : Payload κ σ} (hitem : Agree item item') {items items' : List (Payload κ σ)}
      (h : AgreeAll items items') : AgreeAll (item :: items) (item' :: items')

end

variable {str}

/-- A function that agreeing payloads agree on, over lists of them. -/
theorem AgreeAll.mapM_eq {f : Payload κ σ → Option (Payload String σ)}
    (hf : ∀ payload payload', Agree str payload payload' → f payload = f payload') :
    ∀ {items items' : List (Payload κ σ)}, AgreeAll str items items' →
      items.mapM f = items'.mapM f
  | [], _, .nil => rfl
  | _ :: _, _, .cons hitem h => by
    rw [List.mapM_cons, List.mapM_cons, hf _ _ hitem, h.mapM_eq hf]

/-- A sensitive key has one entry whatever it holds. -/
theorem sanitizeItem_masked {f : Payload κ σ → Option (Payload String σ)} {key : κ}
    (hkey : isSensitiveKey (safeToStr str key) = true) (value : Payload κ σ) :
    sanitizeItem str f (key, value) = some (safeToStr str key, .text REDACTED) := by
  rw [sanitizeItem, if_pos hkey]

theorem AgreeItems.mapM_eq {f : Payload κ σ → Option (Payload String σ)}
    (hf : ∀ payload payload', Agree str payload payload' → f payload = f payload') :
    ∀ {items items' : List (κ × Payload κ σ)}, AgreeItems str items items' →
      items.mapM (sanitizeItem str f) = items'.mapM (sanitizeItem str f)
  | [], _, .nil => rfl
  | _ :: _, _, .masked hkey value value' h => by
    rw [List.mapM_cons, List.mapM_cons, sanitizeItem_masked hkey, sanitizeItem_masked hkey,
      h.mapM_eq hf]
  | _ :: _, _, .kept key hvalue h => by
    rw [List.mapM_cons, List.mapM_cons, sanitizeItem, sanitizeItem, hf _ _ hvalue, h.mapM_eq hf]

theorem redact_agree (frames : ℕ) :
    (∀ payload payload' : Payload κ σ, Agree str payload payload' →
      redactData str frames payload = redactData str frames payload') ∧
    ∀ items items' : List (κ × Payload κ σ), AgreeItems str items items' →
      sanitizeMapping str frames items = sanitizeMapping str frames items' := by
  induction frames with
  | zero => exact ⟨fun _ _ _ => rfl, fun _ _ _ => rfl⟩
  | succ frames ih =>
    obtain ⟨hdata, hmapping⟩ := ih
    constructor
    · intro payload payload' h
      cases h with
      | mapping h => rw [redactData, redactData, hmapping _ _ h]
      | list h => rw [redactData, redactData, h.mapM_eq hdata]
      | tuple h => rw [redactData, redactData, h.mapM_eq hdata]
      | text value => rfl
      | scalar value => rfl
    · intro items items' h
      rw [sanitizeMapping, sanitizeMapping, h.mapM_eq hdata]

/-- What is stored under sensitive keys does not show in the output. -/
theorem redactData_hides (str : κ → Option String) (frames : ℕ) (payload payload' : Payload κ σ)
    (h : Agree str payload payload') :
    redactData str frames payload = redactData str frames payload' :=
  (redact_agree frames).1 payload payload' h

/-- An order payload that was signed with one of two tokens. -/
def signedOrder (token : String) : Payload String ℕ :=
  .mapping [("orders", .list [.mapping [("token", .text token), ("qty", .scalar 3)]])]

theorem signedOrder_hides :
    redactData some 1000 (signedOrder "first") = redactData some 1000 (signedOrder "second") :=
  redactData_hides some 1000 _ _ <|
    .mapping (.kept _ (.list (.cons (.mapping (.masked (by decide +kernel) _ _
      (.kept _ (.scalar 3) .nil))) .nil)) .nil)

end Redact

end Redaction
