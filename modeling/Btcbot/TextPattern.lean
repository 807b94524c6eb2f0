import Mathlib.Data.List.Basic
import Mathlib.Data.String.Basic

/-!
# Patterns of text and substitution

A pattern gives the ways it matches at a place of a text, the preferred one first:
a repetition takes as much as it can, an alternative its left side. A substitution
goes through the text once and rewrites the first way of every leftmost match.
-/
namespace TextPattern

inductive Pattern where
  | nothing
  | one (allowed : Char → Bool)
  /-- Between a character of a word and what is none. -/
  | boundary
  | many (allowed : Char → Bool)
  | seq (first second : Pattern)
  | alt (left right : Pattern)

def wordChar (c : Char) : Bool := c.isAlphanum || c = '_'

/-- The white space of the patterns, beyond the one of `Char.isWhitespace`. -/
def isSpace (c : Char) : Bool :=
  c.isWhitespace || c.toNat ∈ [0x0b, 0x0c, 0x1c, 0x1d, 0x1e, 0x1f, 0x85, 0xa0, 0x1680, 0x2028,
    0x2029, 0x202f, 0x205f, 0x3000] || (0x2000 ≤ c.toNat && c.toNat ≤ 0x200a)

/-- A place in a text: the character before it, and what comes after. -/
structure Place where
  before : Option Char
  after : List Char
  deriving DecidableEq, Repr

def Place.next (place : Place) : Option (Char × Place) :=
  match place.after with
  | [] => none
  | c :: after => some (c, ⟨some c, after⟩)

/-- Every way to take characters of a class, the longest first. -/
def manyWays (allowed : Char → Bool) (before : Option Char) :
    List Char → List (List Char × Place)
  | [] => [([], ⟨before, []⟩)]
  | c :: after =>
    (if allowed c then
      (manyWays allowed (some c) after).map fun way => (c :: way.1, way.2) else []) ++
      [([], ⟨before, c :: after⟩)]

namespace Pattern

/-- The text taken and the place after it, for each way to match. -/
def ways : Pattern → Place → List (List Char × Place)
  | nothing, place => [([], place)]
  | one allowed, place =>
    match place.next with
    | some (c, next) => if allowed c then [([c], next)] else []
    | none => []
  | boundary, place =>
    let inWord := (place.before.map wordChar).getD false
    let startsWord := (place.after.head?.map wordChar).getD false
    if inWord != startsWord then [([], place)] else []
  | many allowed, place => manyWays allowed place.before place.after
  | seq first second, place =>
    (first.ways place).flatMap fun way =>
      (second.ways way.2).map fun rest => (way.1 ++ rest.1, rest.2)
  | alt left right, place => left.ways place ++ right.ways place

def sequence (patterns : List Pattern) : Pattern := patterns.foldr seq nothing

def anyOf : List Pattern → Pattern
  | [] => one fun _ => false
  | [pattern] => pattern
  | pattern :: patterns => alt pattern (anyOf patterns)

def optional (pattern : Pattern) : Pattern := alt pattern nothing

def some (allowed : Char → Bool) : Pattern := seq (one allowed) (many allowed)

def literal (text : String) : Pattern := sequence (text.toList.map fun c => one (· = c))

/-- The letters of a text in either case. -/
def word (text : String) : Pattern :=
  sequence (text.toList.map fun c => one (·.toLower = c.toLower))

end Pattern

/-- A part of a match, which a substitution keeps or replaces. -/
structure Piece where
  pattern : Pattern
  replaced : Bool := false

/-- The texts a match is rewritten to, with the place after it. -/
def rewrites (replacement : String) : List Piece → Place → List (List Char × Place)
  | [], place => [([], place)]
  | piece :: pieces, place =>
    (piece.pattern.ways place).flatMap fun way =>
      (rewrites replacement pieces way.2).map fun rest =>
        ((if piece.replaced then replacement.toList else way.1) ++ rest.1, rest.2)

/-- The first number bounds the characters still to be read. -/
def substituteFrom (replacement : String) (pieces : List Piece) : ℕ → Place → List Char
  | 0, place => place.after
  | fuel + 1, place =>
    match (rewrites replacement pieces place).head?.filter
        fun way => way.2.after.length < place.after.length with
    | .some (text, rest) => text ++ substituteFrom replacement pieces fuel rest
    | none =>
      match place.next with
      | .some (c, next) => c :: substituteFrom replacement pieces fuel next
      | none => []

/-- The text with the replacement in each leftmost match that takes something. -/
def substitute (replacement : String) (pieces : List Piece) (text : String) : String :=
  .ofList (substituteFrom replacement pieces text.toList.length ⟨none, text.toList⟩)

example : substitute "-" [⟨.word "key", false⟩, ⟨.some Char.isDigit, true⟩] "a KEY12 keys" =
    "a KEY- keys" := by decide +kernel

end TextPattern
