import Mathlib.Data.Char
import Mathlib.Data.List.Sort
import Mathlib.Tactic.Common

/-!
# Text of JSON values

Values are printed without blanks, with everything outside the printable characters of
ASCII escaped, and read with blanks wherever the grammar has them. What is printed reads
as what it was printed from.
-/
namespace JsonText

section Numbers

def isNumberChar (c : Char) : Bool := c.isDigit || c ∈ ['-', '+', '.', 'e', 'E']

/-- What is left of a text after its digits, if it starts with some. -/
def dropDigits (text : List Char) : Option (List Char) :=
  if (text.takeWhile Char.isDigit).isEmpty then none else some (text.dropWhile Char.isDigit)

def dropWhole : List Char → Option (List Char)
  | '0' :: text => some text
  | text => dropDigits text

def dropFraction : List Char → Option (List Char)
  | '.' :: text => dropDigits text
  | text => some text

def dropMinus : List Char → List Char
  | '-' :: text => text
  | text => text

def dropSign : List Char → List Char
  | '+' :: text => text
  | text => dropMinus text

def dropExponent : List Char → Option (List Char)
  | c :: text => if c = 'e' ∨ c = 'E' then dropDigits (dropSign text) else some (c :: text)
  | [] => some []

/-- What is left of a text after a number: a minus sign at most, digits without a leading zero,
a fraction and an exponent. -/
def dropNumber (text : List Char) : Option (List Char) := do
  let text ← dropWhole (dropMinus text)
  let text ← dropFraction text
  dropExponent text

def isNumber (text : List Char) : Bool :=
  text.all isNumberChar && dropNumber text == some []

/-- A number as it is written. -/
structure Number where
  text : List Char
  valid : isNumber text = true
  deriving DecidableEq

theorem Number.isNumberChar (n : Number) {c : Char} (h : c ∈ n.text) :
    JsonText.isNumberChar c = true := by
  have hvalid := n.valid
  rw [isNumber, Bool.and_eq_true, List.all_eq_true] at hvalid
  exact hvalid.1 c h

theorem Number.text_ne_nil (n : Number) : n.text ≠ [] := by
  intro h
  have hvalid := n.valid
  rw [h] at hvalid
  exact absurd hvalid (by decide)

end Numbers

inductive Json where
  | null
  | bool (value : Bool)
  | number (value : Number)
  | string (value : String)
  | array (items : List Json)
  | object (entries : List (String × Json))

section Printing

def hex4 (n : ℕ) : List Char :=
  [(n / 4096).digitChar, (n / 256 % 16).digitChar, (n / 16 % 16).digitChar, (n % 16).digitChar]

/-- What is printed as a backslash and another character. -/
def shortEscapes : List (Char × Char) :=
  [('"', '"'), ('\\', '\\'), ('\n', 'n'), ('\r', 'r'), ('\t', 't'), ('\x0c', 'f'), ('\x08', 'b')]

/-- One code unit of four digits, or two. -/
def units (n : ℕ) : List Char :=
  if n < 65536 then '\\' :: 'u' :: hex4 n
  else '\\' :: 'u' :: hex4 (55296 + (n - 65536) / 1024) ++
    '\\' :: 'u' :: hex4 (56320 + (n - 65536) % 1024)

/-- Nothing but printable ASCII. -/
def escape (c : Char) : List Char :=
  match shortEscapes.find? fun entry => entry.1 = c with
  | some entry => ['\\', entry.2]
  | none => if 32 ≤ c.toNat ∧ c.toNat ≤ 126 then [c] else units c.toNat

def printString (text : String) : List Char := '"' :: (text.toList.flatMap escape ++ ['"'])

mutual

def print : Json → List Char
  | .null => ['n', 'u', 'l', 'l']
  | .bool true => ['t', 'r', 'u', 'e']
  | .bool false => ['f', 'a', 'l', 's', 'e']
  | .number value => value.text
  | .string value => printString value
  | .array items => '[' :: (printItems items ++ [']'])
  | .object entries => '{' :: (printEntries entries ++ ['}'])

def printItems : List Json → List Char
  | [] => []
  | [item] => print item
  | item :: items => print item ++ ',' :: printItems items

def printEntries : List (String × Json) → List Char
  | [] => []
  | [(key, value)] => printString key ++ ':' :: print value
  | (key, value) :: entries => printString key ++ ':' :: print value ++ ',' :: printEntries entries

end

mutual

/-- The keys of every object in order. -/
def sortKeys : Json → Json
  | .array items => .array (sortItems items)
  | .object entries => .object ((sortEntries entries).insertionSort fun a b => a.1 ≤ b.1)
  | value => value

def sortItems : List Json → List Json
  | [] => []
  | item :: items => sortKeys item :: sortItems items

def sortEntries : List (String × Json) → List (String × Json)
  | [] => []
  | (key, value) :: entries => (key, sortKeys value) :: sortEntries entries

end

def dumps (value : Json) : String := .ofList (print (sortKeys value))

end Printing

section Reading

def skipSpace (text : List Char) : List Char := text.dropWhile (· ∈ [' ', '\t', '\n', '\r'])

def hexValue (c : Char) : Option ℕ :=
  if c.isDigit then some (c.toNat - 48)
  else if 'a' ≤ c ∧ c ≤ 'f' then some (c.toNat - 87)
  else if 'A' ≤ c ∧ c ≤ 'F' then some (c.toNat - 55)
  else none

def readHex4 : List Char → Option (ℕ × List Char)
  | a :: b :: c :: d :: rest => do
    let a ← hexValue a
    let b ← hexValue b
    let c ← hexValue c
    let d ← hexValue d
    some (4096 * a + 256 * b + 16 * c + d, rest)
  | _ => none

/-- What follows the first code unit of a pair. -/
def readLow : List Char → Option (ℕ × List Char)
  | '\\' :: 'u' :: rest => do
    let (low, rest) ← readHex4 rest
    if 56320 ≤ low ∧ low ≤ 57343 then some (low, rest) else none
  | _ => none

/-- A character of one code unit or two; half a pair is none. -/
def readUnits (text : List Char) : Option (Char × List Char) := do
  let (unit, rest) ← readHex4 text
  if 55296 ≤ unit ∧ unit ≤ 56319 then do
    let (low, rest) ← readLow rest
    some (.ofNat (65536 + 1024 * (unit - 55296) + (low - 56320)), rest)
  else if 56320 ≤ unit ∧ unit ≤ 57343 then none
  else some (.ofNat unit, rest)

/-- A character after a backslash. -/
def readEscape : List Char → Option (Char × List Char)
  | [] => none
  | c :: rest =>
    if c = 'u' then readUnits rest
    else ((('/', '/') :: shortEscapes).find? fun entry => entry.2 = c).map fun entry =>
      (entry.1, rest)

/-- The characters up to the closing quote. -/
def readChars : ℕ → List Char → Option (List Char × List Char)
  | 0, _ => none
  | _ + 1, [] => none
  | fuel + 1, c :: rest =>
    if c = '"' then some ([], rest)
    else if c = '\\' then do
      let (c, rest) ← readEscape rest
      let (text, rest) ← readChars fuel rest
      some (c :: text, rest)
    else if c.toNat < 32 then none
    else do
      let (text, rest) ← readChars fuel rest
      some (c :: text, rest)

/-- A string without its opening quote. -/
def readString (text : List Char) : Option (String × List Char) :=
  (readChars text.length text).map fun (text, rest) => (.ofList text, rest)

def readWord (word : List Char) (value : Json) (text : List Char) : Option (Json × List Char) :=
  if word.isPrefixOf text then some (value, text.drop word.length) else none

def readNumber (text : List Char) : Option (Json × List Char) :=
  if h : isNumber (text.takeWhile isNumberChar) then
    some (.number ⟨_, h⟩, text.dropWhile isNumberChar)
  else none

mutual

def readValue : ℕ → List Char → Option (Json × List Char)
  | 0, _ => none
  | _ + 1, [] => none
  | fuel + 1, c :: rest =>
    if c = '"' then (readString rest).map fun (text, rest) => (.string text, rest)
    else if c = '[' then
      match skipSpace rest with
      | ']' :: rest => some (.array [], rest)
      | rest => (readItems fuel rest).map fun (items, rest) => (.array items, rest)
    else if c = '{' then
      match skipSpace rest with
      | '}' :: rest => some (.object [], rest)
      | rest => (readEntries fuel rest).map fun (entries, rest) => (.object entries, rest)
    else if c = 'n' then readWord ['u', 'l', 'l'] .null rest
    else if c = 't' then readWord ['r', 'u', 'e'] (.bool true) rest
    else if c = 'f' then readWord ['a', 'l', 's', 'e'] (.bool false) rest
    else readNumber (c :: rest)

/-- One value at least, to the closing bracket. -/
def readItems : ℕ → List Char → Option (List Json × List Char)
  | 0, _ => none
  | fuel + 1, text => do
    let (item, rest) ← readValue fuel text
    match skipSpace rest with
    | ',' :: rest => do
      let (items, rest) ← readItems fuel (skipSpace rest)
      some (item :: items, rest)
    | ']' :: rest => some ([item], rest)
    | _ => none

/-- One entry at least, to the closing brace. -/
def readEntries : ℕ → List Char → Option (List (String × Json) × List Char)
  | 0, _ => none
  | fuel + 1, text => do
    let (key, rest) ← match text with
      | '"' :: rest => readString rest
      | _ => none
    let (value, rest) ← match skipSpace rest with
      | ':' :: rest => readValue fuel (skipSpace rest)
      | _ => none
    match skipSpace rest with
    | ',' :: rest => do
      let (entries, rest) ← readEntries fuel (skipSpace rest)
      some ((key, value) :: entries, rest)
    | '}' :: rest => some ([(key, value)], rest)
    | _ => none

end

/-- A whole text, with blanks around the value. -/
def loads (text : String) : Option Json := do
  let (value, rest) ← readValue text.length (skipSpace text.toList)
  if skipSpace rest = [] then some value else none

end Reading

section Strings

theorem readHex4_hex4 {n : ℕ} (h : n < 65536) (rest : List Char) :
    readHex4 (hex4 n ++ rest) = some (n, rest) := by
  have hdigit : ∀ d < 16, hexValue d.digitChar = some d := by decide
  simp only [hex4, List.cons_append, List.nil_append, readHex4, hdigit (n / 4096) (by omega),
    hdigit (n / 256 % 16) (by omega), hdigit (n / 16 % 16) (by omega), hdigit (n % 16) (by omega),
    Option.bind_eq_bind, Option.bind_some, Option.some.injEq, Prod.mk.injEq, and_true]
  omega

theorem toNat_valid (c : Char) : c.toNat < 55296 ∨ 57343 < c.toNat ∧ c.toNat < 1114112 := by
  have h := c.valid
  simpa [UInt32.isValidChar, Nat.isValidChar] using h

theorem readUnits_single {n : ℕ} (h : n < 55296 ∨ 57343 < n ∧ n < 65536) (rest : List Char) :
    readUnits (hex4 n ++ rest) = some (.ofNat n, rest) := by
  have hhigh : ¬ (55296 ≤ n ∧ n ≤ 56319) := by omega
  have hlow : ¬ (56320 ≤ n ∧ n ≤ 57343) := by omega
  rw [readUnits, readHex4_hex4 (by omega)]
  simp only [Option.bind_eq_bind, Option.bind_some, hhigh, hlow, if_false]

theorem readUnits_pair {high low : ℕ} (hhigh : 55296 ≤ high ∧ high ≤ 56319)
    (hlow : 56320 ≤ low ∧ low ≤ 57343) (rest : List Char) :
    readUnits (hex4 high ++ '\\' :: 'u' :: (hex4 low ++ rest)) =
      some (.ofNat (65536 + 1024 * (high - 55296) + (low - 56320)), rest) := by
  rw [readUnits, readHex4_hex4 (by omega)]
  simp only [Option.bind_eq_bind, Option.bind_some, hhigh, and_self, if_true, readLow]
  rw [readHex4_hex4 (by omega)]
  simp only [Option.bind_some, hlow, and_self, if_true]

theorem units_read (c : Char) (rest : List Char) :
    ∃ text, units c.toNat ++ rest = '\\' :: text ∧ readEscape text = some (c, rest) := by
  have hvalid := toNat_valid c
  unfold units
  split
  · refine ⟨'u' :: (hex4 c.toNat ++ rest), rfl, ?_⟩
    rw [readEscape, if_pos rfl, readUnits_single (by omega), Char.ofNat_toNat]
  · have hhigh : 55296 ≤ 55296 + (c.toNat - 65536) / 1024 ∧
        55296 + (c.toNat - 65536) / 1024 ≤ 56319 := by omega
    have hlow : 56320 ≤ 56320 + (c.toNat - 65536) % 1024 ∧
        56320 + (c.toNat - 65536) % 1024 ≤ 57343 := by omega
    have hvalue : 65536 + 1024 * (55296 + (c.toNat - 65536) / 1024 - 55296) +
        (56320 + (c.toNat - 65536) % 1024 - 56320) = c.toNat := by omega
    have hread := readUnits_pair hhigh hlow rest
    rw [hvalue, Char.ofNat_toNat] at hread
    refine ⟨'u' :: (hex4 (55296 + (c.toNat - 65536) / 1024) ++
      '\\' :: 'u' :: (hex4 (56320 + (c.toNat - 65536) % 1024) ++ rest)), by simp, ?_⟩
    rw [readEscape, if_pos rfl, hread]

/-- A printed character is read in one step. -/
theorem readChars_escape (c : Char) (fuel : ℕ) (rest : List Char) :
    readChars (fuel + 1) (escape c ++ rest) =
      (readChars fuel rest).map fun (text, rest) => (c :: text, rest) := by
  have hbackslash (text : List Char) (h : readEscape text = some (c, rest)) :
      readChars (fuel + 1) ('\\' :: text) =
        (readChars fuel rest).map fun (text, rest) => (c :: text, rest) := by
    rw [readChars, if_neg (by decide), if_pos rfl, h]
    simp only [Option.bind_eq_bind, Option.bind_some]
    cases readChars fuel rest <;> rfl
  have hshort : ∀ entry ∈ shortEscapes, entry.2 ≠ 'u' ∧
      ((('/', '/') :: shortEscapes).find? fun other => other.2 = entry.2) = some entry := by decide
  unfold escape
  split
  · next entry hentry =>
    obtain rfl : entry.1 = c := by simpa using List.find?_some hentry
    obtain ⟨hne, hfind⟩ := hshort entry (List.mem_of_find?_eq_some hentry)
    exact hbackslash (entry.2 :: rest) (by rw [readEscape, if_neg hne, hfind]; rfl)
  · next hnone =>
    have hother (entry : Char × Char) (h : entry ∈ shortEscapes) : c ≠ entry.1 := by
      simpa [eq_comm] using List.find?_eq_none.mp hnone entry h
    split
    · next hplain =>
      rw [List.cons_append, List.nil_append, readChars, if_neg (hother ('"', '"') (by decide)),
        if_neg (hother ('\\', '\\') (by decide)), if_neg (by omega)]
      cases readChars fuel rest <;> rfl
    · obtain ⟨text, htext, hread⟩ := units_read c rest
      rw [htext]
      exact hbackslash text hread

theorem escape_ne_nil (c : Char) : escape c ≠ [] := by
  unfold escape units
  split
  · exact List.cons_ne_nil _ _
  · split
    · exact List.cons_ne_nil _ _
    · split <;> exact List.cons_ne_nil _ _

theorem readChars_escaped (text rest : List Char) (fuel : ℕ) (h : text.length < fuel) :
    readChars fuel (text.flatMap escape ++ '"' :: rest) = some (text, rest) := by
  induction text generalizing fuel with
  | nil =>
    obtain ⟨fuel, rfl⟩ := Nat.exists_eq_add_of_lt h
    simp [readChars]
  | cons c text ih =>
    obtain ⟨fuel, rfl⟩ : ∃ n, fuel = n + 1 := ⟨fuel - 1, by omega⟩
    rw [List.flatMap_cons, List.append_assoc, readChars_escape,
      ih fuel (by simpa using h)]
    rfl

theorem readString_escaped (text : String) (rest : List Char) :
    readString (text.toList.flatMap escape ++ '"' :: rest) = some (text, rest) := by
  have hlength (chars : List Char) : chars.length ≤ (chars.flatMap escape).length := by
    induction chars with
    | nil => exact le_rfl
    | cons c chars ih =>
      have hone := List.length_pos_iff.mpr (escape_ne_nil c)
      rw [List.flatMap_cons, List.length_append, List.length_cons]
      omega
  have hread := readChars_escaped text.toList rest
    (text.toList.flatMap escape ++ '"' :: rest).length (by
      have hle := hlength text.toList
      rw [List.length_append, List.length_cons]
      omega)
  rw [readString, hread]
  simp only [Option.map_some, String.ofList_toList]

end Strings

section Values

theorem skipSpace_cons {c : Char} (h : c ∉ [' ', '\t', '\n', '\r']) (text : List Char) :
    skipSpace (c :: text) = c :: text := by
  rw [skipSpace, List.dropWhile_cons_of_neg (by simpa using h)]

/-- A character that can follow a value. -/
def Ends (text : List Char) : Prop := ∀ c ∈ text.head?, isNumberChar c = false

theorem Number.read (n : Number) {rest : List Char} (hrest : Ends rest) :
    readNumber (n.text ++ rest) = some (.number n, rest) := by
  have hall : ∀ c ∈ n.text, JsonText.isNumberChar c = true := fun c hc => n.isNumberChar hc
  have hafter : rest.takeWhile JsonText.isNumberChar = [] ∧
      rest.dropWhile JsonText.isNumberChar = rest := by
    cases rest with
    | nil => exact ⟨rfl, rfl⟩
    | cons c rest =>
      have hc := hrest c rfl
      exact ⟨List.takeWhile_cons_of_neg (by simp [hc]), List.dropWhile_cons_of_neg (by simp [hc])⟩
  have htake : (n.text ++ rest).takeWhile JsonText.isNumberChar = n.text := by
    rw [List.takeWhile_append_of_pos hall, hafter.1, List.append_nil]
  have hdrop : (n.text ++ rest).dropWhile JsonText.isNumberChar = rest := by
    rw [List.dropWhile_append_of_pos hall, hafter.2]
  unfold readNumber
  simp only [htake, hdrop, n.valid, dif_pos]

/-- A character a value can start with. -/
def Starts (c : Char) : Prop := c ∈ ['"', '[', '{', 'n', 't', 'f'] ∨ isNumberChar c = true

theorem print_starts (value : Json) : ∃ c text, print value = c :: text ∧ Starts c := by
  cases value with
  | null => exact ⟨_, _, rfl, .inl (by decide)⟩
  | bool value => cases value <;> exact ⟨_, _, rfl, .inl (by decide)⟩
  | number value =>
    obtain ⟨c, text, htext⟩ := List.exists_cons_of_ne_nil value.text_ne_nil
    exact ⟨c, text, htext, .inr (value.isNumberChar (htext ▸ List.mem_cons_self))⟩
  | string value => exact ⟨_, _, rfl, .inl (by decide)⟩
  | array items => exact ⟨_, _, rfl, .inl (by decide)⟩
  | object entries => exact ⟨_, _, rfl, .inl (by decide)⟩

theorem Starts.ne {c d : Char} (h : Starts c) (hd : ¬ Starts d) : c ≠ d := fun heq => hd (heq ▸ h)

instance (c : Char) : Decidable (Starts c) := inferInstanceAs (Decidable (_ ∨ _))

theorem Starts.skipSpace {c : Char} (h : Starts c) (text : List Char) :
    skipSpace (c :: text) = c :: text := by
  refine skipSpace_cons (fun hmem => ?_) text
  simp only [List.mem_cons, List.not_mem_nil, or_false] at hmem
  rcases hmem with rfl | rfl | rfl | rfl <;> exact absurd h (by decide)

theorem print_length_pos (value : Json) : 0 < (print value).length := by
  obtain ⟨c, text, htext, -⟩ := print_starts value
  simp [htext]

theorem readNumber_value (n : Number) (fuel : ℕ) {rest : List Char} (hrest : Ends rest) :
    readValue (fuel + 1) (n.text ++ rest) = some (.number n, rest) := by
  have hread := n.read hrest
  obtain ⟨c, text, htext⟩ := List.exists_cons_of_ne_nil n.text_ne_nil
  have hnumber := n.isNumberChar (htext ▸ List.mem_cons_self : c ∈ n.text)
  have hother {d : Char} (hd : isNumberChar d = false) : c ≠ d := by
    rintro rfl
    rw [hd] at hnumber
    cases hnumber
  rw [htext, List.cons_append] at hread ⊢
  rw [readValue, if_neg (hother rfl), if_neg (hother rfl), if_neg (hother rfl),
    if_neg (hother rfl), if_neg (hother rfl), if_neg (hother rfl), hread]

theorem readValue_array {c : Char} (h : Starts c) (fuel : ℕ) (text : List Char) :
    readValue (fuel + 1) ('[' :: c :: text) =
      (readItems fuel (c :: text)).map fun (items, rest) => (.array items, rest) := by
  rw [readValue, if_neg (by decide), if_pos rfl, h.skipSpace]
  split
  · next heq => exact absurd (List.cons.inj heq).1 (h.ne (by decide))
  · rfl

theorem readValue_object {c : Char} (h : Starts c) (fuel : ℕ) (text : List Char) :
    readValue (fuel + 1) ('{' :: c :: text) =
      (readEntries fuel (c :: text)).map fun (entries, rest) => (.object entries, rest) := by
  rw [readValue, if_neg (by decide), if_neg (by decide), if_pos rfl, h.skipSpace]
  split
  · next heq => exact absurd (List.cons.inj heq).1 (h.ne (by decide))
  · rfl

theorem printItems_cons (item next : Json) (items : List Json) :
    printItems (item :: next :: items) = print item ++ ',' :: printItems (next :: items) := by
  rw [printItems]
  exact List.cons_ne_nil next items

theorem printEntries_cons (key : String) (value : Json) (next : String × Json)
    (entries : List (String × Json)) : printEntries ((key, value) :: next :: entries) =
      printString key ++ ':' :: print value ++ ',' :: printEntries (next :: entries) := by
  rw [printEntries]
  exact List.cons_ne_nil next entries

theorem printItems_starts (item : Json) (items : List Json) :
    ∃ c text, printItems (item :: items) = c :: text ∧ Starts c := by
  obtain ⟨c, text, htext, hc⟩ := print_starts item
  cases items with
  | nil => exact ⟨c, text, htext, hc⟩
  | cons next items => exact ⟨c, _, by rw [printItems_cons, htext, List.cons_append], hc⟩

theorem printEntries_starts (entry : String × Json) (entries : List (String × Json)) :
    ∃ text, printEntries (entry :: entries) = '"' :: text := by
  cases entries with
  | nil => exact ⟨_, rfl⟩
  | cons next entries => exact ⟨_, printEntries_cons _ _ _ _⟩

mutual

/-- The induction is on the fuel: each call of the reader has consumed a character that its
caller had not, so the length of the text is enough of it. -/
theorem readValue_print (value : Json) (fuel : ℕ) {rest : List Char}
    (hfuel : (print value).length ≤ fuel) (hrest : Ends rest) :
    readValue fuel (print value ++ rest) = some (value, rest) := by
  have hpos := print_length_pos value
  obtain ⟨fuel, rfl⟩ : ∃ n, fuel = n + 1 := ⟨fuel - 1, by omega⟩
  cases value with
  | null => rfl
  | bool value => cases value <;> rfl
  | number value => exact readNumber_value value fuel hrest
  | string value =>
    have hread := readString_escaped value rest
    rw [print, printString, List.cons_append, List.append_assoc, List.singleton_append,
      readValue, if_pos rfl, hread]
    rfl
  | array items =>
    cases items with
    | nil => rfl
    | cons item items =>
      rw [print, List.length_cons, List.length_append, List.length_singleton] at hfuel
      have hread := readItems_print item items fuel rest (by omega)
      obtain ⟨c, text, htext, hc⟩ := printItems_starts item items
      rw [print, List.cons_append, List.append_assoc, List.singleton_append]
      rw [htext, List.cons_append] at hread ⊢
      rw [readValue_array hc, hread]
      rfl
  | object entries =>
    cases entries with
    | nil => rfl
    | cons entry entries =>
      rw [print, List.length_cons, List.length_append, List.length_singleton] at hfuel
      have hread := readEntries_print entry entries fuel rest (by omega)
      obtain ⟨text, htext⟩ := printEntries_starts entry entries
      rw [print, List.cons_append, List.append_assoc, List.singleton_append]
      rw [htext, List.cons_append] at hread ⊢
      rw [readValue_object (.inl (by decide)), hread]
      rfl
termination_by fuel

theorem readItems_print (item : Json) (items : List Json) (fuel : ℕ) (rest : List Char)
    (hfuel : (printItems (item :: items)).length < fuel) :
    readItems fuel (printItems (item :: items) ++ ']' :: rest) = some (item :: items, rest) := by
  obtain ⟨fuel, rfl⟩ : ∃ n, fuel = n + 1 := ⟨fuel - 1, by omega⟩
  cases items with
  | nil =>
    rw [printItems] at hfuel
    have hread := readValue_print item fuel (by omega)
      (by simp [Ends, isNumberChar] : Ends (']' :: rest))
    rw [printItems, readItems, hread]
    rfl
  | cons next items =>
    rw [printItems_cons, List.length_append, List.length_cons] at hfuel
    have hread := readValue_print item fuel (by omega)
      (by simp [Ends, isNumberChar] : Ends (',' :: (printItems (next :: items) ++ ']' :: rest)))
    have hmore := readItems_print next items fuel rest (by omega)
    obtain ⟨c, text, htext, hc⟩ := printItems_starts next items
    rw [printItems_cons, List.append_assoc, List.cons_append, readItems, hread]
    simp only [Option.bind_eq_bind, Option.bind_some, skipSpace_cons (c := ',') (by decide)]
    rw [htext, List.cons_append] at hmore ⊢
    rw [hc.skipSpace, hmore]
    rfl
termination_by fuel

theorem readEntries_print (entry : String × Json) (entries : List (String × Json)) (fuel : ℕ)
    (rest : List Char) (hfuel : (printEntries (entry :: entries)).length < fuel) :
    readEntries fuel (printEntries (entry :: entries) ++ '}' :: rest) =
      some (entry :: entries, rest) := by
  obtain ⟨fuel, rfl⟩ : ∃ n, fuel = n + 1 := ⟨fuel - 1, by omega⟩
  obtain ⟨key, value⟩ := entry
  have hstring (more : List Char) : printString key ++ ':' :: more =
      '"' :: (key.toList.flatMap escape ++ '"' :: ':' :: more) := by
    simp [printString]
  cases entries with
  | nil =>
    rw [printEntries, List.length_append, List.length_cons] at hfuel
    have hread := readValue_print value fuel (by omega)
      (by simp [Ends, isNumberChar] : Ends ('}' :: rest))
    obtain ⟨c, text, htext, hc⟩ := print_starts value
    rw [printEntries, List.append_assoc, List.cons_append, hstring, readEntries]
    simp only [readString_escaped, Option.bind_eq_bind, Option.bind_some,
      skipSpace_cons (c := ':') (by decide)]
    rw [htext, List.cons_append] at hread ⊢
    rw [hc.skipSpace, hread]
    rfl
  | cons next entries =>
    rw [printEntries_cons] at hfuel
    simp only [List.length_append, List.length_cons] at hfuel
    have hread := readValue_print value fuel (by omega)
      (by simp [Ends, isNumberChar] : Ends (',' :: (printEntries (next :: entries) ++ '}' :: rest)))
    have hmore := readEntries_print next entries fuel rest (by omega)
    obtain ⟨c, text, htext, hc⟩ := print_starts value
    obtain ⟨tail, htail⟩ := printEntries_starts next entries
    rw [printEntries_cons, List.append_assoc, List.append_assoc, List.cons_append, List.cons_append,
      hstring, readEntries]
    simp only [readString_escaped, Option.bind_eq_bind, Option.bind_some,
      skipSpace_cons (c := ':') (by decide)]
    rw [htext, List.cons_append] at hread ⊢
    rw [hc.skipSpace, hread]
    simp only [Option.bind_some, skipSpace_cons (c := ',') (by decide)]
    rw [htail, List.cons_append] at hmore ⊢
    rw [skipSpace_cons (by decide), hmore]
    rfl
termination_by fuel

end

/-- The text of a value reads as the value. -/
theorem loads_print (value : Json) : loads (.ofList (print value)) = some value := by
  have hread := readValue_print value (print value).length le_rfl (by simp [Ends] : Ends [])
  obtain ⟨c, text, htext, hc⟩ := print_starts value
  unfold loads
  rw [String.toList_ofList, String.length_ofList]
  rw [List.append_nil, htext] at hread
  rw [htext, hc.skipSpace, hread]
  rfl

/-- The text a value is dumped to reads as the value with its keys in order. -/
theorem loads_dumps (value : Json) : loads (dumps value) = some (sortKeys value) :=
  loads_print (sortKeys value)

example : dumps (.array [.bool true, .string "\x7f\"é😀"]) =
    "[true,\"\\u007f\\\"\\u00e9\\ud83d\\ude00\"]" := by decide +kernel

end Values

end JsonText
