import Btcbot.PyData

/-!
# Rows under the spellings of a role

A row of a role is stored under its canonical key, and may still be stored under an older
spelling of it. A read takes the first row it finds, and copies it to the canonical key.
-/
namespace RoleKeys

open PyData

def canonicalizeRole (role : String) : String := (strip role).toUpper

@[simp] theorem canonicalizeRole_idem (role : String) :
    canonicalizeRole (canonicalizeRole role) = canonicalizeRole role := by
  rw [canonicalizeRole, canonicalizeRole, strip_toUpper, strip_strip, toUpper_toUpper]

section Read

variable {V : Type} (key : String → String)

/-- The canonical key, then the older spellings of it. -/
def roleKeyCandidates (role : String) : List String :=
  ([canonicalizeRole role, (strip role).toLower, strip role].map key).eraseDups

def findRow (table : Dict V) (keys : List String) : Option (String × V) :=
  keys.findSome? fun candidate => table[candidate]?.map fun row => (candidate, row)

/-- The row that a read finds, and the table it leaves. -/
def readRow (table : Dict V) (role : String) : Dict V × Option V :=
  let canonicalKey := key (canonicalizeRole role)
  match findRow table (roleKeyCandidates key role) with
  | none => (table, none)
  | some (source, row) =>
    (if source = canonicalKey then table else table.insert canonicalKey row, some row)

abbrev seen (table : Dict V) (role : String) : Option V := (readRow key table role).2

variable {key} {table : Dict V} {role other : String}

/-- A character outside `A`..`Z` is its own lower case, one inside is 32 below it. -/
theorem toLower_cases (c : Char) :
    c.toLower = c ∨
      (c.toLower.val.toNat = c.val.toNat + 32 ∧ 65 ≤ c.val.toNat ∧ c.val.toNat ≤ 90) := by
  unfold Char.toLower
  split
  · next h =>
    right
    have hlow : 65 ≤ c.val.toNat := by simpa using UInt32.le_iff_toNat_le.mp h.1
    have hhigh : c.val.toNat ≤ 90 := by simpa using UInt32.le_iff_toNat_le.mp h.2
    have hshift : ('a'.val - 'A'.val).toNat = 32 := by decide
    refine ⟨?_, hlow, hhigh⟩
    simp only [UInt32.toNat_add, hshift]
    omega
  · exact .inl rfl

theorem toLower_toUpper (c : Char) : c.toLower.toUpper = c.toUpper := by
  rcases toLower_cases c with he | ⟨he, hlow, hhigh⟩
  · rw [he]
  · rcases toUpper_cases c with ⟨hc, -⟩ | ⟨-, hlow', -⟩
    · rcases toUpper_cases c.toLower with ⟨-, hout⟩ | ⟨hback, -⟩
      · exact absurd ⟨by omega, by omega⟩ hout
      · rw [hc]
        refine Char.ext (UInt32.toNat_inj.mp ?_)
        omega
    · omega

theorem string_toLower_toUpper (text : String) : text.toLower.toUpper = text.toUpper := by
  apply String.toList_injective
  change ((text.map Char.toLower).map Char.toUpper).toList = (text.map Char.toUpper).toList
  simp only [String.toList_map, List.map_map]
  exact List.map_congr_left fun c _ => toLower_toUpper c

/-- Every candidate spells the role. -/
theorem mem_candidates {candidate : String} (h : candidate ∈ roleKeyCandidates key role) :
    ∃ spelling, candidate = key spelling ∧ spelling.toUpper = canonicalizeRole role := by
  unfold roleKeyCandidates at h
  obtain ⟨spelling, hspelling, rfl⟩ := List.mem_map.mp (List.mem_eraseDups.mp h)
  refine ⟨spelling, rfl, ?_⟩
  simp only [List.mem_cons, List.not_mem_nil, or_false] at hspelling
  rcases hspelling with rfl | rfl | rfl
  · rw [canonicalizeRole, toUpper_toUpper]
  · rw [string_toLower_toUpper]
    rfl
  · rfl

/-- Two roles share no candidates. -/
theorem candidates_disjoint (hkey : Function.Injective key)
    (hroles : canonicalizeRole other ≠ canonicalizeRole role) {candidate : String}
    (h : candidate ∈ roleKeyCandidates key role) : candidate ∉ roleKeyCandidates key other := by
  intro hother
  obtain ⟨spelling, rfl, hrole⟩ := mem_candidates h
  obtain ⟨spelling', heq, hother⟩ := mem_candidates hother
  rw [← hkey heq, hrole] at hother
  exact hroles hother.symm

theorem canonical_mem : key (canonicalizeRole role) ∈ roleKeyCandidates key role :=
  List.mem_eraseDups.mpr (List.mem_map_of_mem List.mem_cons_self)

/-- The canonical row is read where it stands. -/
theorem readRow_canonical {row : V} (h : table[key (canonicalizeRole role)]? = some row) :
    readRow key table role = (table, some row) := by
  have hfound : findRow table (roleKeyCandidates key role) =
      some (key (canonicalizeRole role), row) := by
    rw [findRow, roleKeyCandidates, List.map_cons, List.eraseDups_cons, List.findSome?_cons, h,
      Option.map_some]
  unfold readRow
  rw [hfound]
  simp only [if_true]

/-- A read finds no row, or leaves the one it found under the canonical key. -/
theorem readRow_cases (table : Dict V) (role : String) :
    readRow key table role = (table, none) ∨
      ∃ row, (readRow key table role).1[key (canonicalizeRole role)]? = some row ∧
        (readRow key table role).2 = some row := by
  unfold readRow
  cases hfound : findRow table (roleKeyCandidates key role) with
  | none => exact .inl rfl
  | some found =>
    obtain ⟨source, row⟩ := found
    refine .inr ⟨row, ?_, rfl⟩
    obtain ⟨candidate, -, hrow⟩ := List.exists_of_findSome?_eq_some hfound
    obtain ⟨stored, hstored, hpair⟩ := Option.map_eq_some_iff.mp hrow
    obtain ⟨rfl, rfl⟩ := Prod.mk.inj hpair
    by_cases hsource : candidate = key (canonicalizeRole role)
    · subst hsource
      simpa using hstored
    · simp [hsource]

theorem seen_insert_self (row : V) (h : canonicalizeRole other = canonicalizeRole role) :
    seen key (table.insert (key (canonicalizeRole role)) row) other = some row := by
  have hrow : (table.insert (key (canonicalizeRole role)) row)[key (canonicalizeRole other)]? =
      some row := by
    simp [h]
  rw [seen, readRow_canonical hrow]

theorem findRow_insert {keys : List String} {candidate : String} (row : V)
    (h : candidate ∉ keys) :
    findRow (table.insert candidate row) keys = findRow table keys := by
  induction keys with
  | nil => rfl
  | cons first keys ih =>
    obtain ⟨hfirst, hrest⟩ := not_or.mp (mt List.mem_cons.mpr h)
    have hsame : (table.insert candidate row)[first]? = table[first]? := by
      rw [Dict.insert_get, if_neg hfirst]
    unfold findRow at ih ⊢
    rw [List.findSome?_cons, List.findSome?_cons, hsame, ih hrest]

/-- A row written for a role is none that another role reads. -/
theorem seen_insert_other (hkey : Function.Injective key)
    (hroles : canonicalizeRole other ≠ canonicalizeRole role) {candidate : String}
    (h : candidate ∈ roleKeyCandidates key role) (row : V) :
    seen key (table.insert candidate row) other = seen key table other := by
  unfold seen readRow
  simp only [findRow_insert row (candidates_disjoint hkey hroles h)]
  split <;> rfl

/-- A read shows every spelling the row it found. -/
theorem seen_read_self {row : V} (h : seen key table role = some row)
    (hroles : canonicalizeRole other = canonicalizeRole role) :
    seen key (readRow key table role).1 other = some row := by
  rcases @readRow_cases V key table role with hnone | ⟨found, hfound, hrow⟩
  · rw [seen, hnone] at h
    cases h
  · obtain rfl := Option.some.inj (hrow.symm.trans h)
    rw [seen, readRow_canonical (hroles ▸ hfound)]

theorem read_none (h : seen key table role = none) : (readRow key table role).1 = table := by
  rcases @readRow_cases V key table role with hnone | ⟨row, -, hrow⟩
  · rw [hnone]
  · rw [seen, hrow] at h
    cases h

theorem seen_read_other (hkey : Function.Injective key)
    (hroles : canonicalizeRole other ≠ canonicalizeRole role) :
    seen key (readRow key table role).1 other = seen key table other := by
  unfold readRow
  simp only
  split
  · rfl
  · split
    · rfl
    · exact seen_insert_other hkey hroles canonical_mem _

end Read

end RoleKeys
