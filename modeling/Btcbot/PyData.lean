import Mathlib.Algebra.BigOperators.Group.List.Basic
import Mathlib.Data.List.DropRight
import Mathlib.Data.List.Nodup
import Mathlib.Data.List.TakeWhile
import Mathlib.Data.String.Basic
import Mathlib.Data.Rat.Defs
import Std.Data.ExtTreeMap

/-!
# Python values the services share

Dictionaries keyed by text, decimals, timestamps, and the symbol spelling of the
exchange. Text is compared by code points; case mapping is the ASCII one.
-/
namespace PyData

/-- Insertion order is forgotten: two dicts are equal when their entries are. -/
abbrev Dict (V : Type) := Std.ExtTreeMap String V compare

theorem Dict.ext {V : Type} {d e : Dict V} (h : ∀ k : String, d[k]? = e[k]?) : d = e :=
  Std.ExtTreeMap.ext_getElem? h

@[simp] theorem Dict.insert_get {V : Type} (d : Dict V) (k a : String) (v : V) :
    (d.insert k v)[a]? = if k = a then some v else d[a]? := by
  simp [Std.ExtTreeMap.getElem?_insert]

theorem Dict.insert_comm {V : Type} (d : Dict V) {k l : String} (h : k ≠ l) (v w : V) :
    (d.insert k v).insert l w = (d.insert l w).insert k v := by
  refine Dict.ext fun a => ?_
  simp only [Dict.insert_get]
  by_cases hk : k = a
  · subst hk
    simp [Ne.symm h]
  · simp [hk]

theorem Dict.insert_insert {V : Type} (d : Dict V) (k : String) (v w : V) :
    (d.insert k v).insert k w = d.insert k w := by
  refine Dict.ext fun a => ?_
  simp only [Dict.insert_get]
  split <;> rfl

theorem Dict.mem_toList {V : Type} (d : Dict V) (entry : String × V) :
    entry ∈ d.toList ↔ d[entry.1]? = some entry.2 :=
  Std.ExtTreeMap.mem_toList_iff_getElem?_eq_some

theorem Dict.keys_nodup {V : Type} (d : Dict V) : (d.toList.map Prod.fst).Nodup := by
  rw [List.Nodup, List.pairwise_map]
  exact (Std.ExtTreeMap.distinct_keys_toList (t := d)).imp fun hne heq =>
    hne (by rw [heq]; exact Std.ReflCmp.compare_self)

theorem Dict.toList_nodup {V : Type} (d : Dict V) : d.toList.Nodup := (Dict.keys_nodup d).of_map _

/-- Values that are found under texts of their own have different texts. -/
theorem Dict.values_nodup {V : Type} (d : Dict V) (f : V → String)
    (h : ∀ (k : String) (v : V), d[k]? = some v → f v = k) :
    ((d.toList.map Prod.snd).map f).Nodup := by
  have hkeys := Dict.keys_nodup d
  rw [List.map_map]
  convert hkeys using 1
  refine List.map_congr_left fun entry hentry => ?_
  exact h entry.1 entry.2 ((Dict.mem_toList d entry).mp hentry)

/-- A dict is what its entries make. -/
theorem Dict.ofList_toList {V : Type} (d : Dict V) : (.ofList d.toList compare : Dict V) = d := by
  refine Dict.ext fun key => ?_
  cases hkey : d[key]? with
  | none =>
    refine Std.ExtTreeMap.getElem?_ofList_of_contains_eq_false ?_
    rw [Bool.eq_false_iff, ne_eq, List.contains_iff_mem]
    intro hmem
    obtain ⟨entry, hentry, rfl⟩ := List.mem_map.mp hmem
    rw [(Dict.mem_toList d entry).mp hentry] at hkey
    cases hkey
  | some value =>
    exact Std.ExtTreeMap.getElem?_ofList_of_mem Std.ReflCmp.compare_self
      Std.ExtTreeMap.distinct_keys_toList ((Dict.mem_toList d (key, value)).mpr hkey)

theorem Dict.ofList_map {V W : Type} (d : Dict V) (f : String → V → W) :
    (.ofList (d.toList.map fun entry => (entry.1, f entry.1 entry.2)) compare : Dict W) =
      d.map f := by
  rw [← Std.ExtTreeMap.toList_map, Dict.ofList_toList]

theorem Dict.toList_insert_perm {V : Type} (d : Dict V) (k : String) (v : V) :
    (d.insert k v).toList.Perm ((k, v) :: d.toList.filter fun entry => entry.1 ≠ k) := by
  have hfresh : (k, v) ∉ d.toList.filter fun entry => entry.1 ≠ k := by simp
  refine (List.perm_ext_iff_of_nodup (Dict.toList_nodup _)
    (((Dict.toList_nodup d).filter _).cons hfresh)).mpr fun entry => ?_
  obtain ⟨l, w⟩ := entry
  simp only [Dict.mem_toList, Dict.insert_get, List.mem_cons, List.mem_filter, decide_eq_true_eq,
    Prod.mk.injEq]
  by_cases hl : k = l
  · subst hl
    simp [eq_comm]
  · simp [hl, Ne.symm hl]

/-- An insertion trades the old value's share of a sum for the new one's. -/
theorem Dict.sum_insert {V M : Type} [AddCommGroup M] (d : Dict V) (k : String) (v : V)
    (f : V → M) :
    ((d.insert k v).toList.map fun entry => f entry.2).sum =
      (d.toList.map fun entry => f entry.2).sum - (d[k]?.map f).getD 0 + f v := by
  have hnew := ((Dict.toList_insert_perm d k v).map fun entry => f entry.2).sum_eq
  rw [hnew]
  cases hk : d[k]? with
  | none =>
    have hkeep : (d.toList.filter fun entry => entry.1 ≠ k) = d.toList := by
      refine List.filter_eq_self.mpr fun entry hentry => ?_
      rw [Dict.mem_toList] at hentry
      refine decide_eq_true fun heq => ?_
      rw [heq, hk] at hentry
      cases hentry
    rw [hkeep]
    simp [add_comm]
  | some u =>
    have hsame : d.insert k u = d := by
      refine Dict.ext fun a => ?_
      rw [Dict.insert_get]
      split
      · next h => rw [← h, hk]
      · rfl
    have hold := ((Dict.toList_insert_perm d k u).map fun entry => f entry.2).sum_eq
    rw [hsame] at hold
    rw [hold]
    simp [add_comm]

/-- A decimal and the text it prints as. -/
structure Decimal where
  value : ℚ
  text : String
  deriving DecidableEq, Repr

/-- Microseconds since the epoch, read as UTC, and whether a zone is attached. -/
structure DateTime where
  micros : Int
  aware : Bool
  deriving DecidableEq, Repr

def ensureUtc (ts : DateTime) : DateTime := { ts with aware := true }

@[simp] theorem ensureUtc_idem (ts : DateTime) : ensureUtc (ensureUtc ts) = ensureUtc ts := rfl

def canonicalSymbol (symbol : String) : String :=
  (String.ofList (symbol.toList.filter (· ≠ '_'))).toUpper

def normalizeSymbol (symbol : String) : String := canonicalSymbol symbol

/-- A character outside `a`..`z` is its own upper case, one inside is 32 above it. -/
theorem toUpper_cases (c : Char) :
    (c.toUpper = c ∧ ¬ (97 ≤ c.val.toNat ∧ c.val.toNat ≤ 122)) ∨
      (c.toUpper.val.toNat + 32 = c.val.toNat ∧ 97 ≤ c.val.toNat ∧ c.val.toNat ≤ 122) := by
  unfold Char.toUpper
  split
  · next h =>
    right
    have hlow : 97 ≤ c.val.toNat := by simpa using UInt32.le_iff_toNat_le.mp h.1
    have hhigh : c.val.toNat ≤ 122 := by simpa using UInt32.le_iff_toNat_le.mp h.2
    have hshift : ('A'.val - 'a'.val).toNat = 4294967264 := by decide
    refine ⟨?_, hlow, hhigh⟩
    simp only [UInt32.toNat_add, hshift]
    omega
  · next h =>
    exact .inl ⟨rfl, fun hc => h ⟨UInt32.le_iff_toNat_le.mpr hc.1,
      UInt32.le_iff_toNat_le.mpr hc.2⟩⟩

theorem toUpper_ne_underscore {c : Char} (h : c ≠ '_') : c.toUpper ≠ '_' := by
  intro hc
  rcases toUpper_cases c with ⟨he, -⟩ | ⟨he, -, hle⟩
  · exact h (he ▸ hc)
  · have hval : ('_' : Char).val.toNat = 95 := by decide
    rw [hc] at he
    omega

theorem toUpper_idem (c : Char) : c.toUpper.toUpper = c.toUpper := by
  rcases toUpper_cases c with ⟨he, -⟩ | ⟨he, hlow, hhigh⟩
  · rw [he, he]
  · rcases toUpper_cases c.toUpper with ⟨h, -⟩ | ⟨h, hlow', -⟩
    · exact h
    · omega

@[simp] theorem normalizeSymbol_idem (symbol : String) :
    normalizeSymbol (normalizeSymbol symbol) = normalizeSymbol symbol := by
  have hfilter : ((symbol.toList.filter (· ≠ '_')).map Char.toUpper).filter (· ≠ '_') =
      (symbol.toList.filter (· ≠ '_')).map Char.toUpper := by
    refine List.filter_eq_self.mpr fun c hc => ?_
    obtain ⟨b, hb, rfl⟩ := List.mem_map.mp hc
    simpa using toUpper_ne_underscore (by simpa using (List.mem_filter.mp hb).2)
  apply String.toList_injective
  simp only [normalizeSymbol, canonicalSymbol, String.toUpper, String.toList_map,
    String.toList_ofList] at hfilter ⊢
  rw [hfilter, List.map_map]
  exact List.map_congr_left fun c _ => toUpper_idem c

/-- Two texts split at the first mark are split alike. -/
theorem split_first {α : Type} {mark : α} {a b c d : List α} (ha : mark ∉ a) (hc : mark ∉ c)
    (h : a ++ mark :: b = c ++ mark :: d) : a = c ∧ b = d := by
  rcases List.append_eq_append_iff.mp h with ⟨rest, rfl, hrest⟩ | ⟨rest, rfl, hrest⟩
  · cases rest with
    | nil => exact ⟨(List.append_nil a).symm, (List.cons.inj hrest).2⟩
    | cons x rest =>
      obtain ⟨rfl, -⟩ := List.cons.inj hrest
      simp at hc
  · cases rest with
    | nil => exact ⟨List.append_nil c, (List.cons.inj hrest).2.symm⟩
    | cons x rest =>
      obtain ⟨rfl, -⟩ := List.cons.inj hrest
      simp at ha

/-- And so are two texts split at the last one. -/
theorem split_last {α : Type} {mark : α} {a b c d : List α} (hb : mark ∉ b) (hd : mark ∉ d)
    (h : a ++ mark :: b = c ++ mark :: d) : a = c ∧ b = d := by
  have hreversed : b.reverse ++ mark :: a.reverse = d.reverse ++ mark :: c.reverse := by
    simpa using congrArg List.reverse h
  obtain ⟨hsecond, hfirst⟩ := split_first (by simpa using hb) (by simpa using hd) hreversed
  exact ⟨List.reverse_inj.mp hfirst, List.reverse_inj.mp hsecond⟩

/-- White space off both ends. -/
def strip (text : String) : String :=
  String.ofList ((text.toList.dropWhile Char.isWhitespace).reverse.dropWhile
    Char.isWhitespace).reverse

theorem mem_dropWhile {α : Type} {p : α → Bool} {a : α} {l : List α} (ha : a ∈ l)
    (hp : p a = false) : a ∈ l.dropWhile p := by
  induction l with
  | nil => cases ha
  | cons b l ih =>
    by_cases hb : p b
    · rw [List.dropWhile_cons_of_pos hb]
      rcases List.mem_cons.mp ha with rfl | ha
      · rw [hp] at hb
        cases hb
      · exact ih ha
    · rw [List.dropWhile_cons_of_neg hb]
      exact ha

theorem mem_strip {text : String} {c : Char} (hc : c ∈ text.toList)
    (hs : c.isWhitespace = false) : c ∈ (strip text).toList := by
  have h := mem_dropWhile (List.mem_reverse.mpr (mem_dropWhile hc hs)) hs
  simpa [strip] using h

theorem strip_ne_empty {text : String} :
    strip text ≠ "" ↔ ∃ c ∈ text.toList, c.isWhitespace = false := by
  constructor
  · intro h
    by_contra hall
    simp only [not_exists, not_and, Bool.not_eq_false] at hall
    have hnil : text.toList.dropWhile Char.isWhitespace = [] :=
      List.dropWhile_eq_nil_iff.mpr hall
    exact h (by simp [strip, hnil])
  · rintro ⟨c, hc, hs⟩ h
    have hmem := mem_strip hc hs
    rw [h] at hmem
    cases hmem

theorem strip_strip_ne_empty {text : String} (h : strip text ≠ "") : strip (strip text) ≠ "" := by
  obtain ⟨c, hc, hs⟩ := strip_ne_empty.mp h
  exact strip_ne_empty.mpr ⟨c, mem_strip hc hs, hs⟩

theorem strip_strip (text : String) : strip (strip text) = strip text := by
  have hfront : (strip text).toList.dropWhile Char.isWhitespace = (strip text).toList := by
    have hpre : (strip text).toList <+: text.toList.dropWhile Char.isWhitespace := by
      simpa [strip, List.rdropWhile] using
        List.rdropWhile_prefix Char.isWhitespace (text.toList.dropWhile Char.isWhitespace)
    cases hl : (strip text).toList with
    | nil => rfl
    | cons c l =>
      rw [hl] at hpre
      obtain ⟨more, hmore⟩ := hpre
      have hc : c.isWhitespace = false := by
        have hhead := List.head?_dropWhile_not Char.isWhitespace text.toList
        rw [← hmore] at hhead
        simpa using hhead
      rw [List.dropWhile_cons_of_neg (by simp [hc])]
  have hback : (strip text).toList.reverse.dropWhile Char.isWhitespace =
      (strip text).toList.reverse := by
    simp [strip, List.dropWhile_idempotent]
  conv_lhs => rw [strip, hfront, hback, List.reverse_reverse, String.ofList_toList]

theorem toUpper_toUpper (text : String) : text.toUpper.toUpper = text.toUpper := by
  apply String.toList_injective
  simp only [String.toUpper, String.toList_map, List.map_map]
  exact List.map_congr_left fun c _ => toUpper_idem c

theorem strip_toUpper (text : String) : strip text.toUpper = (strip text).toUpper := by
  have hspace (c : Char) : c.toUpper.isWhitespace = c.isWhitespace := by
    rcases toUpper_cases c with ⟨he, -⟩ | ⟨he, hlow, hhigh⟩
    · rw [he]
    · have hword (d : Char) (h : 65 ≤ d.val.toNat) : d.isWhitespace = false := by
        have hne (n : Char) (hn : n.val.toNat < 65) : d ≠ n := by
          rintro rfl
          omega
        simp [Char.isWhitespace, hne ' ' (by decide), hne '\t' (by decide), hne '\r' (by decide),
          hne '\n' (by decide)]
      rw [hword c (by omega), hword c.toUpper (by omega)]
  have hdrop (l : List Char) : (l.map Char.toUpper).dropWhile Char.isWhitespace =
      (l.dropWhile Char.isWhitespace).map Char.toUpper := by
    rw [List.dropWhile_map]
    exact congrArg _ (congrArg (List.dropWhile · l) (funext hspace))
  apply String.toList_injective
  simp only [strip, String.toUpper, String.toList_map, String.toList_ofList, hdrop,
    ← List.map_reverse]

example : normalizeSymbol "btc_try" = "BTCTRY" := by decide +kernel

end PyData
