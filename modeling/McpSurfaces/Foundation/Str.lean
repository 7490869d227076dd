import Mathlib.Data.List.DropRight
import Mathlib.Tactic

/-!
The operations on text that Rust's `str` has and Lean's `String` has not in a form
that computes: white space, trimming, prefixes. All of them are read off the list of
characters.
-/

namespace McpSurfaces

namespace Str

/-- `char::is_whitespace`: the code points of the property `White_Space`. -/
def isWhitespace (c : Char) : Bool :=
  let n := c.toNat
  (9 ≤ n && n ≤ 13) || n == 32 || n == 0x85 || n == 0xA0 || n == 0x1680 ||
    (0x2000 ≤ n && n ≤ 0x200A) || n == 0x2028 || n == 0x2029 || n == 0x202F || n == 0x205F ||
    n == 0x3000

/-- The characters without the white space around them. -/
def trimChars (cs : List Char) : List Char :=
  ((cs.dropWhile isWhitespace).reverse.dropWhile isWhitespace).reverse

/-- `str::trim`. -/
def trim (s : String) : String := String.ofList (trimChars s.toList)

/-- `str::starts_with`. -/
def startsWith (s pre : String) : Bool := pre.toList.isPrefixOf s.toList

/-- Whether there is nothing but white space. -/
def isBlank (s : String) : Bool := s.toList.all isWhitespace

/-- A letter or a digit is no white space. -/
lemma not_isWhitespace_of_isAlphanum {c : Char} (h : c.isAlphanum) : ¬ isWhitespace c := by
  delta Char.isAlphanum Char.isAlpha Char.isUpper Char.isLower Char.isDigit at h
  simp only [Bool.or_eq_true, Bool.and_eq_true, decide_eq_true_eq, UInt32.le_iff_toNat_le,
    ge_iff_le] at h
  change ((65 ≤ c.toNat ∧ c.toNat ≤ 90) ∨ (97 ≤ c.toNat ∧ c.toNat ≤ 122)) ∨
    (48 ≤ c.toNat ∧ c.toNat ≤ 57) at h
  simp only [isWhitespace, Bool.or_eq_true, Bool.and_eq_true, decide_eq_true_eq, beq_iff_eq]
  omega

/-- Without white space there is nothing to trim. -/
lemma trim_eq_self {s : String} (h : ∀ c ∈ s.toList, ¬ isWhitespace c) : trim s = s := by
  have hdrop : ∀ cs : List Char, (∀ c ∈ cs, ¬ isWhitespace c) → cs.dropWhile isWhitespace = cs := by
    intro cs hcs
    cases cs with
    | nil => rfl
    | cons c rest => exact List.dropWhile_cons_of_neg (hcs c List.mem_cons_self)
  rw [trim, trimChars, hdrop _ h, hdrop _ (fun c hc => h c (List.mem_reverse.mp hc)),
    List.reverse_reverse, String.ofList_toList]

/-- What is trimmed is trimmed. -/
lemma trim_trim (s : String) : trim (trim s) = trim s := by
  have hchars (cs : List Char) : trimChars (trimChars cs) = trimChars cs := by
    change (((cs.dropWhile isWhitespace).rdropWhile isWhitespace).dropWhile
      isWhitespace).rdropWhile isWhitespace = (cs.dropWhile isWhitespace).rdropWhile isWhitespace
    set kept := cs.dropWhile isWhitespace with hkept
    have hfront : (kept.rdropWhile isWhitespace).dropWhile isWhitespace =
        kept.rdropWhile isWhitespace := by
      rw [List.dropWhile_eq_self_iff]
      intro hpos
      have hle := (List.rdropWhile_prefix isWhitespace (l := kept))
      have hlong : 0 < kept.length := lt_of_lt_of_le hpos hle.length_le
      rw [hle.getElem hpos]
      exact List.dropWhile_get_zero_not _ cs hlong
    rw [hfront, List.rdropWhile_idempotent]
  rw [trim, trim, String.toList_ofList, hchars]
lemma startsWith_iff {s pre : String} : startsWith s pre ↔ ∃ r, s.toList = pre.toList ++ r := by
  rw [startsWith, List.isPrefixOf_iff_prefix]
  exact ⟨fun ⟨r, hr⟩ => ⟨r, hr.symm⟩, fun ⟨r, hr⟩ => ⟨r, hr.symm⟩⟩

/-- Whether a text occurs in another. -/
def contains (s part : String) : Bool := decide (part.toList <:+: s.toList)

/-- The text before the first occurrence of a separator, and the text behind it. -/
def splitOnceChars (sep : List Char) : List Char → List Char → Option (List Char × List Char)
  | before, [] => if sep = [] then some (before, []) else none
  | before, c :: rest =>
      if sep <+: c :: rest then some (before, (c :: rest).drop sep.length)
      else splitOnceChars sep (before ++ [c]) rest

def splitOnce (s sep : String) : Option (String × String) :=
  (splitOnceChars sep.toList [] s.toList).map fun parts =>
    (String.ofList parts.1, String.ofList parts.2)

end Str

end McpSurfaces
