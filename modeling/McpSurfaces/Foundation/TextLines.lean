import Mathlib.Data.List.DropRight
import Mathlib.Tactic
import McpSurfaces.Foundation.Str

/-!
Texts as lists of characters, and their lines.

* `lines` are the lines of a text as Rust's `str::lines` gives them, `unlines` writes lines
  with a line feed behind each.
* **`lines_unlines`**: lines that are written are read again.
-/

namespace McpSurfaces

namespace TextLines

abbrev Text := List Char

instance : LawfulBEq Text := inferInstance

/-! ### Lines -/

/-- A line without the carriage return at its end. -/
def stripReturn (line : Text) : Text :=
  if line.getLast? = some '\r' then line.dropLast else line

/-- The lines of a text behind the beginning of one. -/
def linesFrom (line : Text) : Text → List Text
  | [] => if line = [] then [] else [line]
  | '\n' :: rest => stripReturn line :: linesFrom [] rest
  | c :: rest => linesFrom (line ++ [c]) rest

/-- `str::lines`. -/
def lines (text : Text) : List Text := linesFrom [] text

/-- Lines with a line feed behind each. -/
def unlines (ls : List Text) : Text := ls.flatMap (· ++ ['\n'])

/-- A text that is one line, without the end of it. -/
def IsLine (line : Text) : Prop := '\n' ∉ line ∧ line.getLast? ≠ some '\r'

instance (line : Text) : Decidable (IsLine line) := inferInstanceAs (Decidable (_ ∧ _))

lemma isLine_of_forall {line : Text} (h : ∀ c ∈ line, c ≠ '\n' ∧ c ≠ '\r') : IsLine line :=
  ⟨fun hmem => (h _ hmem).1 rfl, fun hlast => (h _ (List.mem_of_getLast? hlast)).2 rfl⟩

lemma IsLine.append {front back : Text} (h : IsLine front) (h' : IsLine back) :
    IsLine (front ++ back) := by
  refine ⟨fun hmem => (List.mem_append.mp hmem).elim h.1 h'.1, fun hlast => ?_⟩
  rw [List.getLast?_append, Option.or_eq_some_iff] at hlast
  rcases hlast with hlast | ⟨-, hlast⟩
  · exact h'.2 hlast
  · exact h.2 hlast

lemma IsLine.cons {c : Char} {line : Text} (hc : c ≠ '\n' ∧ c ≠ '\r') (h : IsLine line) :
    IsLine (c :: line) := by
  have hfirst : IsLine [c] := isLine_of_forall (by simpa using hc)
  exact hfirst.append h

@[simp] lemma unlines_nil : unlines [] = [] := rfl

@[simp] lemma unlines_cons (line : Text) (ls : List Text) :
    unlines (line :: ls) = line ++ '\n' :: unlines ls := by
  simp [unlines]

lemma unlines_append (ls ls' : List Text) : unlines (ls ++ ls') = unlines ls ++ unlines ls' :=
  List.flatMap_append

lemma unlines_ne_nil {ls : List Text} (h : ls ≠ []) : unlines ls ≠ [] := by
  obtain ⟨line, rest, rfl⟩ := List.exists_cons_of_ne_nil h
  simp

/-- A text of lines ends with the end of one. -/
lemma getLast?_unlines {ls : List Text} (h : ls ≠ []) : (unlines ls).getLast? = some '\n' := by
  obtain ⟨front, line, rfl⟩ := List.eq_nil_or_concat' ls |>.resolve_left h
  rw [unlines_append, unlines_cons, unlines_nil, List.getLast?_append]
  simp

/-- The characters before a line feed belong to its line. -/
lemma linesFrom_append {line front rest : Text} (h : '\n' ∉ front) :
    linesFrom line (front ++ '\n' :: rest) = stripReturn (line ++ front) :: lines rest := by
  induction front generalizing line with
  | nil => simp [linesFrom, lines]
  | cons c front ih =>
      have hc : c ≠ '\n' := fun hc => h (hc ▸ List.mem_cons_self)
      have hfront : '\n' ∉ front := fun hmem => h (List.mem_cons_of_mem c hmem)
      rw [List.cons_append, linesFrom.eq_3 _ _ _ hc, ih hfront, List.append_assoc,
        List.singleton_append]

/-- **Lines that are written are read again.** -/
theorem lines_unlines {ls : List Text} (h : ∀ line ∈ ls, IsLine line) :
    lines (unlines ls) = ls := by
  induction ls with
  | nil => rfl
  | cons line rest ih =>
      obtain ⟨hfeed, hreturn⟩ := h line List.mem_cons_self
      rw [unlines_cons, lines, linesFrom_append hfeed, List.nil_append, stripReturn,
        if_neg hreturn, ih fun l hl => h l (List.mem_cons_of_mem line hl)]

/-- A text of lines with a line feed between them. -/
lemma unlines_eq_intercalate {ls : List Text} (h : ls ≠ []) :
    unlines ls = ['\n'].intercalate ls ++ ['\n'] := by
  induction ls with
  | nil => exact absurd rfl h
  | cons line rest ih =>
      cases rest with
      | nil => simp
      | cons next rest =>
          rw [unlines_cons, ih (List.cons_ne_nil next rest), List.intercalate_cons_cons]
          simp

lemma unlines_injective {ls ls' : List Text} (h : ∀ line ∈ ls, IsLine line)
    (h' : ∀ line ∈ ls', IsLine line) (heq : unlines ls = unlines ls') : ls = ls' := by
  rw [← lines_unlines h, heq, lines_unlines h']

/-- A text of lines has no carriage return before a line feed. -/
lemma not_infix_unlines {ls : List Text} (h : ∀ line ∈ ls, IsLine line) :
    ¬ ['\r', '\n'] <:+: unlines ls := by
  rintro ⟨front, back, heq⟩
  induction ls generalizing front with
  | nil => simp at heq
  | cons line rest ih =>
      obtain ⟨hfeed, hreturn⟩ := h line List.mem_cons_self
      rw [unlines_cons, List.append_assoc] at heq
      rcases List.append_eq_append_iff.mp heq with ⟨between, hline, hback⟩ | ⟨between, hfront, hback⟩
      · rw [List.cons_append] at hback
        match between with
        | [] => simp at hback
        | [c] =>
            obtain rfl : c = '\r' := by simpa [eq_comm] using congrArg List.head? hback
            exact hreturn (by simp [hline])
        | c :: c' :: more =>
            obtain rfl : c' = '\n' := by
              simpa [eq_comm] using congrArg (fun l => l.tail.head?) hback
            exact hfeed (by simp [hline])
      · match between with
        | [] => simp at hback
        | c :: more =>
            rw [List.cons_append, List.cons.injEq] at hback
            refine ih (fun l hl => h l (List.mem_cons_of_mem line hl)) more ?_
            rw [List.append_assoc]
            exact hback.2.symm

/-! ### The end of a text -/

/-- A line feed or a carriage return. -/
def isLineEnd (c : Char) : Bool := c == '\r' || c == '\n'

/-- `str::trim_end_matches` with the ends of lines. -/
def trimLineEnds (text : Text) : Text := text.rdropWhile isLineEnd

/-- The lines without the blank ones at the end, the first line apart. -/
def trimBlankLines : List Text → List Text
  | [] => []
  | line :: rest => line :: rest.rdropWhile (· == [])

/-- How many blank lines that are. -/
def blankEnd (ls : List Text) : ℕ := ls.length - (trimBlankLines ls).length

lemma trimBlankLines_take (ls : List Text) : trimBlankLines ls <+: ls := by
  cases ls with
  | nil => exact List.prefix_rfl
  | cons line rest => exact (List.prefix_cons_inj line).mpr (List.rdropWhile_prefix _ rest)

lemma length_trimBlankLines (ls : List Text) :
    (trimBlankLines ls).length + blankEnd ls = ls.length := by
  rw [blankEnd]
  have := (trimBlankLines_take ls).length_le
  omega

lemma trimBlankLines_ne_nil {ls : List Text} (h : ls ≠ []) : trimBlankLines ls ≠ [] := by
  obtain ⟨line, rest, rfl⟩ := List.exists_cons_of_ne_nil h
  exact List.cons_ne_nil _ _

lemma trimBlankLines_eq_self {ls : List Text} (h : blankEnd ls = 0) : trimBlankLines ls = ls := by
  refine (trimBlankLines_take ls).eq_of_length ?_
  have := length_trimBlankLines ls
  omega

/-- The lines without the blank ones at the end, and those. -/
lemma trimBlankLines_append_replicate (ls : List Text) :
    trimBlankLines ls ++ List.replicate (blankEnd ls) [] = ls := by
  obtain ⟨back, hback⟩ := trimBlankLines_take ls
  have hblank : ∀ line ∈ back, line = [] := by
    cases ls with
    | nil => simp_all
    | cons line rest =>
        rw [trimBlankLines, List.cons_append, List.cons.injEq] at hback
        intro l hl
        have hdrop : (rest.rdropWhile (· == [])) ++ rest.rtakeWhile (· == []) = rest := by
          rw [List.rdropWhile, List.rtakeWhile, ← List.reverse_append,
            List.takeWhile_append_dropWhile, List.reverse_reverse]
        rw [← List.append_cancel_left (hdrop.trans hback.2.symm)] at hl
        simpa using List.mem_rtakeWhile_imp hl
  have hlength : back.length = blankEnd ls := by
    have := length_trimBlankLines ls
    rw [← congrArg List.length hback, List.length_append] at this
    omega
  rw [← hlength, ← List.eq_replicate_length.mpr hblank, hback]

/-- The ends of lines at the end of a text are dropped. -/
lemma trimLineEnds_append {front back : Text} (h : ∀ c ∈ back, isLineEnd c) :
    trimLineEnds (front ++ back) = trimLineEnds front := by
  induction back using List.reverseRecOn with
  | nil => rw [List.append_nil]
  | append_singleton back c ih =>
      rw [← List.append_assoc, trimLineEnds, List.rdropWhile_concat_pos _ _ _ (h c (by simp))]
      exact ih fun d hd => h d (List.mem_append_left _ hd)

/-- The last line is not blank, or the only one. -/
lemma ne_nil_of_blankEnd {front : List Text} {line : Text} (h : blankEnd (front ++ [line]) = 0) :
    line ≠ [] ∨ front = [] := by
  refine or_iff_not_imp_right.mpr fun hfront hline => ?_
  obtain ⟨first, rest, rfl⟩ := List.exists_cons_of_ne_nil hfront
  have htrim := trimBlankLines_eq_self h
  rw [hline, List.cons_append, trimBlankLines, List.rdropWhile_concat_pos _ _ _ (by simp),
    List.cons.injEq] at htrim
  have hlength := (List.rdropWhile_prefix (· == []) rest).length_le
  rw [htrim.2, List.length_append, List.length_singleton] at hlength
  omega

/-- A text of lines that does not end in a blank one has no line ends to drop. -/
lemma trimLineEnds_intercalate {ls : List Text} (h : ∀ line ∈ ls, IsLine line)
    (hend : blankEnd ls = 0) : trimLineEnds (['\n'].intercalate ls) = ['\n'].intercalate ls := by
  rcases List.eq_nil_or_concat' ls with rfl | ⟨front, line, rfl⟩
  · rfl
  obtain ⟨hfeed, hreturn⟩ := h line (by simp)
  have hlast : ['\n'].intercalate (front ++ [line]) = unlines front ++ line := by
    have hne : front ++ [line] ≠ [] := by simp
    have hwritten := unlines_eq_intercalate hne
    rw [unlines_append, unlines_cons, unlines_nil, ← List.append_assoc] at hwritten
    exact (List.append_cancel_right hwritten).symm
  rw [hlast]
  rcases ne_nil_of_blankEnd hend with hline | rfl
  · obtain ⟨rest, c, rfl⟩ := (List.eq_nil_or_concat' line).resolve_left hline
    rw [← List.append_assoc]
    refine List.rdropWhile_concat_neg _ _ _ ?_
    have hc : c ≠ '\r' := by simpa using hreturn
    have hc' : c ≠ '\n' := fun hc' => hfeed (hc' ▸ by simp)
    simp [isLineEnd, hc, hc']
  · rcases List.eq_nil_or_concat' line with rfl | ⟨rest, c, rfl⟩
    · rfl
    have hc : c ≠ '\r' := by simpa using hreturn
    have hc' : c ≠ '\n' := fun hc' => hfeed (hc' ▸ by simp)
    exact List.rdropWhile_concat_neg _ _ _ (by simp [isLineEnd, hc, hc'])

lemma blankEnd_trimBlankLines (ls : List Text) : blankEnd (trimBlankLines ls) = 0 := by
  have hidem : trimBlankLines (trimBlankLines ls) = trimBlankLines ls := by
    cases ls with
    | nil => rfl
    | cons line rest =>
        rw [trimBlankLines, trimBlankLines, List.rdropWhile_idempotent]
  rw [blankEnd, hidem, Nat.sub_self]

/-- Blank lines are written as line feeds. -/
lemma unlines_replicate (n : ℕ) : unlines (List.replicate n []) = List.replicate n '\n' := by
  induction n with
  | zero => rfl
  | succ n ih => rw [List.replicate_succ, unlines_cons, ih, List.nil_append, List.replicate_succ]

/-- **The lines of a text without the ends of lines behind them.** -/
theorem splitOn_trimLineEnds_unlines {ls : List Text} (h : ∀ line ∈ ls, IsLine line)
    (hne : ls ≠ []) : (trimLineEnds (unlines ls)).splitOn '\n' = trimBlankLines ls := by
  have hne' := trimBlankLines_ne_nil hne
  have hlines : ∀ line ∈ trimBlankLines ls, IsLine line := fun line hl =>
    h line ((trimBlankLines_take ls).subset hl)
  have htext : unlines ls = ['\n'].intercalate (trimBlankLines ls) ++
      ('\n' :: List.replicate (blankEnd ls) '\n') := by
    conv_lhs => rw [← trimBlankLines_append_replicate ls]
    rw [unlines_append, unlines_eq_intercalate hne', unlines_replicate, List.append_assoc,
      List.singleton_append]
  have hback : ∀ c ∈ '\n' :: List.replicate (blankEnd ls) '\n', isLineEnd c := by
    intro c hc
    rw [← List.replicate_succ] at hc
    rw [List.eq_of_mem_replicate hc]
    rfl
  rw [htext, trimLineEnds_append hback,
    trimLineEnds_intercalate hlines (blankEnd_trimBlankLines ls)]
  exact List.splitOn_intercalate '\n' (fun line hl => (hlines line hl).1) hne'

/-! ### Words and numbers -/

/-- A word, unless it is empty. -/
def wordOf (word : Text) : List Text := if word = [] then [] else [word]

/-- The words of a text behind the beginning of one. -/
def wordsFrom (word : Text) : Text → List Text
  | [] => wordOf word
  | c :: rest =>
      if Str.isWhitespace c then wordOf word ++ wordsFrom [] rest else wordsFrom (word ++ [c]) rest

/-- `str::split_whitespace`. -/
def words (text : Text) : List Text := wordsFrom [] text

/-- The characters before a blank belong to its word. -/
lemma wordsFrom_append {word front rest : Text} (h : ∀ c ∈ front, ¬ Str.isWhitespace c) :
    wordsFrom word (front ++ ' ' :: rest) = wordOf (word ++ front) ++ words rest := by
  induction front generalizing word with
  | nil =>
      rw [List.nil_append, List.append_nil, wordsFrom, if_pos (show Str.isWhitespace ' ' from rfl)]
      rfl
  | cons c front ih =>
      rw [List.cons_append, wordsFrom, if_neg (h c List.mem_cons_self),
        ih fun d hd => h d (List.mem_cons_of_mem c hd), List.append_assoc, List.singleton_append]

/-- The first word of a text. -/
lemma words_append {front rest : Text} (h : ∀ c ∈ front, ¬ Str.isWhitespace c) (hne : front ≠ []) :
    words (front ++ ' ' :: rest) = front :: words rest := by
  rw [words, wordsFrom_append h, List.nil_append, wordOf, if_neg hne, List.singleton_append]

/-- A text without the plus sign before it. -/
def withoutPlus : Text → Text
  | '+' :: rest => rest
  | text => text

/-- `str::parse` of a `usize`: digits, perhaps behind a plus sign. -/
def parseUsize (text : Text) : Option ℕ :=
  let digits := withoutPlus text
  if digits ≠ [] ∧ digits.all Char.isDigit ∧ Nat.ofDigitChars 10 digits 0 < 2 ^ 64 then
    some (Nat.ofDigitChars 10 digits 0)
  else none

lemma isDigit_of_mem_toDigits {n : ℕ} {c : Char} (h : c ∈ Nat.toDigits 10 n) : c.isDigit :=
  Nat.isDigit_of_mem_toDigits (by norm_num) (by norm_num) h

/-- A number that is written is read again. -/
lemma parseUsize_toDigits {n : ℕ} (hn : n < 2 ^ 64) : parseUsize (Nat.toDigits 10 n) = some n := by
  have hdigits : ∀ c ∈ Nat.toDigits 10 n, c.isDigit := fun c => isDigit_of_mem_toDigits
  have hplus : withoutPlus (Nat.toDigits 10 n) = Nat.toDigits 10 n := by
    rw [withoutPlus.eq_2]
    intro rest hrest
    have hmem : '+' ∈ Nat.toDigits 10 n := by
      rw [hrest]
      exact List.mem_cons_self
    exact absurd (hdigits '+' hmem) (by decide)
  have hvalue : Nat.ofDigitChars 10 (Nat.toDigits 10 n) 0 = n := Nat.ofDigitChars_ten_toDigits
  have hparses : Nat.toDigits 10 n ≠ [] ∧ (Nat.toDigits 10 n).all Char.isDigit ∧
      Nat.ofDigitChars 10 (Nat.toDigits 10 n) 0 < 2 ^ 64 :=
    ⟨Nat.toDigits_ne_nil, List.all_eq_true.mpr hdigits, by rwa [hvalue]⟩
  simp only [parseUsize, hplus]
  rw [if_pos hparses, hvalue]

end TextLines

end McpSurfaces
