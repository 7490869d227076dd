import McpSurfaces.Filesystem.Patch

/-!
Correct unified diffs, and how they are read.

* `UnifiedDiff` is a diff as its edits: lines that are left alone, and then a hunk. What it is
  from (`before`), what it is to (`after`) and its text are read off them.
* **`UnifiedDiff.parse_of_separate`**, `UnifiedDiff.separate_of_parse`: the text is read as one
  file, with the hunks of the edits, exactly if no line that it removes looks like a file header.
-/

namespace McpSurfaces

namespace Filesystem

open TextLines

/-! ### Diffs -/

/-- What a line of a hunk says about its text. -/
inductive Mark
  | context
  | removed
  | added
deriving DecidableEq

/-- The character before the text of a line. -/
def Mark.char : Mark → Char
  | .context => ' '
  | .removed => '-'
  | .added => '+'

/-- Lines that are left alone, and the hunk behind them. The header of the hunk may leave out
counts of one, and may end with a heading. -/
structure Edit where
  gap : List Text
  lines : List (Mark × Text)
  short : Bool
  heading : Text

namespace Edit

/-- The lines that the hunk replaces. -/
def old (e : Edit) : List Text := (e.lines.filter fun line => line.1 ≠ .added).map Prod.snd

/-- The lines that it replaces them with. -/
def new (e : Edit) : List Text := (e.lines.filter fun line => line.1 ≠ .removed).map Prod.snd

/-- The lines of the hunk with their marks. -/
def marked (e : Edit) : List (Char × Text) := e.lines.map fun line => (line.1.char, line.2)

/-- The number of a range of a header: of its first line, or of the line before an empty one. -/
def rangeStart (behind count : ℕ) : ℕ := if count = 0 then behind else behind + 1

/-- A range of a header. -/
def range (e : Edit) (behind count : ℕ) : Text :=
  if e.short ∧ count = 1 then Nat.toDigits 10 (rangeStart behind count)
  else Nat.toDigits 10 (rangeStart behind count) ++ ',' :: Nat.toDigits 10 count

/-- The header of the hunk, with the numbers of lines of both sides before the edit. -/
def header (e : Edit) (n m : ℕ) : Text :=
  "@@".toList ++ ' ' :: ('-' :: e.range (n + e.gap.length) e.old.length ++ ' ' ::
    ('+' :: e.range (m + e.gap.length) e.new.length ++ ' ' :: ("@@".toList ++ e.heading)))

/-- The number of lines of the old side behind the edit. -/
def oldEnd (e : Edit) (n : ℕ) : ℕ := n + e.gap.length + e.old.length

def newEnd (e : Edit) (m : ℕ) : ℕ := m + e.gap.length + e.new.length

/-- The hunk as it is parsed. -/
def hunk (e : Edit) (n : ℕ) : ParsedPatchHunk :=
  ⟨some (rangeStart (n + e.gap.length) e.old.length), e.marked⟩

end Edit

/-- The old side of edits with the lines behind them. -/
def beforeOf (tail : List Text) : List Edit → List Text
  | [] => tail
  | e :: es => e.gap ++ e.old ++ beforeOf tail es

/-- The new side of edits with the lines behind them. -/
def afterOf (tail : List Text) : List Edit → List Text
  | [] => tail
  | e :: es => e.gap ++ e.new ++ afterOf tail es

/-- The lines of the hunks. -/
def hunkLines (n m : ℕ) : List Edit → List Text
  | [] => []
  | e :: es => e.header n m :: e.lines.map (fun line => line.1.char :: line.2) ++
      hunkLines (e.oldEnd n) (e.newEnd m) es

/-- The hunks as they are parsed. -/
def parsedHunks (n : ℕ) : List Edit → List ParsedPatchHunk
  | [] => []
  | e :: es => e.hunk n :: parsedHunks (e.oldEnd n) es

/-- What a diff needs to be one: lines are lines, a hunk has some, and its files have names. -/
structure Edit.Valid (e : Edit) : Prop where
  gap : ∀ line ∈ e.gap, IsLine line
  lines : ∀ line ∈ e.lines, IsLine line.2
  heading : IsLine e.heading
  nonempty : e.lines ≠ []

/-- **A correct unified diff** between two texts whose lines all end in a line feed. -/
structure UnifiedDiff where
  preamble : List Text
  oldName : Text
  newName : Text
  edits : List Edit
  tail : List Text
  preamble_lines : ∀ line ∈ preamble, IsLine line ∧ ¬ startsWith line "--- "
  names : IsLine oldName ∧ IsLine newName
  oldPath : ∃ path, sidePath (headerPath ("--- ".toList ++ oldName)) = .ok path
  newPath : ∃ path, sidePath (headerPath ("+++ ".toList ++ newName)) = .ok path ∧
    (path = none → afterOf tail edits = [])
  valid : ∀ e ∈ edits, e.Valid
  tail_lines : ∀ line ∈ tail, IsLine line
  fits : (beforeOf tail edits).length + (edits.flatMap Edit.lines).length < 2 ^ 63

namespace UnifiedDiff

/-- What the diff is from. -/
def before (d : UnifiedDiff) : Text := unlines (beforeOf d.tail d.edits)

/-- What the diff is to. -/
def after (d : UnifiedDiff) : Text := unlines (afterOf d.tail d.edits)

/-- The header of the new side names the null device. -/
def Deletes (d : UnifiedDiff) : Prop :=
  headerPath ("+++ ".toList ++ d.newName) = "/dev/null".toList

instance (d : UnifiedDiff) : Decidable d.Deletes := inferInstanceAs (Decidable (_ = _))

/-- No line that the diff removes looks like a file header. -/
def Separate (d : UnifiedDiff) : Prop :=
  ∀ e ∈ d.edits, ∀ line ∈ e.lines, line.1 = .removed → ¬ startsWith line.2 "-- "

/-- The lines of the diff behind the headers of its file. -/
def body (d : UnifiedDiff) : List Text := hunkLines 0 0 d.edits

/-- The text of the diff. -/
def text (d : UnifiedDiff) : Text :=
  unlines (d.preamble ++ ("--- ".toList ++ d.oldName) :: ("+++ ".toList ++ d.newName) :: d.body)

end UnifiedDiff

/-! ### The text of a diff is its lines -/

section Parse

variable {e : Edit} {es : List Edit} {n m : ℕ}

/-- A range has digits and perhaps a comma. -/
lemma Edit.isDigit_of_mem_range {behind count : ℕ} {c : Char} (h : c ∈ e.range behind count) :
    c.isDigit ∨ c = ',' := by
  rw [Edit.range] at h
  split_ifs at h
  · exact Or.inl (isDigit_of_mem_toDigits h)
  · rcases List.mem_append.mp h with h | h
    · exact Or.inl (isDigit_of_mem_toDigits h)
    · rcases List.mem_cons.mp h with h | h
      · exact Or.inr h
      · exact Or.inl (isDigit_of_mem_toDigits h)

lemma Edit.isLine_range {behind count : ℕ} : IsLine (e.range behind count) := by
  refine isLine_of_forall fun c hc => ?_
  rcases Edit.isDigit_of_mem_range hc with hdigit | rfl
  · constructor <;> rintro rfl <;> exact absurd hdigit (by decide)
  · decide

lemma Edit.isLine_header (h : e.Valid) : IsLine (e.header n m) := by
  refine IsLine.append (by decide) (IsLine.cons (by decide) ?_)
  refine IsLine.append (IsLine.cons (by decide) isLine_range) (IsLine.cons (by decide) ?_)
  refine IsLine.append (IsLine.cons (by decide) isLine_range) (IsLine.cons (by decide) ?_)
  exact IsLine.append (by decide) h.heading

lemma Mark.isLine_cons {mark : Mark} {line : Text} (h : IsLine line) :
    IsLine (mark.char :: line) := by
  cases mark <;> exact h.cons (by decide)

lemma isLine_hunkLines (h : ∀ e ∈ es, e.Valid) :
    ∀ {n m : ℕ}, ∀ line ∈ hunkLines n m es, IsLine line := by
  induction es with
  | nil => simp [hunkLines]
  | cons e es ih =>
      intro n m line hline
      have he := h e List.mem_cons_self
      rw [hunkLines, List.cons_append, List.mem_cons, List.mem_append, List.mem_map] at hline
      rcases hline with rfl | ⟨marked, hmarked, rfl⟩ | hline
      · exact Edit.isLine_header he
      · exact Mark.isLine_cons (he.lines marked hmarked)
      · exact ih (fun e he => h e (List.mem_cons_of_mem _ he)) line hline

lemma UnifiedDiff.lines_text (d : UnifiedDiff) : lines d.text =
    d.preamble ++ ("--- ".toList ++ d.oldName) :: ("+++ ".toList ++ d.newName) :: d.body := by
  refine lines_unlines fun line hline => ?_
  rw [List.mem_append, List.mem_cons, List.mem_cons] at hline
  rcases hline with hline | rfl | rfl | hline
  · exact (d.preamble_lines line hline).1
  · exact IsLine.append (by decide) d.names.1
  · exact IsLine.append (by decide) d.names.2
  · exact isLine_hunkLines d.valid line hline

/-! ### Reading the hunks -/

/-- A range begins with its number. -/
lemma Edit.head_splitOn_range {behind count : ℕ} :
    ((e.range behind count).splitOn ',').head? = some (Nat.toDigits 10 (rangeStart behind count)) := by
  have hcomma : ',' ∉ Nat.toDigits 10 (rangeStart behind count) := fun hmem =>
    absurd (isDigit_of_mem_toDigits hmem) (by decide)
  rw [Edit.range]
  split_ifs
  · rw [List.splitOn_eq_singleton hcomma]
    rfl
  · rw [List.splitOn_append_cons_self_of_not_mem hcomma]
    rfl

/-- **The header of a hunk is read as the number of its range.** -/
lemma Edit.parseHunkStart_header (hstart : rangeStart (n + e.gap.length) e.old.length < 2 ^ 64) :
    parseHunkStart (e.header n m) = some (rangeStart (n + e.gap.length) e.old.length) := by
  have hrange : ∀ c ∈ e.range (n + e.gap.length) e.old.length, ¬ Str.isWhitespace c ∧ c ≠ '-' := by
    intro c hc
    rcases Edit.isDigit_of_mem_range hc with hdigit | rfl
    · refine ⟨Str.not_isWhitespace_of_isAlphanum (by simp [Char.isAlphanum, hdigit]), ?_⟩
      rintro rfl
      exact absurd hdigit (by decide)
    · decide
  have hword : ∀ c ∈ '-' :: e.range (n + e.gap.length) e.old.length, ¬ Str.isWhitespace c :=
    List.forall_mem_cons.mpr ⟨by decide, fun c hc => (hrange c hc).1⟩
  have hdrop : (e.range (n + e.gap.length) e.old.length).dropWhile (· = '-') =
      e.range (n + e.gap.length) e.old.length := by
    cases hcs : e.range (n + e.gap.length) e.old.length with
    | nil => rfl
    | cons c rest =>
        rw [List.dropWhile_cons_of_neg]
        simpa using (hrange c (hcs ▸ List.mem_cons_self)).2
  have hsigns : ∀ c ∈ "@@".toList, ¬ Str.isWhitespace c := by
    rw [show "@@".toList = ['@', '@'] from rfl]
    exact List.forall_mem_cons.mpr ⟨by decide, List.forall_mem_singleton.mpr (by decide)⟩
  rw [parseHunkStart, Edit.header, words_append hsigns (by decide), words_append hword (by simp),
    List.find?_cons_of_neg (by decide), List.find?_cons_of_pos (by rfl)]
  simp only [Option.bind_eq_bind, Option.bind_some]
  rw [List.dropWhile_cons_of_pos (by decide), hdrop, head_splitOn_range, Option.bind_some,
    parseUsize_toDigits hstart]

/-- The lines of a hunk go to the hunk that is read. -/
lemma unifiedHunks_marked (number : ℕ) (hunks : List ParsedPatchHunk) (current : ParsedPatchHunk)
    (marked : List (Mark × Text)) (rest : List Text) :
    unifiedHunks number hunks (some current)
        (marked.map (fun line => line.1.char :: line.2) ++ rest) =
      unifiedHunks (number + marked.length) hunks (some { current with
        lines := current.lines ++ marked.map fun line => (line.1.char, line.2) }) rest := by
  induction marked generalizing number current with
  | nil => simp
  | cons line marked ih =>
      obtain ⟨mark, text⟩ := line
      have hread : ∀ rest, unifiedHunks number hunks (some current) ((mark.char :: text) :: rest) =
          unifiedHunks (number + 1) hunks
            (some { current with lines := current.lines ++ [(mark.char, text)] }) rest := by
        intro rest
        cases mark <;> simp [unifiedHunks, Mark.char, startsWith]
      rw [List.map_cons, List.cons_append, hread, ih, List.length_cons, List.map_cons,
        List.append_assoc, List.singleton_append, Nat.add_right_comm, Nat.add_assoc]

/-- The header of an edit counts lines of the old side. -/
lemma Edit.rangeStart_le (e : Edit) (n : ℕ) :
    rangeStart (n + e.gap.length) e.old.length ≤ e.oldEnd n := by
  rw [rangeStart, Edit.oldEnd]
  split_ifs <;> omega

/-- The edits of a diff have all its lines behind them. -/
lemma oldEnd_add_length (tail : List Text) (n : ℕ) (e : Edit) (es : List Edit) :
    e.oldEnd n + (beforeOf tail es).length = n + (beforeOf tail (e :: es)).length := by
  rw [beforeOf, Edit.oldEnd]
  simp only [List.length_append]
  omega

/-- **The lines of the hunks are read as the hunks.** -/
lemma unifiedHunks_hunkLines (tail : List Text) :
    ∀ {n m : ℕ}, n + (beforeOf tail es).length < 2 ^ 64 →
    ∀ number hunks current, unifiedHunks number hunks current (hunkLines n m es) =
      .ok (hunks ++ current.toList ++ parsedHunks n es) := by
  induction es with
  | nil =>
      intro n m _ number hunks current
      rw [hunkLines, unifiedHunks, parsedHunks, List.append_nil]
  | cons e es ih =>
      intro n m hn number hunks current
      rw [← oldEnd_add_length] at hn
      have hstart : Edit.rangeStart (n + e.gap.length) e.old.length < 2 ^ 64 := by
        have := e.rangeStart_le n
        omega
      have hheader : startsWith (e.header n m) "@@" := by rfl
      rw [hunkLines, List.cons_append, unifiedHunks.eq_def]
      dsimp only
      rw [if_pos hheader, Edit.parseHunkStart_header hstart, unifiedHunks_marked, List.nil_append,
        ih hn, parsedHunks, Option.toList_some, List.append_assoc _ [_], List.singleton_append]
      rfl

/-! ### Reading the file -/

/-- Lines that are no file headers are passed over. -/
lemma unifiedFiles_append {front : List Text} (h : ∀ line ∈ front, ¬ startsWith line "--- ")
    (number : ℕ) (rest : List Text) :
    unifiedFiles number (front ++ rest) = unifiedFiles (number + front.length) rest := by
  induction front generalizing number with
  | nil => rfl
  | cons line front ih =>
      have hline := h line List.mem_cons_self
      rw [List.cons_append, unifiedFiles.eq_def]
      simp only [hline, Bool.not_false, if_true]
      rw [ih (fun l hl => h l (List.mem_cons_of_mem line hl)), List.length_cons,
        Nat.add_right_comm, Nat.add_assoc]

/-- A line that is a file header is read as a file, or fails. -/
lemma unifiedFiles_ne_nil {ls : List Text} (h : ∃ line ∈ ls, startsWith line "--- ") :
    ∀ number, unifiedFiles number ls ≠ .ok [] := by
  induction ls with
  | nil => simp at h
  | cons line rest ih =>
      intro number hfiles
      rw [unifiedFiles.eq_def] at hfiles
      by_cases hline : startsWith line "--- "
      · simp only [hline, Bool.not_true, Bool.false_eq_true, if_false] at hfiles
        cases rest with
        | nil => cases hfiles
        | cons header body =>
            dsimp only at hfiles
            split_ifs at hfiles
            obtain ⟨_, -, hfiles⟩ := Lists.bind_eq_ok hfiles
            obtain ⟨_, -, hfiles⟩ := Lists.bind_eq_ok hfiles
            obtain ⟨_, -, hfiles⟩ := Lists.bind_eq_ok hfiles
            obtain ⟨_, -, hfiles⟩ := Lists.bind_eq_ok hfiles
            cases hfiles
      · simp only [hline, Bool.not_false, if_true] at hfiles
        obtain ⟨other, hother, hheader⟩ := h
        rcases List.mem_cons.mp hother with rfl | hmem
        · exact hline hheader
        · exact ih ⟨other, hmem, hheader⟩ (number + 1) hfiles

/-- The removed lines of a hunk that look like file headers do in the text of the diff. -/
lemma forall_hunkLines_iff :
    ∀ {n m : ℕ}, (∀ line ∈ hunkLines n m es, ¬ startsWith line "--- ") ↔
      ∀ e ∈ es, ∀ line ∈ e.lines, line.1 = .removed → ¬ startsWith line.2 "-- " := by
  have hmark : ∀ line : Mark × Text, (¬ startsWith (line.1.char :: line.2) "--- ") ↔
      (line.1 = .removed → ¬ startsWith line.2 "-- ") := by
    rintro ⟨mark, text⟩
    cases mark <;> simp [Mark.char, startsWith]
  induction es with
  | nil => simp [hunkLines]
  | cons e es ih =>
      intro n m
      have hheader : startsWith (e.header n m) "--- " = false := by rfl
      rw [hunkLines, List.cons_append, List.forall_mem_cons, List.forall_mem_append,
        List.forall_mem_cons, ih, List.forall_mem_map]
      simp only [hmark, hheader, Bool.false_eq_true, not_false_eq_true, true_and]

/-- The null device is no path. -/
lemma isNone_sidePath {raw : Text} {path : Option Text} (h : sidePath raw = .ok path) :
    path.isNone = decide (raw = "/dev/null".toList) := by
  rw [sidePath] at h
  split_ifs at h with hraw
  · cases h
    exact (decide_eq_true hraw).symm
  · cases hclean : cleanPatchPath raw with
    | error failure =>
        rw [hclean] at h
        cases h
    | ok cleaned =>
        rw [hclean] at h
        cases h
        exact (decide_eq_false hraw).symm

/-- What is read behind the preamble of a diff. -/
lemma UnifiedDiff.parse_text (d : UnifiedDiff) :
    ∃ oldPath newPath, newPath.isNone = decide d.Deletes ∧
      parseUnifiedPatch d.text = do
        let hunks ← unifiedHunks (1 + d.preamble.length + 2) [] none
          (d.body.takeWhile fun line => !startsWith line "--- ")
        let files ← unifiedFiles (1 + d.preamble.length + 2) d.body
        return ⟨oldPath, newPath, none, newPath.isNone, hunks⟩ :: files := by
  obtain ⟨oldPath, hold⟩ := d.oldPath
  obtain ⟨newPath, hnew, -⟩ := d.newPath
  refine ⟨oldPath, newPath, isNone_sidePath hnew, ?_⟩
  have hheaders : startsWith ("--- ".toList ++ d.oldName) "--- " ∧
      startsWith ("+++ ".toList ++ d.newName) "+++ " := ⟨rfl, rfl⟩
  rw [parseUnifiedPatch, d.lines_text,
    unifiedFiles_append (fun line hline => (d.preamble_lines line hline).2), unifiedFiles.eq_def]
  simp only [hheaders.1, hheaders.2, Bool.not_true, Bool.false_eq_true, if_false, hold, hnew]
  rfl

/-- **A diff is read as one file** when no line that it removes looks like a file header. -/
lemma UnifiedDiff.parse_of_separate {d : UnifiedDiff} (h : d.Separate) :
    ∃ file, parseUnifiedPatch d.text = .ok [file] ∧ file.hunks = parsedHunks 0 d.edits ∧
      file.delete = decide d.Deletes := by
  obtain ⟨oldPath, newPath, hdelete, hparse⟩ := d.parse_text
  have hbody : ∀ line ∈ d.body, ¬ startsWith line "--- " := forall_hunkLines_iff.mpr h
  have hfits := d.fits
  have htake : d.body.takeWhile (fun line => !startsWith line "--- ") = d.body :=
    List.takeWhile_eq_self_iff.mpr fun line hline => by simpa using hbody line hline
  have hfiles := unifiedFiles_append hbody (1 + d.preamble.length + 2) []
  rw [List.append_nil] at hfiles
  have hhunks : unifiedHunks (1 + d.preamble.length + 2) [] none d.body =
      .ok (parsedHunks 0 d.edits) := unifiedHunks_hunkLines d.tail (by omega) _ [] none
  rw [htake, hfiles, hhunks] at hparse
  exact ⟨_, hparse, rfl, hdelete⟩

/-- A diff that is read as one file removes no such line. -/
lemma UnifiedDiff.separate_of_parse {d : UnifiedDiff} {file : ParsedPatchFile}
    (h : parseUnifiedPatch d.text = .ok [file]) : d.Separate := by
  by_contra hseparate
  obtain ⟨oldPath, newPath, -, hparse⟩ := d.parse_text
  rw [hparse] at h
  obtain ⟨hunks, -, h⟩ := Lists.bind_eq_ok h
  obtain ⟨files, hfiles, h⟩ := Lists.bind_eq_ok h
  obtain rfl : files = [] := (List.cons.inj (Except.ok.inj h)).2
  refine unifiedFiles_ne_nil ?_ _ hfiles
  by_contra hnone
  have hbody : ∀ line ∈ d.body, ¬ startsWith line "--- " := fun line hline hheader =>
    hnone ⟨line, hline, hheader⟩
  exact hseparate (forall_hunkLines_iff.mp hbody)

end Parse

end Filesystem

end McpSurfaces
