import McpSurfaces.Filesystem.ReadPaging
import McpSurfaces.Foundation.LineJoin

/-!
Replacing a range of the lines of a file: `fs_replace_range` against `fs_read_file_range`.

* `ExactEdit`: what is written has the bytes of the other lines, and reads as it should.
* `Kept`: the other lines have the end that the editor joins with, and the replacement keeps its
  lines in front of it.
* **`edits_as_read_iff`**: the editor accepts the ranges that a reader is shown and writes exactly,
  if and only if the text is no lone end of a line and the lines are `Kept`.
-/

namespace McpSurfaces

namespace Filesystem

open ByteLines TextLines

/-! ### The editor -/

/-- Whether a text has a line that ends with a carriage return and a line feed. -/
def HasCrlf (text : Text) : Prop := ['\r', '\n'] <:+: text

instance (text : Text) : Decidable (HasCrlf text) := inferInstanceAs (Decidable (_ <:+: _))

/-- The text without the end of its last line. -/
def bodyOf (text : Text) : Text := stripEnd '\r' (stripEnd '\n' text)

/-- The lines of a text as the editor splits it. -/
def editorLines (text : Text) : List Text :=
  if bodyOf text = [] then [] else ((bodyOf text).splitOn '\n').map (stripEnd '\r')

def replacementLines (replacement : Text) : List Text :=
  if replacement = [] then [] else replacement.splitOn '\n'

/-- The text behind an edit. -/
def editedText (text : Text) (start stop : ℕ) (replacement : Text) : Text :=
  (newlineOf text).intercalate ((editorLines text).take (start - 1) ++
      (replacementLines replacement ++ (editorLines text).drop stop)) ++
    if text.getLast? = some '\n' then newlineOf text else []

/-- What an edit has written. -/
structure RangeEdit where
  content : Text
  insertedLines : ℕ
  beforeSha256 : String
  afterSha256 : String

/-- The edit of the lines of a range, if they are there. -/
def editRange (path root : Path) (before : Text) (start stop : ℕ) (replacement : Text) :
    Except FsError RangeEdit :=
  let total := (editorLines before).length
  if total + 1 < start then
    .error ⟨"start_line_out_of_range", "start_line_out_of_range: " ++ toString start,
      .object [("path", .string (String.ofList path)), ("root", .string (String.ofList root)),
        ("start_line", .ofNat start), ("total_lines", .ofNat total)]⟩
  else if total < stop then
    .error ⟨"end_line_out_of_range", "end_line_out_of_range: " ++ toString stop,
      .object [("path", .string (String.ofList path)), ("root", .string (String.ofList root)),
        ("end_line", .ofNat stop), ("total_lines", .ofNat total)]⟩
  else
    let content := editedText before start stop replacement
    .ok ⟨content, (replacementLines replacement).length, Sha2.sha256 (encode before),
      Sha2.sha256 (encode content)⟩

/-- The text that replaces the lines. -/
def replacementOf (args : Map) : Text :=
  (((args.get "replacement").bind Value.asStr).getD "").toList

/-- The digest that a caller expects, if it names one. -/
def expectedSha256 (args : Map) : Option String :=
  ((args.get "expected_sha256").bind Value.asStr).filter (· ≠ "")

/-- The refusal of a file that is not what its caller has seen. -/
def sha256Mismatch (path root : Path) (expected actual : String) : FsError :=
  .plain "fs_replace_range_expected_sha256_mismatch" (.object [
    ("operation", .string "fs_replace_range"), ("expected_sha256", .string expected),
    ("actual_sha256", .string actual), ("path", .string (String.ofList path)),
    ("root", .string (String.ofList root)),
    ("concurrency_diagnosis", .object [
      ("reason",
        .string "file_content_changed_since_observation_or_guard_is_not_full_file_hash"),
      ("expected_hash_scope", .string "full_file"), ("actual_hash_scope", .string "full_file"),
      ("actual_hash_source", .string "live_file_bytes"), ("cache_used", .bool false),
      ("attribution", .string
        "external_or_unobserved_writer_unless_a_matching_filesystem_audit_record_exists")]),
    ("remediation", .string
      ("Re-read the full-file content_sha256, reconcile the concurrent change, " ++
        "and retry with that live hash."))])

/-- `replace_range`, for a target that is resolved and read. -/
def replaceRange (path root : Path) (before : Text) (args : Map) : Except FsError RangeEdit :=
  match integer args "start_line" with
  | none => .error (.plain "start_line_must_be_positive_integer" (.object []))
  | some start =>
      match integer args "end_line" with
      | none => .error (.plain "end_line_must_be_greater_than_or_equal_start_line" (.object []))
      | some stop =>
          if start < 1 then
            .error (.plain "start_line_must_be_positive_integer"
              (.object [("start_line", .ofInt start)]))
          else if stop < start then
            .error (.plain "end_line_must_be_greater_than_or_equal_start_line"
              (.object [("start_line", .ofInt start), ("end_line", .ofInt stop)]))
          else
            match (expectedSha256 args).filter (· ≠ Sha2.sha256 (encode before)) with
            | some expected =>
                .error (sha256Mismatch path root expected (Sha2.sha256 (encode before)))
            | none => editRange path root before start.toNat stop.toNat (replacementOf args)

/-! ### Exact edits -/

/-- An edit has the bytes of the lines before the range, of the replacement, with an end behind it
where it needs one, and of the lines behind the range; and it reads so. -/
structure ExactEdit (text : Text) (start stop : ℕ) (replacement content : Text) : Prop where
  bytes : ∃ ending ∈ [[], ['\n'], ['\r', '\n']],
    content = ((fileLines text).take (start - 1)).flatten ++
      (replacement ++ (ending ++ ((fileLines text).drop stop).flatten))
  lines : textLines content =
    (textLines text).take (start - 1) ++ (textLines replacement ++ (textLines text).drop stop)

/-- The end of a line that has a carriage return where the text has. -/
def EndsAs (text line : Text) : Prop := line.getLast? = some '\r' ↔ HasCrlf text

/-- A replacement that keeps its lines when an end is put behind it. -/
def Open (text replacement : Text) : Prop :=
  replacement.getLast? ≠ some '\n' ∧ (HasCrlf text → replacement.getLast? ≠ some '\r')

/-- The other lines end as the editor joins them, and the lines of the replacement stay as they
are. -/
structure Kept (text : Text) (start stop : ℕ) (replacement : Text) : Prop where
  ends : ∀ line ∈ (rawLines '\n' text).take (start - 1) ++
    ((rawLines '\n' text).drop stop).dropLast, EndsAs text line
  last : ∀ line ∈ ((rawLines '\n' text).drop stop).getLast?,
    (line.getLast? = some '\r' ↔ HasCrlf text ∧ text.getLast? = some '\n') ∧
      (stripEnd '\r' line).getLast? ≠ some '\r'
  feeds : HasCrlf text → '\n' ∉ replacement
  closed : stop < (rawLines '\n' text).length ∨ text.getLast? = some '\n' →
    Open text replacement
  removed : replacement = [] → stop = (rawLines '\n' text).length →
    (start = 1 ↔ text.getLast? ≠ some '\n')

/-! ### Carriage returns -/

/-- What is before the line feed of the end that lines are joined with. -/
def returnOf (text : Text) : Text := if HasCrlf text then ['\r'] else []

lemma newlineOf_eq_returnOf (text : Text) : newlineOf text = returnOf text ++ ['\n'] := by
  by_cases h : HasCrlf text
  · rw [returnOf, if_pos h]
    exact if_pos h
  · rw [returnOf, if_neg h]
    exact if_neg h

lemma notMem_returnOf (text : Text) : '\n' ∉ returnOf text := by
  rw [returnOf]
  split_ifs <;> decide

lemma notMem_stripEnd {line : Text} (h : '\n' ∉ line) : '\n' ∉ stripEnd '\r' line := by
  rw [stripEnd]
  split_ifs
  · exact fun hmem => h (List.dropLast_subset line hmem)
  · exact h

lemma stripEnd_concat (line : Text) : stripEnd '\r' (line ++ ['\r']) = line := by
  rw [stripEnd, List.getLast?_concat, if_pos rfl, List.dropLast_concat]

/-- A line without its carriage return is itself with the return of a text behind it exactly if it
has one where the text has. -/
lemma stripEnd_returnOf_iff (text line : Text) :
    stripEnd '\r' line ++ returnOf text = line ↔ EndsAs text line := by
  rw [EndsAs]
  rcases List.eq_nil_or_concat' line with rfl | ⟨front, c, rfl⟩
  · rw [returnOf]
    split_ifs with h <;> simp [h, stripEnd]
  · rw [returnOf, stripEnd, List.getLast?_concat, List.dropLast_concat]
    by_cases hc : c = '\r' <;> by_cases h : HasCrlf text <;> simp [hc, h]

lemma stripEnd_eq_self_iff (line : Text) :
    stripEnd '\r' line = line ↔ line.getLast? ≠ some '\r' := by
  rcases List.eq_nil_or_concat' line with rfl | ⟨front, c, rfl⟩
  · simp [stripEnd]
  · rw [stripEnd, List.getLast?_concat, List.dropLast_concat]
    by_cases hc : c = '\r' <;> simp [hc]

/-- A line without two carriage returns is itself with one behind it, or none, exactly if it has no
other. -/
lemma stripEnd_stripEnd_iff {ending : Text} (hending : ending = [] ∨ ending = ['\r'])
    (line : Text) : stripEnd '\r' (stripEnd '\r' line) ++ ending = line ↔
      stripEnd '\r' line ++ ending = line ∧ (stripEnd '\r' line).getLast? ≠ some '\r' := by
  have hagain : stripEnd '\r' (stripEnd '\r' line) ++ ending = line →
      stripEnd '\r' (stripEnd '\r' line) = stripEnd '\r' line := by
    intro h
    rcases hending with rfl | rfl
    · rw [List.append_nil] at h
      by_contra hne
      rw [stripEnd_eq_self_iff, not_not] at hne
      have hlength := congrArg List.length h
      have hline : line.getLast? = some '\r' := by
        by_contra hopen
        rw [(stripEnd_eq_self_iff line).mpr hopen] at hne
        exact hopen hne
      have hpos : 0 < line.length := by
        rw [List.length_pos_iff]
        rintro rfl
        cases hline
      rw [stripEnd, if_pos hne, stripEnd, if_pos hline, List.length_dropLast,
        List.length_dropLast] at hlength
      omega
    · conv_rhs => rw [← h]
      rw [stripEnd_concat]
  rw [Ne, ← Ne, ← stripEnd_eq_self_iff]
  constructor
  · exact fun h => ⟨hagain h ▸ h, hagain h⟩
  · rintro ⟨h, hsame⟩
    rwa [hsame]

/-! ### Editors and readers of one shape -/

section Shapes

variable {text last : Text} {front : List Text} {closed : Bool}

lemma bodyOf_eq (h : Shape text front last closed) :
    bodyOf text = unlines front ++ stripEnd '\r' last := by
  have hstrip : stripEnd '\n' text = unlines front ++ last := by
    by_cases hclosed : closed = true
    · rw [stripEnd, if_pos (h.getLast?_eq_iff.mpr hclosed), h.text_eq, if_pos hclosed,
        ← List.append_assoc, List.dropLast_concat]
    · rw [stripEnd, if_neg (mt h.getLast?_eq_iff.mp hclosed), h.text_eq, if_neg hclosed,
        List.append_nil]
  rw [bodyOf, hstrip]
  rcases List.eq_nil_or_concat' last with rfl | ⟨init, c, rfl⟩
  · rcases List.eq_nil_or_concat' front with rfl | ⟨lines, line, rfl⟩
    · rfl
    · have hfeed : (unlines (lines ++ [line])).getLast? = some '\n' :=
        getLast?_unlines (List.append_ne_nil_of_right_ne_nil _ (List.cons_ne_nil _ _))
      rw [List.append_nil, stripEnd, if_neg (by rw [hfeed]; decide)]
      simp [stripEnd]
  · rw [← List.append_assoc, stripEnd, stripEnd, List.getLast?_concat, List.getLast?_concat,
      List.dropLast_concat, List.dropLast_concat]
    split_ifs <;> simp

lemma bodyOf_eq_nil_iff (h : Shape text front last closed) :
    bodyOf text = [] ↔ front = [] ∧ stripEnd '\r' last = [] := by
  rw [bodyOf_eq h, List.append_eq_nil_iff]
  refine and_congr_left fun _ => ⟨fun hempty => ?_, fun hempty => hempty ▸ rfl⟩
  by_contra hne
  exact unlines_ne_nil hne hempty

/-- The editor drops up to two carriage returns of the last line. -/
lemma editorLines_eq (h : Shape text front last closed) (hbody : bodyOf text ≠ []) :
    editorLines text = front.map (stripEnd '\r') ++ [stripEnd '\r' (stripEnd '\r' last)] := by
  have hfree : ∀ line ∈ front ++ [stripEnd '\r' last], '\n' ∉ line := by
    intro line hline
    rcases List.mem_append.mp hline with hline | hline
    · exact h.front_free line hline
    · rw [List.mem_singleton.mp hline]
      exact notMem_stripEnd h.last_free
  have hjoin : unlines front ++ stripEnd '\r' last =
      ['\n'].intercalate (front ++ [stripEnd '\r' last]) := by
    rw [intercalate_append _ _ (List.cons_ne_nil _ _), List.intercalate_singleton,
      unlines_eq_closeWith]
  rw [editorLines, if_neg hbody, bodyOf_eq h, hjoin,
    List.splitOn_intercalate '\n' hfree
      (List.append_ne_nil_of_right_ne_nil _ (List.cons_ne_nil _ _)),
    List.map_append, List.map_singleton]

lemma textLines_eq (h : Shape text front last closed) :
    textLines text = front.map (stripEnd '\r') ++ [stripEnd '\r' last] := by
  rw [textLines, shownLines, h.rawLines_eq, List.map_append, List.map_singleton]

lemma textLines_unlines_append {ls : List Text} (h : ∀ line ∈ ls, '\n' ∉ line) (rest : Text) :
    textLines (unlines ls ++ rest) = ls.map (stripEnd '\r') ++ textLines rest := by
  rw [textLines, shownLines, rawLines_unlines_append h, List.map_append]
  rfl

/-- A line with an end, before the rest of a text. -/
lemma textLines_closed_append {line : Text} (h : '\n' ∉ line) (rest : Text) :
    textLines (line ++ '\n' :: rest) = stripEnd '\r' line :: textLines rest := by
  rw [textLines, shownLines, rawLines_feed h, List.map_cons]
  rfl

/-- A text that is closed by an end reads as before, exactly if it was open and the carriage return
of the end is its only one. -/
lemma textLines_append_newline_iff {replacement : Text} (hne : replacement ≠ []) (text : Text) :
    textLines (replacement ++ newlineOf text) = textLines replacement ↔ Open text replacement := by
  obtain ⟨lines, line, closed, hshape⟩ := exists_shape hne
  rw [Open, Ne, hshape.getLast?_eq_iff, newlineOf_eq_returnOf]
  cases closed with
  | true =>
      refine ⟨fun heq => ?_, fun h => absurd rfl h.1⟩
      have hlength := congrArg List.length heq
      rw [textLines_eq hshape, hshape.text_eq, if_pos rfl, List.append_assoc, List.append_assoc,
        textLines_unlines_append hshape.front_free, List.singleton_append,
        textLines_closed_append hshape.last_free,
        textLines_closed_append (notMem_returnOf text) []] at hlength
      simp at hlength
  | false =>
      have hopen : replacement = unlines lines ++ line := by
        rw [hshape.text_eq, if_neg Bool.false_ne_true, List.append_nil]
      have hlast : replacement.getLast? = line.getLast? := by
        obtain ⟨init, c, rfl⟩ := (List.eq_nil_or_concat' line).resolve_left (hshape.nonempty rfl)
        rw [hopen, ← List.append_assoc, List.getLast?_concat, List.getLast?_concat]
      have hfree : '\n' ∉ line ++ returnOf text := by
        rw [List.mem_append, not_or]
        exact ⟨hshape.last_free, notMem_returnOf text⟩
      have hreads : textLines (replacement ++ (returnOf text ++ ['\n'])) =
          lines.map (stripEnd '\r') ++ [stripEnd '\r' (line ++ returnOf text)] := by
        rw [hopen, List.append_assoc, textLines_unlines_append hshape.front_free,
          ← List.append_assoc, textLines_closed_append hfree []]
        rfl
      rw [hreads, textLines_eq hshape, List.append_cancel_left_eq, List.cons.injEq, hlast,
        returnOf]
      split_ifs with hcrlf
      · rw [stripEnd_concat]
        simp only [hcrlf, true_implies, not_false_eq_true, true_and, and_true]
        exact eq_comm.trans (stripEnd_eq_self_iff line)
      · simp [hcrlf]

/-! ### The bytes of an edit -/

variable {start stop : ℕ} {replacement : Text}

lemma flatten_take_fileLines (h : Shape text front last closed) {n : ℕ} (hn : n ≤ front.length) :
    ((fileLines text).take n).flatten = unlines (front.take n) := by
  rw [h.fileLines_eq, List.take_append_of_le_length (by rwa [List.length_map]), ← List.map_take,
    unlines, List.flatMap]

lemma flatten_drop_fileLines (h : Shape text front last closed) {n : ℕ} (hn : n ≤ front.length) :
    ((fileLines text).drop n).flatten =
      unlines (front.drop n) ++ (last ++ if closed then ['\n'] else []) := by
  rw [h.fileLines_eq, List.drop_append_of_le_length (by rwa [List.length_map]), ← List.map_drop,
    List.flatten_append, List.flatten_singleton, unlines, List.flatMap]

lemma ite_getLast? (h : Shape text front last closed) {α : Type} (a b : α) :
    (if text.getLast? = some '\n' then a else b) = if closed then a else b := by
  simp only [h.getLast?_eq_iff]

/-- An edit before the last line. -/
lemma editedText_inside (h : Shape text front last closed) (hbody : bodyOf text ≠ [])
    (hstart : start - 1 ≤ front.length) (hstop : stop ≤ front.length) (replacement : Text) :
    editedText text start stop replacement =
      closeWith (newlineOf text) ((front.take (start - 1)).map (stripEnd '\r')) ++
        (closeWith (newlineOf text) (replacementLines replacement) ++
          (closeWith (newlineOf text) ((front.drop stop).map (stripEnd '\r')) ++
            (stripEnd '\r' (stripEnd '\r' last) ++ if closed then newlineOf text else []))) := by
  rw [editedText, ite_getLast? h, editorLines_eq h hbody,
    List.take_append_of_le_length (by rwa [List.length_map]),
    List.drop_append_of_le_length (by rwa [List.length_map]), ← List.map_take, ← List.map_drop,
    intercalate_append _ _ (by simp), ← List.append_assoc (replacementLines replacement),
    intercalate_append _ _ (List.cons_ne_nil _ _), List.intercalate_singleton, closeWith_append]
  simp only [List.append_assoc]

/-- An edit up to the last line. -/
lemma editedText_end (h : Shape text front last closed) (hbody : bodyOf text ≠ [])
    (hstart : start - 1 ≤ front.length) (hstop : stop = front.length + 1) (replacement : Text) :
    editedText text start stop replacement =
      (newlineOf text).intercalate ((front.take (start - 1)).map (stripEnd '\r') ++
        replacementLines replacement) ++ if closed then newlineOf text else [] := by
  have hdrop : (front.map (stripEnd '\r') ++ [stripEnd '\r' (stripEnd '\r' last)]).drop stop = [] :=
    List.drop_eq_nil_of_le (by simp [hstop])
  rw [editedText, ite_getLast? h, editorLines_eq h hbody, hdrop, List.append_nil,
    List.take_append_of_le_length (by rwa [List.length_map]), ← List.map_take]

/-- The lines of a replacement stay as they are where they are joined by line feeds. -/
lemma intercalate_splitOn_iff (text u v : Text) :
    (newlineOf text).intercalate (replacement.splitOn '\n') ++ u = replacement ++ v ↔
      (HasCrlf text → '\n' ∉ replacement) ∧ u = v := by
  by_cases hfeeds : HasCrlf text → '\n' ∉ replacement
  · have hjoin : (newlineOf text).intercalate (replacement.splitOn '\n') = replacement := by
      by_cases hcrlf : HasCrlf text
      · rw [List.splitOn_eq_singleton (hfeeds hcrlf), List.intercalate_singleton]
      · rw [newlineOf_eq_returnOf, returnOf, if_neg hcrlf, List.nil_append,
          List.intercalate_splitOn]
    rw [hjoin, List.append_cancel_left_eq]
    exact ⟨fun huv => ⟨hfeeds, huv⟩, And.right⟩
  · refine ⟨fun heq => ?_, fun h => absurd h.1 hfeeds⟩
    -- the first line feed of the replacement has become a carriage return
    exfalso
    obtain ⟨hcrlf, hmem⟩ := Classical.not_imp.mp hfeeds
    obtain ⟨x, y, hsplit, hfree⟩ := List.eq_append_cons_of_mem (not_not.mp hmem)
    rw [hsplit, List.splitOn_append_cons_self_of_not_mem hfree,
      List.intercalate_cons_of_ne_nil (List.splitOn_ne_nil _ _), newlineOf_eq_returnOf, returnOf,
      if_pos hcrlf] at heq
    simp at heq

/-! ### The lines behind the range -/

/-- The lines behind a range as the editor joins them. -/
lemma joined_behind_iff (h : Shape text front last closed) (n : ℕ) :
    closeWith (newlineOf text) ((front.drop n).map (stripEnd '\r')) ++
        (stripEnd '\r' (stripEnd '\r' last) ++ if closed then newlineOf text else []) =
      unlines (front.drop n) ++ (last ++ if closed then ['\n'] else []) ↔
    (∀ line ∈ front.drop n, EndsAs text line) ∧
      (last.getLast? = some '\r' ↔ HasCrlf text ∧ closed = true) ∧
      (stripEnd '\r' last).getLast? ≠ some '\r' := by
  have hfree : ∀ line ∈ front.drop n, '\n' ∉ line := fun line hline =>
    h.front_free line (List.mem_of_mem_drop hline)
  have hlast : stripEnd '\r' (stripEnd '\r' last) ++ (if closed then newlineOf text else []) =
      last ++ (if closed then ['\n'] else []) ↔
      (last.getLast? = some '\r' ↔ HasCrlf text ∧ closed = true) ∧
        (stripEnd '\r' last).getLast? ≠ some '\r' := by
    cases closed with
    | true =>
        rw [if_pos rfl, if_pos rfl, newlineOf_eq_returnOf, ← List.append_assoc,
          List.append_cancel_right_eq,
          stripEnd_stripEnd_iff (by rw [returnOf]; split_ifs <;> simp), stripEnd_returnOf_iff,
          EndsAs]
        simp
    | false =>
        rw [if_neg Bool.false_ne_true, if_neg Bool.false_ne_true, List.append_nil last,
          stripEnd_stripEnd_iff (.inl rfl), List.append_nil, stripEnd_eq_self_iff]
        simp
  rw [← hlast, newlineOf_eq_returnOf]
  constructor
  · intro heq
    obtain ⟨hlines, hrest⟩ := closeWith_cancel (notMem_returnOf text) hfree
      (fun line hline => notMem_stripEnd (hfree line hline)) heq
    exact ⟨fun line hline => (stripEnd_returnOf_iff text line).mp (hlines line hline), hrest⟩
  · rintro ⟨hlines, hrest⟩
    rw [closeWith_of_forall fun line hline =>
      (stripEnd_returnOf_iff text line).mpr (hlines line hline), hrest]

/-- The joined lines behind a range have as many line feeds as the lines of the file. -/
lemma count_joined_behind (h : Shape text front last closed) (n : ℕ) :
    (closeWith (newlineOf text) ((front.drop n).map (stripEnd '\r')) ++
        (stripEnd '\r' (stripEnd '\r' last) ++ if closed then newlineOf text else [])).count '\n' =
      (unlines (front.drop n) ++ (last ++ if closed then ['\n'] else [])).count '\n' := by
  have hfree : ∀ line ∈ front.drop n, '\n' ∉ line := fun line hline =>
    h.front_free line (List.mem_of_mem_drop hline)
  have hstripped : ∀ line ∈ (front.drop n).map (stripEnd '\r'), '\n' ∉ line := by
    intro line hline
    obtain ⟨whole, hwhole, rfl⟩ := List.mem_map.mp hline
    exact notMem_stripEnd (hfree whole hwhole)
  have hunlines := @count_closeWith [] List.not_mem_nil _ hfree
  rw [List.nil_append] at hunlines
  have hlast : (stripEnd '\r' (stripEnd '\r' last)).count '\n' = 0 :=
    List.count_eq_zero.mpr (notMem_stripEnd (notMem_stripEnd h.last_free))
  rw [newlineOf_eq_returnOf, List.count_append, List.count_append, List.count_append,
    List.count_append,
    count_closeWith (notMem_returnOf text) hstripped, unlines_eq_closeWith, hunlines, hlast,
    List.count_eq_zero.mpr h.last_free, List.length_map]
  cases closed <;> simp [List.count_append, List.count_eq_zero.mpr (notMem_returnOf text)]

/-- A text behind the end that lines are joined with has that end before it, and a text without one
has none: they have as many line feeds. -/
lemma ending_cancel {ending x y : Text} (hending : ending ∈ [[], ['\n'], ['\r', '\n']])
    (hcount : x.count '\n' = y.count '\n') (text : Text) :
    (newlineOf text ++ x = ending ++ y → newlineOf text = ending ∧ x = y) ∧
      (x = ending ++ y → x = y) := by
  have hone (ending : Text) (h : ending.count '\n' = 0)
      (hmem : ending ∈ [[], ['\n'], ['\r', '\n']]) : ending = [] := by
    rcases List.mem_cons.mp hmem with rfl | hmem
    · rfl
    · rcases List.mem_pair.mp hmem with rfl | rfl <;> cases h
  have hnewline : (newlineOf text).count '\n' = 1 := by
    rw [newlineOf]
    split_ifs <;> rfl
  constructor
  · intro h
    have hfeeds := congrArg (List.count '\n') h
    rw [List.count_append, List.count_append, hcount, hnewline] at hfeeds
    have hlength : (newlineOf text).length = ending.length := by
      rw [newlineOf] at h ⊢
      rcases List.mem_cons.mp hending with rfl | hending
      · rw [List.count_nil] at hfeeds
        omega
      · rcases List.mem_pair.mp hending with rfl | rfl <;> split_ifs at h ⊢ <;>
          first | rfl | (cases h)
    exact List.append_inj h hlength
  · intro h
    have hfeeds := congrArg (List.count '\n') h
    rw [List.count_append, hcount] at hfeeds
    rw [hone ending (by omega) hending] at h
    exact h

/-! ### Edits that are exact -/

lemma kept_inside_iff (h : Shape text front last closed) (hstart : start - 1 ≤ front.length)
    (hstop : stop ≤ front.length) : Kept text start stop replacement ↔
      (∀ line ∈ front.take (start - 1), EndsAs text line) ∧
      ((∀ line ∈ front.drop stop, EndsAs text line) ∧
        (last.getLast? = some '\r' ↔ HasCrlf text ∧ closed = true) ∧
        (stripEnd '\r' last).getLast? ≠ some '\r') ∧
      (HasCrlf text → '\n' ∉ replacement) ∧ Open text replacement := by
  have htake : (rawLines '\n' text).take (start - 1) = front.take (start - 1) := by
    rw [h.rawLines_eq, List.take_append_of_le_length hstart]
  have hdrop : (rawLines '\n' text).drop stop = front.drop stop ++ [last] := by
    rw [h.rawLines_eq, List.drop_append_of_le_length hstop]
  have hlength : (rawLines '\n' text).length = front.length + 1 := by
    rw [h.rawLines_eq, List.length_append, List.length_singleton]
  constructor
  · intro hkept
    have hends := hkept.ends
    have hlast := hkept.last
    rw [htake, hdrop, List.dropLast_concat] at hends
    rw [hdrop, List.getLast?_concat, h.getLast?_eq_iff] at hlast
    exact ⟨fun line hline => hends line (List.mem_append_left _ hline),
      ⟨fun line hline => hends line (List.mem_append_right _ hline), hlast last rfl⟩, hkept.feeds,
      hkept.closed (.inl (by omega))⟩
  · rintro ⟨hbefore, ⟨hbehind, hlast⟩, hfeeds, hopen⟩
    refine ⟨?_, ?_, hfeeds, fun _ => hopen, fun _ hall => by omega⟩
    · rw [htake, hdrop, List.dropLast_concat]
      intro line hline
      rcases List.mem_append.mp hline with hline | hline
      · exact hbefore line hline
      · exact hbehind line hline
    · rw [hdrop, List.getLast?_concat, h.getLast?_eq_iff]
      intro line hline
      obtain rfl := Option.some.inj hline
      exact hlast

lemma kept_end_iff (h : Shape text front last closed) (hstart : start - 1 ≤ front.length)
    (hstop : stop = front.length + 1) : Kept text start stop replacement ↔
      (∀ line ∈ front.take (start - 1), EndsAs text line) ∧
      (HasCrlf text → '\n' ∉ replacement) ∧ (closed = true → Open text replacement) ∧
      (replacement = [] → (start = 1 ↔ closed = false)) := by
  have htake : (rawLines '\n' text).take (start - 1) = front.take (start - 1) := by
    rw [h.rawLines_eq, List.take_append_of_le_length hstart]
  have hlength : (rawLines '\n' text).length = front.length + 1 := by
    rw [h.rawLines_eq, List.length_append, List.length_singleton]
  have hdrop : (rawLines '\n' text).drop stop = [] := List.drop_eq_nil_of_le (by omega)
  have hopen : text.getLast? ≠ some '\n' ↔ closed = false := by
    rw [Ne, h.getLast?_eq_iff, Bool.not_eq_true]
  constructor
  · intro hkept
    have hends := hkept.ends
    rw [htake, hdrop, List.dropLast_nil, List.append_nil] at hends
    refine ⟨hends, hkept.feeds, fun hclosed => hkept.closed (.inr (h.getLast?_eq_iff.mpr hclosed)),
      fun hnone => ?_⟩
    rw [← hopen]
    exact hkept.removed hnone (by omega)
  · rintro ⟨hbefore, hfeeds, hclosed, hremoved⟩
    refine ⟨?_, ?_, hfeeds, fun hmore => ?_, fun hnone _ => ?_⟩
    · rwa [htake, hdrop, List.dropLast_nil, List.append_nil]
    · rw [hdrop]
      exact nofun
    · rcases hmore with hmore | hmore
      · omega
      · exact hclosed (h.getLast?_eq_iff.mp hmore)
    · rw [hopen]
      exact hremoved hnone

/-- The lines before a range as the editor joins them. -/
lemma joined_before_iff (h : Shape text front last closed) (n : ℕ) (u v : Text) :
    closeWith (newlineOf text) ((front.take n).map (stripEnd '\r')) ++ u =
      unlines (front.take n) ++ v ↔ (∀ line ∈ front.take n, EndsAs text line) ∧ u = v := by
  have hfree : ∀ line ∈ front.take n, '\n' ∉ line := fun line hline =>
    h.front_free line (List.mem_of_mem_take hline)
  rw [newlineOf_eq_returnOf]
  constructor
  · intro heq
    obtain ⟨hlines, hrest⟩ := closeWith_cancel (notMem_returnOf text) hfree
      (fun line hline => notMem_stripEnd (hfree line hline)) heq
    exact ⟨fun line hline => (stripEnd_returnOf_iff text line).mp (hlines line hline), hrest⟩
  · rintro ⟨hlines, rfl⟩
    rw [closeWith_of_forall fun line hline =>
      (stripEnd_returnOf_iff text line).mpr (hlines line hline)]

/-- What the new text shows behind the lines before the range. -/
lemma textLines_behind_iff (h : Shape text front last closed) (hstart : start - 1 ≤ front.length)
    (rest : Text) (ls : List Text) :
    textLines (unlines (front.take (start - 1)) ++ rest) =
      (textLines text).take (start - 1) ++ ls ↔ textLines rest = ls := by
  rw [textLines_unlines_append fun line hline => h.front_free line (List.mem_of_mem_take hline),
    textLines_eq h, List.take_append_of_le_length (by rwa [List.length_map]), ← List.map_take,
    List.append_cancel_left_eq]

/-- The lines of a text that is closed, before those of the rest. -/
lemma textLines_newline_append (front rest text : Text) :
    textLines (front ++ (newlineOf text ++ rest)) =
      textLines (front ++ newlineOf text) ++ textLines rest := by
  have hne : front ++ newlineOf text ≠ [] := by
    rw [newlineOf_eq_returnOf]
    simp
  obtain ⟨lines, line, closed, hshape⟩ := exists_shape hne
  have hclosed : closed = true := by
    rw [← hshape.getLast?_eq_iff, newlineOf_eq_returnOf, ← List.append_assoc, List.getLast?_concat]
  have hall : front ++ newlineOf text = unlines (lines ++ [line]) := by
    rw [hshape.text_eq, if_pos hclosed, unlines_append]
    simp
  have hfree : ∀ l ∈ lines ++ [line], '\n' ∉ l := by
    intro l hl
    rcases List.mem_append.mp hl with hl | hl
    · exact hshape.front_free l hl
    · exact List.mem_singleton.mp hl ▸ hshape.last_free
  have hone := textLines_unlines_append hfree []
  rw [List.append_nil] at hone
  rw [← List.append_assoc, hall, textLines_unlines_append hfree, hone]
  simp [textLines, shownLines, rawLines, rawLinesFrom]

lemma newlineOf_mem (text : Text) : newlineOf text ∈ [[], ['\n'], ['\r', '\n']] := by
  rw [newlineOf]
  split_ifs <;> decide

lemma textLines_nil : textLines [] = [] := rfl

lemma textLines_drop (h : Shape text front last closed) {n : ℕ} (hn : n ≤ front.length) :
    (textLines text).drop n = textLines ((fileLines text).drop n).flatten := by
  have hfree : ∀ line ∈ front.take n, '\n' ∉ line := fun line hline =>
    h.front_free line (List.mem_of_mem_take hline)
  have htext : text = unlines (front.take n) ++ ((fileLines text).drop n).flatten := by
    rw [flatten_drop_fileLines h hn, ← List.append_assoc, ← unlines_append, List.take_append_drop]
    exact h.text_eq
  have hlength : ((front.take n).map (stripEnd '\r')).length = n := by
    rw [List.length_map, List.length_take_of_le hn]
  conv_lhs => rw [htext, textLines_unlines_append hfree]
  exact List.drop_left' hlength

/-- **Before the last line**, an edit is exact if and only if the lines are kept. -/
lemma exact_inside_iff (h : Shape text front last closed) (hbody : bodyOf text ≠ [])
    (hstart : start - 1 ≤ front.length) (hstop : stop ≤ front.length) :
    ExactEdit text start stop replacement (editedText text start stop replacement) ↔
      Kept text start stop replacement := by
  have hcount := count_joined_behind h stop
  have hbehind := joined_behind_iff h stop
  have hedited := editedText_inside h hbody hstart hstop replacement
  have hshown := textLines_drop h hstop
  have hbefore := joined_before_iff h (start - 1)
  rw [← flatten_drop_fileLines h hstop] at hcount hbehind
  generalize closeWith (newlineOf text) ((front.drop stop).map (stripEnd '\r')) ++
    (stripEnd '\r' (stripEnd '\r' last) ++ if closed then newlineOf text else []) = x at *
  rw [kept_inside_iff h hstart hstop, ← hbehind]
  rcases eq_or_ne replacement [] with rfl | hne
  · have hnone : replacementLines [] = [] := rfl
    rw [hnone, closeWith_nil, List.nil_append] at hedited
    constructor
    · rintro ⟨⟨ending, hending, hbytes⟩, -⟩
      rw [hedited, flatten_take_fileLines h hstart, hbefore, List.nil_append] at hbytes
      exact ⟨hbytes.1, (ending_cancel hending hcount text).2 hbytes.2, fun _ => List.not_mem_nil,
        by simp [Open]⟩
    · rintro ⟨hends, hsame, -, -⟩
      have hcontent := hedited.trans ((hbefore x _).mpr ⟨hends, hsame⟩)
      refine ⟨⟨[], List.mem_cons_self, ?_⟩, ?_⟩
      · rw [hcontent, flatten_take_fileLines h hstart]
        rfl
      · rw [hcontent, textLines_behind_iff h hstart, textLines_nil, List.nil_append, hshown]
  · have hlines : closeWith (newlineOf text) (replacementLines replacement) =
        (newlineOf text).intercalate (replacement.splitOn '\n') ++ newlineOf text := by
      rw [replacementLines, if_neg hne, closeWith_eq_intercalate _ (List.splitOn_ne_nil _ _)]
    rw [hlines, List.append_assoc] at hedited
    have hcontent (hends : ∀ line ∈ front.take (start - 1), EndsAs text line)
        (hfeeds : HasCrlf text → '\n' ∉ replacement)
        (hsame : x = ((fileLines text).drop stop).flatten) :
        editedText text start stop replacement = unlines (front.take (start - 1)) ++
          (replacement ++ (newlineOf text ++ ((fileLines text).drop stop).flatten)) := by
      rw [hedited, hbefore, intercalate_splitOn_iff]
      exact ⟨hends, hfeeds, hsame ▸ rfl⟩
    have hreads (hends : ∀ line ∈ front.take (start - 1), EndsAs text line)
        (hfeeds : HasCrlf text → '\n' ∉ replacement)
        (hsame : x = ((fileLines text).drop stop).flatten) :
        textLines (editedText text start stop replacement) = (textLines text).take (start - 1) ++
          (textLines replacement ++ (textLines text).drop stop) ↔ Open text replacement := by
      rw [hcontent hends hfeeds hsame, textLines_behind_iff h hstart, textLines_newline_append,
        hshown, List.append_cancel_right_eq, textLines_append_newline_iff hne]
    constructor
    · rintro ⟨⟨ending, hending, hbytes⟩, hread⟩
      rw [hedited, flatten_take_fileLines h hstart, hbefore, intercalate_splitOn_iff] at hbytes
      obtain ⟨hends, hfeeds, hrest⟩ := hbytes
      have hsame := ((ending_cancel hending hcount text).1 hrest).2
      exact ⟨hends, hsame, hfeeds, (hreads hends hfeeds hsame).mp hread⟩
    · rintro ⟨hends, hsame, hfeeds, hopen⟩
      refine ⟨⟨newlineOf text, newlineOf_mem text, ?_⟩, (hreads hends hfeeds hsame).mpr hopen⟩
      rw [hcontent hends hfeeds hsame, flatten_take_fileLines h hstart]

/-- **Up to the last line**, an edit is exact if and only if the lines are kept. -/
lemma exact_end_iff (h : Shape text front last closed) (hbody : bodyOf text ≠ [])
    (hpos : 1 ≤ start) (hstart : start - 1 ≤ front.length) (hstop : stop = front.length + 1) :
    ExactEdit text start stop replacement (editedText text start stop replacement) ↔
      Kept text start stop replacement := by
  have hedited := editedText_end h hbody hstart hstop replacement
  have hbefore := joined_before_iff h (start - 1)
  have hnothing : ((fileLines text).drop stop).flatten = [] := by
    rw [List.drop_eq_nil_of_le (by simp [h.fileLines_eq, hstop]), List.flatten_nil]
  have hunshown : (textLines text).drop stop = [] :=
    List.drop_eq_nil_of_le (by simp [textLines_eq h, hstop])
  have hexact (content : Text) : ExactEdit text start stop replacement content ↔
      (∃ ending ∈ [[], ['\n'], ['\r', '\n']],
        content = unlines (front.take (start - 1)) ++ (replacement ++ ending)) ∧
      textLines content = (textLines text).take (start - 1) ++ textLines replacement := by
    rw [← flatten_take_fileLines h hstart]
    constructor
    · rintro ⟨hbytes, hlines⟩
      rw [hunshown, List.append_nil] at hlines
      rw [hnothing] at hbytes
      simp only [List.append_nil] at hbytes
      exact ⟨hbytes, hlines⟩
    · rintro ⟨hbytes, hlines⟩
      refine ⟨?_, by rwa [hunshown, List.append_nil]⟩
      rw [hnothing]
      simpa only [List.append_nil] using hbytes
  rw [hexact, kept_end_iff h hstart hstop]
  rcases eq_or_ne replacement [] with rfl | hne
  · have hopen : Open text [] := by simp [Open]
    have hnone : replacementLines [] = [] := rfl
    rw [hnone, List.append_nil] at hedited
    rcases Nat.lt_or_ge 1 start with hmore | hone
    · have hne : (front.take (start - 1)).map (stripEnd '\r') ≠ [] := by
        rw [Ne, List.map_eq_nil_iff, List.take_eq_nil_iff]
        rintro (hzero | rfl)
        · omega
        · rw [List.length_nil] at hstart
          omega
      have hjoin := closeWith_eq_intercalate (newlineOf text) hne
      cases closed with
      | true =>
          rw [if_pos rfl, ← hjoin] at hedited
          constructor
          · rintro ⟨⟨ending, -, hbytes⟩, -⟩
            rw [hedited, ← List.append_nil (closeWith _ _), List.nil_append, hbefore] at hbytes
            exact ⟨hbytes.1, fun _ => List.not_mem_nil, fun _ => hopen, fun _ =>
              ⟨fun hone => absurd hone hmore.ne', fun hfalse => absurd hfalse (by decide)⟩⟩
          · rintro ⟨hends, -⟩
            have hcontent : editedText text start stop [] =
                unlines (front.take (start - 1)) ++ [] := by
              rw [hedited, ← List.append_nil (closeWith _ _), hbefore]
              exact ⟨hends, rfl⟩
            refine ⟨⟨[], List.mem_cons_self, hcontent⟩, ?_⟩
            rw [hcontent, textLines_behind_iff h hstart]
      | false =>
          rw [if_neg Bool.false_ne_true, List.append_nil] at hedited
          constructor
          · rintro ⟨⟨ending, -, hbytes⟩, -⟩
            -- the last of the lines before the range has lost its end
            have hclosed := congrArg (· ++ newlineOf text) hbytes
            rw [hedited, ← hjoin, List.nil_append, List.append_assoc,
              ← List.append_nil (closeWith _ _), hbefore, newlineOf_eq_returnOf] at hclosed
            simpa using hclosed.2
          · rintro ⟨-, -, -, hremoved⟩
            exact absurd ((hremoved rfl).mpr rfl) hmore.ne'
    · obtain rfl : start = 1 := by omega
      have hempty : editedText text 1 stop [] = if closed then newlineOf text else [] := hedited
      have hnolines : (textLines text).take (1 - 1) ++ textLines [] = [] := rfl
      rw [hempty, hnolines]
      cases closed with
      | true =>
          constructor
          · rintro ⟨-, hread⟩
            rw [if_pos rfl, newlineOf_eq_returnOf,
              textLines_closed_append (notMem_returnOf text) []] at hread
            cases hread
          · rintro ⟨-, -, -, hremoved⟩
            exact absurd ((hremoved rfl).mp rfl) (by decide)
      | false =>
          refine ⟨fun _ => ⟨nofun, fun _ => List.not_mem_nil, fun _ => hopen, fun _ =>
            ⟨fun _ => rfl, fun _ => rfl⟩⟩, fun _ => ⟨⟨[], List.mem_cons_self, rfl⟩, rfl⟩⟩
  · have hjoin : editedText text start stop replacement =
        closeWith (newlineOf text) ((front.take (start - 1)).map (stripEnd '\r')) ++
          ((newlineOf text).intercalate (replacement.splitOn '\n') ++
            if closed then newlineOf text else []) := by
      rw [hedited, replacementLines, if_neg hne,
        intercalate_append _ _ (List.splitOn_ne_nil _ _), List.append_assoc]
    have hreads : textLines (replacement ++ if closed then newlineOf text else []) =
        textLines replacement ↔ (closed = true → Open text replacement) := by
      cases closed with
      | true =>
          rw [if_pos rfl, textLines_append_newline_iff hne]
          exact ⟨fun hopen _ => hopen, fun hopen => hopen rfl⟩
      | false =>
          rw [if_neg Bool.false_ne_true, List.append_nil]
          exact ⟨fun _ h => absurd h Bool.false_ne_true, fun _ => rfl⟩
    have hmem : (if closed then newlineOf text else []) ∈ [[], ['\n'], ['\r', '\n']] := by
      split_ifs
      · exact newlineOf_mem text
      · exact List.mem_cons_self
    constructor
    · rintro ⟨⟨ending, hending, hbytes⟩, hread⟩
      have hcontent := hbytes
      rw [hjoin, hbefore, intercalate_splitOn_iff] at hbytes
      obtain ⟨hends, hfeeds, hrest⟩ := hbytes
      rw [hcontent, ← hrest, textLines_behind_iff h hstart, hreads] at hread
      exact ⟨hends, hfeeds, hread, fun hnone => absurd hnone hne⟩
    · rintro ⟨hends, hfeeds, hopen, -⟩
      have hcontent : editedText text start stop replacement =
          unlines (front.take (start - 1)) ++
            (replacement ++ if closed then newlineOf text else []) := by
        rw [hjoin, hbefore, intercalate_splitOn_iff]
        exact ⟨hends, hfeeds, rfl⟩
      refine ⟨⟨_, hmem, hcontent⟩, ?_⟩
      rw [hcontent, textLines_behind_iff h hstart]
      exact hreads.mpr hopen

end Shapes

/-! ### Ranges -/

/-- A text of one line that is empty, but for its end. -/
def LoneEnd (text : Text) : Prop := text ∈ [['\n'], ['\r', '\n'], ['\r']]

instance (text : Text) : Decidable (LoneEnd text) := inferInstanceAs (Decidable (_ ∈ _))

instance (text line : Text) : Decidable (EndsAs text line) := inferInstanceAs (Decidable (_ ↔ _))

instance (text replacement : Text) : Decidable (Open text replacement) :=
  inferInstanceAs (Decidable (_ ∧ _))

/-- A caller that expects no digest, or the one of the file. -/
def Unguarded (text : Text) (args : Map) : Prop :=
  ∀ expected ∈ expectedSha256 args, expected = Sha2.sha256 (encode text)

/-- A reading of a range reports a number of lines. -/
def Reports (path root : Path) (text : Text) (total : ℕ) : Prop :=
  ∃ chunks args start stop page, chunks.flatten = encode text ∧ IsRange args start stop ∧
    readFile path root chunks args true = .ok page ∧ page.totalLines = some total

/-- An edit is accepted where its lines are among those of the text, and it is exact. -/
def EditsAsRead (path root : Path) (text : Text) (args : Map) (start stop : ℕ) : Prop :=
  ((∃ edit, replaceRange path root text args = .ok edit) ↔ stop ≤ (textLines text).length) ∧
    ∀ edit, replaceRange path root text args = .ok edit →
      ExactEdit text start stop (replacementOf args) edit.content

variable {path root : Path} {text : Text} {args : Map} {start stop : ℕ}

lemma bodyOf_eq_nil (hne : text ≠ []) : bodyOf text = [] ↔ LoneEnd text := by
  obtain ⟨front, last, closed, h⟩ := exists_shape hne
  rw [bodyOf_eq_nil_iff h]
  constructor
  · rintro ⟨rfl, hlast⟩
    have hone : last = [] ∨ last = ['\r'] := by
      rcases List.eq_nil_or_concat' last with rfl | ⟨init, c, rfl⟩
      · exact .inl rfl
      · rw [stripEnd, List.getLast?_concat, List.dropLast_concat] at hlast
        split_ifs at hlast with hc
        · rw [hlast, Option.some.inj hc]
          exact .inr rfl
        · simp at hlast
    have htext := h.text_eq
    have hopen := h.nonempty
    rcases hone with rfl | rfl <;> cases closed <;> rw [htext]
    · exact absurd rfl (hopen rfl)
    all_goals decide
  · intro hlone
    have hshape : text = ['\n'] ∨ text = ['\r', '\n'] ∨ text = ['\r'] := by
      simpa [LoneEnd] using hlone
    have hbody : bodyOf text = [] := by
      rcases hshape with rfl | rfl | rfl <;> rfl
    exact (bodyOf_eq_nil_iff h).mp hbody

/-- The editor counts the lines that are shown, but for a lone end. -/
lemma length_editorLines (text : Text) :
    (editorLines text).length = if LoneEnd text then 0 else (textLines text).length := by
  rcases eq_or_ne text [] with rfl | hne
  · decide
  · obtain ⟨front, last, closed, h⟩ := exists_shape hne
    by_cases hlone : LoneEnd text
    · rw [if_pos hlone, editorLines, if_pos ((bodyOf_eq_nil hne).mpr hlone)]
      rfl
    · rw [if_neg hlone, editorLines_eq h (mt (bodyOf_eq_nil hne).mp hlone), textLines_eq h]
      simp

lemma replaceRange_eq (hrange : IsRange args start stop) (hfree : Unguarded text args) :
    replaceRange path root text args =
      editRange path root text start stop (replacementOf args) := by
  obtain ⟨hstart, hstop, hpos, hle⟩ := hrange
  have hguard : (expectedSha256 args).filter (· ≠ Sha2.sha256 (encode text)) = none := by
    rw [Option.filter_eq_none_iff]
    exact fun expected hexpected => by simpa using hfree expected hexpected
  rw [replaceRange, hstart, hstop]
  dsimp only
  rw [if_neg (by omega), if_neg (by omega), hguard]
  rfl

lemma editRange_ok_iff (hle : start ≤ stop) {replacement : Text} {edit : RangeEdit} :
    editRange path root text start stop replacement = .ok edit ↔
      stop ≤ (editorLines text).length ∧
      edit = ⟨editedText text start stop replacement, (replacementLines replacement).length,
        Sha2.sha256 (encode text),
        Sha2.sha256 (encode (editedText text start stop replacement))⟩ := by
  rw [editRange]
  dsimp only
  split_ifs with hstart hstop
  · exact ⟨nofun, fun h => by omega⟩
  · exact ⟨nofun, fun h => by omega⟩
  · exact ⟨fun h => ⟨by omega, (Except.ok.inj h).symm⟩, fun h => congrArg _ h.2.symm⟩

lemma notMem_of_foldlM_readChunk {offset limit : ℕ} {chunks : List (List UInt8)} {w read : Window}
    (h : chunks.foldlM (readChunk path root offset limit) w = .ok read) : 0 ∉ chunks.flatten := by
  induction chunks generalizing w with
  | nil => exact List.not_mem_nil
  | cons chunk rest ih =>
      rw [List.foldlM_cons] at h
      obtain ⟨next, hchunk, hrest⟩ := Lists.bind_eq_ok h
      rw [readChunk] at hchunk
      split_ifs at hchunk with hmem
      rw [List.flatten_cons, List.mem_append, not_or]
      exact ⟨hmem, ih hrest⟩

/-- A text that is read has no character zero. -/
lemma isPlain_of_read {chunks : List (List UInt8)} {range : Bool} {page : ReadPage}
    (hchunks : chunks.flatten = encode text)
    (h : readFile path root chunks args range = .ok page) : IsPlain text := by
  obtain ⟨request, -, h⟩ := Lists.bind_eq_ok h
  obtain ⟨window, hwindow, -⟩ := Lists.bind_eq_ok h
  obtain ⟨read, hread, -⟩ := Lists.bind_eq_ok hwindow
  intro hmem
  refine notMem_of_foldlM_readChunk hread ?_
  rw [hchunks, encode, List.mem_flatMap]
  exact ⟨'\x00', hmem, by decide⟩

lemma total_of_reports {total : ℕ} (h : Reports path root text total) :
    total = (textLines text).length := by
  obtain ⟨chunks, args, start, stop, page, hchunks, hrange, hread, htotal⟩ := h
  have hshows := (answers_readFile (isPlain_of_read hchunks hread) hchunks
    (requestOf_range hrange) hrange.2.2.1 hread).shows.2
  rw [htotal] at hshows
  split_ifs at hshows
  exact Option.some.inj hshows

/-- **An edit of lines that are there** is exact if and only if the other lines are kept. -/
lemma exact_iff {replacement : Text} (hpos : 1 ≤ start) (hle : start ≤ stop)
    (hlone : ¬ LoneEnd text) (hstop : stop ≤ (textLines text).length) :
    ExactEdit text start stop replacement (editedText text start stop replacement) ↔
      Kept text start stop replacement := by
  have hne : text ≠ [] := by
    rintro rfl
    rw [textLines_nil, List.length_nil] at hstop
    omega
  obtain ⟨front, last, closed, h⟩ := exists_shape hne
  have hbody : bodyOf text ≠ [] := mt (bodyOf_eq_nil hne).mp hlone
  rw [textLines_eq h, List.length_append, List.length_map, List.length_singleton] at hstop
  rcases hstop.lt_or_eq with hinside | hend
  · exact exact_inside_iff h hbody (by omega) (by omega)
  · exact exact_end_iff h hbody hpos (by omega) hend

/-- **Edits as they are read.** A reader is shown the number of lines of a text. The editor accepts
the ranges of these lines, and writes exactly, if and only if the text is no lone end of a line that
is to be replaced, and the lines of a range that it has are kept. -/
theorem edits_as_read_iff (path root : Path) (hrange : IsRange args start stop)
    (hfree : Unguarded text args) :
    (∀ total, Reports path root text total → total = (textLines text).length) ∧
    (EditsAsRead path root text args start stop ↔
      (LoneEnd text → 1 < stop) ∧ (¬ LoneEnd text → stop ≤ (textLines text).length →
        Kept text start stop (replacementOf args))) := by
  refine ⟨fun total => total_of_reports, ?_⟩
  obtain ⟨-, -, hpos, hle⟩ := id hrange
  rw [EditsAsRead, replaceRange_eq hrange hfree]
  simp only [editRange_ok_iff hle, exists_and_left, exists_eq, and_true, length_editorLines]
  by_cases hlone : LoneEnd text
  · have hone : (textLines text).length = 1 := by
      have hshape : text = ['\n'] ∨ text = ['\r', '\n'] ∨ text = ['\r'] := by
        simpa [LoneEnd] using hlone
      rcases hshape with rfl | rfl | rfl <;> rfl
    rw [if_pos hlone, hone]
    constructor
    · rintro ⟨haccepts, -⟩
      exact ⟨fun _ => by omega, fun h => absurd hlone h⟩
    · rintro ⟨hmore, -⟩
      have := hmore hlone
      exact ⟨by omega, fun edit h => by omega⟩
  · rw [if_neg hlone]
    constructor
    · rintro ⟨-, hexact⟩
      exact ⟨fun h => absurd h hlone, fun _ hstop =>
        (exact_iff hpos hle hlone hstop).mp (hexact _ ⟨hstop, rfl⟩)⟩
    · rintro ⟨-, hkept⟩
      refine ⟨Iff.rfl, ?_⟩
      rintro edit ⟨hstop, rfl⟩
      exact (exact_iff hpos hle hlone hstop).mpr (hkept hlone hstop)

/-! ### A text of lines with two ends -/

/-- A call that replaces a line of a file. -/
def replaceLineArgs (line : ℕ) (replacement : String) : Map :=
  [("path", .string "/w/notes.txt"), ("start_line", .ofNat line), ("end_line", .ofNat line),
    ("replacement", .string replacement)]

/-- A line that is replaced among lines with one end. -/
theorem edits_as_read_one :
    EditsAsRead "/w/notes.txt".toList "/w".toList "a\nb\nc\n".toList (replaceLineArgs 2 "x")
      2 2 := by
  have hrange : IsRange (replaceLineArgs 2 "x") 2 2 := ⟨by decide, by decide, by decide, by decide⟩
  have hfree : Unguarded "a\nb\nc\n".toList (replaceLineArgs 2 "x") := by
    intro expected hexpected
    cases hexpected
  refine (edits_as_read_iff _ _ hrange hfree).2.mpr ⟨by decide, fun _ _ => ?_⟩
  exact ⟨by decide, by decide, by decide, by decide, by decide⟩

/-- A line that is replaced in a file whose lines have two ends: another line gets the end that the
editor joins with. -/
theorem mixed_ends_rewritten :
    ¬ ∀ (path root : Path) (text : Text) (args : Map) (start stop : ℕ),
      IsRange args start stop → Unguarded text args →
      EditsAsRead path root text args start stop := by
  intro h
  have hrange : IsRange (replaceLineArgs 3 "d") 3 3 := ⟨by decide, by decide, by decide, by decide⟩
  have hfree : Unguarded "a\r\nb\nc\n".toList (replaceLineArgs 3 "d") := by
    intro expected hexpected
    cases hexpected
  have hedit := (@replaceRange_eq "/w/notes.txt".toList "/w".toList _ _ _ _ hrange hfree).trans
    ((editRange_ok_iff le_rfl).mpr ⟨by decide, rfl⟩)
  obtain ⟨ending, hending, hbytes⟩ := ((h _ _ _ _ 3 3 hrange hfree).2 _ hedit).bytes
  have hdiffers : ∀ ending ∈ [[], ['\n'], ['\r', '\n']],
      editedText "a\r\nb\nc\n".toList 3 3 (replacementOf (replaceLineArgs 3 "d")) ≠
        ((fileLines "a\r\nb\nc\n".toList).take (3 - 1)).flatten ++
          (replacementOf (replaceLineArgs 3 "d") ++
            (ending ++ ((fileLines "a\r\nb\nc\n".toList).drop 3).flatten)) := by decide
  exact hdiffers ending hending hbytes

end Filesystem

end McpSurfaces
