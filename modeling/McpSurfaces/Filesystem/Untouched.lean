import McpSurfaces.Filesystem.UnifiedApply
import McpSurfaces.Foundation.FileLines

/-!
The lines of a file outside the hunks of a patch, and the bytes they have in the patched file.

* `untouchedLines` follows the lines of the file through the hunks: the lines of the patched file that
  are its own, as they stood in it. `Untouched`: each has its bytes at its place in the output.
* `EndsAlike`: the lines outside the hunks end as the file does, and no blank line ends the file.
* **`untouched_iff`**: the lines outside the hunks keep their bytes exactly then.
-/

namespace McpSurfaces

namespace Filesystem

open Lists TextLines

/-! ### The lines outside the hunks -/

/-- The lines behind a hunk: where it is applied, its lines take the place of those it replaces. -/
def markHunk (position : ℕ) (marks : List (Option Text)) (h : ParsedPatchHunk) :
    List (Option Text) :=
  marks.take position ++ List.replicate h.replacement.length none ++
    marks.drop (position + h.old.length)

/-- The lines behind the hunks from one index on. -/
def markHunks (index : ℕ) (p : Patched) (marks : List (Option Text)) :
    List ParsedPatchHunk → List (Option Text)
  | [] => marks
  | h :: hunks =>
      match hunkPosition index p h, applyHunk index p h with
      | .ok position, .ok q => markHunks (index + 1) q (markHunk position marks h) hunks
      | _, _ => marks

/-- The lines that take part in a patch, those of the file as they stand in it, and none for those
of the hunks. -/
def patchedMarks (text : Text) (hunks : List ParsedPatchHunk) : List (Option Text) :=
  markHunks 0 ⟨patchedLines text, 0, 0⟩ ((frontLines (fileLines text)).map some) hunks

/-- The lines of the patched file, with the blank ones at the end of the file, which no hunk
reaches. -/
def untouchedLines (text : Text) (hunks : List ParsedPatchHunk) : List (Option Text) :=
  patchedMarks text hunks ++ (endLines (fileLines text)).map some

/-- Every line outside the hunks stands at its place in the output with its bytes; a last line
without an end may be given one. -/
def Untouched (text : Text) (hunks : List ParsedPatchHunk) (output : Text) : Prop :=
  ∀ (k : ℕ) (line : Text), (untouchedLines text hunks)[k]? = some (some line) →
    (fileLines output)[k]? = some line ∨
      '\n' ∉ line ∧ (fileLines output)[k]? = some (line ++ newlineOf text)

/-- The lines outside the hunks end as the file does, the last one perhaps without an end; where the
file ends without one, so does the last line outside the hunks that is left there; and there is no
blank line at the end of the file, or nothing else is left. -/
structure EndsAlike (text : Text) (hunks : List ParsedPatchHunk) : Prop where
  ends : ∀ (k : ℕ) (line : Text), (patchedMarks text hunks)[k]? = some (some line) →
    line = trimLineEnds line ++ newlineOf text ∧
        (k + 1 < (patchedMarks text hunks).length ∨ text.getLast? = some '\n') ∨
      line = trimLineEnds line
  noBlank : endLines (fileLines text) = [] ∨
    patchedMarks text hunks = [] ∧ endLines (fileLines text) = [newlineOf text]

/-- Hunks whose lines have no line feed in them. -/
def Lined (hunks : List ParsedPatchHunk) : Prop := ∀ h ∈ hunks, ∀ line ∈ h.lines, '\n' ∉ line.2

/-! ### Lines that are written -/

/-- The end of a line of a file is carriage returns before a line feed. -/
lemma newlineOf_eq (text : Text) : ∃ returns, '\n' ∉ returns ∧ newlineOf text = returns ++ ['\n'] := by
  rw [newlineOf]
  split_ifs
  · exact ⟨['\r'], by decide, rfl⟩
  · exact ⟨[], List.not_mem_nil, rfl⟩

/-- The lines that are written with an end between them, and one behind them where the text is
closed. -/
def writtenLines (newline : Text) (closed : Bool) : List Text → List Text
  | [] => if closed then [newline] else []
  | [line] => if closed then [line ++ newline] else if line = [] then [] else [line]
  | line :: next :: rest => (line ++ newline) :: writtenLines newline closed (next :: rest)

variable {newline : Text} {closed : Bool}

lemma flatten_writtenLines (ls : List Text) :
    (writtenLines newline closed ls).flatten =
      newline.intercalate ls ++ if closed then newline else [] := by
  match ls with
  | [] =>
      rw [writtenLines]
      split_ifs <;> simp
  | [line] =>
      rw [writtenLines]
      split_ifs with hclosed hempty <;> simp [*]
  | line :: next :: rest =>
      rw [writtenLines, List.flatten_cons, flatten_writtenLines, List.intercalate_cons_cons,
        List.append_assoc, List.append_assoc, List.append_assoc]

lemma cut_writtenLines {returns : Text} (hreturns : '\n' ∉ returns)
    (hnewline : newline = returns ++ ['\n']) {ls : List Text} (h : ∀ line ∈ ls, '\n' ∉ line) :
    Cut (writtenLines newline closed ls) := by
  have hended : ∀ {line : Text}, '\n' ∉ line → Ended (line ++ newline) := by
    intro line hline
    refine ⟨line ++ returns, fun hmem => ?_, by rw [hnewline, List.append_assoc]⟩
    rcases List.mem_append.mp hmem with hmem | hmem
    · exact hline hmem
    · exact hreturns hmem
  induction ls with
  | nil =>
      rw [writtenLines]
      split_ifs
      · exact .inl (hended List.not_mem_nil)
      · trivial
  | cons line rest ih =>
      have hline := h line List.mem_cons_self
      cases rest with
      | nil =>
          rw [writtenLines]
          split_ifs with hclosed hempty
          · exact .inl (hended hline)
          · trivial
          · exact .inr ⟨hempty, hline⟩
      | cons next rest =>
          exact (ih fun l hl => h l (List.mem_cons_of_mem line hl)).cons (hended hline)

/-- What is written of the line at a place. -/
lemma getElem?_writtenLines {ls : List Text} {k : ℕ} {line : Text} (h : ls[k]? = some line) :
    (writtenLines newline closed ls)[k]? =
      if k + 1 < ls.length ∨ closed then some (line ++ newline)
      else if line = [] then none else some line := by
  induction ls generalizing k with
  | nil => cases h
  | cons first rest ih =>
      cases rest with
      | nil =>
          cases k with
          | succ k => cases h
          | zero =>
              cases h
              rw [writtenLines]
              cases closed
              · by_cases hempty : line = [] <;> simp [hempty]
              · simp
      | cons next rest =>
          cases k with
          | zero =>
              cases h
              simp [writtenLines]
          | succ k =>
              rw [List.getElem?_cons_succ] at h
              rw [writtenLines, List.getElem?_cons_succ, ih h]
              simp only [List.length_cons, Nat.add_lt_add_iff_right]

/-- Nothing is written behind the lines. -/
lemma getElem?_writtenLines_of_le {ls : List Text} {k : ℕ} (hne : ls ≠ []) (h : ls.length ≤ k) :
    (writtenLines newline closed ls)[k]? = none := by
  refine List.getElem?_eq_none (le_trans ?_ h)
  clear h
  induction ls with
  | nil => exact absurd rfl hne
  | cons line rest ih =>
      cases rest with
      | nil =>
          rw [writtenLines]
          split_ifs <;> simp
      | cons next rest =>
          rw [writtenLines, List.length_cons, List.length_cons]
          exact Nat.succ_le_succ (ih (List.cons_ne_nil _ _))

/-! ### The lines through the hunks -/

/-- The lines of a patched file are those that are followed: a line of its own is what it was in the
file without its end. -/
def Follow (mark : Option Text) (line : Text) : Prop :=
  '\n' ∉ line ∧ ∀ own, mark = some own → line = trimLineEnds own ∧ own ≠ []

lemma follow_hunk {marks : List (Option Text)} {index position : ℕ} {p q : Patched}
    {h : ParsedPatchHunk} (hlined : ∀ line ∈ h.lines, '\n' ∉ line.2)
    (hfollow : List.Forall₂ Follow marks p.lines) (hposition : hunkPosition index p h = .ok position)
    (happlied : applyHunk index p h = .ok q) :
    List.Forall₂ Follow (markHunk position marks h) q.lines := by
  obtain ⟨other, hother, -, hlines⟩ := applyHunk_ok happlied
  cases hposition.symm.trans hother
  rw [hlines, markHunk]
  have hnew : List.Forall₂ Follow (List.replicate h.replacement.length none) h.replacement := by
    refine List.forall₂_iff_get.mpr ⟨List.length_replicate, fun i hi hi' => ⟨?_, fun own hown => ?_⟩⟩
    · obtain ⟨marked, hmarked, heq⟩ := List.mem_map.mp (List.get_mem h.replacement ⟨i, hi'⟩)
      rw [← heq]
      exact hlined marked (List.mem_of_mem_filter hmarked)
    · rw [List.get_eq_getElem, List.getElem_replicate] at hown
      cases hown
  exact List.rel_append (List.rel_append (List.forall₂_take position hfollow) hnew)
    (List.forall₂_drop _ hfollow)

lemma follow_hunks {hunks : List ParsedPatchHunk} (hlined : Lined hunks) {index : ℕ}
    {p q : Patched} {marks : List (Option Text)} (hfollow : List.Forall₂ Follow marks p.lines)
    (happlied : applyHunks index p hunks = .ok q) :
    List.Forall₂ Follow (markHunks index p marks hunks) q.lines := by
  induction hunks generalizing index p marks with
  | nil =>
      cases happlied
      exact hfollow
  | cons h hunks ih =>
      rw [applyHunks] at happlied
      obtain ⟨next, hnext, happlied⟩ := bind_eq_ok happlied
      obtain ⟨position, hposition, -⟩ := applyHunk_ok hnext
      rw [markHunks, hposition, hnext]
      exact ih (fun h' hmem => hlined h' (List.mem_cons_of_mem h hmem))
        (follow_hunk (hlined h List.mem_cons_self) hfollow hposition hnext) happlied

lemma ne_nil_of_cut {line : Text} (h : Ended line ∨ Unended line) : line ≠ [] := by
  rcases h with ⟨body, -, hbody⟩ | ⟨hne, -⟩
  · rw [hbody]
    exact List.append_ne_nil_of_right_ne_nil body (List.cons_ne_nil _ _)
  · exact hne

lemma follow_file (text : Text) :
    List.Forall₂ Follow ((frontLines (fileLines text)).map some) (patchedLines text) := by
  have hlines : patchedLines text = (frontLines (fileLines text)).map trimLineEnds := by
    rw [patchedLines]
    split_ifs with hempty
    · rw [hempty]
      rfl
    · have hne : fileLines text ≠ [] := fun hnone => hempty (by rw [← flatten_fileLines text, hnone]; rfl)
      have hsplit := splitOn_trimLineEnds (cut_fileLines text) hne
      rwa [flatten_fileLines] at hsplit
  rw [hlines, List.forall₂_map_left_iff, List.forall₂_map_right_iff, List.forall₂_same]
  intro line hline
  have hcut := (cut_fileLines text).mem ((frontLines_isStart _).subset hline)
  refine ⟨notMem_trimLineEnds hcut, fun own hown => ?_⟩
  cases hown
  exact ⟨rfl, ne_nil_of_cut hcut⟩

/-! ### The output -/

/-- Whether an end of a line is written behind the last one. -/
def isClosed (text : Text) (hunks : List ParsedPatchHunk) : Bool :=
  decide (text.getLast? = some '\n' ∨ (hunks ≠ [] ∧ text = []))

lemma isClosed_iff {text : Text} (hunks : List ParsedPatchHunk) (htext : text ≠ []) :
    isClosed text hunks ↔ text.getLast? = some '\n' := by
  rw [isClosed, decide_eq_true_eq]
  exact or_iff_left fun hempty => htext hempty.2

lemma fileLines_output {text output : Text} {hunks : List ParsedPatchHunk} (hlined : Lined hunks)
    (h : applyPatchContent (.text text) hunks false = .ok (.text output)) :
    ∃ ls, List.Forall₂ Follow (patchedMarks text hunks) ls ∧
      fileLines output = writtenLines (newlineOf text) (isClosed text hunks) ls := by
  rw [applyPatchContent] at h
  obtain ⟨q, happlied, h⟩ := bind_eq_ok h
  have hfollow := follow_hunks hlined (follow_file text) happlied
  obtain ⟨returns, hreturns, hnewline⟩ := newlineOf_eq text
  have hfeeds : ∀ line ∈ q.lines, '\n' ∉ line := by
    intro line hline
    obtain ⟨_, _, hmark⟩ := exists_related (List.Forall₂.flip hfollow) hline
    exact hmark.1
  have houtput : output = (writtenLines (newlineOf text) (isClosed text hunks) q.lines).flatten := by
    rw [flatten_writtenLines]
    dsimp only at h
    by_cases hclosed : text.getLast? = some '\n' ∨ (hunks ≠ [] ∧ text = [])
    · rw [if_neg (by decide), if_pos hclosed] at h
      cases h
      rw [isClosed, decide_eq_true hclosed, if_pos rfl]
    · rw [if_neg (by decide), if_neg hclosed] at h
      cases h
      rw [isClosed, decide_eq_false hclosed, if_neg (by decide), List.append_nil]
  refine ⟨q.lines, hfollow, ?_⟩
  rw [houtput, fileLines_flatten (cut_writtenLines hreturns hnewline hfeeds)]

/-! ### The bytes of the lines -/

/-- The lines of the file behind the hunks are some of those it had. -/
lemma mem_of_mem_markHunks {hunks : List ParsedPatchHunk} {index : ℕ} {p : Patched}
    {marks : List (Option Text)} {own : Text} (h : some own ∈ markHunks index p marks hunks) :
    some own ∈ marks := by
  induction hunks generalizing index p marks with
  | nil => exact h
  | cons hunk hunks ih =>
      rw [markHunks] at h
      split at h
      · have hmark := ih h
        rw [markHunk, List.append_assoc] at hmark
        rcases List.mem_append.mp hmark with hmark | hmark
        · exact List.mem_of_mem_take hmark
        rcases List.mem_append.mp hmark with hmark | hmark
        · cases List.eq_of_mem_replicate hmark
        · exact List.mem_of_mem_drop hmark
      · exact h

lemma text_ne_nil_of_mark {text own : Text} {hunks : List ParsedPatchHunk}
    (h : some own ∈ patchedMarks text hunks) : text ≠ [] := by
  rintro rfl
  cases mem_of_mem_markHunks h

variable {text output : Text} {hunks : List ParsedPatchHunk}

/-- A line outside the hunks that is written with its bytes. -/
lemma stands_iff {ls : List Text} (hfollow : List.Forall₂ Follow (patchedMarks text hunks) ls)
    {k : ℕ} {line : Text} (hmark : (patchedMarks text hunks)[k]? = some (some line)) :
    ((writtenLines (newlineOf text) (isClosed text hunks) ls)[k]? = some line ∨
        '\n' ∉ line ∧ (writtenLines (newlineOf text) (isClosed text hunks) ls)[k]? =
          some (line ++ newlineOf text)) ↔
      (line = trimLineEnds line ++ newlineOf text ∧
          (k + 1 < (patchedMarks text hunks).length ∨ text.getLast? = some '\n') ∨
        line = trimLineEnds line) := by
  obtain ⟨hk, hget⟩ := List.getElem?_eq_some_iff.mp hmark
  have hk' : k < ls.length := hfollow.length_eq ▸ hk
  have hpair := hfollow.get hk hk'
  obtain ⟨hfeed, hown⟩ := hpair
  obtain ⟨hbare, hne⟩ := hown line hget
  have hline : ls[k]? = some (trimLineEnds line) := by
    rw [List.getElem?_eq_getElem hk', ← hbare]
    rfl
  have hclosed := isClosed_iff hunks (text_ne_nil_of_mark (List.mem_of_getElem? hmark))
  have hnotFeed : '\n' ∉ trimLineEnds line := by
    rw [← hbare]
    exact hfeed
  obtain ⟨returns, -, hnewline⟩ := newlineOf_eq text
  have hfeedNewline : ∀ {front : Text}, '\n' ∈ front ++ newlineOf text := fun {front} => by
    rw [hnewline, ← List.append_assoc]
    exact List.mem_append_right _ List.mem_cons_self
  rw [getElem?_writtenLines hline, ← hclosed, hfollow.length_eq]
  by_cases hend : k + 1 < ls.length ∨ isClosed text hunks
  · -- An end is written behind the line.
    rw [if_pos hend, Option.some.injEq, Option.some.injEq]
    constructor
    · rintro (hsame | ⟨-, hsame⟩)
      · exact .inl ⟨hsame.symm, hend⟩
      · exact .inr (List.append_cancel_right hsame).symm
    · rintro (⟨hsame, -⟩ | hsame)
      · exact .inl hsame.symm
      · exact .inr ⟨hsame ▸ hnotFeed, by rw [← hsame]⟩
  · -- It is the last line, and nothing is written behind it.
    rw [if_neg hend]
    by_cases hempty : trimLineEnds line = []
    · rw [if_pos hempty]
      refine iff_of_false ?_ ?_
      · rintro (hnone | ⟨-, hnone⟩) <;> cases hnone
      · rintro (⟨-, hnot⟩ | hsame)
        · exact hend hnot
        · exact hne (hsame.trans hempty)
    · rw [if_neg hempty, Option.some.injEq, Option.some.injEq]
      constructor
      · rintro (hsame | ⟨-, hsame⟩)
        · exact .inr hsame.symm
        · exact absurd hfeedNewline (hsame ▸ hnotFeed)
      · rintro (⟨-, hnot⟩ | hsame)
        · exact absurd hnot hend
        · exact .inl hsame.symm

/-- The blank lines at the end of a file that are written where they were. -/
lemma blankEnd_iff {ls : List Text} (hfollow : List.Forall₂ Follow (patchedMarks text hunks) ls) :
    (∀ (k : ℕ) (line : Text), (endLines (fileLines text))[k]? = some line →
        (writtenLines (newlineOf text) (isClosed text hunks) ls)[ls.length + k]? = some line ∨
          '\n' ∉ line ∧ (writtenLines (newlineOf text) (isClosed text hunks) ls)[ls.length + k]? =
            some (line ++ newlineOf text)) ↔
      (endLines (fileLines text) = [] ∨
        patchedMarks text hunks = [] ∧ endLines (fileLines text) = [newlineOf text]) := by
  have hall := frontLines_append_endLines (fileLines text)
  cases hblank : endLines (fileLines text) with
  | nil =>
      refine iff_of_true (fun k line hline => ?_) (.inl rfl)
      rw [List.getElem?_nil] at hline
      cases hline
  | cons first rest =>
      have hfirst : first ≠ [] := by
        refine ne_nil_of_cut ((cut_fileLines text).mem ?_)
        rw [← hall, hblank]
        exact List.mem_append_right _ List.mem_cons_self
      rcases List.eq_nil_or_concat' ls with rfl | ⟨front, last, rfl⟩
      · -- Nothing else is left: at most one end of a line is written.
        have hmarks := List.forall₂_nil_right_iff.mp hfollow
        have htext : text ≠ [] := by
          rintro rfl
          cases hblank
        rw [hmarks, List.length_nil]
        constructor
        · intro hstands
          right
          have hzero := hstands 0 first rfl
          rw [writtenLines] at hstands hzero
          by_cases hclosed : isClosed text hunks
          · rw [if_pos hclosed] at hstands hzero
            have hsame : first = newlineOf text := by
              rcases hzero with hsame | ⟨-, hsame⟩
              · exact (Option.some.inj hsame).symm
              · have hlonger := Option.some.inj hsame
                exact absurd (List.append_left_eq_self.mp hlonger.symm) hfirst
            refine ⟨rfl, ?_⟩
            rw [hsame]
            cases rest with
            | nil => rfl
            | cons second rest =>
                rcases hstands 1 second rfl with hnone | ⟨-, hnone⟩ <;> cases hnone
          · rw [if_neg hclosed] at hzero
            rcases hzero with hnone | ⟨-, hnone⟩ <;> cases hnone
        · rintro (hnone | ⟨-, hsame⟩) k line hline
          · cases hnone
          · obtain ⟨returns, -, hnewline⟩ := newlineOf_eq text
            have hclosed : isClosed text hunks := by
              refine (isClosed_iff hunks htext).mpr ?_
              rw [← flatten_fileLines text, ← hall, hblank, hsame, hnewline, List.flatten_append,
                List.flatten_singleton, ← List.append_assoc, List.getLast?_concat]
            rw [hsame] at hline
            cases k with
            | zero =>
                cases hline
                rw [writtenLines, if_pos hclosed]
                exact .inl rfl
            | succ k => cases hline
      · -- Nothing is written behind the last line.
        have hne : front ++ [last] ≠ [] := List.append_ne_nil_of_right_ne_nil _ (List.cons_ne_nil _ _)
        refine iff_of_false (fun hstands => ?_) ?_
        · have hnone := hstands 0 first rfl
          rw [getElem?_writtenLines_of_le hne (Nat.le_add_right _ _)] at hnone
          rcases hnone with hnone | ⟨-, hnone⟩ <;> cases hnone
        · rintro (hnone | ⟨hmarks, -⟩)
          · cases hnone
          · rw [hmarks] at hfollow
            exact hne (List.forall₂_nil_left_iff.mp hfollow)

/-- **The lines outside the hunks keep their bytes** exactly when they end as the file does and no
blank line is at its end; and in a file that is deleted, when there are none. -/
theorem untouched_iff {deleting : Bool} (hlined : Lined hunks)
    (h : applyPatchContent (.text text) hunks deleting = .ok (.text output)) :
    Untouched text hunks output ↔
      if deleting then ∀ mark ∈ untouchedLines text hunks, mark = none
      else EndsAlike text hunks := by
  cases deleting with
  | true =>
      rw [if_pos rfl]
      have hempty : output = [] := by
        rw [applyPatchContent] at h
        obtain ⟨q, -, h⟩ := bind_eq_ok h
        cases h
        rfl
      rw [hempty]
      constructor
      · intro hall mark hmark
        obtain ⟨k, hk⟩ := List.mem_iff_getElem?.mp hmark
        cases mark with
        | none => rfl
        | some line => rcases hall k line hk with hnone | ⟨-, hnone⟩ <;> cases hnone
      · intro hall k line hline
        cases hall _ (List.mem_of_getElem? hline)
  | false =>
      obtain ⟨ls, hfollow, houtput⟩ := fileLines_output hlined h
      rw [if_neg (by decide), Untouched, houtput]
      constructor
      · intro hall
        refine ⟨fun k line hmark => (stands_iff hfollow hmark).mp (hall k line ?_),
          (blankEnd_iff hfollow).mp fun k line hline => hall _ line ?_⟩
        · rw [untouchedLines, List.getElem?_append_left (List.getElem?_eq_some_iff.mp hmark).1, hmark]
        · rw [untouchedLines, ← hfollow.length_eq, List.getElem?_append_right (Nat.le_add_right _ _),
            Nat.add_sub_cancel_left, List.getElem?_map, hline]
          rfl
      · rintro ⟨hends, hblank⟩ k line hline
        rw [untouchedLines] at hline
        rcases Nat.lt_or_ge k (patchedMarks text hunks).length with hk | hk
        · rw [List.getElem?_append_left hk] at hline
          exact (stands_iff hfollow hline).mpr (hends k line hline)
        · rw [List.getElem?_append_right hk, List.getElem?_map] at hline
          obtain ⟨own, hown, hsame⟩ := Option.map_eq_some_iff.mp hline
          cases hsame
          have hstands := (blankEnd_iff hfollow).mpr hblank _ line hown
          rwa [← hfollow.length_eq, Nat.add_sub_cancel' hk] at hstands

/-! ### What is parsed of a patch -/

/-! ### A file of two ends -/

/-- A hunk that replaces a line. -/
def replaceLine (old new : String) : ParsedPatchHunk :=
  ⟨none, [('-', old.toList), ('+', new.toList)]⟩

/-- **A line outside the hunk does not keep its bytes**: its line feed becomes that of the file's
other lines. -/
theorem not_untouched_of_mixed : ∃ output,
    applyPatchContent (.text "a\r\nb\nc\n".toList) [replaceLine "c" "d"] false = .ok (.text output) ∧
      ¬ Untouched "a\r\nb\nc\n".toList [replaceLine "c" "d"] output := by
  refine ⟨"a\r\nb\r\nd\r\n".toList, by decide +kernel, fun h => ?_⟩
  have hline : (untouchedLines "a\r\nb\nc\n".toList [replaceLine "c" "d"])[1]? =
      some (some "b\n".toList) := by
    decide +kernel
  have hstands := h 1 "b\n".toList hline
  revert hstands
  decide +kernel

/-- In a file of one end the lines outside the hunk keep their bytes. -/
theorem untouched_of_alike :
    Untouched "a\nb\nc\n".toList [replaceLine "c" "d"] "a\nb\nd\n".toList ↔
      if false then ∀ mark ∈ untouchedLines "a\nb\nc\n".toList [replaceLine "c" "d"], mark = none
      else EndsAlike "a\nb\nc\n".toList [replaceLine "c" "d"] :=
  untouched_iff (fun hunk hmem => by
    rw [List.mem_singleton.mp hmem]
    decide) (by decide +kernel)

end Filesystem

end McpSurfaces
