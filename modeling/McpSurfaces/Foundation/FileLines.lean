import McpSurfaces.Foundation.TextLines

/-!
The lines of a text with the ends they have in it.

* `fileLines` cuts a text behind each line feed (`flatten_fileLines`); `Cut` are the lists of lines
  that a text can be cut into, and `fileLines_flatten` gives them back.
* **`splitOn_trimLineEnds`**: a text without the ends of lines behind it, split at the line feeds, has
  its front lines without their ends.
-/

namespace McpSurfaces

namespace TextLines

/-- The lines of a text behind the beginning of one, each with its end. -/
def fileLinesFrom (front : Text) : Text → List Text
  | [] => if front = [] then [] else [front]
  | '\n' :: rest => (front ++ ['\n']) :: fileLinesFrom [] rest
  | c :: rest => fileLinesFrom (front ++ [c]) rest

/-- The lines of a text, each with its end. -/
def fileLines (text : Text) : List Text := fileLinesFrom [] text

/-- A line that ends with the only line feed in it. -/
def Ended (line : Text) : Prop := ∃ body, '\n' ∉ body ∧ line = body ++ ['\n']

/-- A line without a line feed, not empty. -/
def Unended (line : Text) : Prop := line ≠ [] ∧ '\n' ∉ line

/-- Lines that all end with a line feed, the last one perhaps apart. -/
def Cut : List Text → Prop
  | [] => True
  | [line] => Ended line ∨ Unended line
  | line :: rest => Ended line ∧ Cut rest

lemma Cut.cons {line : Text} {rest : List Text} (hline : Ended line) (hrest : Cut rest) :
    Cut (line :: rest) := by
  cases rest with
  | nil => exact .inl hline
  | cons next rest => exact ⟨hline, hrest⟩

lemma Cut.tail {line : Text} {rest : List Text} (h : Cut (line :: rest)) : Cut rest := by
  cases rest with
  | nil => trivial
  | cons next rest => exact h.2

lemma Cut.ended {front back : List Text} {line : Text} (h : Cut (front ++ line :: back))
    {l : Text} (hl : l ∈ front) : Ended l := by
  induction front with
  | nil => cases hl
  | cons first front ih =>
      have hfirst : Ended first := by
        cases front with
        | nil => exact h.1
        | cons next front => exact h.1
      rcases List.mem_cons.mp hl with rfl | hl
      · exact hfirst
      · exact ih h.tail hl

lemma Cut.mem {ls : List Text} (h : Cut ls) {l : Text} (hl : l ∈ ls) : Ended l ∨ Unended l := by
  induction ls with
  | nil => cases hl
  | cons first rest ih =>
      rcases List.mem_cons.mp hl with rfl | hl
      · cases rest with
        | nil => exact h
        | cons next rest => exact .inl h.1
      · exact ih h.tail hl

lemma cut_fileLinesFrom {front text : Text} (h : '\n' ∉ front) : Cut (fileLinesFrom front text) := by
  induction text generalizing front with
  | nil =>
      rw [fileLinesFrom]
      split_ifs with hempty
      · trivial
      · exact .inr ⟨hempty, h⟩
  | cons c rest ih =>
      by_cases hc : c = '\n'
      · subst hc
        exact (ih List.not_mem_nil).cons ⟨front, h, rfl⟩
      · rw [fileLinesFrom.eq_3 _ _ _ hc]
        refine ih fun hmem => ?_
        rcases List.mem_append.mp hmem with hmem | hmem
        · exact h hmem
        · exact hc (List.mem_singleton.mp hmem).symm

lemma cut_fileLines (text : Text) : Cut (fileLines text) := cut_fileLinesFrom List.not_mem_nil

lemma flatten_fileLinesFrom (front text : Text) : (fileLinesFrom front text).flatten = front ++ text := by
  induction text generalizing front with
  | nil =>
      rw [fileLinesFrom]
      split_ifs with hempty
      · rw [hempty]
        rfl
      · simp
  | cons c rest ih =>
      by_cases hc : c = '\n'
      · subst hc
        rw [fileLinesFrom, List.flatten_cons, ih, List.append_assoc, List.nil_append,
          List.singleton_append]
      · rw [fileLinesFrom.eq_3 _ _ _ hc, ih, List.append_assoc, List.singleton_append]

/-- The lines of a text are all there is in it. -/
lemma flatten_fileLines (text : Text) : (fileLines text).flatten = text :=
  flatten_fileLinesFrom [] text

lemma fileLinesFrom_append {front body rest : Text} (h : '\n' ∉ body) :
    fileLinesFrom front (body ++ '\n' :: rest) = (front ++ body ++ ['\n']) :: fileLines rest := by
  induction body generalizing front with
  | nil => rw [List.nil_append, fileLinesFrom, List.append_nil, fileLines]
  | cons c body ih =>
      have hc : c ≠ '\n' := fun hc => h (hc ▸ List.mem_cons_self)
      rw [List.cons_append, fileLinesFrom.eq_3 _ _ _ hc,
        ih fun hmem => h (List.mem_cons_of_mem c hmem), List.append_assoc front [c],
        List.singleton_append]

lemma fileLinesFrom_of_notMem {front body : Text} (h : '\n' ∉ body) (hne : front ++ body ≠ []) :
    fileLinesFrom front body = [front ++ body] := by
  induction body generalizing front with
  | nil => rw [List.append_nil] at hne ⊢; rw [fileLinesFrom, if_neg hne]
  | cons c body ih =>
      have hc : c ≠ '\n' := fun hc => h (hc ▸ List.mem_cons_self)
      rw [List.append_cons] at hne ⊢
      rw [fileLinesFrom.eq_3 _ _ _ hc, ih (fun hmem => h (List.mem_cons_of_mem c hmem)) hne]

/-- **Lines that a text can be cut into are its lines.** -/
lemma fileLines_flatten {ls : List Text} (h : Cut ls) : fileLines ls.flatten = ls := by
  induction ls with
  | nil => rfl
  | cons line rest ih =>
      have hended : ∀ {line : Text}, Ended line →
          fileLines (line :: rest).flatten = line :: rest := by
        rintro _ ⟨body, hbody, rfl⟩
        rw [List.flatten_cons, List.append_assoc, List.singleton_append, fileLines,
          fileLinesFrom_append hbody, ih h.tail, List.nil_append]
      cases rest with
      | cons next rest => exact hended h.1
      | nil =>
          rcases h with hline | ⟨hne, hline⟩
          · exact hended hline
          · rw [List.flatten_singleton, fileLines, fileLinesFrom_of_notMem hline (by simpa using hne),
              List.nil_append]

/-! ### The ends of lines -/

/-- A line of nothing but its end. -/
def isBlank (line : Text) : Bool := decide (trimLineEnds line = [])

/-- The lines up to the last that is not blank, and at least the first. -/
def frontLines : List Text → List Text
  | [] => []
  | line :: rest => line :: rest.rdropWhile isBlank

/-- The blank lines behind the front ones. -/
def endLines (ls : List Text) : List Text := ls.drop (frontLines ls).length

lemma frontLines_isStart (ls : List Text) : frontLines ls <+: ls := by
  cases ls with
  | nil => exact List.prefix_rfl
  | cons line rest => exact (List.prefix_cons_inj line).mpr (List.rdropWhile_prefix _ rest)

lemma frontLines_append_endLines (ls : List Text) : frontLines ls ++ endLines ls = ls := by
  exact (List.prefix_iff_eq_append.mp (frontLines_isStart ls))

lemma isBlank_of_mem_endLines {ls : List Text} {line : Text} (h : line ∈ endLines ls) :
    isBlank line := by
  have hall := frontLines_append_endLines ls
  cases ls with
  | nil => cases h
  | cons first rest =>
      have hsplit := List.rdropWhile_append_rtakeWhile (p := isBlank) (l := rest)
      rw [frontLines, List.cons_append, List.cons.injEq] at hall
      rw [List.append_cancel_left (hall.2.trans hsplit.symm)] at h
      exact List.mem_rtakeWhile_imp h

/-- The last of the front lines is not blank, or the only one. -/
lemma frontLines_concat {ls front : List Text} {line : Text} (h : frontLines ls = front ++ [line]) :
    ¬ isBlank line ∨ front = [] := by
  cases ls with
  | nil =>
      rw [frontLines] at h
      exact absurd h.symm (List.append_ne_nil_of_right_ne_nil front (List.cons_ne_nil line []))
  | cons first rest =>
      rw [frontLines] at h
      cases front with
      | nil => exact .inr rfl
      | cons _ front =>
          left
          rw [List.cons_append, List.cons.injEq] at h
          have hne : rest.rdropWhile isBlank ≠ [] := by
            rw [h.2]
            exact List.append_ne_nil_of_right_ne_nil front (List.cons_ne_nil line [])
          have hlast := List.rdropWhile_last_not isBlank rest hne
          simpa only [h.2, List.getLast_concat] using hlast

lemma isLineEnd_of_isBlank {line : Text} (h : isBlank line) : ∀ c ∈ line, isLineEnd c :=
  List.rdropWhile_eq_nil_iff.mp (of_decide_eq_true h)

/-- A text without a line feed has only carriage returns to drop. -/
lemma trimLineEnds_of_notMem {body : Text} (h : '\n' ∉ body) :
    trimLineEnds body = body.rdropWhile fun c => decide (c = '\r') := by
  induction body using List.reverseRecOn with
  | nil => rfl
  | append_singleton body c ih =>
      have hc : c ≠ '\n' := fun hc => h (hc ▸ by simp)
      have hsame : isLineEnd c = decide (c = '\r') := by simp [isLineEnd, hc, beq_eq_decide]
      have hrest := ih fun hmem => h (List.mem_append_left _ hmem)
      rw [trimLineEnds, List.rdropWhile_concat, List.rdropWhile_concat, hsame]
      split_ifs
      · exact hrest
      · rfl

lemma Ended.trimLineEnds_eq {line body : Text} (hbody : '\n' ∉ body) (hline : line = body ++ ['\n']) :
    trimLineEnds line = body.rdropWhile fun c => decide (c = '\r') := by
  rw [hline, trimLineEnds_append (by simp [isLineEnd]), trimLineEnds_of_notMem hbody]

/-- Lines that end, and the rest of a text behind them. -/
lemma flatten_append_eq_intercalate {front : List Text} (back : Text) (h : ∀ l ∈ front, Ended l) :
    ∃ bodies : List Text, (∀ body ∈ bodies, '\n' ∉ body) ∧
      front.flatten ++ back = ['\n'].intercalate (bodies ++ [back]) ∧
      bodies.map (fun body => body.rdropWhile fun c => decide (c = '\r')) = front.map trimLineEnds := by
  induction front with
  | nil => exact ⟨[], by simp, by simp, rfl⟩
  | cons line front ih =>
      obtain ⟨bodies, hbodies, htext, hbare⟩ := ih fun l hl => h l (List.mem_cons_of_mem line hl)
      obtain ⟨body, hbody, hline⟩ := h line List.mem_cons_self
      refine ⟨body :: bodies, ?_, ?_, ?_⟩
      · rintro other hother
        rcases List.mem_cons.mp hother with rfl | hother
        · exact hbody
        · exact hbodies other hother
      · have hne : bodies ++ [back] ≠ [] := List.append_ne_nil_of_right_ne_nil _ (List.cons_ne_nil _ _)
        obtain ⟨next, rest, hnext⟩ := List.exists_cons_of_ne_nil hne
        rw [List.flatten_cons, List.append_assoc, htext, List.cons_append, hnext,
          List.intercalate_cons_cons, hline]
      · rw [List.map_cons, List.map_cons, hbare, Ended.trimLineEnds_eq hbody hline]

lemma notMem_trimLineEnds {line : Text} (h : Ended line ∨ Unended line) :
    '\n' ∉ trimLineEnds line := by
  rcases h with ⟨body, hbody, hline⟩ | ⟨-, hline⟩
  · rw [Ended.trimLineEnds_eq hbody hline]
    exact fun hmem => hbody ((List.rdropWhile_prefix _ body).subset hmem)
  · exact fun hmem => hline ((List.rdropWhile_prefix _ line).subset hmem)

/-- The last character that is left is no end of a line. -/
lemma not_isLineEnd_getLast (line : Text) (h : trimLineEnds line ≠ []) :
    ¬ isLineEnd ((trimLineEnds line).getLast h) :=
  List.rdropWhile_last_not isLineEnd line h

lemma rdropWhile_trimLineEnds (line : Text) :
    (trimLineEnds line).rdropWhile (fun c => decide (c = '\r')) = trimLineEnds line := by
  refine List.rdropWhile_eq_self_iff.mpr fun hne hlast => not_isLineEnd_getLast line hne ?_
  rw [of_decide_eq_true hlast]
  rfl

/-- The characters before a line that is not blank stay. -/
lemma trimLineEnds_append_line {front line : Text} (h : ¬ isBlank line) :
    trimLineEnds (front ++ line) = front ++ trimLineEnds line := by
  have hne : trimLineEnds line ≠ [] := fun hempty => h (decide_eq_true hempty)
  have hsplit : front ++ line =
      (front ++ trimLineEnds line) ++ line.rtakeWhile isLineEnd := by
    rw [List.append_assoc, trimLineEnds, List.rdropWhile_append_rtakeWhile]
  rw [hsplit, trimLineEnds_append fun c hc => List.mem_rtakeWhile_imp hc]
  refine List.rdropWhile_eq_self_iff.mpr fun hall => ?_
  rw [List.getLast_append_of_ne_nil _ hne]
  exact not_isLineEnd_getLast line hne

/-- **The front lines of a text without their ends**: the text without the ends of lines behind it,
split at the line feeds, and each part without the carriage returns at its end. -/
theorem splitOn_trimLineEnds {ls : List Text} (h : Cut ls) (hne : ls ≠ []) :
    ((trimLineEnds ls.flatten).splitOn '\n').map
        (fun line => line.rdropWhile fun c => decide (c = '\r')) =
      (frontLines ls).map trimLineEnds := by
  have hfront : frontLines ls ≠ [] := by
    obtain ⟨line, rest, rfl⟩ := List.exists_cons_of_ne_nil hne
    exact List.cons_ne_nil _ _
  obtain ⟨front, line, hlines⟩ := (List.eq_nil_or_concat' _).resolve_left hfront
  have hall : ls = front ++ line :: endLines ls := by
    rw [List.append_cons, ← hlines, frontLines_append_endLines]
  have hended : ∀ l ∈ front, Ended l := by
    rw [hall] at h
    exact fun l hl => h.ended hl
  have hblank : ∀ c ∈ (endLines ls).flatten, isLineEnd c := by
    intro c hc
    obtain ⟨l, hl, hcl⟩ := List.mem_flatten.mp hc
    exact isLineEnd_of_isBlank (isBlank_of_mem_endLines hl) c hcl
  have htrim : trimLineEnds ls.flatten = front.flatten ++ trimLineEnds line := by
    have htext : ls.flatten = (front.flatten ++ line) ++ (endLines ls).flatten := by
      conv_lhs => rw [hall]
      rw [List.flatten_append, List.flatten_cons, List.append_assoc]
    rw [htext, trimLineEnds_append hblank]
    rcases frontLines_concat hlines with hline | rfl
    · exact trimLineEnds_append_line hline
    · rfl
  have hmem : line ∈ ls := by
    rw [hall]
    exact List.mem_append_right _ List.mem_cons_self
  obtain ⟨bodies, hbodies, htext, hbare⟩ :=
    flatten_append_eq_intercalate (trimLineEnds line) hended
  have hfeeds : ∀ l ∈ bodies ++ [trimLineEnds line], '\n' ∉ l := by
    intro l hl
    rcases List.mem_append.mp hl with hl | hl
    · exact hbodies l hl
    · rw [List.mem_singleton.mp hl]
      exact notMem_trimLineEnds (h.mem hmem)
  rw [htrim, htext, List.splitOn_intercalate '\n' hfeeds
    (List.append_ne_nil_of_right_ne_nil _ (List.cons_ne_nil _ _)), List.map_append, hbare, hlines,
    List.map_append, List.map_singleton, List.map_singleton, rdropWhile_trimLineEnds]

end TextLines

end McpSurfaces
