import McpSurfaces.Foundation.ByteLines

/-!
Lines that are joined again.

* `closeWith`: lines with one end behind each. `closeWith_cancel`: a text of closed lines that
  begins like the lines of a file has them with their ends.
* `Shape`: a text as its lines without their line feeds; `exists_shape`, and what `rawLines`,
  `fileLines` and the last character of a text are by it.
-/

namespace McpSurfaces

namespace TextLines

open ByteLines

/-! ### Lines with one end -/

/-- Lines with one end behind each. -/
def closeWith (ending : Text) (ls : List Text) : Text := ls.flatMap (· ++ ending)

lemma unlines_eq_closeWith (ls : List Text) : unlines ls = closeWith ['\n'] ls := rfl

lemma closeWith_append (ending : Text) (ls ls' : List Text) :
    closeWith ending (ls ++ ls') = closeWith ending ls ++ closeWith ending ls' :=
  List.flatMap_append

@[simp] lemma closeWith_nil (ending : Text) : closeWith ending [] = [] := rfl

lemma closeWith_cons (ending line : Text) (ls : List Text) :
    closeWith ending (line :: ls) = line ++ (ending ++ closeWith ending ls) := by
  rw [closeWith, List.flatMap_cons, List.append_assoc]
  rfl

/-- Lines before others are closed by what joins them. -/
lemma intercalate_append (sep : Text) (ls : List Text) {ls' : List Text} (h : ls' ≠ []) :
    sep.intercalate (ls ++ ls') = closeWith sep ls ++ sep.intercalate ls' := by
  induction ls with
  | nil => rfl
  | cons line rest ih =>
      rw [List.cons_append,
        List.intercalate_cons_of_ne_nil (List.append_ne_nil_of_right_ne_nil rest h), ih,
        closeWith_cons, List.append_assoc, List.append_assoc, List.append_assoc]

lemma closeWith_eq_intercalate (sep : Text) {ls : List Text} (h : ls ≠ []) :
    closeWith sep ls = sep.intercalate ls ++ sep := by
  obtain ⟨front, last, rfl⟩ := (List.eq_nil_or_concat' ls).resolve_left h
  rw [intercalate_append sep front (List.cons_ne_nil last []), closeWith_append, closeWith_cons,
    List.intercalate_singleton, closeWith_nil, List.append_nil, List.append_assoc]

/-- What is before the first line feed of a text, and what is behind it. -/
lemma feed_cancel {x y u v : Text} (hx : '\n' ∉ x) (hy : '\n' ∉ y)
    (h : x ++ '\n' :: u = y ++ '\n' :: v) : x = y ∧ u = v := by
  induction x generalizing y with
  | nil =>
      cases y with
      | nil => exact ⟨rfl, (List.cons.inj h).2⟩
      | cons b y =>
          rw [List.nil_append, List.cons_append] at h
          exact absurd ((List.cons.inj h).1 ▸ List.mem_cons_self) hy
  | cons a x ih =>
      cases y with
      | nil =>
          rw [List.nil_append, List.cons_append] at h
          exact absurd ((List.cons.inj h).1 ▸ List.mem_cons_self) hx
      | cons b y =>
          rw [List.cons_append, List.cons_append] at h
          obtain ⟨rfl, htail⟩ := List.cons.inj h
          obtain ⟨rfl, hrest⟩ := ih (fun hmem => hx (List.mem_cons_of_mem a hmem))
            (fun hmem => hy (List.mem_cons_of_mem a hmem)) htail
          exact ⟨rfl, hrest⟩

/-- **Closed lines that begin a text are its lines**, with what is before the line feed. -/
lemma closeWith_cancel {c : Text} (hc : '\n' ∉ c) {edit : Text → Text} {ls : List Text}
    (hls : ∀ line ∈ ls, '\n' ∉ line) (hedit : ∀ line ∈ ls, '\n' ∉ edit line) {u v : Text}
    (h : closeWith (c ++ ['\n']) (ls.map edit) ++ u = unlines ls ++ v) :
    (∀ line ∈ ls, edit line ++ c = line) ∧ u = v := by
  induction ls with
  | nil => exact ⟨nofun, h⟩
  | cons line rest ih =>
      have hline : (edit line ++ c) ++ '\n' :: (closeWith (c ++ ['\n']) (rest.map edit) ++ u) =
          line ++ '\n' :: (unlines rest ++ v) := by
        rw [List.map_cons, closeWith_cons, unlines_cons] at h
        simpa using h
      have hfree : '\n' ∉ edit line ++ c := by
        rw [List.mem_append, not_or]
        exact ⟨hedit line List.mem_cons_self, hc⟩
      obtain ⟨hsame, hrest⟩ := feed_cancel hfree (hls line List.mem_cons_self) hline
      obtain ⟨hlines, huv⟩ := ih (fun l hl => hls l (List.mem_cons_of_mem line hl))
        (fun l hl => hedit l (List.mem_cons_of_mem line hl)) hrest
      refine ⟨fun l hl => ?_, huv⟩
      rcases List.mem_cons.mp hl with rfl | hl
      · exact hsame
      · exact hlines l hl

/-- Lines that are themselves again. -/
lemma closeWith_of_forall {c : Text} {edit : Text → Text} {ls : List Text}
    (h : ∀ line ∈ ls, edit line ++ c = line) :
    closeWith (c ++ ['\n']) (ls.map edit) = unlines ls := by
  induction ls with
  | nil => rfl
  | cons line rest ih =>
      rw [List.map_cons, closeWith_cons, ih fun l hl => h l (List.mem_cons_of_mem line hl),
        unlines_cons, ← List.append_assoc, ← List.append_assoc, h line List.mem_cons_self,
        List.append_assoc, List.singleton_append]

lemma count_closeWith {c : Text} (hc : '\n' ∉ c) {ls : List Text} (hls : ∀ line ∈ ls, '\n' ∉ line) :
    (closeWith (c ++ ['\n']) ls).count '\n' = ls.length := by
  induction ls with
  | nil => rfl
  | cons line rest ih =>
      rw [closeWith_cons, List.count_append, List.count_append, List.count_append,
        ih fun l hl => hls l (List.mem_cons_of_mem line hl),
        List.count_eq_zero.mpr (hls line List.mem_cons_self), List.count_eq_zero.mpr hc,
        List.count_singleton_self, List.length_cons]
      omega

/-! ### The shape of a text -/

/-- A text that is not empty: the lines before the last one, the last one, and whether it ends. -/
structure Shape (text : Text) (front : List Text) (last : Text) (closed : Bool) : Prop where
  text_eq : text = unlines front ++ (last ++ if closed then ['\n'] else [])
  front_free : ∀ line ∈ front, '\n' ∉ line
  last_free : '\n' ∉ last
  nonempty : closed = false → last ≠ []

lemma exists_shape {text : Text} (h : text ≠ []) :
    ∃ front last closed, Shape text front last closed := by
  induction text with
  | nil => exact absurd rfl h
  | cons a rest ih =>
      rcases eq_or_ne rest [] with rfl | hrest
      · by_cases ha : a = '\n'
        · exact ⟨[], [], true, by simp [ha], nofun, List.not_mem_nil, nofun⟩
        · exact ⟨[], [a], false, by simp, nofun, by simpa using Ne.symm ha, fun _ => by simp⟩
      · obtain ⟨front, last, closed, hshape⟩ := ih hrest
        by_cases ha : a = '\n'
        · refine ⟨[] :: front, last, closed, ?_, ?_, hshape.last_free, hshape.nonempty⟩
          · rw [hshape.text_eq, ha, unlines_cons]
            rfl
          · intro line hline
            rcases List.mem_cons.mp hline with rfl | hline
            · exact List.not_mem_nil
            · exact hshape.front_free line hline
        · cases front with
          | nil =>
              refine ⟨[], a :: last, closed, ?_, nofun, ?_, fun _ => List.cons_ne_nil _ _⟩
              · rw [hshape.text_eq]
                rfl
              · rw [List.mem_cons, not_or]
                exact ⟨Ne.symm ha, hshape.last_free⟩
          | cons first front =>
              refine ⟨(a :: first) :: front, last, closed, ?_, ?_, hshape.last_free,
                hshape.nonempty⟩
              · rw [hshape.text_eq, unlines_cons, unlines_cons]
                simp
              · intro line hline
                rcases List.mem_cons.mp hline with rfl | hline
                · rw [List.mem_cons, not_or]
                  exact ⟨Ne.symm ha, hshape.front_free first List.mem_cons_self⟩
                · exact hshape.front_free line (List.mem_cons_of_mem first hline)

/-! ### Lines behind lines -/

lemma rawLines_feed {line : Text} (h : '\n' ∉ line) (rest : Text) :
    rawLines '\n' (line ++ '\n' :: rest) = line :: rawLines '\n' rest := by
  rw [rawLines, rawLinesFrom_append h, List.nil_append, rawLinesFrom_feed]

lemma rawLines_of_notMem {line : Text} (h : '\n' ∉ line) :
    rawLines '\n' line = if line = [] then [] else [line] := by
  have hsplit := @rawLinesFrom_append Char _ '\n' [] line [] h
  rw [List.append_nil, List.nil_append] at hsplit
  rw [rawLines, hsplit, rawLinesFrom]

lemma rawLines_unlines_append {ls : List Text} (h : ∀ line ∈ ls, '\n' ∉ line) (rest : Text) :
    rawLines '\n' (unlines ls ++ rest) = ls ++ rawLines '\n' rest := by
  induction ls with
  | nil => rfl
  | cons line others ih =>
      rw [unlines_cons, List.append_assoc, List.cons_append,
        rawLines_feed (h line List.mem_cons_self),
        ih fun l hl => h l (List.mem_cons_of_mem line hl), List.cons_append]

lemma fileLines_unlines_append {ls : List Text} (h : ∀ line ∈ ls, '\n' ∉ line) (rest : Text) :
    fileLines (unlines ls ++ rest) = ls.map (· ++ ['\n']) ++ fileLines rest := by
  induction ls with
  | nil => rfl
  | cons line others ih =>
      rw [unlines_cons, List.append_assoc, List.cons_append, fileLines,
        fileLinesFrom_append (h line List.mem_cons_self),
        ih fun l hl => h l (List.mem_cons_of_mem line hl), List.map_cons, List.cons_append,
        List.nil_append]

namespace Shape

variable {text last : Text} {front : List Text} {closed : Bool}

lemma rawLines_eq (h : Shape text front last closed) : rawLines '\n' text = front ++ [last] := by
  rw [h.text_eq, rawLines_unlines_append h.front_free]
  cases closed with
  | true =>
      rw [if_pos rfl, rawLines_feed h.last_free]
      rfl
  | false =>
      rw [if_neg Bool.false_ne_true, List.append_nil, rawLines_of_notMem h.last_free,
        if_neg (h.nonempty rfl)]

lemma fileLines_eq (h : Shape text front last closed) : fileLines text =
    front.map (· ++ ['\n']) ++ [last ++ if closed then ['\n'] else []] := by
  rw [h.text_eq, fileLines_unlines_append h.front_free]
  cases closed with
  | true =>
      rw [if_pos rfl, fileLines, fileLinesFrom_append h.last_free]
      rfl
  | false =>
      rw [if_neg Bool.false_ne_true, List.append_nil, fileLines,
        fileLinesFrom_of_notMem h.last_free (by simpa using h.nonempty rfl)]
      rfl

lemma getLast?_eq_iff (h : Shape text front last closed) :
    text.getLast? = some '\n' ↔ closed = true := by
  rw [h.text_eq]
  cases closed with
  | true => simp [List.getLast?_append]
  | false =>
      obtain ⟨init, c, rfl⟩ := (List.eq_nil_or_concat' last).resolve_left (h.nonempty rfl)
      have hc : c ≠ '\n' := fun hc =>
        h.last_free (hc ▸ List.mem_append_right _ (List.mem_singleton_self c))
      simpa [List.getLast?_append] using hc

end Shape

end TextLines

end McpSurfaces
