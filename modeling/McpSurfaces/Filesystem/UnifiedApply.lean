import McpSurfaces.Filesystem.UnifiedDiff

/-!
What applying a correct unified diff gives.

* `landed`: where the hunks land. A hunk without old lines lands one line too early, which shows
  unless it inserts copies of that line (`landed_eq_iff`).
* **`patch_exact_iff`**: when parsing the text of a diff and applying it gives what the diff is
  to.
-/

namespace McpSurfaces

namespace Filesystem

open TextLines Lists

/-! ### Where hunks land -/

/-- Lines with the new lines of an edit behind them. A hunk without old lines is put before the
last line, except at the top of the file. -/
def land (n : ℕ) (front : List Text) (e : Edit) : List Text :=
  if e.old = [] ∧ n + e.gap.length ≠ 0 then
    (front ++ e.gap).dropLast ++ e.new ++ (front ++ e.gap).getLast?.toList
  else front ++ e.gap ++ e.new

/-- Lines with those of edits behind them. -/
def landed (tail : List Text) (n : ℕ) (front : List Text) : List Edit → List Text
  | [] => front ++ tail
  | e :: es => landed tail (e.oldEnd n) (land n front e) es

/-- Hunks without old lines, except at the top of the file, insert copies of the line before
them, if there is one. -/
def Copies (n : ℕ) (front : List Text) : List Edit → Prop
  | [] => True
  | e :: es =>
      (e.old = [] → n + e.gap.length ≠ 0 →
        ∀ last ∈ (front ++ e.gap).getLast?, ∀ line ∈ e.new, line = last) ∧
      Copies (e.oldEnd n) (front ++ e.gap ++ e.new) es

lemma append_singleton_eq_cons_iff {α : Type} {xs : List α} {y z : α} :
    xs ++ [y] = z :: xs ↔ z = y ∧ ∀ x ∈ xs, x = y := by
  induction xs generalizing z with
  | nil => simp [eq_comm]
  | cons x xs ih =>
      rw [List.cons_append, List.cons.injEq, ih, List.forall_mem_cons]
      constructor
      · rintro ⟨rfl, rfl, h⟩
        exact ⟨rfl, rfl, h⟩
      · rintro ⟨rfl, rfl, h⟩
        exact ⟨rfl, rfl, h⟩

/-- Lines that are put before the last line of some instead of behind it. -/
lemma misplaced_eq_iff {front front' new : List Text} (h : front.length = front'.length) :
    front.dropLast ++ new ++ front.getLast?.toList = front' ++ new ↔
      front = front' ∧ ∀ last ∈ front'.getLast?, ∀ line ∈ new, line = last := by
  rcases List.eq_nil_or_concat' front with rfl | ⟨before, last, rfl⟩
  · obtain rfl : front' = [] := List.eq_nil_of_length_eq_zero h.symm
    simp
  rcases List.eq_nil_or_concat' front' with rfl | ⟨before', last', rfl⟩
  · simp at h
  have hlength : before.length = before'.length := by simpa using h
  rw [List.dropLast_concat, List.getLast?_concat, Option.toList_some, List.append_assoc,
    List.append_assoc, List.singleton_append]
  constructor
  · intro heq
    obtain ⟨rfl, hrest⟩ := List.append_inj heq hlength
    obtain ⟨rfl, hnew⟩ := append_singleton_eq_cons_iff.mp hrest
    exact ⟨rfl, by simpa using hnew⟩
  · rintro ⟨heq, hnew⟩
    obtain ⟨rfl, hlast⟩ := List.append_inj heq hlength
    obtain rfl := List.singleton_inj.mp hlast
    rw [append_singleton_eq_cons_iff.mpr ⟨rfl, by simpa using hnew⟩]

lemma length_land (n : ℕ) (front : List Text) (e : Edit) :
    (land n front e).length = front.length + e.gap.length + e.new.length := by
  rw [land]
  split_ifs
  · have hsplit : (front ++ e.gap).dropLast ++ (front ++ e.gap).getLast?.toList = front ++ e.gap := by
      cases hlast : (front ++ e.gap).getLast? with
      | none => simp_all
      | some last => exact List.dropLast_append_getLast? last hlast
    have hlength := congrArg List.length hsplit
    simp only [List.length_append] at hlength ⊢
    omega
  · simp only [List.length_append]

/-- **Where hunks land is where they belong** exactly if they insert copies. -/
lemma landed_eq_iff (tail : List Text) {es : List Edit} :
    ∀ {n : ℕ} {front front' : List Text}, front.length = front'.length →
      (landed tail n front es = front' ++ afterOf tail es ↔ front = front' ∧ Copies n front' es) := by
  induction es with
  | nil =>
      intro n front front' _
      rw [landed, afterOf, Copies, and_true]
      exact ⟨List.append_cancel_right, congrArg (· ++ tail)⟩
  | cons e es ih =>
      intro n front front' hlength
      have hlength' : (land n front e).length = (front' ++ e.gap ++ e.new).length := by
        rw [length_land, List.length_append, List.length_append, hlength]
      have hbehind : front' ++ afterOf tail (e :: es) =
          front' ++ e.gap ++ e.new ++ afterOf tail es := by
        rw [afterOf]
        simp only [List.append_assoc]
      rw [landed, hbehind, ih hlength', Copies, ← and_assoc]
      refine and_congr_left' ?_
      have hgap : (front ++ e.gap = front' ++ e.gap) ↔ front = front' :=
        ⟨List.append_cancel_right, congrArg (· ++ e.gap)⟩
      rw [land]
      split_ifs with hmisplaced
      · rw [misplaced_eq_iff (by simpa using hlength), hgap]
        exact and_congr_right fun _ => ⟨fun h _ _ => h, fun h => h hmisplaced.1 hmisplaced.2⟩
      · rw [← hgap]
        constructor
        · intro h
          exact ⟨List.append_cancel_right h, fun hold hn => absurd ⟨hold, hn⟩ hmisplaced⟩
        · rintro ⟨h, -⟩
          rw [h]

/-! ### One hunk -/

lemma bmod_eq_self {z : ℤ} (h : -2 ^ 63 ≤ z) (h' : z < 2 ^ 63) : Int.bmod z (2 ^ 64) = z := by
  rw [Int.bmod_eq_iff (by norm_num)]
  refine ⟨?_, ?_, by simp⟩ <;> norm_num at h h' ⊢ <;> omega

lemma addIsize_eq {a b : ℤ} (h : -2 ^ 63 ≤ a + b) (h' : a + b < 2 ^ 63) : addIsize a b = a + b :=
  bmod_eq_self h h'

lemma Edit.old_hunk (e : Edit) (n : ℕ) : (e.hunk n).old = e.old := by
  rw [ParsedPatchHunk.old, Edit.old, Edit.hunk, Edit.marked, List.filter_map, List.map_map]
  refine congrArg _ (List.filter_congr fun line _ => ?_)
  rcases line with ⟨⟨⟩, text⟩ <;> rfl

lemma Edit.replacement_hunk (e : Edit) (n : ℕ) : (e.hunk n).replacement = e.new := by
  rw [ParsedPatchHunk.replacement, Edit.new, Edit.hunk, Edit.marked, List.filter_map, List.map_map]
  refine congrArg _ (List.filter_congr fun line _ => ?_)
  rcases line with ⟨⟨⟩, text⟩ <;> rfl

/-- A hunk whose position is known, in a text that has its old lines there. -/
lemma applyHunk_eq {index position : ℕ} {p : Patched} {h : ParsedPatchHunk}
    {front rest : List Text} (hposition : hunkPosition index p h = .ok position)
    (hlines : p.lines = front ++ h.old ++ rest) (hfront : front.length = position) :
    applyHunk index p h = .ok {
      lines := front ++ h.replacement ++ rest
      delta := addIsize p.delta (h.replacement.length - h.old.length)
      cursor := position + h.replacement.length } := by
  have htake : p.lines.take position = front := by
    rw [hlines, List.append_assoc, List.take_left' hfront]
  have hdrop : p.lines.drop position = h.old ++ rest := by
    rw [hlines, List.append_assoc, List.drop_left' hfront]
  have hrest : p.lines.drop (position + h.old.length) = rest := by
    rw [← List.drop_drop, hdrop, List.drop_left]
  have hfits : ¬ (p.lines.length < position + h.old.length ∨
      (p.lines.drop position).take h.old.length ≠ h.old) := by
    rw [hdrop, List.take_left, hlines, List.length_append, List.length_append, hfront]
    simp
  rw [applyHunk, hposition]
  simp only [bind, Except.bind]
  rw [if_neg hfits, htake, hrest]
  rfl

/-- The edits behind some lines, as far as their lengths go. -/
def sizeOf (tail : List Text) (es : List Edit) : ℕ :=
  (beforeOf tail es).length + (es.flatMap Edit.lines).length

lemma Edit.length_new_le (e : Edit) : e.new.length ≤ e.lines.length := by
  rw [Edit.new, List.length_map]
  exact List.length_filter_le _ _

/-- **A hunk of a diff lands** behind the lines that earlier hunks have left. -/
lemma applyHunk_edit (index : ℕ) {p : Patched} {n : ℕ} {front rest : List Text} (e : Edit)
    (hlines : p.lines = front ++ (e.gap ++ e.old ++ rest)) (hdelta : p.delta = front.length - n)
    (hn : n + e.gap.length + e.old.length < 2 ^ 63)
    (hfront : front.length + e.gap.length + e.old.length + e.lines.length < 2 ^ 63) :
    ∃ cursor, applyHunk index p (e.hunk n) = .ok {
      lines := land n front e ++ rest
      delta := (land n front e).length - e.oldEnd n
      cursor := cursor } := by
  have hnew := e.length_new_le
  have hnewDelta : addIsize p.delta ((e.hunk n).replacement.length - (e.hunk n).old.length) =
      (land n front e).length - e.oldEnd n := by
    rw [e.old_hunk, e.replacement_hunk, hdelta, length_land, Edit.oldEnd, addIsize_eq] <;>
      push_cast <;> omega
  have hposition : ∀ start : ℕ, (e.hunk n).oldStart = some start → start ≤ e.oldEnd n →
      hunkPosition index p (e.hunk n) = .ok (((start - 1 : ℕ) : ℤ) + (front.length - n)).toNat := by
    intro start hstart hend
    rw [Edit.oldEnd] at hend
    rw [hunkPosition, hstart, hdelta]
    dsimp only
    rw [bmod_eq_self, addIsize_eq] <;> omega
  have happly : ∀ before behind, p.lines = before ++ e.old ++ behind →
      hunkPosition index p (e.hunk n) = .ok before.length →
      before ++ e.new ++ behind = land n front e ++ rest →
      ∃ cursor, applyHunk index p (e.hunk n) = .ok {
        lines := land n front e ++ rest
        delta := (land n front e).length - e.oldEnd n
        cursor := cursor } := by
    intro before behind hsplit hplace hresult
    have happlied := applyHunk_eq hplace (by rw [e.old_hunk]; exact hsplit) rfl
    rw [hnewDelta, e.replacement_hunk, hresult] at happlied
    exact ⟨_, happlied⟩
  have hstart : (e.hunk n).oldStart = some (Edit.rangeStart (n + e.gap.length) e.old.length) := rfl
  have hplace := hposition _ hstart (e.rangeStart_le n)
  by_cases hmisplaced : e.old = [] ∧ n + e.gap.length ≠ 0
  · -- The hunk counts from the line before it, and lands before that line.
    obtain ⟨hold, htop⟩ := hmisplaced
    rw [hold, Edit.rangeStart, List.length_nil, if_pos rfl] at hplace
    rw [hold, List.append_nil, ← List.append_assoc] at hlines
    have hland : land n front e =
        (front ++ e.gap).dropLast ++ e.new ++ (front ++ e.gap).getLast?.toList := if_pos ⟨hold, htop⟩
    have hlength : (front ++ e.gap).length = front.length + e.gap.length := List.length_append
    rcases List.eq_nil_or_concat' (front ++ e.gap) with hnil | ⟨before, last, hlast⟩
    · refine happly [] rest (by rw [hlines, hnil, hold]; rfl) ?_ (by rw [hland, hnil]; simp)
      rw [hnil, List.length_nil] at hlength
      rw [hplace, List.length_nil]
      congr 1
      omega
    · refine happly before (last :: rest) ?_ ?_ ?_
      · rw [hlines, hlast, hold]
        simp
      · rw [hlast, List.length_append, List.length_singleton] at hlength
        rw [hplace]
        congr 1
        omega
      · rw [hland, hlast]
        simp
  · refine happly (front ++ e.gap) rest (by rw [hlines]; simp only [List.append_assoc]) ?_ ?_
    · rw [hplace, List.length_append, Edit.rangeStart]
      congr 1
      by_cases hold : e.old = []
      · have htop : n + e.gap.length = 0 := not_not.mp fun htop => hmisplaced ⟨hold, htop⟩
        rw [hold, List.length_nil, if_pos rfl]
        omega
      · rw [if_neg (fun hlength => hold (List.eq_nil_of_length_eq_zero hlength))]
        omega
    · rw [land, if_neg hmisplaced]

/-- **The hunks of a diff land** in a text that has all its lines. -/
lemma applyHunks_edits (tail : List Text) {es : List Edit} :
    ∀ (index n : ℕ) (p : Patched) (front : List Text), p.lines = front ++ beforeOf tail es →
      p.delta = front.length - n → n + sizeOf tail es < 2 ^ 63 →
      front.length + sizeOf tail es < 2 ^ 63 →
      ∃ delta cursor, applyHunks index p (parsedHunks n es) =
        .ok ⟨landed tail n front es, delta, cursor⟩ := by
  induction es with
  | nil =>
      intro index n p front hlines _ _ _
      refine ⟨p.delta, p.cursor, ?_⟩
      rw [parsedHunks, applyHunks, landed]
      exact congrArg Except.ok (congrArg (Patched.mk · p.delta p.cursor) hlines)
  | cons e es ih =>
      intro index n p front hlines hdelta hn hfront
      have hnew := e.length_new_le
      rw [sizeOf, beforeOf, List.flatMap_cons] at hn hfront
      simp only [List.length_append] at hn hfront
      obtain ⟨cursor, happlied⟩ := applyHunk_edit index e hlines hdelta (by omega) (by omega)
      have hn' : e.oldEnd n + sizeOf tail es < 2 ^ 63 := by
        rw [Edit.oldEnd, sizeOf]
        omega
      have hfront' : (land n front e).length + sizeOf tail es < 2 ^ 63 := by
        rw [length_land, sizeOf]
        omega
      obtain ⟨delta, cursor', hrest⟩ := ih (index + 1) (e.oldEnd n)
        ⟨land n front e ++ beforeOf tail es, (land n front e).length - e.oldEnd n, cursor⟩
        (land n front e) rfl rfl hn' hfront'
      refine ⟨delta, cursor', ?_⟩
      rw [parsedHunks, applyHunks, happlied, landed]
      exact hrest

/-! ### What every application keeps -/

lemma beforeOf_eq (tail : List Text) (es : List Edit) :
    beforeOf tail es = beforeOf [] es ++ tail := by
  induction es with
  | nil => rfl
  | cons e es ih => rw [beforeOf, beforeOf, ih, List.append_assoc _ (beforeOf [] es)]

/-- A hunk that is applied. -/
lemma applyHunk_ok {index : ℕ} {p q : Patched} {h : ParsedPatchHunk}
    (happlied : applyHunk index p h = .ok q) :
    ∃ position, hunkPosition index p h = .ok position ∧
      position + h.old.length ≤ p.lines.length ∧
      q.lines =
        p.lines.take position ++ h.replacement ++ p.lines.drop (position + h.old.length) := by
  rw [applyHunk] at happlied
  obtain ⟨position, hposition, happlied⟩ := bind_eq_ok happlied
  split_ifs at happlied with hfits
  cases happlied
  exact ⟨position, hposition, not_lt.mp fun hlt => hfits (Or.inl hlt), rfl⟩

/-- The length of a text changes with the lengths of its hunks. -/
lemma length_of_applyHunks (tail : List Text) {es : List Edit} :
    ∀ {index n : ℕ} {p q : Patched}, applyHunks index p (parsedHunks n es) = .ok q →
      q.lines.length + (beforeOf tail es).length = p.lines.length + (afterOf tail es).length := by
  induction es with
  | nil =>
      intro index n p q h
      cases h
      rfl
  | cons e es ih =>
      intro index n p q h
      rw [parsedHunks, applyHunks] at h
      obtain ⟨r, hr, h⟩ := bind_eq_ok h
      obtain ⟨position, -, hfits, hlines⟩ := applyHunk_ok hr
      have hrest := ih h
      rw [hlines, e.old_hunk, e.replacement_hunk] at hrest
      rw [e.old_hunk] at hfits
      simp only [beforeOf, afterOf, List.length_append, List.length_take, List.length_drop] at hrest ⊢
      omega

/-- Lines of hunks and of the text they are applied to are all there is. -/
lemma isLine_of_applyHunks {es : List Edit} (hes : ∀ e ∈ es, e.Valid) :
    ∀ {index n : ℕ} {p q : Patched}, applyHunks index p (parsedHunks n es) = .ok q →
      (∀ line ∈ p.lines, IsLine line) → ∀ line ∈ q.lines, IsLine line := by
  induction es with
  | nil =>
      intro index n p q h
      cases h
      exact id
  | cons e es ih =>
      intro index n p q h hp
      rw [parsedHunks, applyHunks] at h
      obtain ⟨r, hr, h⟩ := bind_eq_ok h
      obtain ⟨position, -, -, hlines⟩ := applyHunk_ok hr
      refine ih (fun e he => hes e (List.mem_cons_of_mem _ he)) h ?_
      rw [hlines, e.replacement_hunk]
      intro line hline
      rcases List.mem_append.mp hline with hline | hline
      · rcases List.mem_append.mp hline with hline | hline
        · exact hp line (List.mem_of_mem_take hline)
        · obtain ⟨marked, hmarked, rfl⟩ := List.mem_map.mp hline
          exact (hes e List.mem_cons_self).lines marked (List.mem_of_mem_filter hmarked)
      · exact hp line (List.mem_of_mem_drop hline)

/-! ### The text that comes out -/

/-- Lines as they are written: no line is written as a blank one. -/
def written (ls : List Text) : List Text := if ls = [] then [[]] else ls

lemma unlines_written (ls : List Text) : unlines (written ls) = ['\n'].intercalate ls ++ ['\n'] := by
  rw [written]
  split_ifs with hls
  · rw [hls]
    rfl
  · exact unlines_eq_intercalate hls

variable {ls : List Text}

lemma patchedLines_unlines (h : ∀ line ∈ ls, IsLine line) :
    patchedLines (unlines ls) = trimBlankLines ls := by
  rcases eq_or_ne ls [] with rfl | hne
  · rfl
  rw [patchedLines, if_neg (unlines_ne_nil hne), splitOn_trimLineEnds_unlines h hne]
  refine (List.map_congr_left fun line hline => ?_).trans (List.map_id _)
  rw [id, List.rdropWhile_eq_self_iff]
  intro hline'
  have hreturn := (h line ((trimBlankLines_take ls).subset hline)).2
  rw [List.getLast?_eq_some_getLast hline'] at hreturn
  simpa using hreturn

/-- **What a patch makes of a text of lines**, if there are some. -/
lemma applyPatchContent_unlines (h : ∀ line ∈ ls, IsLine line) (hne : ls ≠ [])
    (hunks : List ParsedPatchHunk) (deleting : Bool) :
    applyPatchContent (.text (unlines ls)) hunks deleting =
      (applyHunks 0 ⟨trimBlankLines ls, 0, 0⟩ hunks).map fun p =>
        .text (if deleting then [] else unlines (written p.lines)) := by
  have hnewline : newlineOf (unlines ls) = ['\n'] := if_neg (not_infix_unlines h)
  rw [applyPatchContent]
  simp only [patchedLines_unlines h, hnewline, getLast?_unlines hne, true_or, if_true]
  cases applyHunks 0 ⟨trimBlankLines ls, 0, 0⟩ hunks with
  | error failure => rfl
  | ok p =>
      cases deleting <;> simp [bind, Except.bind, Except.map, unlines_written, pure, Except.pure]

/-- What a patch makes of the empty text. Without hunks nothing is written. -/
lemma applyPatchContent_nil (hunks : List ParsedPatchHunk) (deleting : Bool) :
    applyPatchContent (.text []) hunks deleting =
      (applyHunks 0 ⟨[], 0, 0⟩ hunks).map fun p =>
        .text (if deleting then [] else if hunks = [] then ['\n'].intercalate p.lines
          else unlines (written p.lines)) := by
  have hnewline : newlineOf [] = ['\n'] := by rfl
  rw [applyPatchContent]
  simp only [show patchedLines [] = [] from rfl, hnewline, List.getLast?_nil, and_true]
  cases applyHunks 0 ⟨[], 0, 0⟩ hunks with
  | error failure => rfl
  | ok p =>
      cases deleting <;> by_cases hhunks : hunks = [] <;>
        simp [bind, Except.bind, Except.map, unlines_written, pure, Except.pure, hhunks]

/-! ### The last hunk -/

/-- Hunks that are applied keep the lines of the text that are behind none of them: how many more
lines there are is how far later hunks move. -/
lemma applyHunk_delta {index c : ℕ} {p q : Patched} {n : ℕ} {e : Edit}
    (h : applyHunk index p (e.hunk n) = .ok q) (hp : p.delta = p.lines.length - c)
    (hc : c < 2 ^ 63) (hfits : p.lines.length + e.lines.length < 2 ^ 63) :
    q.delta = q.lines.length - c ∧ q.lines.length ≤ p.lines.length + e.lines.length ∧
      (e.old ≠ [] → e.oldEnd n < 2 ^ 63 → e.oldEnd n + p.lines.length < 2 ^ 63 + c →
        e.oldEnd n ≤ c) := by
  have hnew := e.length_new_le
  have hdelta := h
  obtain ⟨position, hposition, hlength, hlines⟩ := applyHunk_ok h
  rw [applyHunk, hposition] at hdelta
  simp only [bind, Except.bind] at hdelta
  split_ifs at hdelta
  cases hdelta
  rw [e.old_hunk] at hlength
  simp only [e.old_hunk, e.replacement_hunk, List.length_append, List.length_take,
    List.length_drop] at *
  refine ⟨?_, by omega, fun hold hn hsum => ?_⟩
  · rw [hp, addIsize_eq] <;> omega
  · have hstart : (e.hunk n).oldStart = some (Edit.rangeStart (n + e.gap.length) e.old.length) := rfl
    have hpositive : e.old.length ≠ 0 := fun hzero => hold (List.eq_nil_of_length_eq_zero hzero)
    rw [hunkPosition, hstart, Edit.rangeStart, if_neg hpositive] at hposition
    dsimp only at hposition
    rw [Edit.oldEnd] at hn hsum ⊢
    rw [hp, bmod_eq_self (by omega) (by omega), addIsize_eq (by omega) (by omega)] at hposition
    have hplace := Except.ok.inj hposition
    omega

/-- A hunk has lines: those that it removes, if it leaves none. -/
lemma Edit.old_ne_nil (e : Edit) (he : e.Valid) (hnew : e.new = []) : e.old ≠ [] := by
  obtain ⟨line, hline⟩ := List.exists_mem_of_ne_nil _ he.nonempty
  rw [Edit.new, List.map_eq_nil_iff, List.filter_eq_nil_iff] at hnew
  have hremoved : line.1 = .removed := by simpa using hnew line hline
  refine List.ne_nil_of_mem (List.mem_map_of_mem (List.mem_filter.mpr ⟨hline, ?_⟩))
  rw [hremoved]
  rfl

/-- When nothing is left, the last hunk has removed the last lines. -/
lemma length_le_of_applyHunks {es : List Edit} (hes : ∀ e ∈ es, e.Valid) (hne : es ≠ []) :
    ∀ {index n c : ℕ} {p q : Patched}, applyHunks index p (parsedHunks n es) = .ok q →
      p.delta = p.lines.length - c → c < 2 ^ 63 → n + sizeOf [] es < 2 ^ 63 →
      p.lines.length + (es.flatMap Edit.lines).length < 2 ^ 63 →
      n + sizeOf [] es + p.lines.length < 2 ^ 63 + c → q.lines = [] →
      n + (beforeOf [] es).length ≤ c := by
  induction es with
  | nil => exact absurd rfl hne
  | cons e es ih =>
      intro index n c p q h hp hc hn hfits hsum hq
      rw [List.flatMap_cons, List.length_append] at hfits
      rw [parsedHunks, applyHunks] at h
      obtain ⟨r, hr, h⟩ := bind_eq_ok h
      obtain ⟨hdelta, hlength, hend⟩ := applyHunk_delta hr hp hc (by omega)
      have hsize : n + sizeOf [] (e :: es) = e.oldEnd n + e.lines.length + sizeOf [] es := by
        rw [sizeOf, ← Nat.add_assoc, ← oldEnd_add_length, List.flatMap_cons, List.length_append,
          sizeOf]
        omega
      rw [hsize] at hn hsum
      rw [← oldEnd_add_length]
      rcases eq_or_ne es [] with rfl | hes'
      · cases h
        obtain ⟨position, -, -, hlines⟩ := applyHunk_ok hr
        rw [hq, e.replacement_hunk] at hlines
        have hnew : e.new = [] := by simp_all
        exact hend (e.old_ne_nil (hes e List.mem_cons_self) hnew) (by omega) (by omega)
      · exact ih (fun e he => hes e (List.mem_cons_of_mem _ he)) hes' h hdelta hc (by omega)
          (by omega) (by omega) hq

/-! ### Exactly the target -/

lemma afterOf_eq (tail : List Text) (es : List Edit) : afterOf tail es = afterOf [] es ++ tail := by
  induction es with
  | nil => rfl
  | cons e es ih => rw [afterOf, afterOf, ih, List.append_assoc _ (afterOf [] es)]

lemma isLine_beforeOf {tail : List Text} {es : List Edit} (htail : ∀ line ∈ tail, IsLine line)
    (hes : ∀ e ∈ es, e.Valid) : ∀ line ∈ beforeOf tail es, IsLine line := by
  induction es with
  | nil => exact htail
  | cons e es ih =>
      have he := hes e List.mem_cons_self
      rw [beforeOf, List.append_assoc, List.forall_mem_append, List.forall_mem_append]
      refine ⟨he.gap, fun line hline => ?_, ih fun e he => hes e (List.mem_cons_of_mem _ he)⟩
      obtain ⟨marked, hmarked, rfl⟩ := List.mem_map.mp hline
      exact he.lines marked (List.mem_of_mem_filter hmarked)

lemma isLine_afterOf {tail : List Text} {es : List Edit} (htail : ∀ line ∈ tail, IsLine line)
    (hes : ∀ e ∈ es, e.Valid) : ∀ line ∈ afterOf tail es, IsLine line := by
  induction es with
  | nil => exact htail
  | cons e es ih =>
      have he := hes e List.mem_cons_self
      rw [afterOf, List.append_assoc, List.forall_mem_append, List.forall_mem_append]
      refine ⟨he.gap, fun line hline => ?_, ih fun e he => hes e (List.mem_cons_of_mem _ he)⟩
      obtain ⟨marked, hmarked, rfl⟩ := List.mem_map.mp hline
      exact he.lines marked (List.mem_of_mem_filter hmarked)

/-- As many lines are written as lines that are expected exactly if they are those. -/
lemma unlines_written_eq_iff {ls ls' : List Text} (h : ∀ line ∈ ls, IsLine line)
    (h' : ∀ line ∈ ls', IsLine line) (hlength : ls.length = ls'.length) (hne : ls' ≠ []) :
    unlines (written ls) = unlines ls' ↔ ls = ls' := by
  have hne' : ls ≠ [] := fun hnil => hne (List.eq_nil_of_length_eq_zero (by simp_all))
  rw [written, if_neg hne']
  exact ⟨unlines_injective h h', congrArg unlines⟩

lemma written_ne_nil (ls : List Text) : written ls ≠ [] := by
  rw [written]
  split_ifs with hls
  · exact List.cons_ne_nil _ _
  · exact hls

namespace UnifiedDiff

/-- Parsing the text of a diff and applying what it says gives what the diff is to. -/
def Reproduces (d : UnifiedDiff) : Prop :=
  ∃ file, parseUnifiedPatch d.text = .ok [file] ∧
    applyPatchContent (.text d.before) file.hunks file.delete = .ok (.text d.after)

/-- The edits of a diff fit how hunks are applied: to a text without the blank lines at its end,
and with a line in what is written.

* A file that is deleted, or one that is patched and has lines afterwards if it had some, does
  not end in blank lines, and what its hunks insert is the same one line earlier.
* A file becomes a blank line when the blank line at its end is left alone and all others go. -/
inductive Fitting (d : UnifiedDiff) : Prop
  | deleted (deletes : d.Deletes) (blank : blankEnd (beforeOf d.tail d.edits) = 0)
  | patched (keeps : ¬ d.Deletes) (blank : blankEnd (beforeOf d.tail d.edits) = 0)
      (leaves : afterOf d.tail d.edits = [] → beforeOf d.tail d.edits = [])
      (copies : Copies 0 [] d.edits)
  | blank (keeps : ¬ d.Deletes) (blank : blankEnd (beforeOf d.tail d.edits) = 1)
      (leaves : afterOf d.tail d.edits = [[]]) (tail : d.tail ≠ [])

variable (d : UnifiedDiff)

lemma afterOf_of_deletes {d : UnifiedDiff} (h : d.Deletes) : afterOf d.tail d.edits = [] := by
  obtain ⟨path, hpath, hnone⟩ := d.newPath
  have hisNone := isNone_sidePath hpath
  rw [show headerPath ("+++ ".toList ++ d.newName) = "/dev/null".toList from h,
    decide_eq_true rfl] at hisNone
  exact hnone (Option.isNone_iff_eq_none.mp hisNone)

/-- The hunks of a diff are applied to all its lines. -/
lemma applyHunks_before : ∃ delta cursor,
    applyHunks 0 ⟨beforeOf d.tail d.edits, 0, 0⟩ (parsedHunks 0 d.edits) =
      .ok ⟨landed d.tail 0 [] d.edits, delta, cursor⟩ := by
  have hfits := d.fits
  exact applyHunks_edits d.tail 0 0 _ [] rfl rfl (by rw [sizeOf]; omega)
    (by rw [sizeOf, List.length_nil]; omega)

/-- What they leave is written as the target exactly if they insert copies. -/
lemma landed_written_iff (hafter : afterOf d.tail d.edits ≠ []) :
    unlines (written (landed d.tail 0 [] d.edits)) = d.after ↔ Copies 0 [] d.edits := by
  obtain ⟨delta, cursor, hrun⟩ := d.applyHunks_before
  have hlines := isLine_of_applyHunks d.valid hrun (isLine_beforeOf d.tail_lines d.valid)
  have hlength := length_of_applyHunks d.tail hrun
  rw [after, unlines_written_eq_iff hlines (isLine_afterOf d.tail_lines d.valid)
    (by dsimp only at hlength ⊢; omega) hafter]
  exact (landed_eq_iff d.tail rfl).trans (and_iff_right rfl)

/-- The empty text. -/
lemma applies_nil_iff (hbefore : beforeOf d.tail d.edits = []) :
    applyPatchContent (.text []) (parsedHunks 0 d.edits) (decide d.Deletes) =
      .ok (.text d.after) ↔ d.Fitting := by
  have hblank : blankEnd (beforeOf d.tail d.edits) = 0 := by rw [hbefore]; rfl
  obtain ⟨delta, cursor, hrun⟩ := d.applyHunks_before
  rw [hbefore] at hrun
  rw [applyPatchContent_nil, hrun]
  by_cases hdeletes : d.Deletes
  · refine iff_of_true ?_ (.deleted hdeletes hblank)
    rw [after, afterOf_of_deletes hdeletes]
    simp [Except.map, hdeletes]
  have hfitting : d.Fitting ↔ Copies 0 [] d.edits := by
    refine ⟨fun h => ?_, fun h => .patched hdeletes hblank (fun _ => hbefore) h⟩
    rcases h with ⟨hdeletes', _⟩ | ⟨_, _, _, hcopies⟩ | ⟨_, hone, _, _⟩
    · exact absurd hdeletes' hdeletes
    · exact hcopies
    · omega
  rw [hfitting]
  cases hedits : d.edits with
  | nil =>
      rw [hedits] at hbefore
      rw [after, hedits, landed, List.nil_append]
      simp only [beforeOf] at hbefore
      simp [Except.map, hdeletes, parsedHunks, afterOf, hbefore, Copies]
  | cons e es =>
      have hafter : afterOf d.tail d.edits ≠ [] := by
        intro hafter
        rw [hedits, beforeOf, List.append_assoc, List.append_eq_nil_iff,
          List.append_eq_nil_iff] at hbefore
        rw [hedits, afterOf, List.append_assoc, List.append_eq_nil_iff,
          List.append_eq_nil_iff] at hafter
        exact e.old_ne_nil (d.valid e (hedits ▸ List.mem_cons_self)) hafter.2.1 hbefore.2.1
      rw [← hedits, ← d.landed_written_iff hafter]
      have hhunks : parsedHunks 0 d.edits ≠ [] := by
        rw [hedits]
        exact List.cons_ne_nil _ _
      simp [Except.map, hdeletes, hhunks]

/-- A text that does not end in blank lines. -/
lemma applies_iff_of_blankEnd (hne : beforeOf d.tail d.edits ≠ [])
    (hblank : blankEnd (beforeOf d.tail d.edits) = 0) :
    applyPatchContent (.text d.before) (parsedHunks 0 d.edits) (decide d.Deletes) =
      .ok (.text d.after) ↔ d.Fitting := by
  obtain ⟨delta, cursor, hrun⟩ := d.applyHunks_before
  rw [before, applyPatchContent_unlines (isLine_beforeOf d.tail_lines d.valid) hne,
    trimBlankLines_eq_self hblank, hrun]
  by_cases hdeletes : d.Deletes
  · refine iff_of_true ?_ (.deleted hdeletes hblank)
    rw [after, afterOf_of_deletes hdeletes]
    simp [Except.map, hdeletes]
  have hfitting : d.Fitting ↔ afterOf d.tail d.edits ≠ [] ∧ Copies 0 [] d.edits := by
    refine ⟨fun h => ?_, fun h => .patched hdeletes hblank (fun hafter => absurd hafter h.1) h.2⟩
    rcases h with ⟨hdeletes', _⟩ | ⟨_, _, hleaves, hcopies⟩ | ⟨_, hone, _, _⟩
    · exact absurd hdeletes' hdeletes
    · exact ⟨fun hafter => hne (hleaves hafter), hcopies⟩
    · omega
  rw [hfitting]
  by_cases hafter : afterOf d.tail d.edits = []
  · refine iff_of_false ?_ fun h => h.1 hafter
    rw [after, hafter]
    simp [Except.map, hdeletes, unlines_ne_nil (written_ne_nil _)]
  · rw [and_iff_right hafter, ← d.landed_written_iff hafter]
    simp [Except.map, hdeletes]

/-- The hunks of a diff that leaves the blank line at the end alone, and no other, are applied. -/
lemma applyHunks_of_blank (hblank : blankEnd (beforeOf d.tail d.edits) = 1)
    (hleaves : afterOf d.tail d.edits = [[]]) (htail : d.tail ≠ []) :
    ∃ p, applyHunks 0 ⟨trimBlankLines (beforeOf d.tail d.edits), 0, 0⟩ (parsedHunks 0 d.edits) =
      .ok p := by
  have hfits := d.fits
  have htail' : d.tail = [[]] := by
    rw [afterOf_eq, List.append_eq_singleton_iff] at hleaves
    rcases hleaves with ⟨-, h⟩ | ⟨-, h⟩
    · exact h
    · exact absurd h htail
  have htrim : trimBlankLines (beforeOf d.tail d.edits) = beforeOf [] d.edits := by
    have hsplit := trimBlankLines_append_replicate (beforeOf d.tail d.edits)
    rw [hblank] at hsplit
    refine List.append_cancel_right (hsplit.trans ?_)
    rw [beforeOf_eq, htail']
    rfl
  rw [beforeOf_eq, List.length_append] at hfits
  obtain ⟨delta, cursor, hrun⟩ := applyHunks_edits [] 0 0 ⟨beforeOf [] d.edits, 0, 0⟩ [] rfl rfl
    (by rw [sizeOf]; omega) (by rw [sizeOf, List.length_nil]; omega)
  rw [htrim]
  exact ⟨_, hrun⟩

/-- A text that ends in blank lines. -/
lemma applies_iff_of_not_blankEnd (hblank : blankEnd (beforeOf d.tail d.edits) ≠ 0) :
    applyPatchContent (.text d.before) (parsedHunks 0 d.edits) (decide d.Deletes) =
      .ok (.text d.after) ↔ d.Fitting := by
  have hne : beforeOf d.tail d.edits ≠ [] := fun hnil => hblank (by rw [hnil]; rfl)
  have hbefore := isLine_beforeOf d.tail_lines d.valid
  have htrim := length_trimBlankLines (beforeOf d.tail d.edits)
  have hfitting : d.Fitting ↔ ¬ d.Deletes ∧ blankEnd (beforeOf d.tail d.edits) = 1 ∧
      afterOf d.tail d.edits = [[]] ∧ d.tail ≠ [] := by
    refine ⟨fun h => ?_, fun h => .blank h.1 h.2.1 h.2.2.1 h.2.2.2⟩
    rcases h with ⟨_, hzero⟩ | ⟨_, hzero, _, _⟩ | ⟨hkeeps, hone, hleaves, htail⟩
    · exact absurd hzero hblank
    · exact absurd hzero hblank
    · exact ⟨hkeeps, hone, hleaves, htail⟩
  rw [before, applyPatchContent_unlines hbefore hne, hfitting]
  cases hrun : applyHunks 0 ⟨trimBlankLines (beforeOf d.tail d.edits), 0, 0⟩
      (parsedHunks 0 d.edits) with
  | error failure =>
      refine iff_of_false (by simp [Except.map]) ?_
      rintro ⟨-, hone, hleaves, htail⟩
      obtain ⟨p, hp⟩ := d.applyHunks_of_blank hone hleaves htail
      rw [hrun] at hp
      cases hp
  | ok p =>
      have hlength := length_of_applyHunks d.tail hrun
      have hlines := isLine_of_applyHunks d.valid hrun fun line hline =>
        hbefore line ((trimBlankLines_take _).subset hline)
      have hafter := isLine_afterOf d.tail_lines d.valid
      dsimp only at hlength
      by_cases hdeletes : d.Deletes
      · -- The hunks remove all lines, and there are fewer.
        rw [afterOf_of_deletes hdeletes, List.length_nil] at hlength
        omega
      have hwritten : (Except.ok p).map (fun p => Content.text
            (if decide d.Deletes then [] else unlines (written p.lines))) =
          (.ok (.text d.after) : Except FsError Content) ↔
            written p.lines = afterOf d.tail d.edits := by
        simp only [Except.map, hdeletes, decide_false, Bool.false_eq_true, if_false,
          Except.ok.injEq, Content.text.injEq, after]
        refine ⟨fun h => unlines_injective ?_ hafter h, congrArg unlines⟩
        rw [written]
        split_ifs
        · simp [IsLine]
        · exact hlines
      rw [hwritten, written]
      split_ifs with hnil
      · rw [hnil, List.length_nil] at hlength
        refine ⟨fun hleaves => ?_, fun h => h.2.2.1.symm⟩
        rw [← hleaves, List.length_singleton] at hlength
        refine ⟨hdeletes, by omega, hleaves.symm, fun htail => ?_⟩
        -- The last hunk removes the last line, which is not there.
        have hfits := d.fits
        have hedits : d.edits ≠ [] := by
          intro hedits
          rw [hedits, htail] at hne
          exact hne rfl
        rw [htail] at hfits hlength htrim
        have hend := length_le_of_applyHunks d.valid hedits hrun
          (c := (trimBlankLines (beforeOf d.tail d.edits)).length) (by simp)
          (by rw [htail]; omega) (by rw [sizeOf]; omega) (by dsimp only; rw [htail]; omega)
          (by dsimp only; rw [sizeOf, htail]; omega) hnil
        rw [htail] at hend
        omega
      · refine iff_of_false (fun hsame => ?_) ?_
        · rw [hsame] at hlength
          omega
        · rintro ⟨-, hone, hleaves, -⟩
          rw [hleaves, List.length_singleton] at hlength
          exact hnil (List.eq_nil_of_length_eq_zero (by omega))

/-- **When applying a unified diff yields its target**: exactly when no line that it removes looks
like the header of a file, and its edits fit how hunks are applied. -/
theorem patch_exact_iff : d.Reproduces ↔ d.Separate ∧ d.Fitting := by
  have happlies : applyPatchContent (.text d.before) (parsedHunks 0 d.edits) (decide d.Deletes) =
      .ok (.text d.after) ↔ d.Fitting := by
    by_cases hnil : beforeOf d.tail d.edits = []
    · rw [before, hnil]
      exact d.applies_nil_iff hnil
    · by_cases hblank : blankEnd (beforeOf d.tail d.edits) = 0
      · exact d.applies_iff_of_blankEnd hnil hblank
      · exact d.applies_iff_of_not_blankEnd hblank
  constructor
  · rintro ⟨file, hparse, happly⟩
    have hseparate := separate_of_parse hparse
    obtain ⟨file', hparse', hhunks, hdelete⟩ := parse_of_separate hseparate
    obtain rfl : file = file' := by simpa using hparse.symm.trans hparse'
    rw [hhunks, hdelete] at happly
    exact ⟨hseparate, happlies.mp happly⟩
  · rintro ⟨hseparate, hfitting⟩
    obtain ⟨file, hparse, hhunks, hdelete⟩ := parse_of_separate hseparate
    refine ⟨file, hparse, ?_⟩
    rw [hhunks, hdelete]
    exact happlies.mpr hfitting

/-- The diff that removes the comment behind a statement. -/
def droppedComment : UnifiedDiff where
  preamble := []
  oldName := "a/query.sql".toList
  newName := "b/query.sql".toList
  edits := [⟨[], [(.context, "SELECT 1;".toList), (.removed, "-- done".toList)], true, []⟩]
  tail := []
  preamble_lines := by simp
  names := by decide
  oldPath := ⟨some "query.sql".toList, by decide +kernel⟩
  newPath := ⟨some "query.sql".toList, by decide +kernel, by simp⟩
  valid := by
    rw [List.forall_mem_singleton]
    exact ⟨by simp, by decide, by decide, List.cons_ne_nil _ _⟩
  tail_lines := by simp
  fits := by decide

/-- **Not every diff yields its target**: the line that is removed begins with two minus signs, and
is read as the header of a file. -/
theorem not_reproduces : ¬ ∀ d : UnifiedDiff, d.Reproduces := by
  intro h
  obtain ⟨file, hparse, -⟩ := h droppedComment
  exact separate_of_parse hparse _ List.mem_cons_self (.removed, "-- done".toList) (by decide) rfl
    (by decide)

end UnifiedDiff

end Filesystem

end McpSurfaces
