import McpSurfaces.Filesystem.Paths
import McpSurfaces.Foundation.ByteLines
import McpSurfaces.Foundation.Lists
import McpSurfaces.Foundation.OffsetPaging
import McpSurfaces.Foundation.Sha256
import McpSurfaces.Json.Text

/-!
Reading a text file in windows of lines: `fs_read_file` and `fs_read_file_range`.

* `streamTextWindow` reads the file in chunks. It keeps the lines of the window, and it stops to
  look for lines once there is a byte behind them; all bytes are hashed.
* `At`: what the loop knows between two bytes. `Window.Ends`: a window has its lines and the offset
  behind them. **`streamTextWindow_eq_ok`**: so has each window of a text, with the digest of all of
  it. `Small` says of a text that its lines and windows are within the bounds, so that no window is
  refused (`exists_streamTextWindow`).
-/

namespace McpSurfaces

namespace Filesystem

open ByteLines TextLines

/-! ### Bounds -/

/-- `MAX_READ_LINES`. -/
def maxReadLines : ℕ := 1000

/-- `MAX_READ_LINE_BYTES`. -/
def maxReadLineBytes : ℕ := 1024 * 1024

/-- `MAX_READ_WINDOW_BYTES`. -/
def maxReadWindowBytes : ℕ := 4 * 1024 * 1024

/-! ### The loop over the bytes -/

/-- What the loop has read. It is bounded once there is a next offset. -/
structure Window where
  pending : List UInt8
  selected : List Text
  retained : ℕ
  lineNumber : ℕ
  nextOffset : Option ℕ

/-- `TextWindow`. -/
structure TextWindow where
  selected : List Text
  nextOffset : Option ℕ
  totalLines : ℕ
  complete : Bool
  sha256 : String

section Loop

variable (path root : Path) (offset limit : ℕ)

/-- A line is at its end. -/
def takeLine (w : Window) : Except FsError Window :=
  let number := w.lineNumber + 1
  let line := stripEnd 13 w.pending
  if offset ≤ number ∧ w.selected.length < limit then
    let retained := w.retained + line.length
    if maxReadWindowBytes < retained then
      .error (.plain "fs_read_window_too_large" (.object [
        ("path", .string (String.ofList path)), ("max_window_bytes", .ofNat maxReadWindowBytes),
        ("line", .ofNat number)]))
    else match decode line with
      | none => .error (.plain "text_file_not_utf8" (pathDetails path root))
      | some text =>
          .ok { w with
            pending := [], selected := w.selected ++ [text], retained, lineNumber := number }
  else
    .ok { w with
      pending := [], lineNumber := number
      nextOffset := if offset + limit ≤ number then some number else w.nextOffset }

/-- One byte of a chunk. -/
def readByte (w : Window) (byte : UInt8) : Except FsError Window :=
  if w.nextOffset.isSome then .ok w
  else if limit ≤ w.selected.length ∧ offset + limit - 1 ≤ w.lineNumber then
    .ok { w with nextOffset := some (w.lineNumber + 1) }
  else if byte = 10 then takeLine path root offset limit w
  else
    let pending := w.pending ++ [byte]
    if maxReadLineBytes < pending.length then
      .error (.plain "fs_read_line_too_large" (.object [("path", .string (String.ofList path)),
        ("max_line_bytes", .ofNat maxReadLineBytes), ("line", .ofNat (w.lineNumber + 1))]))
    else .ok { w with pending }

/-- One chunk of a file. -/
def readChunk (w : Window) (chunk : List UInt8) : Except FsError Window :=
  if 0 ∈ chunk then
    .error ⟨"binary_file_not_supported", "binary_file_not_supported: " ++ String.ofList path,
      pathDetails path root⟩
  else chunk.foldlM (readByte path root offset limit) w

/-- The line behind the last line feed. -/
def takeLast (w : Window) : Except FsError Window :=
  if w.nextOffset = none ∧ w.pending ≠ [] then takeLine path root offset limit w else .ok w

/-- `stream_text_window`, for a file that is read within the timeout, in these chunks. -/
def streamTextWindow (chunks : List (List UInt8)) : Except FsError TextWindow := do
  let read ← chunks.foldlM (readChunk path root offset limit) ⟨[], [], 0, 0, none⟩
  let w ← takeLast path root offset limit read
  return ⟨w.selected, w.nextOffset, w.lineNumber, w.nextOffset.isNone,
    Sha2.sha256 chunks.flatten⟩

end Loop

/-! ### The page -/

/-- An integer among the arguments. -/
def integer (args : Map) (key : String) : Option ℤ := (args.get key).bind Value.asI64

lemma integer_insert_self (args : Map) (key : String) {n : ℕ} (h : n < 2 ^ 63) :
    integer (args.insert key (.ofNat n)) key = some (n : ℤ) := by
  rw [integer, OrderedMap.get_insert_self, Option.bind_some]
  simp only [Value.ofNat, Value.asI64, Number.asI64, Nat.mod_eq_of_lt (show n < 2 ^ 64 by omega),
    if_pos h]

/-- What a call asks for: where it begins, how many lines, how many at once, and where it ends. -/
structure ReadRequest where
  offset : ℕ
  requestedLimit : ℕ
  limit : ℕ
  requestedEndLine : Option ℕ

/-- The check of the lines of a range. -/
def rangeRequest (args : Map) : Except FsError ReadRequest :=
  match integer args "start_line" with
  | none => .error (.plain "start_line_must_be_positive_integer" (.object []))
  | some start =>
      match integer args "end_line" with
      | none => .error (.plain "end_line_must_be_greater_than_or_equal_start_line" (.object []))
      | some stop =>
          if start < 1 then
            .error (.plain "start_line_must_be_positive_integer"
              (.object [("start_line", .ofInt start)]))
          else if stop < start then
            .error (.plain "end_line_must_be_greater_than_or_equal_start_line"
              (.object [("start_line", .ofInt start), ("end_line", .ofInt stop)]))
          else
            let requested := (stop - start + 1).toNat
            .ok ⟨start.toNat, requested, min requested maxReadLines, some stop.toNat⟩

/-- The check of an offset with a limit. -/
def offsetRequest (args : Map) : Except FsError ReadRequest :=
  let offset := (max ((integer args "offset").getD 1) 1).toNat
  let requested := (max ((integer args "limit").getD 400) 1).toNat
  if maxReadLines < requested then
    .error (.plain "fs_read_file_limit_exceeds_max" (.object [("offset", .ofNat offset),
      ("requested_limit", .ofNat requested), ("max_limit", .ofNat maxReadLines),
      ("pagination_required", .bool true), ("mutation_started", .bool false)]))
  else .ok ⟨offset, requested, requested, none⟩

/-- The answer with a window of the lines. -/
structure ReadPage where
  request : ReadRequest
  timeoutMs : ℕ
  window : TextWindow

namespace ReadPage

/-- The lines of the window. -/
def lines (page : ReadPage) : List Text := page.window.selected

def contentSha256 (page : ReadPage) : String := page.window.sha256

/-- The number of lines, when the window reaches the end of the file. -/
def totalLines (page : ReadPage) : Option ℕ :=
  if page.window.complete then some page.window.totalLines else none

def nextOffset (page : ReadPage) : Option ℕ :=
  match page.request.requestedEndLine with
  | some stop => page.window.nextOffset.filter fun next => next ≤ stop
  | none => page.window.nextOffset

/-- The arguments of the call that reads on in a range. -/
def continuation (path : Path) (page : ReadPage) : Option Map :=
  match page.request.requestedEndLine with
  | none => none
  | some stop => page.nextOffset.map fun next =>
      [("path", .string (String.ofList path)), ("start_line", .ofNat next),
        ("end_line", .ofNat stop), ("timeout_ms", .ofNat page.timeoutMs)]

end ReadPage

/-- The request of a call. -/
def requestOf (args : Map) (range : Bool) : Except FsError ReadRequest :=
  if range then rangeRequest args else offsetRequest args

/-- `read_file`, for a path that is resolved. -/
def readFile (path root : Path) (chunks : List (List UInt8)) (args : Map) (range : Bool) :
    Except FsError ReadPage := do
  let request ← requestOf args range
  let timeout := (min (max ((integer args "timeout_ms").getD 5000) 1) 60000).toNat
  let window ← streamTextWindow path root request.offset request.limit chunks
  return ⟨request, timeout, window⟩

/-! ### What the loop knows -/

/-- The text of a line. -/
def textOfLine (line : List UInt8) : Text := (decode line).getD []

/-- The lines of a window. -/
def windowLines (offset limit : ℕ) (all : List (List UInt8)) : List (List UInt8) :=
  (all.drop (offset - 1)).take limit

/-- Between two bytes: the lines before, and the beginning of the next one. -/
structure At (offset limit : ℕ) (before : List (List UInt8)) (front : List UInt8) (w : Window) :
    Prop where
  going : w.nextOffset = none
  pending : w.pending = front
  count : w.lineNumber = before.length
  selected : w.selected = (windowLines offset limit before).map textOfLine
  retained : w.retained = ((windowLines offset limit before).map List.length).sum
  within : before.length ≤ offset - 1 + limit
  room : front ≠ [] → before.length < offset - 1 + limit

/-- A window has its lines, and the offset behind them while there are more. -/
structure Window.Ends (offset limit : ℕ) (all : List (List UInt8)) (w : Window) : Prop where
  selected : w.selected = (windowLines offset limit all).map textOfLine
  nextOffset : w.nextOffset =
    if offset - 1 + limit < all.length then some (offset + limit) else none
  count : w.nextOffset = none → w.lineNumber = all.length

section Steps

variable {path root : Path} {offset limit : ℕ} {before : List (List UInt8)} {front : List UInt8}
  {w w' : Window}

lemma length_windowLines (offset limit : ℕ) (all : List (List UInt8)) :
    (windowLines offset limit all).length = min limit (all.length - (offset - 1)) := by
  rw [windowLines, List.length_take, List.length_drop]

/-- The window of the lines so far is where the window of all lines begins. -/
lemma windowLines_append (offset limit : ℕ) (before more : List (List UInt8)) :
    ∃ rest, windowLines offset limit (before ++ more) =
      windowLines offset limit before ++ rest := by
  rw [windowLines, windowLines, List.drop_append, List.take_append]
  exact ⟨_, rfl⟩

/-- Once the lines so far reach behind the window, it is there. -/
lemma windowLines_append_of_full (h : before.length = offset - 1 + limit)
    (more : List (List UInt8)) :
    windowLines offset limit (before ++ more) = windowLines offset limit before := by
  obtain ⟨rest, hrest⟩ := windowLines_append offset limit before more
  have hlength := congrArg List.length hrest
  rw [List.length_append, length_windowLines, length_windowLines, List.length_append] at hlength
  have hnone : rest = [] := List.length_eq_zero_iff.mp (by omega)
  rw [hrest, hnone, List.append_nil]

/-- The window is full exactly when the lines so far reach its end. -/
lemma At.full_iff (h : At offset limit before front w) :
    (limit ≤ w.selected.length ∧ offset + limit - 1 ≤ w.lineNumber) ↔
      1 ≤ offset ∧ before.length = offset - 1 + limit ∨ offset = 0 ∧ before.length = limit := by
  rw [h.selected, List.length_map, length_windowLines, h.count]
  have := h.within
  omega

lemma At.ends (h : At offset limit before [] w) : w.Ends offset limit before := by
  refine ⟨h.selected, ?_, fun _ => h.count⟩
  rw [h.going, if_neg (not_lt.mpr h.within)]

/-- What a line adds to the window. -/
lemma windowLines_concat (hoffset : 1 ≤ offset) (hroom : before.length < offset - 1 + limit)
    (line : List UInt8) :
    windowLines offset limit (before ++ [line]) = windowLines offset limit before ++
      if offset ≤ before.length + 1 then [line] else [] := by
  rw [windowLines, windowLines, List.drop_append, List.take_append, List.length_drop]
  congr 1
  split_ifs with hin
  · rw [show offset - 1 - before.length = 0 by omega, List.drop_zero,
      List.take_of_length_le (by rw [List.length_singleton]; omega)]
  · rw [List.drop_eq_nil_of_le (by rw [List.length_singleton]; omega), List.take_nil]

/-- **A line at its end.** -/
lemma At.takeLine (h : At offset limit before front w) (hoffset : 1 ≤ offset)
    (hroom : before.length < offset - 1 + limit)
    (htake : Filesystem.takeLine path root offset limit w = .ok w') :
    At offset limit (before ++ [stripEnd 13 front]) [] w' := by
  have hselected : w.selected.length < limit ∨ ¬ offset ≤ before.length + 1 := by
    rw [h.selected, List.length_map, length_windowLines]
    omega
  have hwindow := windowLines_concat hoffset hroom (stripEnd 13 front)
  have hlength : (before ++ [stripEnd 13 front]).length = before.length + 1 := by simp
  rw [Filesystem.takeLine] at htake
  simp only [h.count, h.pending] at htake
  by_cases hin : offset ≤ before.length + 1
  · rw [if_pos ⟨hin, hselected.resolve_right (not_not.mpr hin)⟩] at htake
    split_ifs at htake with hlarge
    cases hdecode : decode (stripEnd 13 front) with
    | none => rw [hdecode] at htake; cases htake
    | some text =>
        rw [hdecode] at htake
        obtain rfl := Except.ok.inj htake
        rw [if_pos hin] at hwindow
        refine ⟨h.going, rfl, hlength.symm, ?_, ?_, by rw [hlength]; omega,
          fun hne => absurd rfl hne⟩
        · rw [hwindow, List.map_append, ← h.selected, List.map_singleton, textOfLine, hdecode]
          rfl
        · rw [hwindow, List.map_append, List.sum_append, ← h.retained]
          simp
  · rw [if_neg fun hboth => hin hboth.1] at htake
    obtain rfl := Except.ok.inj htake
    rw [if_neg hin, List.append_nil] at hwindow
    have hnot : ¬ offset + limit ≤ before.length + 1 := by omega
    refine ⟨?_, rfl, hlength.symm, hwindow ▸ h.selected, hwindow ▸ h.retained,
      by rw [hlength]; omega, fun hne => absurd rfl hne⟩
    rw [if_neg hnot]
    exact h.going

/-- A window that is bounded stays as it is. -/
lemma foldlM_readByte_of_bounded (hbounded : w.nextOffset.isSome) (bytes : List UInt8) :
    bytes.foldlM (readByte path root offset limit) w = .ok w := by
  induction bytes with
  | nil => rfl
  | cons byte rest ih =>
      rw [List.foldlM_cons, readByte, if_pos hbounded]
      exact ih

/-- The lines behind the beginning of one, as they are shown. -/
def shownFrom (front bytes : List UInt8) : List (List UInt8) :=
  (rawLinesFrom 10 front bytes).map (stripEnd 13)

lemma shownFrom_feed (front rest : List UInt8) :
    shownFrom front (10 :: rest) = stripEnd 13 front :: shownFrom [] rest := by
  rw [shownFrom, rawLinesFrom_feed, List.map_cons]
  rfl

lemma shownFrom_of_ne {byte : UInt8} (h : byte ≠ 10) (front rest : List UInt8) :
    shownFrom front (byte :: rest) = shownFrom (front ++ [byte]) rest := by
  rw [shownFrom, rawLinesFrom, if_neg h, shownFrom]

lemma shownFrom_ne_nil (front rest : List UInt8) (byte : UInt8) :
    shownFrom front (byte :: rest) ≠ [] := by
  have hne : ∀ (rest front : List UInt8), front ≠ [] → rawLinesFrom 10 front rest ≠ [] := by
    intro rest
    induction rest with
    | nil => exact fun front h => by rw [rawLinesFrom, if_neg h]; exact List.cons_ne_nil _ _
    | cons byte rest ih =>
        intro front h
        rw [rawLinesFrom]
        split_ifs
        · exact List.cons_ne_nil _ _
        · exact ih _ (List.append_ne_nil_of_left_ne_nil h _)
  rw [shownFrom, rawLinesFrom]
  split_ifs
  · exact List.cons_ne_nil _ _
  · exact fun hnil => hne rest (front ++ [byte])
      (List.append_ne_nil_of_right_ne_nil _ (List.cons_ne_nil _ _)) (List.map_eq_nil_iff.mp hnil)

/-- **The loop and its end** give the window of all lines. -/
lemma At.loop {bytes : List UInt8} (h : At offset limit before front w) (hoffset : 1 ≤ offset)
    {read : Window} (hread : bytes.foldlM (readByte path root offset limit) w = .ok read)
    (hlast : takeLast path root offset limit read = .ok w') :
    w'.Ends offset limit (before ++ shownFrom front bytes) := by
  induction bytes generalizing before front w with
  | nil =>
      cases hread
      rw [takeLast, h.pending] at hlast
      rw [shownFrom, rawLinesFrom]
      by_cases hfront : front = []
      · rw [if_neg fun hboth => hboth.2 hfront] at hlast
        cases hlast
        subst hfront
        rw [if_pos rfl, List.map_nil, List.append_nil]
        exact h.ends
      · rw [if_pos ⟨h.going, hfront⟩] at hlast
        rw [if_neg hfront, List.map_singleton]
        exact (h.takeLine hoffset (h.room hfront) hlast).ends
  | cons byte rest ih =>
      rw [List.foldlM_cons] at hread
      obtain ⟨next, hnext, hread⟩ := Lists.bind_eq_ok hread
      rw [readByte, h.going, if_neg (by simp)] at hnext
      by_cases hfull : limit ≤ w.selected.length ∧ offset + limit - 1 ≤ w.lineNumber
      · -- a byte behind the last line of the window
        have hend : before.length = offset - 1 + limit := by
          have := h.full_iff.mp hfull
          omega
        rw [if_pos hfull] at hnext
        cases hnext
        rw [foldlM_readByte_of_bounded rfl] at hread
        cases hread
        rw [takeLast, if_neg (by simp)] at hlast
        cases hlast
        have hmore := List.length_pos_iff.mpr (shownFrom_ne_nil front rest byte)
        refine ⟨?_, ?_, fun hnone => by cases hnone⟩
        · rw [windowLines_append_of_full hend]
          exact h.selected
        · rw [if_pos (by rw [List.length_append]; omega), h.count, hend]
          simp only [Option.some.injEq]
          omega
      · have hroom : before.length < offset - 1 + limit := by
          have hwithin := h.within
          by_contra hnot
          exact hfull (h.full_iff.mpr (by omega))
        rw [if_neg hfull] at hnext
        by_cases hfeed : byte = 10
        · rw [if_pos hfeed] at hnext
          have hrest := ih (h.takeLine hoffset hroom hnext) hread
          rw [List.append_assoc, List.singleton_append] at hrest
          rwa [hfeed, shownFrom_feed]
        · rw [if_neg hfeed] at hnext
          dsimp only at hnext
          split_ifs at hnext with hlarge
          cases hnext
          have hat : At offset limit before (front ++ [byte])
              { w with pending := w.pending ++ [byte] } :=
            ⟨h.going, by rw [h.pending], h.count, h.selected, h.retained, h.within, fun _ => hroom⟩
          rw [← h.going] at hread
          rw [shownFrom_of_ne hfeed]
          exact ih hat hread

/-! ### Windows within the bounds -/

lemma sum_windowLines_le (more : List (List UInt8)) :
    ((windowLines offset limit before).map List.length).sum ≤
      ((windowLines offset limit (before ++ more)).map List.length).sum := by
  obtain ⟨rest, hrest⟩ := windowLines_append offset limit before more
  rw [hrest, List.map_append, List.sum_append]
  exact Nat.le_add_right _ _

/-- A line is taken where the window stays within its bound. -/
lemma At.exists_takeLine (path root : Path) (h : At offset limit before front w) (hoffset : 1 ≤ offset)
    (hroom : before.length < offset - 1 + limit) (hdecode : (decode (stripEnd 13 front)).isSome)
    (hwindow : ((windowLines offset limit (before ++ [stripEnd 13 front])).map List.length).sum ≤
      maxReadWindowBytes) :
    ∃ w', Filesystem.takeLine path root offset limit w = .ok w' := by
  rw [Filesystem.takeLine]
  simp only [h.count, h.pending]
  split_ifs with hin hlarge
  · rw [windowLines_concat hoffset hroom, if_pos hin.1, List.map_append, List.sum_append,
      ← h.retained, List.map_singleton, List.sum_singleton] at hwindow
    exact absurd hwindow (not_le.mpr hlarge)
  · obtain ⟨text, htext⟩ := Option.isSome_iff_exists.mp hdecode
    rw [htext]
    exact ⟨_, rfl⟩
  all_goals exact ⟨_, rfl⟩

/-- The line at the front goes on with what was read of it. -/
lemma exists_mem_rawLinesFrom {front : List UInt8} (hfront : front ≠ []) (bytes : List UInt8) :
    ∃ line ∈ rawLinesFrom 10 front bytes, front.length ≤ line.length := by
  induction bytes generalizing front with
  | nil =>
      rw [rawLinesFrom, if_neg hfront]
      exact ⟨front, List.mem_singleton_self _, le_rfl⟩
  | cons byte rest ih =>
      rw [rawLinesFrom]
      split_ifs
      · exact ⟨front, List.mem_cons_self, le_rfl⟩
      · have hne : front ++ [byte] ≠ [] :=
          List.append_ne_nil_of_right_ne_nil _ (List.cons_ne_nil _ _)
        obtain ⟨line, hline, hlength⟩ := ih hne
        rw [List.length_append] at hlength
        exact ⟨line, hline, by omega⟩

/-- **Within the bounds** nothing is refused. -/
lemma At.exists_loop (path root : Path) {bytes : List UInt8} (h : At offset limit before front w)
    (hoffset : 1 ≤ offset)
    (hlines : ∀ line ∈ rawLinesFrom 10 front bytes, line.length ≤ maxReadLineBytes)
    (hdecode : ∀ line ∈ shownFrom front bytes, (decode line).isSome)
    (hwindow : ((windowLines offset limit (before ++ shownFrom front bytes)).map
      List.length).sum ≤ maxReadWindowBytes) :
    ∃ read w', bytes.foldlM (readByte path root offset limit) w = .ok read ∧
      takeLast path root offset limit read = .ok w' := by
  induction bytes generalizing before front w with
  | nil =>
      rw [shownFrom, rawLinesFrom] at hdecode hwindow
      refine ⟨w, ?_⟩
      rw [takeLast, h.pending, h.going]
      split_ifs with hlast
      · rw [if_neg hlast.2, List.map_singleton] at hdecode hwindow
        obtain ⟨w', hw'⟩ := h.exists_takeLine path root hoffset (h.room hlast.2)
          (hdecode _ (List.mem_singleton_self _)) hwindow
        exact ⟨w', rfl, hw'⟩
      · exact ⟨w, rfl, rfl⟩
  | cons byte rest ih =>
      rw [List.foldlM_cons, readByte, h.going, if_neg (by simp)]
      by_cases hfull : limit ≤ w.selected.length ∧ offset + limit - 1 ≤ w.lineNumber
      · rw [if_pos hfull]
        let read : Window := { w with nextOffset := some (w.lineNumber + 1) }
        have hlast : takeLast path root offset limit read = .ok read := by
          rw [takeLast, if_neg (by simp [read])]
        exact ⟨read, read, foldlM_readByte_of_bounded rfl rest, hlast⟩
      · have hroom : before.length < offset - 1 + limit := by
          have hwithin := h.within
          by_contra hnot
          exact hfull (h.full_iff.mpr (by omega))
        rw [if_neg hfull]
        by_cases hfeed : byte = 10
        · subst hfeed
          rw [shownFrom_feed] at hdecode hwindow
          rw [rawLinesFrom_feed] at hlines
          have happend : before ++ stripEnd 13 front :: shownFrom [] rest =
              (before ++ [stripEnd 13 front]) ++ shownFrom [] rest := by simp
          rw [happend] at hwindow
          obtain ⟨next, hnext⟩ := h.exists_takeLine path root hoffset hroom
            (hdecode _ List.mem_cons_self) ((sum_windowLines_le _).trans hwindow)
          obtain ⟨read, w', hread, hlast⟩ := ih (h.takeLine hoffset hroom hnext)
            (fun line hline => hlines line (List.mem_cons_of_mem _ hline))
            (fun line hline => hdecode line (List.mem_cons_of_mem _ hline)) hwindow
          refine ⟨read, w', ?_, hlast⟩
          rw [if_pos rfl, hnext]
          exact hread
        · rw [shownFrom_of_ne hfeed] at hdecode hwindow
          have hrest : rawLinesFrom 10 front (byte :: rest) =
              rawLinesFrom 10 (front ++ [byte]) rest := by
            rw [rawLinesFrom, if_neg hfeed]
          rw [hrest] at hlines
          obtain ⟨line, hline, hlength⟩ := exists_mem_rawLinesFrom
            (show front ++ [byte] ≠ [] from
              List.append_ne_nil_of_right_ne_nil _ (List.cons_ne_nil _ _)) rest
          have hsmall : ¬ maxReadLineBytes < (w.pending ++ [byte]).length := by
            rw [h.pending]
            exact not_lt.mpr (hlength.trans (hlines line hline))
          have hat : At offset limit before (front ++ [byte])
              { w with pending := w.pending ++ [byte] } :=
            ⟨h.going, by rw [h.pending], h.count, h.selected, h.retained, h.within, fun _ => hroom⟩
          obtain ⟨read, w', hread, hlast⟩ := ih hat hlines hdecode hwindow
          refine ⟨read, w', ?_, hlast⟩
          rw [if_neg hfeed]
          dsimp only
          rw [if_neg hsmall, ← h.going]
          exact hread

end Steps

/-! ### Texts -/

section Texts

variable {path root : Path} {offset limit : ℕ} {chunks : List (List UInt8)} {text : Text}

/-- The lines of a text that are shown. -/
def textLines (text : Text) : List Text := shownLines '\n' '\r' text

/-- A text without the character zero. -/
def IsPlain (text : Text) : Prop := '\x00' ∉ text

instance (text : Text) : Decidable (IsPlain text) := inferInstanceAs (Decidable (¬ _))

/-- The bounds of the reader: no line has more bytes than it keeps, and no window of as many lines
as it reads at once has. -/
structure Small (text : Text) : Prop where
  lines : ∀ line ∈ rawLines '\n' text, (encode line).length ≤ maxReadLineBytes
  windows : ∀ n, ((((textLines text).drop n).take maxReadLines).map fun line =>
    (encode line).length).sum ≤ maxReadWindowBytes

lemma foldlM_readChunk {w : Window} (h : 0 ∉ chunks.flatten) :
    chunks.foldlM (readChunk path root offset limit) w =
      chunks.flatten.foldlM (readByte path root offset limit) w := by
  induction chunks generalizing w with
  | nil => rfl
  | cons chunk rest ih =>
      rw [List.flatten_cons, List.mem_append, not_or] at h
      rw [List.foldlM_cons, List.flatten_cons, List.foldlM_append, readChunk, if_neg h.1]
      congr 1
      funext next
      exact ih h.2

lemma notMem_encode (h : IsPlain text) : 0 ∉ encode text := by
  intro hmem
  obtain ⟨c, hc, hbyte⟩ := List.mem_flatMap.mp hmem
  have hne : c ≠ '\x00' := fun hzero => h (hzero ▸ hc)
  exact notMem_encodeChar (d := '\x00') (by decide) hne hbyte

lemma at_start : At offset limit [] [] ⟨[], [], 0, 0, none⟩ := by
  have hnone : windowLines offset limit [] = [] := by rw [windowLines, List.drop_nil, List.take_nil]
  exact ⟨rfl, rfl, rfl, by rw [hnone]; rfl, by rw [hnone]; rfl, Nat.zero_le _,
    fun h => absurd rfl h⟩

lemma shownFrom_nil_encode (text : Text) :
    shownFrom [] (encode text) = (textLines text).map encode :=
  shownLines_encode text

/-- **The window of a text**: its lines, the offset behind them while there are more, the number of
lines where it is complete, and the digest of the whole file. -/
theorem streamTextWindow_eq_ok {window : TextWindow} (hplain : IsPlain text)
    (hchunks : chunks.flatten = encode text) (hoffset : 1 ≤ offset)
    (h : streamTextWindow path root offset limit chunks = .ok window) :
    window.selected = ((textLines text).drop (offset - 1)).take limit ∧
      window.nextOffset = (if offset - 1 + limit < (textLines text).length then
        some (offset + limit) else none) ∧
      window.complete = window.nextOffset.isNone ∧
      (window.complete = true → window.totalLines = (textLines text).length) ∧
      window.sha256 = Sha2.sha256 (encode text) := by
  obtain ⟨read, hread, h⟩ := Lists.bind_eq_ok h
  obtain ⟨w, hw, h⟩ := Lists.bind_eq_ok h
  cases h
  rw [foldlM_readChunk (hchunks ▸ notMem_encode hplain), hchunks] at hread
  obtain ⟨hselected, hnext, hcount⟩ := at_start.loop hoffset hread hw
  rw [List.nil_append, shownFrom_nil_encode] at hselected hnext hcount
  rw [List.length_map] at hnext hcount
  refine ⟨?_, hnext, rfl, fun hcomplete => hcount (Option.isNone_iff_eq_none.mp hcomplete),
    by rw [hchunks]⟩
  have hdecode : (fun line => textOfLine (encode line)) = id := by
    funext line
    rw [textOfLine, decode_encode]
    rfl
  rw [hselected, windowLines, ← List.map_drop, ← List.map_take, List.map_map]
  exact (congrArg (List.map · _) hdecode).trans (List.map_id _)

/-- **Within the bounds** a window is read. -/
theorem exists_streamTextWindow (hplain : IsPlain text) (hchunks : chunks.flatten = encode text)
    (hoffset : 1 ≤ offset) (hlimit : limit ≤ maxReadLines) (hsmall : Small text) :
    ∃ window, streamTextWindow path root offset limit chunks = .ok window := by
  have hlines : ∀ line ∈ rawLinesFrom 10 [] (encode text), line.length ≤ maxReadLineBytes := by
    intro line hline
    have hmem : line ∈ (rawLines '\n' text).map encode := by rwa [← rawLines_encode]
    obtain ⟨shown, hshown, rfl⟩ := List.mem_map.mp hmem
    exact hsmall.lines shown hshown
  have hdecode : ∀ line ∈ shownFrom [] (encode text), (decode line).isSome := by
    intro line hline
    rw [shownFrom_nil_encode] at hline
    obtain ⟨shown, -, rfl⟩ := List.mem_map.mp hline
    rw [decode_encode]
    rfl
  have hwindow : ((windowLines offset limit ([] ++ shownFrom [] (encode text))).map
      List.length).sum ≤ maxReadWindowBytes := by
    refine le_trans ?_ (hsmall.windows (offset - 1))
    rw [List.nil_append, shownFrom_nil_encode, windowLines, ← List.map_drop, ← List.map_take,
      List.map_map]
    exact ((List.take_sublist_take_left hlimit).map _).sum_le_sum fun _ _ => Nat.zero_le _
  obtain ⟨read, w, hread, hlast⟩ := at_start.exists_loop path root hoffset hlines hdecode
    hwindow
  refine ⟨⟨w.selected, w.nextOffset, w.lineNumber, w.nextOffset.isNone,
    Sha2.sha256 chunks.flatten⟩, ?_⟩
  rw [streamTextWindow, foldlM_readChunk (hchunks ▸ notMem_encode hplain), hchunks, hread]
  change (takeLast path root offset limit read).bind _ = _
  rw [hlast]
  rfl

end Texts

end Filesystem

end McpSurfaces
