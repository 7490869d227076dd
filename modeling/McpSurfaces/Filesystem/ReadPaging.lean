import McpSurfaces.Filesystem.ReadFile

/-!
Reading a text file page by page, with any limits, or a range of its lines.

* `Partitions`: the pages that follow each other have some lines, each once and in order, and for a
  file within the bounds there are such pages.
* **`pages_partition`**: so it is for the lines of the file from an offset on, and for those of a
  range.
-/

namespace McpSurfaces

namespace Filesystem

open ByteLines OffsetPaging TextLines

variable {path root : Path} {chunks : List (List UInt8)} {text : Text}

/-! ### Calls -/

/-- The arguments of a call that reads on, at an offset with a limit. -/
def readArgs (base : ℕ → Map) (limits : ℕ → ℕ) (i offset : ℕ) : Map :=
  ((base i).insert "limit" (.ofNat (limits i))).insert "offset" (.ofNat offset)

/-- The calls that follow the next offset of `fs_read_file`. -/
def readOn (path root : Path) (chunks : List (List UInt8)) (base : ℕ → Map) (limits : ℕ → ℕ)
    (i offset : ℕ) : Except FsError ReadPage :=
  readFile path root chunks (readArgs base limits i offset) false

/-- The calls that follow the continuation of `fs_read_file_range`. -/
def readRange (path root : Path) (chunks : List (List UInt8)) (_ : ℕ) (args : Map) :
    Except FsError ReadPage :=
  readFile path root chunks args true

/-- The arguments name a range. -/
def IsRange (args : Map) (start stop : ℕ) : Prop :=
  integer args "start_line" = some (start : ℤ) ∧ integer args "end_line" = some (stop : ℤ) ∧
    1 ≤ start ∧ start ≤ stop

/-! ### Pages -/

/-- A page has the digest of the file, and the number of its lines where it reaches the end. -/
def Shows (text : Text) (page : ReadPage) : Prop :=
  page.contentSha256 = Sha2.sha256 (encode text) ∧
    page.totalLines =
      if page.request.offset - 1 + page.request.limit < (textLines text).length then none
      else some (textLines text).length

/-- What a page is for the request that it answers. -/
structure Answers (text : Text) (request : ReadRequest) (page : ReadPage) : Prop where
  request_eq : page.request = request
  lines : page.lines = ((textLines text).drop (request.offset - 1)).take request.limit
  windowNext : page.window.nextOffset =
    if request.offset - 1 + request.limit < (textLines text).length then
      some (request.offset + request.limit)
    else none
  shows : Shows text page

lemma answers_readFile {args : Map} {range : Bool} {request : ReadRequest} {page : ReadPage}
    (hplain : IsPlain text) (hchunks : chunks.flatten = encode text)
    (hrequest : requestOf args range = .ok request) (hoffset : 1 ≤ request.offset)
    (h : readFile path root chunks args range = .ok page) : Answers text request page := by
  obtain ⟨request', hrequest', h⟩ := Lists.bind_eq_ok h
  cases hrequest.symm.trans hrequest'
  obtain ⟨window, hwindow, h⟩ := Lists.bind_eq_ok h
  cases h
  obtain ⟨hselected, hnext, hcomplete, htotal, hsha⟩ :=
    streamTextWindow_eq_ok hplain hchunks hoffset hwindow
  refine ⟨rfl, hselected, hnext, hsha, ?_⟩
  rw [ReadPage.totalLines]
  dsimp only
  split_ifs at hnext ⊢ with hdone hmore hmore
  · rw [hcomplete, hnext] at hdone
    cases hdone
  · exact congrArg some (htotal hdone)
  · rfl
  · rw [hcomplete, hnext] at hdone
    exact absurd rfl hdone

lemma exists_readFile {args : Map} {range : Bool} {request : ReadRequest}
    (hplain : IsPlain text) (hchunks : chunks.flatten = encode text)
    (hrequest : requestOf args range = .ok request) (hoffset : 1 ≤ request.offset)
    (hlimit : request.limit ≤ maxReadLines) (hsmall : Small text) :
    ∃ page, readFile path root chunks args range = .ok page := by
  obtain ⟨window, hwindow⟩ :
      ∃ window, streamTextWindow path root request.offset request.limit chunks = .ok window :=
    exists_streamTextWindow hplain hchunks hoffset hlimit hsmall
  refine ⟨⟨request, (min (max ((integer args "timeout_ms").getD 5000) 1) 60000).toNat, window⟩, ?_⟩
  change (requestOf args range).bind _ = _
  rw [hrequest]
  change (streamTextWindow path root request.offset request.limit chunks).bind _ = _
  rw [hwindow]
  rfl

/-! ### Requests -/

lemma requestOf_readArgs {base : ℕ → Map} {limits : ℕ → ℕ} {i offset : ℕ}
    (hlimit : 1 ≤ limits i ∧ limits i ≤ maxReadLines) (hoffset : 1 ≤ offset ∧ offset < 2 ^ 63) :
    requestOf (readArgs base limits i offset) false =
      .ok ⟨offset, limits i, limits i, none⟩ := by
  have hmax : maxReadLines = 1000 := rfl
  have hat : integer (readArgs base limits i offset) "offset" = some (offset : ℤ) :=
    integer_insert_self _ _ hoffset.2
  have hlimits : integer (readArgs base limits i offset) "limit" = some (limits i : ℤ) := by
    rw [integer, readArgs, OrderedMap.get_insert_of_ne _ _ (by decide), ← integer]
    exact integer_insert_self _ _ (by omega)
  have hoffset' : (max (offset : ℤ) 1).toNat = offset := by omega
  have hlimit' : (max (limits i : ℤ) 1).toNat = limits i := by omega
  change offsetRequest _ = _
  simp only [offsetRequest, hat, hlimits, Option.getD_some, hoffset', hlimit',
    if_neg (not_lt.mpr hlimit.2)]

lemma requestOf_range {args : Map} {start stop : ℕ} (h : IsRange args start stop) :
    requestOf args true =
      .ok ⟨start, stop - start + 1, min (stop - start + 1) maxReadLines, some stop⟩ := by
  obtain ⟨hstart, hstop, hpos, hle⟩ := h
  have hone : ¬ (start : ℤ) < 1 := by omega
  have hless : ¬ (stop : ℤ) < start := by omega
  have hcount : ((stop : ℤ) - start + 1).toNat = stop - start + 1 := by omega
  change rangeRequest args = _
  simp only [rangeRequest, hstart, hstop, if_neg hone, if_neg hless, hcount, Int.toNat_natCast]

/-! ### Windows -/

/-- A page at an offset is a window of the lines of the file. -/
lemma windowed_offset {offset limit : ℕ} {page : ReadPage}
    (hlength : (textLines text).length < 2 ^ 63) (hoffset : 1 ≤ offset) (hlimit : 1 ≤ limit)
    (h : Answers text ⟨offset, limit, limit, none⟩ page) :
    Windowed ReadPage.lines ReadPage.nextOffset (fun offset => offset - 1)
      (fun offset => 1 ≤ offset ∧ offset < 2 ^ 63) (textLines text) (offset - 1) page := by
  have hcount : page.lines.length = min limit ((textLines text).length - (offset - 1)) := by
    rw [h.lines, List.length_take, List.length_drop]
  have hnext : page.nextOffset =
      if offset - 1 + limit < (textLines text).length then some (offset + limit) else none := by
    rw [ReadPage.nextOffset, h.request_eq]
    exact h.windowNext
  refine ⟨⟨limit, hlimit, h.lines⟩, fun hmore => ?_, fun hdone => ?_⟩
  · have hin : offset - 1 + limit < (textLines text).length := by omega
    refine ⟨offset + limit, ?_, by omega, by omega, by omega⟩
    rw [hnext, if_pos hin]
  · rw [hnext, if_neg (by omega)]

/-- Where the calls of a range are. -/
def rangePos (args : Map) : ℕ := ((integer args "start_line").getD 1).toNat - 1

lemma rangePos_eq {args : Map} {start stop : ℕ} (h : IsRange args start stop) :
    rangePos args = start - 1 := by
  rw [rangePos, h.1, Option.getD_some, Int.toNat_natCast]

/-- The arguments of a continuation name the rest of the range. -/
lemma isRange_continuation (path : Path) (timeout : ℕ) {next stop : ℕ} (hpos : 1 ≤ next) (hle : next ≤ stop)
    (hstop : stop < 2 ^ 63) :
    IsRange [("path", .string (String.ofList path)), ("start_line", .ofNat next),
      ("end_line", .ofNat stop), ("timeout_ms", .ofNat timeout)] next stop := by
  have hread : ∀ {n : ℕ}, n < 2 ^ 63 → (Value.ofNat n).asI64 = some (n : ℤ) := by
    intro n hn
    have hinsert := integer_insert_self [] "n" hn
    exact hinsert
  exact ⟨hread (by omega), hread hstop, hpos, hle⟩

/-- A page of a range is a window of the lines of the range. -/
lemma windowed_range {start stop : ℕ} {page : ReadPage} (hstop : stop < 2 ^ 63)
    (hpos : 1 ≤ start) (hle : start ≤ stop)
    (h : Answers text ⟨start, stop - start + 1, min (stop - start + 1) maxReadLines, some stop⟩
      page) :
    Windowed ReadPage.lines (ReadPage.continuation path) rangePos
      (fun args => ∃ start, IsRange args start stop) ((textLines text).take stop) (start - 1)
      page := by
  have hmax : maxReadLines = 1000 := rfl
  let limit := min (stop - start + 1) maxReadLines
  have hlimit : 0 < limit := by omega
  have hbehind : start - 1 + limit ≤ stop := by omega
  have hwindow : page.lines = (((textLines text).take stop).drop (start - 1)).take limit := by
    have hfits : limit ≤ stop - (start - 1) := by omega
    rw [h.lines, List.drop_take, List.take_take, min_eq_left hfits]
  have hcount : page.lines.length =
      min limit (min stop (textLines text).length - (start - 1)) := by
    rw [hwindow, List.length_take, List.length_drop, List.length_take]
  have hnext : page.nextOffset =
      (if start - 1 + limit < (textLines text).length then some (start + limit)
        else none).filter fun next => decide (next ≤ stop) := by
    rw [ReadPage.nextOffset, h.request_eq, h.windowNext]
  have hcontinuation : page.continuation path = page.nextOffset.map fun next =>
      [("path", .string (String.ofList path)), ("start_line", .ofNat next),
        ("end_line", .ofNat stop), ("timeout_ms", .ofNat page.timeoutMs)] := by
    rw [ReadPage.continuation, h.request_eq]
  refine ⟨⟨limit, hlimit, hwindow⟩, fun hmore => ?_, fun hdone => ?_⟩
  · rw [List.length_take] at hmore
    have hin : start - 1 + limit < (textLines text).length := by omega
    have hrest := isRange_continuation path page.timeoutMs
      (show 1 ≤ start + limit by omega) (show start + limit ≤ stop by omega) hstop
    refine ⟨_, ?_, (rangePos_eq hrest).trans (by omega), start + limit, hrest⟩
    rw [hcontinuation, hnext, if_pos hin, Option.filter_some, if_pos (by simp; omega),
      Option.map_some]
  · rw [List.length_take] at hdone
    rw [hcontinuation, hnext]
    split_ifs with hin
    · rw [Option.filter_some, if_neg (by simp; omega), Option.map_none]
    · rfl

/-! ### The partition -/

/-- The pages that follow each other have these lines, each once and in order, and they show the
file. Within the bounds there are such pages. -/
def Partitions {κ : Type} (text : Text) (lines : List Text)
    (answer : ℕ → κ → Except FsError ReadPage) (next : ReadPage → Option κ) (key : κ) : Prop :=
  (∀ pages, Follows answer next 0 key pages →
    pages.flatMap ReadPage.lines = lines ∧ ∀ page ∈ pages, Shows text page) ∧
  (Small text → ∃ pages, Follows answer next 0 key pages)

/-- The partition from what every call answers. -/
lemma partitions_of_windowed {κ : Type} {lines : List Text} (pos : κ → ℕ) (Ok : κ → Prop)
    {answer : ℕ → κ → Except FsError ReadPage} {next : ReadPage → Option κ} {key : κ}
    (h : ∀ i key page, Ok key → answer i key = .ok page →
      Windowed ReadPage.lines next pos Ok lines (pos key) page ∧ Shows text page)
    (hsmall : Small text → ∀ i key, Ok key → ∃ page, answer i key = .ok page) (hok : Ok key) :
    Partitions text (lines.drop (pos key)) answer next key := by
  refine ⟨fun pages hpages => ⟨?_, ?_⟩, fun hsmall' => ?_⟩
  · exact flatMap_of_follows (fun i key page hok hpage => (h i key page hok hpage).1) hok hpages
  · refine forall_of_follows (fun i key page (hok : Ok key) hpage => ?_) hok hpages
    obtain ⟨hwindowed, hshows⟩ := h i key page hok hpage
    exact ⟨hshows, fun behind hnext => (hwindowed.of_next hnext).2⟩
  · have hpage : ∀ i key, Ok key → ∃ page, answer i key = .ok page ∧
        Windowed ReadPage.lines next pos Ok lines (pos key) page := by
      intro i key hok
      obtain ⟨page, hpage⟩ := hsmall hsmall' i key hok
      exact ⟨page, hpage, (h i key page hok hpage).1⟩
    exact exists_follows hpage 0 hok

/-- **Paged reading partitions a file**, and a range of its lines. -/
theorem pages_partition (hplain : IsPlain text) (hchunks : chunks.flatten = encode text)
    (hlength : (textLines text).length < 2 ^ 63) :
    (∀ (base : ℕ → Map) (limits : ℕ → ℕ) (offset : ℕ),
      (∀ i, 1 ≤ limits i ∧ limits i ≤ maxReadLines) → 1 ≤ offset → offset < 2 ^ 63 →
      Partitions text ((textLines text).drop (offset - 1))
        (readOn path root chunks base limits) ReadPage.nextOffset offset) ∧
    ∀ (args : Map) (start stop : ℕ), IsRange args start stop → stop < 2 ^ 63 →
      Partitions text (((textLines text).take stop).drop (start - 1))
        (readRange path root chunks) (ReadPage.continuation path) args := by
  constructor
  · intro base limits offset hlimits hpos hbound
    refine partitions_of_windowed (fun offset => offset - 1)
      (fun offset => 1 ≤ offset ∧ offset < 2 ^ 63) ?_ ?_ ⟨hpos, hbound⟩
    · intro i offset page hok hpage
      have hanswers := answers_readFile hplain hchunks (requestOf_readArgs (hlimits i) hok) hok.1
        hpage
      exact ⟨windowed_offset hlength hok.1 (hlimits i).1 hanswers, hanswers.shows⟩
    · exact fun hsmall i offset hok => exists_readFile hplain hchunks
        (requestOf_readArgs (hlimits i) hok) hok.1 (hlimits i).2 hsmall
  · intro args start stop hrange hstop
    have hpartitions : Partitions text (((textLines text).take stop).drop (rangePos args))
        (readRange path root chunks) (ReadPage.continuation path) args :=
      partitions_of_windowed rangePos (fun args => ∃ start, IsRange args start stop) ?_ ?_
        ⟨start, hrange⟩
    · rwa [rangePos_eq hrange] at hpartitions
    · rintro i args page ⟨start, hrange⟩ hpage
      have hanswers := answers_readFile hplain hchunks (requestOf_range hrange) hrange.2.2.1 hpage
      rw [rangePos_eq hrange]
      exact ⟨windowed_range hstop hrange.2.2.1 hrange.2.2.2 hanswers, hanswers.shows⟩
    · rintro hsmall i args ⟨start, hrange⟩
      exact exists_readFile hplain hchunks (requestOf_range hrange) hrange.2.2.1
        (min_le_right _ _) hsmall

/-- A file of two lines in two pages. -/
theorem partitions_twoLines :
    Partitions "a\nb\n".toList ["a".toList, "b".toList]
      (readOn "/root/a.txt".toList "/root".toList [[97, 10], [98, 10]] (fun _ => []) fun _ => 1)
      ReadPage.nextOffset 1 :=
  (pages_partition (by decide) (by decide) (by decide)).1 (fun _ => []) (fun _ => 1) 1
    (fun _ => ⟨le_rfl, by decide⟩) le_rfl (by decide)

/-- The pages of this file. -/
def twoLinesPage (i offset : ℕ) : ReadPage :=
  (readOn "/root/a.txt".toList "/root".toList [[97, 10], [98, 10]] (fun _ => []) (fun _ => 1) i
    offset).toOption.getD ⟨⟨1, 1, 1, none⟩, 1, ⟨[], none, 0, true, ""⟩⟩

/-- The first of two pages does not know the number of lines. -/
theorem totalLines_unknown :
    ¬ ∀ (path root : Path) (text : Text) (chunks : List (List UInt8)) (base : ℕ → Map)
      (limits : ℕ → ℕ) (pages : List ReadPage), IsPlain text → chunks.flatten = encode text →
      (∀ i, 1 ≤ limits i ∧ limits i ≤ maxReadLines) →
      Follows (readOn path root chunks base limits) ReadPage.nextOffset 0 1 pages →
      ∀ page ∈ pages, page.totalLines = some (textLines text).length := by
  have hread : ∀ {i offset : ℕ}, (readOn "/root/a.txt".toList "/root".toList [[97, 10], [98, 10]]
      (fun _ => []) (fun _ => 1) i offset).toOption.isSome →
      readOn "/root/a.txt".toList "/root".toList [[97, 10], [98, 10]] (fun _ => []) (fun _ => 1) i
        offset = .ok (twoLinesPage i offset) := fun h => Lists.eq_ok_of_isSome h _
  have hfirst : (readOn "/root/a.txt".toList "/root".toList [[97, 10], [98, 10]] (fun _ => [])
      (fun _ => 1) 0 1).toOption.isSome := by decide +kernel
  have hsecond : (readOn "/root/a.txt".toList "/root".toList [[97, 10], [98, 10]] (fun _ => [])
      (fun _ => 1) 1 2).toOption.isSome := by decide +kernel
  have hnext : (twoLinesPage 0 1).nextOffset = some 2 := by decide +kernel
  have hlast : (twoLinesPage 1 2).nextOffset = none := by decide +kernel
  have htotal : (twoLinesPage 0 1).totalLines ≠ some 2 := by decide +kernel
  intro h
  exact htotal (h "/root/a.txt".toList "/root".toList "a\nb\n".toList [[97, 10], [98, 10]]
    (fun _ => []) (fun _ => 1) _ (by decide) (by decide) (fun _ => ⟨le_rfl, by decide⟩)
    (.more (hread hfirst) hnext (.last (hread hsecond) hlast)) _ List.mem_cons_self)

end Filesystem

end McpSurfaces
