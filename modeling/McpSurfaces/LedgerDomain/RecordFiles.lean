import McpSurfaces.Filesystem.Containment
import McpSurfaces.Foundation.Fallible
import McpSurfaces.Foundation.Lists
import McpSurfaces.LedgerDomain.Lifecycle

/-!
The files of reviews and rejections: `proposal_review` and `proposal_reject` name them by the id
as it was given, `load_proposal` and `proposal_lifecycle` by its safe name.

* `Archive` is a directory of proposals in a tree of files, beside the events of the ledger.
* `Direct` is an id whose path leads where its safe name does.
* **`recorded_iff`**: a review or a rejection is written to the file that is read for it exactly if
  the id is direct, and told by every later read unless it is superseded.
-/

namespace McpSurfaces

namespace LedgerDomain

open EventLedger FileTree Filesystem Lists TextLines

namespace RecordFiles

/-! ### Paths of records -/

/-- What stands behind an id in the name of a record. -/
structure Suffix where
  text : Text
  noSlash : '/' ∉ text
  noNull : '\x00' ∉ text
  long : 2 < text.length

def jsonSuffix : Suffix := ⟨".json".toList, by decide, by decide, by decide⟩

def reviewSuffix : Suffix := ⟨".review.json".toList, by decide, by decide, by decide⟩

def rejectionSuffix : Suffix := ⟨".rejection.json".toList, by decide, by decide, by decide⟩

/-- The process and the time that stand in the name of a file that is being written. -/
structure Staging where
  text : Text
  plain : ∀ c ∈ text, c.isAlphanum ∨ c = '-'

lemma Staging.not_mem (staging : Staging) {c : Char} (h : ¬ (c.isAlphanum ∨ c = '-')) :
    c ∉ staging.text := fun hc => h (staging.plain c hc)

/-- The extension of a file that is being written. -/
def Staging.extension (staging : Staging) : Text := "pending-".toList ++ staging.text

/-- What stands behind an id in the name of a rejection that is being written. -/
def Staging.suffix (staging : Staging) : Suffix where
  text := ".rejection.pending-".toList ++ staging.text
  noSlash := by
    have h : '/' ∉ staging.text := staging.not_mem (by decide)
    have hfront : '/' ∉ ".rejection.pending-".toList := by decide
    exact fun hmem => (List.mem_append.mp hmem).elim hfront h
  noNull := by
    have h : '\x00' ∉ staging.text := staging.not_mem (by decide)
    have hfront : '\x00' ∉ ".rejection.pending-".toList := by decide
    exact fun hmem => (List.mem_append.mp hmem).elim hfront h
  long := by
    rw [List.length_append]
    exact Nat.lt_add_right _ (by decide)

/-- The path of a record in the directory of the proposals. -/
def recordPath (proposals : Path) (id : Text) (suffix : Suffix) : Path :=
  join proposals (id ++ suffix.text)

/-- `Path::with_extension`, of a path whose last part has a dot behind its first character. -/
def withExtension (path : Path) (ext : Text) : Path := path.rdropWhile (· ≠ '.') ++ ext

/-- The last part of a path. -/
def lastPiece (path : Path) : Text := (pieces path).getLastD []

/-- The parts in front of the last one. -/
def frontPieces (path : Path) : List Text := (pieces path).dropLast

lemma pieces_of_parts (front : Path) {name : Text} (h : '/' ∉ name) :
    pieces (front ++ '/' :: name) = pieces front ++ [name] := by
  rw [pieces, List.splitOn_append_cons_self, List.splitOn_eq_singleton h]
  rfl

lemma pieces_of_name {name : Text} (h : '/' ∉ name) : pieces name = [name] :=
  List.splitOn_eq_singleton h

/-- A path is its last part, behind a slash or alone. -/
lemma exists_parts (path : Path) :
    '/' ∉ path ∨ ∃ front name, '/' ∉ name ∧ path = front ++ '/' :: name := by
  induction path with
  | nil => exact Or.inl (by simp)
  | cons c rest ih =>
      rcases ih with hnone | ⟨front, name, hname, rfl⟩
      · by_cases hc : c = '/'
        · exact Or.inr ⟨[], rest, hnone, by rw [hc]; rfl⟩
        · exact Or.inl (by simp [Ne.symm hc, hnone])
      · exact Or.inr ⟨c :: front, name, hname, rfl⟩

/-- **What is added to a path is added to its last part.** -/
lemma pieces_append (path : Path) {back : Text} (h : '/' ∉ back) :
    pieces (path ++ back) = frontPieces path ++ [lastPiece path ++ back] := by
  rw [frontPieces, lastPiece]
  rcases exists_parts path with hnone | ⟨front, name, hname, rfl⟩
  · have hboth : '/' ∉ path ++ back := by simp [hnone, h]
    rw [pieces_of_name hboth, pieces_of_name hnone]
    rfl
  · have hboth : '/' ∉ name ++ back := by simp [hname, h]
    rw [List.append_assoc, List.cons_append, pieces_of_parts front hboth,
      pieces_of_parts front hname]
    simp

lemma slash_not_mem_lastPiece (path : Path) : '/' ∉ lastPiece path := by
  rw [lastPiece]
  rcases exists_parts path with hnone | ⟨front, name, hname, rfl⟩
  · rw [pieces_of_name hnone]
    exact hnone
  · rw [pieces_of_parts front hname]
    simpa using hname

lemma join_append (proposals : Path) (id : Text) (suffix : Suffix) :
    join proposals (id ++ suffix.text) = join proposals id ++ suffix.text := by
  have hhead : isAbsolute (id ++ suffix.text) = isAbsolute id := by
    cases id with
    | cons c rest => rfl
    | nil =>
        rw [isAbsolute, isAbsolute, List.nil_append, List.head?_nil]
        have hne : suffix.text.head? ≠ some '/' := fun h =>
          suffix.noSlash (List.mem_of_mem_head? h)
        simp [hne]
  rw [join, join, hhead]
  split_ifs with habs
  · rfl
  · rw [push, push]
    split_ifs <;> simp

/-- **The parts of the path of a record**: those of the path that the id alone gives, with the
suffix behind the last one. -/
lemma pieces_recordPath (proposals : Path) (id : Text) (suffix : Suffix) :
    pieces (recordPath proposals id suffix) = frontPieces (join proposals id) ++
      [lastPiece (join proposals id) ++ suffix.text] := by
  rw [recordPath, join_append, pieces_append _ suffix.noSlash]

/-- The path of a rejection while it is written. -/
lemma withExtension_recordPath (proposals : Path) (id : Text) (staging : Staging) :
    withExtension (recordPath proposals id rejectionSuffix) staging.extension =
      recordPath proposals id staging.suffix := by
  have hback : recordPath proposals id rejectionSuffix =
      (join proposals id ++ ".rejection.".toList) ++ "json".toList := by
    rw [recordPath, join_append, List.append_assoc]
    rfl
  have hdrop : ∀ front : Text, (front ++ ".rejection.".toList ++ "json".toList).rdropWhile
      (· ≠ '.') = front ++ ".rejection.".toList := by
    intro front
    rw [List.rdropWhile, List.reverse_append, List.reverse_append]
    have hrev : "json".toList.reverse ++ (".rejection.".toList.reverse ++ front.reverse) =
        'n' :: 'o' :: 's' :: 'j' :: '.' :: ("noitcejer.".toList ++ front.reverse) := rfl
    rw [hrev]
    simp
  rw [withExtension, hback, hdrop, recordPath, join_append, List.append_assoc]
  rfl

/-- A path of one name is a name in the directory. -/
lemma lastPiece_of_name (proposals : Path) {name : Text} (h : '/' ∉ name) :
    lastPiece (join proposals name) = name ∧
      (pieces proposals = frontPieces (join proposals name) ∨
        pieces proposals = frontPieces (join proposals name) ++ [[]]) := by
  have habs : isAbsolute name = false := by
    rw [isAbsolute]
    have hne : name.head? ≠ some '/' := fun hhead => h (List.mem_of_mem_head? hhead)
    simp [hne]
  rw [join, habs, if_neg Bool.false_ne_true, push]
  split_ifs with hend
  · rcases hend with rfl | hend
    · rw [List.nil_append, lastPiece, frontPieces, pieces_of_name h]
      exact ⟨rfl, Or.inr rfl⟩
    · obtain ⟨front, rfl⟩ : ∃ front, proposals = front ++ ['/'] := by
        obtain ⟨front, last, rfl⟩ := (List.eq_nil_or_concat' proposals).resolve_left
          (by rintro rfl; cases hend)
        rw [List.getLast?_concat] at hend
        cases hend
        exact ⟨front, rfl⟩
      rw [List.append_assoc, List.singleton_append, lastPiece, frontPieces,
        pieces_of_parts front h, pieces_of_parts front (by simp)]
      simp
  · rw [lastPiece, frontPieces, pieces_of_parts proposals h]
    simp

/-! ### Files of records -/

abbrev RecordTree := Tree Name Value

/-- Where a path leads, if it can be followed. -/
def placeOf (t : RecordTree) (parts : List Text) : Except Errno Place :=
  if parts.any (·.contains '\x00') then .error .invalidInput
  else (t.walk maxLinks [] (parts.map segment)).map Prod.snd

/-- The place of the last part of a path itself, also if a link is there. -/
def ownPlaceOf (t : RecordTree) (parts : List Text) : Except Errno Place :=
  if parts.any (·.contains '\x00') then .error .invalidInput
  else t.ownPlace (parts.map segment).reverse

def errnoText : Errno → String
  | .notFound => "No such file or directory (os error 2)"
  | .notDirectory => "Not a directory (os error 20)"
  | .alreadyExists => "File exists (os error 17)"
  | .loop => "Too many levels of symbolic links (os error 40)"
  | .invalidInput => "file name contained an unexpected NUL byte"

def isADirectory : String := "Is a directory (os error 21)"

/-- A file that is written at a place. -/
def putFile (t : RecordTree) (place : Place) (v : Value) : Except String RecordTree :=
  match place with
  | [] => .error isADirectory
  | n :: above =>
      if hplace : t.isDirectoryAt above = true then
        if hentry : t.isDirectoryAt (n :: above) = true then .error isADirectory
        else .ok (t.set n above (some (.file v)) (Tree.isDirectoryAt_iff.mp hplace)
          fun h => hentry (Tree.isDirectoryAt_iff.mpr h))
      else .error (errnoText .notFound)

/-- A file that is made where nothing is. -/
def createFile (t : RecordTree) (path : Path) (v : Value) : Except String (RecordTree × Place) :=
  match ownPlaceOf t (pieces path) with
  | .error e => .error (errnoText e)
  | .ok place =>
      if (t.entry place).isSome then .error (errnoText .alreadyExists)
      else (putFile t place v).map fun t' => (t', place)

/-- A file that is removed. -/
def removeFile (t : RecordTree) (place : Place) : RecordTree :=
  match place with
  | [] => t
  | n :: above =>
      if h : t.isDirectoryAt above = true ∧ t.isDirectoryAt (n :: above) = false then
        t.set n above none (Tree.isDirectoryAt_iff.mp h.1)
          fun hdir => by simp [Tree.isDirectoryAt_iff.mpr hdir] at h
      else t

/-- What a call has written: the files, those it made on its way, and the one of its record. -/
structure Written where
  tree : RecordTree
  staged : List Place
  record : Place

section Records

variable (domain : Domain)

def recordError (code message : String) : Failure := domainError domain code message .null

/-- `read_json`. -/
def readJson (t : RecordTree) (path : Path) : Except Failure Value :=
  match placeOf t (pieces path) with
  | .error e => .error (recordError domain "record_read_failed" (errnoText e))
  | .ok place =>
      match t.entry place with
      | some (.file v) => .ok v
      | some _ => .error (recordError domain "record_read_failed" isADirectory)
      | none => .error (recordError domain "record_read_failed" (errnoText .notFound))

/-- `Path::exists`. -/
def pathExists (t : RecordTree) (path : Path) : Bool :=
  match placeOf t (pieces path) with
  | .error _ => false
  | .ok place => (t.entry place).isSome

/-- `write_replace_json`. -/
def writeReplaceJson (t : RecordTree) (path : Path) (v : Value) : Except Failure Written :=
  match placeOf t (pieces path) with
  | .error e => .error (recordError domain "record_write_failed" (errnoText e))
  | .ok place =>
      match putFile t place v with
      | .error message => .error (recordError domain "record_write_failed" message)
      | .ok t' => .ok ⟨t', [], place⟩

/-- `write_new_json`: the record is written to a file of its own, which gets the name of the
record as well and is removed under the first one. -/
def writeNewJson (t : RecordTree) (staging : Staging) (path : Path) (v : Value) :
    Except Failure Written :=
  match createFile t (withExtension path staging.extension) v with
  | .error message => .error (recordError domain "record_stage_create_failed" message)
  | .ok (staged, temporary) =>
      match createFile staged path v with
      | .error message => .error (recordError domain "immutable_record_exists" message)
      | .ok (published, place) => .ok ⟨removeFile published temporary, [temporary], place⟩

end Records

/-! ### Calls -/

/-- What a name of a review or of a rejection ends in. -/
def IsRecordName (n : Name) : Prop :=
  reviewSuffix.text <:+ n.text ∨ rejectionSuffix.text <:+ n.text

/-- The proposals of a site, and its events. No call makes a link where a record is. -/
structure Archive (proposals : Path) where
  tree : RecordTree
  ledger : List Record
  dir : Place
  leads : placeOf tree (pieces proposals) = .ok dir
  directory : tree.entry dir = some .directory
  plain : ∀ n place, IsRecordName n → tree.isLinkAt (n :: place) = false

section Calls

variable [FloatText] [FloatRead] [Digest]

/-- The checks of `proposal_review`, of a proposal that is loaded. -/
def reviewOf (domain : Domain) (head : Option String) (views : Views) (id : String)
    (proposal : Value) : Except Failure Value :=
  match (proposal.get "operations").bind Value.asArray with
  | none =>
      .error (domainError domain "proposal_corrupt" "proposal operations missing"
        (.object [("proposal_id", .string id)]))
  | some operations => do
      validateOperations domain operations true
      validateReferences domain views operations
      let expected := (proposal.get "expected_ledger_head").bind Value.asStr
      let headMatches := decide (expected = head)
      return .object [("schema", .string domain.schemas.review), ("proposal_id", .string id),
        ("status", .string (if headMatches then "policy_valid" else "stale")),
        ("certifies_truth", .bool domain.certifiesTruth),
        ("checks", .object [("schema", .bool true), ("references", .bool true),
          ("evidence_locations", .bool true), ("graph_invariants", .bool true),
          ("ledger_head", .bool headMatches)]),
        ("expected_ledger_head", optionText expected),
        ("actual_ledger_head", optionText head)]

namespace Archive

variable {proposals : Path} (a : Archive proposals)

/-- `load_proposal`. -/
def loadProposal (domain : Domain) (id : String) : Except Failure Value :=
  readJson domain a.tree (recordPath proposals (safeName id).toList jsonSuffix)

/-- `proposal_review`. -/
def proposalReview (domain : Domain) (views : Views) (id : String) :
    Except Failure (Written × Value) := do
  let proposal ← a.loadProposal domain id
  let head := (a.ledger.getLast?).bind fun r => r.str domain.eventHashField
  let review ← reviewOf domain head views id proposal
  let written ← writeReplaceJson domain a.tree (recordPath proposals id.toList reviewSuffix)
    review.reread
  return (written, review)

/-- `proposal_reject`. -/
def proposalReject (domain : Domain) (fresh : Fresh) (staging : Staging) (args : Map) :
    Except Failure (Written × Value) := do
  let id ← required domain args "proposal_id"
  let _ ← a.loadProposal domain id
  let actor ← required domain args "actor"
  let reason ← required domain args "reason"
  let rejection : Value := .object [("schema", .string domain.schemas.rejection),
    ("proposal_id", .string id), ("status", .string "rejected"), ("actor", .string actor),
    ("reason", .string reason), ("occurred_at", .string fresh.occurredAt)]
  let written ← writeNewJson domain a.tree staging
    (recordPath proposals id.toList rejectionSuffix) rejection.reread
  return (written, rejection)

/-- `proposal_lifecycle`. -/
def proposalLifecycle (domain : Domain) (id : String) : Except Failure Value :=
  match a.ledger.find? fun r => r.str "proposal_id" = some id with
  | some event =>
      .ok (.object [("status", .string "admitted"), ("event_id", (event.get "event_id").getD .null),
        ("sequence", (event.get "sequence").getD .null),
        ("ledger_head", (event.get domain.eventHashField).getD .null),
        ("admitted_at", (event.get "occurred_at").getD .null)])
  | none =>
      let rejectionPath := recordPath proposals (safeName id).toList rejectionSuffix
      let reviewPath := recordPath proposals (safeName id).toList reviewSuffix
      if pathExists a.tree rejectionPath then do
        let rejection ← readJson domain a.tree rejectionPath
        return .object [("status", .string "rejected"),
          ("rejected_at", (rejection.get "occurred_at").getD .null),
          ("reason", (rejection.get "reason").getD .null)]
      else if pathExists a.tree reviewPath then do
        let review ← readJson domain a.tree reviewPath
        return .object [("status", .string "reviewed"),
          ("review_status", (review.get "status").getD .null)]
      else return .object [("status", .string "submitted")]

/-- What is configured for `proposal_read`. -/
structure ReadSettings where
  schemaId : String
  defaultLimit : ℕ
  maxLimit : ℕ

/-- `proposal_read`. -/
def proposalRead (domain : Domain) (settings : ReadSettings) (args : Map) :
    Except Failure Value := do
  let id ← required domain args "proposal_id"
  let proposal ← a.loadProposal domain id
  match (proposal.get "operations").bind Value.asArray with
  | none =>
      .error (domainError domain "proposal_corrupt" "proposal operations missing"
        (.object [("proposal_id", .string id)]))
  | some operations => do
      let offset := ((args.get "offset").bind Value.asU64).getD 0
      let limit := min (((args.get "limit").bind Value.asU64).getD settings.defaultLimit)
        settings.maxLimit
      let items := (operations.drop offset).take limit
      let next := offset + items.length
      let hasMore := decide (next < operations.length)
      let lifecycle ← a.proposalLifecycle domain id
      return .object [("schema", .string settings.schemaId),
        ("status", (lifecycle.get "status").getD .null), ("lifecycle", lifecycle),
        ("proposal_id", (proposal.get "proposal_id").getD .null),
        ("proposal_digest", (proposal.get "digest").getD .null),
        ("actor", (proposal.get "actor").getD .null),
        ("authority_basis", (proposal.get "authority_basis").getD .null),
        ("idempotency_key", (proposal.get "idempotency_key").getD .null),
        ("expected_ledger_head", (proposal.get "expected_ledger_head").getD .null),
        ("created_at", (proposal.get "created_at").getD .null),
        ("operation_count", .ofNat operations.length), ("offset", .ofNat offset),
        ("limit", .ofNat limit), ("returned", .ofNat items.length),
        ("operations", .array items), ("has_more", .bool hasMore),
        ("next_offset", if hasMore then .ofNat next else .null), ("bounded", .bool true)]

end Archive

end Calls

/-! ### Where a record is written -/

section Places

variable {t t' : RecordTree} {front : List Text} {piece : Text} {d place : Place} {v : Value}

lemma placeOf_eq_ok : placeOf t front = .ok d ↔ (∀ piece ∈ front, '\x00' ∉ piece) ∧
    ∃ links, t.walk maxLinks [] (front.map segment) = .ok (links, d) := by
  rw [placeOf]
  split_ifs with hnull
  · refine iff_of_false nofun fun h => ?_
    obtain ⟨piece, hpiece, hmem⟩ := List.any_eq_true.mp hnull
    exact h.1 piece hpiece (by simpa using hmem)
  · have hnone : ∀ piece ∈ front, '\x00' ∉ piece := by simpa using hnull
    cases hwalk : t.walk maxLinks [] (front.map segment) with
    | error e => simp [Except.map]
    | ok r =>
        obtain ⟨links, d'⟩ := r
        simpa [Except.map] using fun _ => hnone

/-- A path leads to a name in the directory that its front leads to, if no link is there. -/
lemma placeOf_concat (hname : IsName piece)
    (hlink : t.isLinkAt (⟨piece, hname⟩ :: d) = false) (hfront : placeOf t front = .ok d)
    (hdir : t.entry d = some .directory) :
    placeOf t (front ++ [piece]) = .ok (⟨piece, hname⟩ :: d) := by
  obtain ⟨hnull, links, hwalk⟩ := placeOf_eq_ok.mp hfront
  refine placeOf_eq_ok.mpr ⟨?_, links, ?_⟩
  · intro p hp
    rcases List.mem_append.mp hp with hp | hp
    · exact hnull p hp
    · rw [List.mem_singleton.mp hp]
      exact hname.2.2.2
  · rw [List.map_append, List.map_singleton, segment_name hname, Tree.walk_append, hwalk]
    exact (Tree.walk_name hdir hlink).trans (Tree.walk_nil _ _)

/-- The front of a path that leads somewhere leads to a directory. -/
lemma front_of_placeOf (h : placeOf t (front ++ [piece]) = .ok place) :
    '\x00' ∉ piece ∧ ∃ d, placeOf t front = .ok d ∧ t.entry d = some .directory := by
  obtain ⟨hnull, links', hwalk⟩ := placeOf_eq_ok.mp h
  refine ⟨hnull piece (by simp), ?_⟩
  rw [List.map_append, List.map_singleton, Tree.walk_append] at hwalk
  cases hfront : t.walk maxLinks [] (front.map segment) with
  | error e =>
      rw [hfront] at hwalk
      cases hwalk
  | ok r =>
      rw [hfront] at hwalk
      exact ⟨r.2, placeOf_eq_ok.mpr ⟨fun p hp => hnull p (List.mem_append_left _ hp), r.1, hfront⟩,
        Tree.directory_of_walk hwalk⟩

/-- The place of a name itself is in the directory that the front of its path leads to. -/
lemma ownPlaceOf_concat (hname : IsName piece) :
    ownPlaceOf t (front ++ [piece]) = (placeOf t front).map fun d => ⟨piece, hname⟩ :: d := by
  have hnull : (front ++ [piece]).any (·.contains '\x00') = front.any (·.contains '\x00') := by
    have hpiece : '\x00' ∉ piece := hname.2.2.2
    simp [hpiece]
  rw [ownPlaceOf, placeOf, hnull]
  split_ifs
  · rfl
  · rw [List.map_append, List.map_singleton, segment_name hname, List.reverse_append,
      List.reverse_singleton, List.singleton_append, Tree.ownPlace, List.reverse_reverse]
    cases t.walk maxLinks [] (front.map segment) <;> rfl

/-- What is written at a place is there, and nothing else is changed. -/
lemma putFile_ok (h : putFile t place v = .ok t') :
    t'.entry = Function.update t.entry place (some (.file v)) ∧
      t.entry place ≠ some .directory := by
  cases place with
  | nil => cases h
  | cons n above =>
      rw [putFile] at h
      split_ifs at h with hplace hentry
      cases h
      exact ⟨rfl, fun hdir => hentry (Tree.isDirectoryAt_iff.mpr hdir)⟩

lemma createFile_ok {path : Path} (h : createFile t path v = .ok (t', place)) :
    ownPlaceOf t (pieces path) = .ok place ∧ t.entry place = none ∧
      t'.entry = Function.update t.entry place (some (.file v)) := by
  rw [createFile] at h
  cases hplace : ownPlaceOf t (pieces path) with
  | error e =>
      rw [hplace] at h
      cases h
  | ok own =>
      rw [hplace] at h
      dsimp only at h
      split_ifs at h with hentry
      cases hput : putFile t own v with
      | error message =>
          rw [hput] at h
          cases h
      | ok written =>
          rw [hput] at h
          cases h
          exact ⟨rfl, by simpa using hentry, (putFile_ok hput).1⟩

end Places

/-! ### Records by their ids -/

variable {proposals : Path}

section Ids

variable {suffix : Suffix}

/-- The last part of the path of a record is a name. -/
lemma isName_append {name : Text} (hslash : '/' ∉ name) (hnull : '\x00' ∉ name) :
    IsName (name ++ suffix.text) := by
  have hlong : 2 < (name ++ suffix.text).length := by
    rw [List.length_append]
    exact Nat.lt_add_left _ suffix.long
  refine ⟨?_, ?_, ?_, ?_⟩
  · rw [isDull, Bool.or_eq_false_iff, decide_eq_false_iff_not, decide_eq_false_iff_not]
    constructor <;>
    · intro h
      rw [h] at hlong
      exact absurd hlong (by decide)
  · intro h
    rw [h] at hlong
    exact absurd hlong (by decide)
  · exact fun h => (List.mem_append.mp h).elim hslash suffix.noSlash
  · exact fun h => (List.mem_append.mp h).elim hnull suffix.noNull

namespace Archive

variable (a : Archive proposals)

/-- An id whose path is a name in the directory of the proposals, its safe name. -/
def Direct (id : String) : Prop :=
  lastPiece (join proposals id.toList) = (safeName id).toList ∧
    placeOf a.tree (frontPieces (join proposals id.toList)) = .ok a.dir

/-- Where a record is read. -/
def Reads (id : String) (suffix : Suffix) (place : Place) : Prop :=
  placeOf a.tree (pieces (recordPath proposals (safeName id).toList suffix)) = .ok place

end Archive

lemma safe_of_mem_safeName {id : String} {c : Char} (h : c ∈ (safeName id).toList) :
    isSafeChar c = true := by
  rw [safeName, String.toList_ofList] at h
  exact (List.mem_filter.mp (List.mem_of_mem_take h)).2

lemma slash_not_mem_safeName (id : String) : '/' ∉ (safeName id).toList := fun h =>
  absurd (safe_of_mem_safeName h) (by decide)

lemma null_not_mem_safeName (id : String) : '\x00' ∉ (safeName id).toList := fun h =>
  absurd (safe_of_mem_safeName h) (by decide)

/-- The name of the record of an id. -/
def safeRecord (id : String) (suffix : Suffix) : Name :=
  ⟨(safeName id).toList ++ suffix.text,
    isName_append (slash_not_mem_safeName id) (null_not_mem_safeName id)⟩

/-- The directory of the proposals is the front of the path of a name. -/
lemma placeOf_frontPieces (a : Archive proposals) {name : Text} (h : '/' ∉ name) :
    placeOf a.tree (frontPieces (join proposals name)) = .ok a.dir := by
  rcases (lastPiece_of_name proposals h).2 with hfront | hfront
  · rw [← hfront, a.leads]
  · obtain ⟨hnull, links, hwalk⟩ := placeOf_eq_ok.mp (hfront ▸ a.leads)
    rw [List.map_append, List.map_singleton, Tree.walk_append] at hwalk
    cases hbase : a.tree.walk maxLinks [] ((frontPieces (join proposals name)).map segment) with
    | error e =>
        rw [hbase] at hwalk
        cases hwalk
    | ok r =>
        rw [hbase] at hwalk
        have hdir := Tree.directory_of_walk hwalk
        have hend : a.tree.walk r.1 r.2 [segment []] = .ok r := by
          rw [segment_dull rfl, Tree.walk_here hdir, Tree.walk_nil]
        have hplace : r = (links, a.dir) := Except.ok.inj (hend.symm.trans hwalk)
        refine placeOf_eq_ok.mpr ⟨fun p hp => hnull p (List.mem_append_left _ hp), links, ?_⟩
        rw [hbase, hplace]

/-- **A safe name is read in the directory of the proposals.** -/
lemma reads_iff (a : Archive proposals) {id : String} {place : Place}
    (hsuffix : suffix = reviewSuffix ∨ suffix = rejectionSuffix) :
    a.Reads id suffix place ↔ place = safeRecord id suffix :: a.dir := by
  have hslash := slash_not_mem_safeName id
  have hrecord : IsRecordName (safeRecord id suffix) := by
    rcases hsuffix with rfl | rfl
    · exact Or.inl (List.suffix_append _ _)
    · exact Or.inr (List.suffix_append _ _)
  have hread : placeOf a.tree (pieces (recordPath proposals (safeName id).toList suffix)) =
      .ok (safeRecord id suffix :: a.dir) := by
    rw [pieces_recordPath, (lastPiece_of_name proposals hslash).1]
    exact placeOf_concat _ (a.plain _ _ hrecord) (placeOf_frontPieces a hslash) a.directory
  rw [Archive.Reads, hread]
  constructor
  · intro h
    exact (Except.ok.inj h).symm
  · rintro rfl
    rfl

/-- **An id that is its own safe name is direct.** -/
lemma direct_of_safe (a : Archive proposals) {id : String} (h : safeName id = id) :
    a.Direct id := by
  have hslash : '/' ∉ id.toList := by
    rw [← h]
    exact slash_not_mem_safeName id
  refine ⟨?_, placeOf_frontPieces a hslash⟩
  rw [(lastPiece_of_name proposals hslash).1, h]

/-! ### What a call writes -/

/-- A record that is written for an id. -/
structure Records (a : Archive proposals) (id : String) (suffix : Suffix) (w : Written) : Prop where
  /-- It has the name of the id, in the directory that its path leads to. -/
  place : ∃ d n, placeOf a.tree (frontPieces (join proposals id.toList)) = .ok d ∧
    n.text = lastPiece (join proposals id.toList) ++ suffix.text ∧ w.record = n :: d ∧
    ∀ p ∈ w.staged, d <:+ p
  written : ∃ v, w.tree.entry w.record = some (.file v)
  others : ∀ p, p ≠ w.record → p ∉ w.staged → w.tree.entry p = a.tree.entry p
  staged : ∀ p ∈ w.staged, p ≠ w.record ∧ a.tree.entry p = none ∧ w.tree.entry p = none
  noDirectory : a.tree.entry w.record ≠ some .directory

lemma records_of_replace {domain : Domain} (a : Archive proposals) {id : String} {v : Value}
    {w : Written}
    (h : writeReplaceJson domain a.tree (recordPath proposals id.toList reviewSuffix) v = .ok w) :
    Records a id reviewSuffix w := by
  rw [writeReplaceJson] at h
  cases hplace : placeOf a.tree (pieces (recordPath proposals id.toList reviewSuffix)) with
  | error e =>
      rw [hplace] at h
      cases h
  | ok place =>
      rw [hplace] at h
      dsimp only at h
      cases hput : putFile a.tree place v with
      | error message =>
          rw [hput] at h
          cases h
      | ok t' =>
          rw [hput] at h
          cases h
          obtain ⟨hentry, hdirectory⟩ := putFile_ok hput
          rw [pieces_recordPath] at hplace
          obtain ⟨hnull, d, hfront, hdir⟩ := front_of_placeOf hplace
          have hname : IsName (lastPiece (join proposals id.toList) ++ reviewSuffix.text) :=
            isName_append (slash_not_mem_lastPiece _) fun hmem =>
              hnull (List.mem_append_left _ hmem)
          have hlink := a.plain ⟨_, hname⟩ d (Or.inl (List.suffix_append _ _))
          have hrecord := Except.ok.inj
            ((placeOf_concat hname hlink hfront hdir).symm.trans hplace)
          exact {
            place := ⟨d, ⟨_, hname⟩, hfront, rfl, hrecord.symm, by simp⟩
            written := ⟨v, by rw [hentry, Function.update_self]⟩
            others := fun p hp _ => by rw [hentry, Function.update_of_ne hp]
            staged := by simp
            noDirectory := hdirectory }

lemma entry_removeFile {t : RecordTree} {place : Place} {v : Value}
    (h : t.entry place = some (.file v)) :
    (removeFile t place).entry = Function.update t.entry place none := by
  cases place with
  | nil =>
      rw [t.root] at h
      cases h
  | cons n above =>
      have hdir : t.isDirectoryAt above = true :=
        Tree.isDirectoryAt_iff.mpr (t.parent (by rw [h]; simp))
      have hfile : t.isDirectoryAt (n :: above) = false := by
        rw [Tree.isDirectoryAt, h]
        rfl
      rw [removeFile, dif_pos ⟨hdir, hfile⟩]
      rfl

/-- The front of a path that leads somewhere leads there when a file is added. -/
lemma placeOf_of_put {t t' : RecordTree} {place d : Place} {v : Value} {front : List Text}
    (hentry : t'.entry = Function.update t.entry place (some (.file v)))
    (hnone : t.entry place = none) (h : placeOf t front = .ok d) : placeOf t' front = .ok d := by
  have hkeeps : Tree.Keeps t t' := by
    constructor
    · intro p hp
      rw [hentry, Function.update_of_ne, hp]
      rintro rfl
      rw [hnone] at hp
      cases hp
    · intro p absolute target
      by_cases heq : p = place
      · rw [heq, hentry, Function.update_self, hnone]
        simp
      · rw [hentry, Function.update_of_ne heq]
  obtain ⟨hnull, links, hwalk⟩ := placeOf_eq_ok.mp h
  exact placeOf_eq_ok.mpr ⟨hnull, links, hkeeps.walk hwalk⟩

lemma records_of_new {domain : Domain} (a : Archive proposals) {id : String} {v : Value}
    {staging : Staging} {w : Written} (h : writeNewJson domain a.tree staging
      (recordPath proposals id.toList rejectionSuffix) v = .ok w) :
    Records a id rejectionSuffix w ∧ a.tree.entry w.record = none := by
  rw [writeNewJson, withExtension_recordPath] at h
  cases hstage : createFile a.tree (recordPath proposals id.toList staging.suffix) v with
  | error message =>
      rw [hstage] at h
      cases h
  | ok r =>
      obtain ⟨t₁, temporary⟩ := r
      rw [hstage] at h
      dsimp only at h
      cases hpublish : createFile t₁ (recordPath proposals id.toList rejectionSuffix) v with
      | error message =>
          rw [hpublish] at h
          cases h
      | ok r =>
          obtain ⟨t₂, place⟩ := r
          rw [hpublish] at h
          cases h
          obtain ⟨hown₁, hnone₁, hentry₁⟩ := createFile_ok hstage
          obtain ⟨hown₂, hnone₂, hentry₂⟩ := createFile_ok hpublish
          have hne : temporary ≠ place := by
            rintro rfl
            rw [hentry₁, Function.update_self] at hnone₂
            cases hnone₂
          have hnone : a.tree.entry place = none := by
            rw [hentry₁, Function.update_of_ne hne.symm] at hnone₂
            exact hnone₂
          have hthere : t₂.entry temporary = some (.file v) := by
            rw [hentry₂, Function.update_of_ne hne, hentry₁, Function.update_self]
          have hentry : (removeFile t₂ temporary).entry =
              Function.update t₂.entry temporary none := entry_removeFile hthere
          rw [pieces_recordPath] at hown₁ hown₂
          have hnull : '\x00' ∉ lastPiece (join proposals id.toList) := by
            intro hmem
            rw [ownPlaceOf, if_pos] at hown₁
            · cases hown₁
            · simp [hmem]
          have hslash := slash_not_mem_lastPiece (join proposals id.toList)
          have hname₁ : IsName (lastPiece (join proposals id.toList) ++ staging.suffix.text) :=
            isName_append hslash hnull
          have hname₂ : IsName (lastPiece (join proposals id.toList) ++ rejectionSuffix.text) :=
            isName_append hslash hnull
          rw [ownPlaceOf_concat hname₁] at hown₁
          rw [ownPlaceOf_concat hname₂] at hown₂
          cases hfront : placeOf a.tree (frontPieces (join proposals id.toList)) with
          | error e =>
              rw [hfront] at hown₁
              cases hown₁
          | ok d =>
              rw [hfront] at hown₁
              rw [placeOf_of_put hentry₁ hnone₁ hfront] at hown₂
              obtain rfl := Except.ok.inj hown₁
              obtain rfl := Except.ok.inj hown₂
              refine ⟨{
                place := ⟨d, _, hfront, rfl, rfl, ?_⟩
                written := ⟨v, ?_⟩
                others := fun p hp hstaged => ?_
                staged := fun p hp => ?_
                noDirectory := by rw [hnone]; simp }, hnone⟩
              · intro p hp
                rw [List.mem_singleton.mp hp]
                exact List.suffix_cons _ _
              · rw [hentry, Function.update_of_ne hne.symm, hentry₂, Function.update_self]
              · rw [hentry, Function.update_of_ne (by simpa using hstaged), hentry₂,
                  Function.update_of_ne hp, hentry₁,
                  Function.update_of_ne (by simpa using hstaged)]
              · rw [List.mem_singleton.mp hp]
                refine ⟨hne, hnone₁, ?_⟩
                rw [hentry, Function.update_self]

/-- **Where a record is written**: inside the directory and where it is read, exactly for a direct
id. -/
theorem Records.inside_iff {a : Archive proposals} {id : String} {w : Written}
    (h : Records a id suffix w) (hsuffix : suffix = reviewSuffix ∨ suffix = rejectionSuffix) :
    ((∀ p ∈ w.record :: w.staged, a.dir <:+ p) ∧ a.Reads id suffix w.record) ↔ a.Direct id := by
  obtain ⟨d, n, hfront, hn, hrecord, hstaged⟩ := h.place
  rw [reads_iff a hsuffix, hrecord]
  constructor
  · rintro ⟨-, heq⟩
    rw [List.cons.injEq] at heq
    refine ⟨?_, by rw [hfront, heq.2]⟩
    rw [heq.1] at hn
    exact List.append_cancel_right hn.symm
  · rintro ⟨hlast, hdir⟩
    obtain rfl : d = a.dir := Except.ok.inj (hfront.symm.trans hdir)
    constructor
    · intro p hp
      rcases List.mem_cons.mp hp with rfl | hp
      · exact List.suffix_cons _ _
      · exact hstaged p hp
    · obtain ⟨text, hvalid⟩ := n
      dsimp only at hn
      subst hn
      simp only [safeRecord, hlast]

end Ids

/-! ### Records along a run -/

/-- What a call says of a proposal. -/
inductive Verdict
  | reviewed
  | rejected

namespace Verdict

def suffix : Verdict → Suffix
  | reviewed => reviewSuffix
  | rejected => rejectionSuffix

def status : Verdict → String
  | reviewed => "reviewed"
  | rejected => "rejected"

lemma suffix_eq (verdict : Verdict) :
    verdict.suffix = reviewSuffix ∨ verdict.suffix = rejectionSuffix := by
  cases verdict
  · exact Or.inl rfl
  · exact Or.inr rfl

end Verdict

section Runs

variable [FloatText] [FloatRead] [Digest] {domain : Domain}

/-- A call that says something of the proposal of an id, and what it writes. -/
inductive Recorded (domain : Domain) (a : Archive proposals) (id : String) :
    Verdict → Written → Prop
  | reviewed {views : Views} {w : Written} {review : Value}
      (h : a.proposalReview domain views id = .ok (w, review)) : Recorded domain a id .reviewed w
  | rejected {fresh : Fresh} {staging : Staging} {args : Map} {w : Written} {rejection : Value}
      (hid : required domain args "proposal_id" = .ok id)
      (h : a.proposalReject domain fresh staging args = .ok (w, rejection)) :
      Recorded domain a id .rejected w

/-- One step of the calls on a site. The path of an id can lead to the events, so that a record
may come between them. -/
inductive Step (domain : Domain) : Archive proposals → Archive proposals → Prop
  | record {a b : Archive proposals} {id : String} {verdict : Verdict} {w : Written}
      (h : Recorded domain a id verdict w) (tree : b.tree = w.tree) (dir : b.dir = a.dir) :
      Step domain a b
  /-- A step that writes no review and no rejection. -/
  | other {a b : Archive proposals}
      (records : ∀ n place, IsRecordName n → b.tree.entry (n :: place) = a.tree.entry (n :: place))
      (dir : b.dir = a.dir) : Step domain a b

lemma Recorded.records {a : Archive proposals} {id : String} {verdict : Verdict} {w : Written}
    (h : Recorded domain a id verdict w) : Records a id verdict.suffix w := by
  cases h with
  | reviewed h =>
      rw [Archive.proposalReview] at h
      obtain ⟨proposal, -, h⟩ := bind_eq_ok h
      obtain ⟨review, -, h⟩ := bind_eq_ok h
      obtain ⟨written, hwritten, h⟩ := bind_eq_ok h
      cases h
      exact records_of_replace a hwritten
  | rejected hid h =>
      rw [Archive.proposalReject, bind_of_ok hid] at h
      obtain ⟨proposal, -, h⟩ := bind_eq_ok h
      obtain ⟨actor, -, h⟩ := bind_eq_ok h
      obtain ⟨reason, -, h⟩ := bind_eq_ok h
      obtain ⟨written, hwritten, h⟩ := bind_eq_ok h
      cases h
      exact (records_of_new a hwritten).1

section

omit [FloatText] [FloatRead] [Digest]

/-- The name of what is written for an id. -/
lemma Records.isRecordName {a : Archive proposals} {id : String} {verdict : Verdict} {w : Written}
    (h : Records a id verdict.suffix w) : ∃ n d, w.record = n :: d ∧ IsRecordName n := by
  obtain ⟨d, n, -, hn, hrecord, -⟩ := h.place
  refine ⟨n, d, hrecord, ?_⟩
  rcases verdict.suffix_eq with heq | heq
  · exact Or.inl ⟨_, by rw [hn, heq]⟩
  · exact Or.inr ⟨_, by rw [hn, heq]⟩

/-- Writing a record leaves the directories and the links. -/
lemma Records.keeps {a : Archive proposals} {id : String} {verdict : Verdict} {w : Written}
    (h : Records a id verdict.suffix w) : Tree.Keeps a.tree w.tree := by
  obtain ⟨n, d, hrecord, hname⟩ := h.isRecordName
  obtain ⟨v, hwritten⟩ := h.written
  constructor
  · intro p hp
    rw [h.others p, hp]
    · rintro rfl
      exact h.noDirectory hp
    · intro hmem
      rw [(h.staged p hmem).2.1] at hp
      cases hp
  · intro p absolute target
    by_cases hp : p = w.record
    · rw [hp, hwritten]
      refine iff_of_false (by simp) fun hlink => ?_
      have hplain := a.plain n d hname
      rw [← hrecord, Tree.isLinkAt, hlink] at hplain
      cases hplain
    · by_cases hmem : p ∈ w.staged
      · rw [(h.staged p hmem).2.1, (h.staged p hmem).2.2]
      · rw [h.others p hp hmem]

end

/-- The site behind a record that is written. -/
def Archive.after (a : Archive proposals) {id : String} {verdict : Verdict} {w : Written}
    (h : Records a id verdict.suffix w) : Archive proposals where
  tree := w.tree
  ledger := a.ledger
  dir := a.dir
  leads := by
    obtain ⟨hnull, links, hwalk⟩ := placeOf_eq_ok.mp a.leads
    exact placeOf_eq_ok.mpr ⟨hnull, links, h.keeps.walk hwalk⟩
  directory := h.keeps.directories a.directory
  plain n place hname := by rw [h.keeps.isLinkAt, a.plain n place hname]

/-- **A record stays on file**, whatever is done. -/
lemma Step.keeps_file {a b : Archive proposals} (h : Step domain a b) {n : Name} {place : Place}
    (hname : IsRecordName n) (hfile : ∃ v, a.tree.entry (n :: place) = some (.file v)) :
    ∃ v, b.tree.entry (n :: place) = some (.file v) := by
  cases h with
  | other hrecords hdir => rwa [hrecords n place hname]
  | @record id verdict w h htree hdir =>
      obtain ⟨v, hv⟩ := hfile
      have hrecords := h.records
      rw [htree]
      by_cases hp : n :: place = w.record
      · rw [hp]
        exact hrecords.written
      · refine ⟨v, ?_⟩
        rw [hrecords.others _ hp, hv]
        intro hmem
        rw [(hrecords.staged _ hmem).2.1] at hv
        cases hv

lemma Step.dir_eq {a b : Archive proposals} (h : Step domain a b) : b.dir = a.dir := by
  cases h with
  | record h htree hdir => exact hdir
  | other hrecords hdir => exact hdir

lemma file_of_run {a b : Archive proposals} (h : Relation.ReflTransGen (Step domain) a b)
    {n : Name} {place : Place} (hname : IsRecordName n)
    (hfile : ∃ v, a.tree.entry (n :: place) = some (.file v)) :
    b.dir = a.dir ∧ ∃ v, b.tree.entry (n :: place) = some (.file v) := by
  induction h with
  | refl => exact ⟨rfl, hfile⟩
  | tail _ hstep ih => exact ⟨hstep.dir_eq.trans ih.1, hstep.keeps_file hname ih.2⟩

/-! ### What is told -/

omit [FloatText] [FloatRead] [Digest] in
/-- A record that is on file is read. -/
lemma readJson_of_file (domain : Domain) (a : Archive proposals) {id : String} {verdict : Verdict}
    {v : Value}
    (hfile : a.tree.entry (safeRecord id verdict.suffix :: a.dir) = some (.file v)) :
    pathExists a.tree (recordPath proposals (safeName id).toList verdict.suffix) = true ∧
      readJson domain a.tree (recordPath proposals (safeName id).toList verdict.suffix) = .ok v := by
  have hplace : a.Reads id verdict.suffix (safeRecord id verdict.suffix :: a.dir) :=
    (reads_iff a verdict.suffix_eq).mpr rfl
  rw [Archive.Reads] at hplace
  rw [pathExists, readJson, hplace]
  simp [hfile]

/-- What makes a later lifecycle tell something else: an event that admits the proposal, and, of
a proposal that is reviewed, a rejection. -/
def Archive.Supersedes (a : Archive proposals) (id : String) : Verdict → Prop
  | .rejected => ∃ event ∈ a.ledger, event.str "proposal_id" = some id
  | .reviewed => (∃ event ∈ a.ledger, event.str "proposal_id" = some id) ∨
      pathExists a.tree (recordPath proposals (safeName id).toList rejectionSuffix) = true

section

omit [FloatText] [FloatRead] [Digest]

@[simp] lemma supersedes_rejected {a : Archive proposals} {id : String} :
    a.Supersedes id .rejected ↔ ∃ event ∈ a.ledger, event.str "proposal_id" = some id := Iff.rfl

@[simp] lemma supersedes_reviewed {a : Archive proposals} {id : String} :
    a.Supersedes id .reviewed ↔ (∃ event ∈ a.ledger, event.str "proposal_id" = some id) ∨
      pathExists a.tree (recordPath proposals (safeName id).toList rejectionSuffix) = true := Iff.rfl

/-- **A record that is on file is told, unless it is superseded.** -/
theorem told_iff (a : Archive proposals) {id : String} {verdict : Verdict}
    (hfile : ∃ v, a.tree.entry (safeRecord id verdict.suffix :: a.dir) = some (.file v))
    {lifecycle : Value} (h : a.proposalLifecycle domain id = .ok lifecycle) :
    lifecycle.get "status" = some (.string verdict.status) ↔ ¬ a.Supersedes id verdict := by
  obtain ⟨v, hv⟩ := hfile
  obtain ⟨hexists, hread⟩ := readJson_of_file domain a hv
  unfold Archive.proposalLifecycle at h
  cases hevent : a.ledger.find? fun r => r.str "proposal_id" = some id with
  | some event =>
      rw [hevent] at h
      cases h
      have hadmitted : ∃ event ∈ a.ledger, event.str "proposal_id" = some id :=
        ⟨event, List.mem_of_find?_eq_some hevent, by simpa using List.find?_some hevent⟩
      refine iff_of_false ?_ (not_not.mpr ?_)
      · cases verdict <;> simp [Value.get, OrderedMap.get_cons, Verdict.status]
      · cases verdict with
        | rejected => exact hadmitted
        | reviewed => exact Or.inl hadmitted
  | none =>
      rw [hevent] at h
      have hnone : ¬ ∃ event ∈ a.ledger, event.str "proposal_id" = some id := by
        simpa using List.find?_eq_none.mp hevent
      dsimp only at h
      cases verdict with
      | rejected =>
          rw [Verdict.suffix] at hexists hread
          rw [if_pos hexists, bind_of_ok hread] at h
          cases h
          exact iff_of_true rfl hnone
      | reviewed =>
          rw [Verdict.suffix] at hexists hread
          by_cases hrejected : pathExists a.tree
              (recordPath proposals (safeName id).toList rejectionSuffix) = true
          · rw [if_pos hrejected] at h
            obtain ⟨rejection, -, h⟩ := bind_eq_ok h
            cases h
            refine iff_of_false ?_ (not_not.mpr (Or.inr hrejected))
            simp [Value.get, OrderedMap.get_cons, Verdict.status]
          · rw [if_neg hrejected, if_pos hexists, bind_of_ok hread] at h
            cases h
            exact iff_of_true rfl (not_or.mpr ⟨hnone, hrejected⟩)

/-- The status that a read tells is that of the lifecycle. -/
lemma status_of_read {a : Archive proposals} {settings : Archive.ReadSettings} {args : Map}
    {id : String} {answer : Value} (hid : required domain args "proposal_id" = .ok id)
    (h : a.proposalRead domain settings args = .ok answer) :
    ∃ lifecycle, a.proposalLifecycle domain id = .ok lifecycle ∧
      answer.get "status" = some ((lifecycle.get "status").getD .null) := by
  rw [Archive.proposalRead, bind_of_ok hid] at h
  obtain ⟨proposal, -, h⟩ := bind_eq_ok h
  split at h
  · cases h
  · obtain ⟨lifecycle, hlifecycle, h⟩ := bind_eq_ok h
    cases h
    exact ⟨lifecycle, hlifecycle, by simp [Value.get, OrderedMap.get_cons]⟩

end

/-- **A review or a rejection is kept by the proposal that it concerns** exactly if the id is direct
and nothing supersedes it: it is written inside the directory of the proposals, to the file that
is read for the proposal, and told by every later read under every id of the proposal. -/
theorem recorded_iff {a b u : Archive proposals} {id other : String} {verdict : Verdict}
    {w : Written} {settings : Archive.ReadSettings} {args : Map} {answer : Value}
    (h : Recorded domain a id verdict w) (htree : b.tree = w.tree) (hdir : b.dir = a.dir)
    (hrun : Relation.ReflTransGen (Step domain) b u) (hsame : safeName other = safeName id)
    (hother : required domain args "proposal_id" = .ok other)
    (hread : u.proposalRead domain settings args = .ok answer) :
    ((∀ p ∈ w.record :: w.staged, a.dir <:+ p) ∧ a.Reads id verdict.suffix w.record ∧
        answer.get "status" = some (.string verdict.status)) ↔
      a.Direct id ∧ ¬ u.Supersedes other verdict := by
  rw [← and_assoc, h.records.inside_iff verdict.suffix_eq]
  refine and_congr_right fun hdirect => ?_
  obtain ⟨-, hreads⟩ := (h.records.inside_iff verdict.suffix_eq).mpr hdirect
  have hrecord := (reads_iff a verdict.suffix_eq).mp hreads
  obtain ⟨n, d, hn, hname⟩ := h.records.isRecordName
  have hsafe : n = safeRecord other verdict.suffix := by
    rw [hrecord, List.cons.injEq] at hn
    rw [← hn.1, safeRecord, safeRecord]
    simp only [hsame]
  have hfile : ∃ v, b.tree.entry (n :: d) = some (.file v) := by
    rw [htree, ← hn]
    exact h.records.written
  obtain ⟨hdirs, hlater⟩ := file_of_run hrun hname hfile
  rw [hn, List.cons.injEq] at hrecord
  rw [hsafe, hrecord.2, ← hdir, ← hdirs] at hlater
  obtain ⟨lifecycle, hlifecycle, hstatus⟩ := status_of_read hother hread
  rw [← told_iff u hlater hlifecycle, hstatus]
  cases lifecycle.get "status" with
  | some status => simp
  | none => simp

end Runs

/-! ### An id with a dot -/

section Sample

def sampleDirectory : Name := ⟨"p".toList, by decide⟩

def sampleRecord : Name := ⟨"a.json".toList, by decide⟩

/-- A proposal without operations. -/
def sampleProposal : Value := .object [("operations", .array [])]

/-- A directory with nothing in it. -/
def sampleBase : RecordTree :=
  Tree.bare.set sampleDirectory [] (some .directory) Tree.bare.root (by simp [Tree.bare])

lemma sampleBase_directory : sampleBase.entry [sampleDirectory] = some .directory := by
  rw [sampleBase, Tree.set_entry, Function.update_self]

lemma sampleBase_record : sampleBase.entry [sampleRecord, sampleDirectory] = none := by
  rw [sampleBase, Tree.set_entry, Function.update_of_ne (by simp)]
  rfl

/-- One directory, with one proposal in it. -/
def sampleTree : RecordTree :=
  sampleBase.set sampleRecord [sampleDirectory] (some (.file sampleProposal)) sampleBase_directory
    (by rw [sampleBase_record]; simp)

/-- A tree without links has none when something else is added. -/
lemma not_isLinkAt_set {t : RecordTree} {n : Name} {above : Place} {e : Entry Name Value}
    {hplace : t.entry above = some .directory} {hentry : t.entry (n :: above) ≠ some .directory}
    (he : e.isLink = false) (h : ∀ place, t.isLinkAt place = false) (place : Place) :
    (t.set n above (some e) hplace hentry).isLinkAt place = false := by
  rw [Tree.isLinkAt, Tree.set_entry]
  by_cases hplace : place = n :: above
  · rw [hplace, Function.update_self]
    exact he
  · rw [Function.update_of_ne hplace]
    exact h place

lemma not_isLinkAt_sampleTree (place : Place) : sampleTree.isLinkAt place = false := by
  refine not_isLinkAt_set rfl (fun place => not_isLinkAt_set rfl (fun place => ?_) place) place
  rw [Tree.isLinkAt, Tree.bare]
  dsimp only
  split_ifs <;> rfl

def sampleArchive : Archive "/p".toList where
  tree := sampleTree
  ledger := []
  dir := [sampleDirectory]
  leads := by decide +kernel
  directory := by
    rw [sampleTree, Tree.set_entry, Function.update_of_ne (by simp)]
    exact sampleBase_directory
  plain n place _ := not_isLinkAt_sampleTree (n :: place)

def sampleViews : Views := ⟨none, fun _ => none⟩

def sampleSettings : Archive.ReadSettings := ⟨"narada.epistemic.proposal_read.v1", 50, 200⟩

end Sample

/-- What the review of the sample writes. -/
def sampleWritten : Written :=
  letI := FloatText.fields
  letI : Digest := ⟨fun _ => "h"⟩
  letI : FloatRead := ⟨id⟩
  ((sampleArchive.proposalReview epistemic sampleViews "a").toOption.getD
    (⟨sampleTree, [], []⟩, .null)).1

lemma recorded_sample :
    letI := FloatText.fields
    letI : Digest := ⟨fun _ => "h"⟩
    letI : FloatRead := ⟨id⟩
    Recorded epistemic sampleArchive "a" .reviewed sampleWritten := by
  let _ : FloatText := FloatText.fields
  let _ : Digest := ⟨fun _ => "h"⟩
  let _ : FloatRead := ⟨id⟩
  exact .reviewed (eq_ok_of_isSome
    (x := sampleArchive.proposalReview epistemic sampleViews "a") (by decide +kernel)
    (⟨sampleTree, [], []⟩, .null))

/-- The site behind the review of the sample. -/
def sampleReviewed : Archive "/p".toList :=
  letI := FloatText.fields
  letI : Digest := ⟨fun _ => "h"⟩
  letI : FloatRead := ⟨id⟩
  sampleArchive.after recorded_sample.records

lemma tree_sampleReviewed : sampleReviewed.tree = sampleWritten.tree := by
  rw [sampleReviewed, Archive.after]

lemma dir_sampleReviewed : sampleReviewed.dir = sampleArchive.dir := by
  rw [sampleReviewed, Archive.after]

/-- The proposal of the sample is reviewed under its own name, and told as reviewed. -/
theorem recorded_iff_sample :
    (∀ p ∈ sampleWritten.record :: sampleWritten.staged, sampleArchive.dir <:+ p) ∧
      sampleArchive.Reads "a" reviewSuffix sampleWritten.record ∧
      ∃ answer : Value, sampleReviewed.proposalRead epistemic sampleSettings
        [("proposal_id", .string "a")] = .ok answer ∧
        answer.get "status" = some (.string "reviewed") := by
  let _ : FloatText := FloatText.fields
  let _ : Digest := ⟨fun _ => "h"⟩
  let _ : FloatRead := ⟨id⟩
  have hread := eq_ok_of_isSome (x := sampleReviewed.proposalRead epistemic sampleSettings
    [("proposal_id", .string "a")]) (by decide +kernel) .null
  have hnone : ¬ sampleReviewed.Supersedes "a" .reviewed := by
    rw [supersedes_reviewed, not_or]
    exact ⟨nofun, by decide +kernel⟩
  have hdirect : sampleArchive.Direct "a" := direct_of_safe _ (by decide +kernel)
  have hsame : safeName "a" = safeName "a" := rfl
  obtain ⟨hinside, hreads, hstatus⟩ := (recorded_iff recorded_sample tree_sampleReviewed
    dir_sampleReviewed .refl hsame (by decide +kernel) hread).mpr ⟨hdirect, hnone⟩
  exact ⟨hinside, hreads, _, hread, hstatus⟩

/-- A review under the path of a proposal is written outside of the directory. -/
theorem written_outside :
    letI := FloatText.fields
    letI : Digest := ⟨fun _ => "h"⟩
    letI : FloatRead := ⟨id⟩
    ¬ ∀ (a : Archive "/p".toList) (id : String) (verdict : Verdict) (w : Written),
      Recorded epistemic a id verdict w →
        (∀ p ∈ w.record :: w.staged, a.dir <:+ p) ∧ a.Reads id verdict.suffix w.record := by
  let _ : FloatText := FloatText.fields
  let _ : Digest := ⟨fun _ => "h"⟩
  let _ : FloatRead := ⟨id⟩
  intro h
  have hreview := eq_ok_of_isSome (x := sampleArchive.proposalReview epistemic sampleViews "../a")
    (by decide +kernel) (⟨sampleTree, [], []⟩, .null)
  have hrecorded : Recorded epistemic sampleArchive "../a" .reviewed _ := .reviewed hreview
  have hdirect := (hrecorded.records.inside_iff (.inl rfl)).mp (h _ _ _ _ hrecorded)
  have hfront : placeOf sampleTree (frontPieces (join "/p".toList "../a".toList)) = .ok [] := by
    decide +kernel
  cases hfront.symm.trans hdirect.2

end RecordFiles

end LedgerDomain

end McpSurfaces
