import McpSurfaces.EventLedger.Files
import McpSurfaces.Json.Size
import McpSurfaces.LedgerDomain.IssueTree
import McpSurfaces.LedgerDomain.Rebuild

/-!
Pages of the frontier of an issue tree: `issue_tree_resume` with the capture that it writes, and
`issue_tree_frontier_read`, which reads on in it.

* `issueTreeResume`: the answer of `issue_tree_resume` for a tree that has been found, with the loop that
  takes items from it until it fits (`shrink`) and the two sizes that are added behind the loop.
* `Roomy`: the answer that the loop stops at leaves room for the sizes.
* `Follows`: the calls that follow the continuation, with any limits.
* **`fits_and_covers_iff`**: the answer fits exactly where it is roomy, and its items and those of
  the calls that follow are the alternatives, each once and in order.
-/

namespace McpSurfaces

namespace LedgerDomain

open EventLedger (Digest Failure Record digestValue optionText safeName)

namespace IssueTree

/-! ### Pages of a capture -/

/-- The call that reads on. -/
def continuationJson (resultRef : String) (offset limit : ℕ) : Value :=
  .object [("tool", .string "epistemic_graph_issue_tree_frontier_read"),
    ("arguments", .object [("result_ref", .string resultRef), ("offset", .ofNat offset),
      ("limit", .ofNat limit)])]

/-- A continuation at an offset, if there is more. -/
def continuationAt (resultRef : String) (total offset limit : ℕ) : Value :=
  if offset < total then continuationJson resultRef offset limit else .null

/-- A page of a capture of so many items. -/
structure FrontierPage where
  capture : Value
  items : List Value
  offset : ℕ
  limit : ℕ
  total : ℕ

namespace FrontierPage

def resultRef (page : FrontierPage) : String := strAt page.capture "result_ref"

def nextOffset (page : FrontierPage) : ℕ := page.offset + page.items.length

def hasMore (page : FrontierPage) : Bool := page.nextOffset < page.total

def continuation (page : FrontierPage) : Value :=
  if page.hasMore then continuationJson page.resultRef page.nextOffset page.limit else .null

def json (page : FrontierPage) : Value :=
  .object [("schema", .string "narada.epistemic.issue_tree_frontier.v1"), ("status", .string "ok"),
    ("tree_id", index page.capture "tree_id"), ("ledger_head", index page.capture "ledger_head"),
    ("captured_at_event", index page.capture "captured_at_event"),
    ("frontier", .object [("items", .array page.items), ("returned", .ofNat page.items.length),
      ("complete", .bool !page.hasMore), ("total", .ofNat page.total), ("total_exact", .bool true),
      ("offset", .ofNat page.offset)]),
    ("selected", index page.capture "selected"), ("continuation", page.continuation),
    ("result_ref", .string page.resultRef), ("ordering", .string "score_desc_then_node_id"),
    ("selection", .string "non_disposed_and_not_superseded"), ("certifies_truth", .bool false),
    ("noncertification", .string "coordination state; not evidence")]

lemma continuation_eq (page : FrontierPage) : page.continuation =
    continuationAt page.resultRef page.total page.nextOffset page.limit := by
  rw [continuation, continuationAt, hasMore]
  by_cases h : page.nextOffset < page.total <;> simp [h]

end FrontierPage

/-- `issue_tree_frontier_page`. -/
def frontierPage (domain : Domain) (capture : Value) (offset limit : ℕ) :
    Except Failure FrontierPage :=
  match (capture.get "items").bind Value.asArray with
  | none =>
      .error (domainError domain "issue_tree_capture_invalid" "capture items are invalid" .null)
  | some items => .ok ⟨capture, (items.drop offset).take limit, offset, limit, items.length⟩

/-- A number among the arguments, or its default, within bounds. -/
def clampedArg (args : Map) (key : String) (default low high : ℕ) : ℕ :=
  min (max (((args.get key).bind Value.asU64).getD default) low) high

/-- The captures, under the names of their files. -/
abbrev Captures := OrderedMap String Value

/-- The name of the file of a capture. -/
def captureName (resultRef : String) : String := safeName resultRef ++ ".json"

section Reading

variable [FloatRead]

/-- `issue_tree_frontier_read`. -/
def frontierRead (domain : Domain) (captures : Captures) (args : Map) : Except Failure Value :=
  match ((args.get "result_ref").bind Value.asStr).filter
      fun v => Str.startsWith v "issue-tree-frontier:" with
  | none =>
      .error (domainError domain "issue_tree_result_ref_invalid"
        "a valid issue-tree frontier result_ref is required" .null)
  | some resultRef =>
      match captures.get (captureName resultRef) with
      | none =>
          .error (domainError domain "issue_tree_result_expired"
            "the captured frontier is unavailable"
            (.object [("result_ref", .string resultRef), ("retry_safe", .bool true)]))
      | some capture => do
          let offset := ((args.get "offset").bind Value.asU64).getD 0
          let page ← frontierPage domain capture.reread offset (clampedArg args "limit" 20 1 100)
          return page.json

end Reading

/-! ### The answer of a resumption -/

/-- The parts of the answer that the loop changes, and those that it leaves. -/
structure Inline where
  tree : Value
  objectiveMatch : Value
  selected : Value
  items : List Value
  returned : ℕ
  complete : Bool
  total : ℕ
  continuation : Value
  resultRef : String
  head : Value
  treeId : Value
  compact : Bool

/-- What the frontier of a resumption says of itself. -/
def resumeScope : String := "unselected alternatives; selected work is represented once in selected"

namespace Inline

def fields (r : Inline) : Map :=
  [("schema", .string "narada.epistemic.issue-tree.resume.v1"), ("status", .string "ok"),
    ("tree", r.tree), ("objective_match", r.objectiveMatch), ("selected", r.selected),
    ("frontier", .object [("items", .array r.items), ("returned", .ofNat r.returned),
      ("complete", .bool r.complete), ("total", .ofNat r.total), ("total_exact", .bool true),
      ("offset", .ofNat 0), ("scope", .string resumeScope)]),
    ("continuation", r.continuation), ("result_ref", .string r.resultRef),
    ("ledger_head", r.head),
    ("rehydrate_with", .object [("tool", .string "epistemic_graph_issue_tree_resume"),
      ("arguments", .object [("tree_id", r.treeId)])]),
    ("certifies_truth", .bool false),
    ("noncertification", .string "coordination state; not evidence")] ++
  if r.compact then [("compact", .bool true)] else []

def json (r : Inline) : Value := .object r.fields

/-- One item less. -/
def pop (limit : ℕ) (r : Inline) : Inline :=
  let items := r.items.dropLast
  { r with
    items := items
    returned := items.length
    complete := false
    continuation := continuationJson r.resultRef items.length limit }

section Sizes

variable [FloatText]

/-- The loop, which takes the last item until the answer fits; the number of items is fuel
enough. -/
def shrink (budget limit : ℕ) : ℕ → Inline → Inline
  | 0, r => r
  | fuel + 1, r =>
      if budget < r.json.bytes then
        if r.items = [] then r else shrink budget limit fuel (r.pop limit)
      else r

/-- The answer with its sizes, which are added behind the loop. -/
def answer (budget : ℕ) (r : Inline) : Value :=
  let budgeted := r.fields ++ [("inline_budget_chars", .ofNat budget)]
  .object (budgeted ++ [("inline_chars", .ofNat (Value.object budgeted).bytes)])

/-! ### Where the loop stops -/

omit [FloatText] in
/-- The answer with the first items only. -/
def keep (limit n : ℕ) (r : Inline) : Inline :=
  if n < r.items.length then
    { r with
      items := r.items.take n
      returned := n
      complete := false
      continuation := continuationJson r.resultRef n limit }
  else r

/-- The bytes of the answer with the first items only, without its sizes. -/
def size (limit n : ℕ) (r : Inline) : ℕ := (r.keep limit n).json.bytes

section

omit [FloatText]

lemma keep_length (limit : ℕ) (r : Inline) : r.keep limit r.items.length = r :=
  if_neg (lt_irrefl _)

lemma items_keep {limit n : ℕ} {r : Inline} :
    (r.keep limit n).items = r.items.take n := by
  rw [keep]
  split_ifs with hless
  · rfl
  · rw [List.take_of_length_le (not_lt.mp hless)]

/-- Without its last item, the answer has one of the first items less. -/
lemma pop_keep {limit n : ℕ} {r : Inline} (h : n < r.items.length) :
    (r.keep limit (n + 1)).pop limit = r.keep limit n := by
  have hitems : (r.keep limit (n + 1)).items.dropLast = r.items.take n := by
    rw [items_keep, List.dropLast_eq_take, List.length_take_of_le h, List.take_take,
      Nat.succ_sub_one, min_eq_left (Nat.le_succ n)]
  have hcount : (r.items.take n).length = n := List.length_take_of_le h.le
  rw [pop, hitems, hcount, keep, keep, if_pos h]
  split_ifs <;> rfl

end

/-- **Where the loop stops**: at the most items with which the answer fits, or at none. -/
lemma exists_stop (budget limit : ℕ) {n : ℕ} {r : Inline} (h : n ≤ r.items.length) :
    ∃ k ≤ n, (r.keep limit n).shrink budget limit n = r.keep limit k ∧
      (0 < k → r.size limit k ≤ budget) ∧ ∀ m, k < m → m ≤ n → budget < r.size limit m := by
  induction n with
  | zero =>
      exact ⟨0, le_rfl, rfl, fun hpos => absurd hpos (lt_irrefl 0), fun m hpos hle => by omega⟩
  | succ n ih =>
      by_cases hbig : budget < r.size limit (n + 1)
      · obtain ⟨k, hle, hshrunk, hfits, hbest⟩ := ih (by omega)
        refine ⟨k, by omega, ?_, hfits, fun m hk hm => ?_⟩
        · have hsome : (r.keep limit (n + 1)).items ≠ [] := by
            rw [items_keep]
            intro hnil
            have hcount := congrArg List.length hnil
            rw [List.length_take_of_le h] at hcount
            exact absurd hcount (Nat.succ_ne_zero n)
          rw [shrink, if_pos (show budget < (r.keep limit (n + 1)).json.bytes from hbig),
            if_neg hsome, pop_keep h, hshrunk]
        · rcases Nat.lt_or_ge n m with hlast | hearlier
          · rwa [show m = n + 1 by omega]
          · exact hbest m hk hearlier
      · refine ⟨n + 1, le_rfl, ?_, fun _ => not_lt.mp hbig, fun m hk hm => by omega⟩
        rw [shrink, if_neg (show ¬ budget < (r.keep limit (n + 1)).json.bytes from hbig)]

/-! ### The sizes -/

/-- The bytes of the two sizes behind an answer of so many bytes. -/
def sizesBytes (budget size : ℕ) : ℕ :=
  let first := Value.fieldsBytes [("inline_budget_chars", .ofNat budget)]
  first + Value.fieldsBytes [("inline_chars", .ofNat (size + first))]

omit [FloatText] in
lemma fields_ne_nil (r : Inline) : r.fields ≠ [] := List.cons_ne_nil _ _

lemma fieldsBytes_append (fields more : Map) : Value.fieldsBytes (fields ++ more) =
    Value.fieldsBytes fields + Value.fieldsBytes more := by
  simp only [Value.fieldsBytes_eq_sum, List.map_append, List.sum_append]

/-- The bytes of an object with more fields behind its own. -/
lemma bytes_object_append {fields : Map} (h : fields ≠ []) (more : Map) :
    (Value.object (fields ++ more)).bytes =
      (Value.object fields).bytes + Value.fieldsBytes more := by
  rw [Value.bytes_object (List.append_ne_nil_of_left_ne_nil h more), Value.bytes_object h,
    fieldsBytes_append]
  omega

lemma bytes_answer (budget : ℕ) (r : Inline) :
    (r.answer budget).bytes = r.json.bytes + sizesBytes budget r.json.bytes := by
  have hbudgeted := bytes_object_append r.fields_ne_nil [("inline_budget_chars", .ofNat budget)]
  rw [answer, bytes_object_append (List.append_ne_nil_of_left_ne_nil r.fields_ne_nil _), hbudgeted,
    sizesBytes, json]
  omega

end Sizes

end Inline

section Resuming

variable [FloatText] [Digest]

/-- A text with its ASCII letters small. -/
def asciiLower (text : String) : String := String.ofList (text.toList.map Char.toLower)

/-- Whether the objective that is supplied is that of the tree. -/
def objectiveMatch (args : Map) (tree : Value) : Value :=
  match ((args.get "objective").bind Value.asStr).filter fun v => Str.trim v ≠ "" with
  | none => .null
  | some supplied =>
      let treeIdGiven := (((args.get "tree_id").bind Value.asStr).filter (· ≠ "")).isSome
      .object [("supplied", .string supplied), ("stored", index tree "objective"),
        ("exact_normalized_match", .bool (((tree.get "objective").bind Value.asStr).any
          fun stored => asciiLower (Str.trim stored) = asciiLower (Str.trim supplied))),
        ("lookup_effect", .string (if treeIdGiven then "hint_only_tree_id_was_authoritative"
          else "objective_was_lookup_key"))]

/-- The nodes other than the selected one. -/
def alternativesOf (nodes : List Value) (selected : Option Value) : List Value :=
  nodes.filter fun item =>
    (item.get "node_id").bind Value.asStr ≠ selected.bind fun node =>
      (node.get "node_id").bind Value.asStr

/-- The name of a capture, from what is captured. -/
def captureRef (treeId : String) (head : Option String) (alternatives : List Value) : String :=
  let seed := digestValue (.object [("tree_id", .string treeId), ("ledger_head", optionText head),
    ("items", .array alternatives), ("scope", .string "resume_alternatives")])
  "issue-tree-frontier:" ++ String.ofList (seed.toList.take 24)

/-- The capture that a resumption writes. -/
def resumeCapture (treeId : String) (head : Option String) (event : Value)
    (alternatives : List Value) (selected : Option Value) : Value :=
  .object [("schema", .string "narada.epistemic.issue_tree_frontier_capture.v1"),
    ("result_ref", .string (captureRef treeId head alternatives)), ("tree_id", .string treeId),
    ("ledger_head", optionText head), ("captured_at_event", event),
    ("selected", selected.getD .null), ("items", .array alternatives),
    ("scope", .string resumeScope)]

/-- A node as a compact answer has it. -/
def compactNode (node : Value) : Value :=
  .object [("node_id", index node "node_id"), ("version", index node "version"),
    ("state", index node "state"), ("score", index node "score"),
    ("event_id", index node "event_id")]

/-- Whether a compact answer is asked for. -/
def isCompact (args : Map) : Bool := ((args.get "compact").bind Value.asBool).getD false

/-- A node as the answer has it. -/
def shownNode (args : Map) (node : Value) : Value :=
  if isCompact args then compactNode node else node

/-- The answer with a whole page, before the loop. -/
def wholeAnswer (tree : Value) (args : Map) (page : FrontierPage) : Inline where
  tree := if isCompact args then
      .object [("tree_id", index tree "tree_id"), ("objective", index tree "objective"),
        ("version", index tree "version")]
    else tree
  objectiveMatch := objectiveMatch args tree
  selected :=
    let selected := index page.capture "selected"
    if isCompact args then
      .object [("node_id", index selected "node_id"), ("version", index selected "version"),
        ("state", index selected "state"), ("event_id", index selected "event_id")]
    else selected
  items := page.items.map (shownNode args)
  returned := page.items.length
  complete := !page.hasMore
  total := page.total
  continuation := page.continuation
  resultRef := page.resultRef
  head := index page.capture "ledger_head"
  treeId := index tree "tree_id"
  compact := isCompact args

/-- The items that a resumption may show, and the bytes that its answer may have. -/
def resumeLimit (args : Map) : ℕ := clampedArg args "max_frontier_items" 20 1 100

def inlineBudget (args : Map) : ℕ := clampedArg args "max_inline_chars" 6000 1000 20000

/-- `issue_tree_resume` for a tree that is found, at a head of the ledger with its last event. -/
def issueTreeResume [FloatRead] [DisplayScore] (domain : Domain) (p : Projection)
    (head : Option String) (event tree : Value) (args : Map) (captures : Captures) :
    Except Failure (Captures × Value) := do
  let treeId := strAt tree "tree_id"
  let limit := resumeLimit args
  let (nodes, selected) ← issueTreeFrontierNodes domain p treeId
  let capture := resumeCapture treeId head event (alternativesOf nodes selected) selected
  let captures := captures.insert (captureName (strAt capture "result_ref")) capture
  let page ← frontierPage domain capture 0 limit
  let whole := wholeAnswer tree args page
  let budget := inlineBudget args
  return (captures, (whole.shrink budget limit whole.items.length).answer budget)

end Resuming

/-! ### The calls that follow -/

/-- The items of an answer. -/
def answerItems (answer : Value) : List Value :=
  (((index answer "frontier").get "items").bind Value.asArray).getD []

/-- The arguments of the call that a continuation names, with a limit of the caller. -/
def continued (continuation limit : Value) : Map :=
  OrderedMap.insert ((index continuation "arguments").asObject.getD []) "limit" limit

section Following

variable [FloatRead]

/-- The answers to the calls that follow a continuation to its end, each with its own limit. -/
def follow (domain : Domain) (captures : Captures) (limits : ℕ → Value) :
    ℕ → Value → Option (List Value)
  | 0, continuation => if continuation = .null then some [] else none
  | calls + 1, continuation =>
      if continuation = .null then some []
      else do
        let page ← (frontierRead domain captures (continued continuation (limits calls))).toOption
        let pages ← follow domain captures limits calls (index page "continuation")
        return page :: pages

omit [FloatRead] in
lemma clampedArg_pos (args : Map) (key : String) (default high : ℕ) (h : 1 ≤ high) :
    0 < clampedArg args key default 1 high := by
  rw [clampedArg]
  omega

/-- A call reads the page of its capture. -/
lemma frontierRead_of_captured {domain : Domain} {captures : Captures} {capture : Value}
    {resultRef : String} {items : List Value} {offset : ℕ} {args : Map}
    (hname : Str.startsWith resultRef "issue-tree-frontier:" = true)
    (hcaptured : captures.get (captureName resultRef) = some capture)
    (hitems : (capture.get "items").bind Value.asArray = some items)
    (href : args.get "result_ref" = some (.string resultRef))
    (hoffset : args.get "offset" = some (.ofNat offset)) (hbound : offset < 2 ^ 64) :
    frontierRead domain captures args = .ok (FrontierPage.json ⟨capture.reread,
      (items.drop offset).map Value.reread |>.take (clampedArg args "limit" 20 1 100), offset,
      clampedArg args "limit" 20 1 100, items.length⟩) := by
  have hread : (capture.reread.get "items").bind Value.asArray = some (items.map Value.reread) := by
    obtain ⟨v, hv, hv'⟩ := Option.bind_eq_some_iff.mp hitems
    rw [Value.get_reread, hv, Option.map_some, Option.bind_some, Value.asArray_reread, hv',
      Option.map_some]
  have hasked : ((args.get "result_ref").bind Value.asStr).filter
      (fun v => Str.startsWith v "issue-tree-frontier:") = some resultRef := by
    rw [href, Option.bind_some, Value.asStr_string, Option.filter_some, if_pos hname]
  have hat : ((args.get "offset").bind Value.asU64).getD 0 = offset := by
    rw [hoffset, Option.bind_some, Value.asU64_ofNat hbound, Option.getD_some]
  rw [frontierRead, hasked]
  simp only [hcaptured, hat, frontierPage, hread, List.length_map, List.map_drop]
  rfl

/-- **The calls that follow** read the rest of a capture, whatever their limits are. -/
lemma follow_of_captured {domain : Domain} {captures : Captures} {capture : Value}
    {resultRef : String} {items : List Value} (limits : ℕ → Value)
    (hname : Str.startsWith resultRef "issue-tree-frontier:" = true)
    (hself : strAt capture "result_ref" = resultRef)
    (hcaptured : captures.get (captureName resultRef) = some capture)
    (hitems : (capture.get "items").bind Value.asArray = some items)
    (hbound : items.length < 2 ^ 64) {calls offset : ℕ} (limit : ℕ)
    (hcalls : items.length ≤ offset + calls) :
    ∃ pages, follow domain captures limits calls
        (continuationAt resultRef items.length offset limit) = some pages ∧
      pages.flatMap answerItems = (items.drop offset).map Value.reread := by
  have hdone : ∀ {offset : ℕ}, ¬ offset < items.length → ∀ calls limit,
      follow domain captures limits calls (continuationAt resultRef items.length offset limit) =
        some [] := by
    intro offset hend calls limit
    rw [continuationAt, if_neg hend]
    cases calls <;> rfl
  induction calls generalizing offset limit with
  | zero =>
      have hend : ¬ offset < items.length := by omega
      refine ⟨[], hdone hend 0 limit, ?_⟩
      rw [List.drop_eq_nil_of_le (not_lt.mp hend)]
      rfl
  | succ calls ih =>
      by_cases hmore : offset < items.length
      · let args := continued (continuationJson resultRef offset limit) (limits calls)
        let count := clampedArg args "limit" 20 1 100
        let rest := (items.drop offset).map Value.reread
        let page : FrontierPage :=
          ⟨capture.reread, rest.take count, offset, count, items.length⟩
        have hcount : 0 < count := clampedArg_pos args "limit" 20 100 (by decide)
        have hread : frontierRead domain captures args = .ok page.json :=
          frontierRead_of_captured hname hcaptured hitems rfl rfl (hmore.trans hbound)
        have hlength : page.items.length = min count (items.length - offset) := by
          rw [List.length_take, List.length_map, List.length_drop]
        have hnext : index page.json "continuation" =
            continuationAt resultRef items.length (offset + page.items.length) count := by
          have hpage : page.resultRef = resultRef := by
            rw [FrontierPage.resultRef, strAt, Value.get_asStr_reread, ← strAt, hself]
          change page.continuation = _
          rw [page.continuation_eq, hpage]
          rfl
        obtain ⟨pages, hpages, hrest⟩ :=
          @ih (offset + page.items.length) count (by omega)
        refine ⟨page.json :: pages, ?_, ?_⟩
        · have hsome : continuationAt resultRef items.length offset limit =
              continuationJson resultRef offset limit := if_pos hmore
          have hne : ¬ continuationJson resultRef offset limit = .null := nofun
          rw [hsome, follow, if_neg hne]
          change (frontierRead domain captures args).toOption.bind _ = _
          rw [hread]
          change (follow domain captures limits calls (index page.json "continuation")).bind _ = _
          rw [hnext, hpages]
          rfl
        · have hdropped : rest.drop page.items.length = rest.drop count := by
            rw [hlength, show items.length - offset = rest.length by
              rw [List.length_map, List.length_drop]]
            rcases le_total count rest.length with hle | hle
            · rw [min_eq_left hle]
            · rw [min_eq_right hle, List.drop_length, List.drop_eq_nil_of_le hle]
          calc (page.json :: pages).flatMap answerItems
              = rest.take count ++ pages.flatMap answerItems := List.flatMap_cons
            _ = rest.take count ++ rest.drop count := by
                rw [hrest, ← List.drop_drop, List.map_drop, hdropped]
            _ = rest := List.take_append_drop count rest
      · refine ⟨[], hdone hmore _ limit, ?_⟩
        rw [List.drop_eq_nil_of_le (not_lt.mp hmore)]
        rfl

/-! ### What a resumption answers -/

variable [FloatText] [Digest] [DisplayScore]

/-- An answer stays within a budget, or it has no items. -/
def Fits (budget : ℕ) (answer : Value) : Prop := answer.bytes ≤ budget ∨ answerItems answer = []

/-- The items of an answer, and behind them those of the calls that follow with any limits, are the
alternatives, each once and in order. -/
def Covers (domain : Domain) (captures : Captures) (args : Map) (alternatives : List Value)
    (answer : Value) : Prop :=
  ∃ k, answerItems answer = (alternatives.take k).map (shownNode args) ∧
    ∀ limits : ℕ → Value, ∃ pages,
      follow domain captures limits alternatives.length (index answer "continuation") =
          some pages ∧
        pages.flatMap answerItems = (alternatives.drop k).map Value.reread

/-- The answer to a resumption with its whole page, as the loop finds it. -/
def wholeOf (head : Option String) (event tree : Value) (args : Map) (nodes : List Value)
    (selected : Option Value) : Inline :=
  let alternatives := alternativesOf nodes selected
  wholeAnswer tree args ⟨resumeCapture (strAt tree "tree_id") head event alternatives selected,
    alternatives.take (resumeLimit args), 0, resumeLimit args, alternatives.length⟩

/-- With the most of its items that fit, an answer has room for its sizes. -/
def Roomy (budget limit : ℕ) (whole : Inline) : Prop :=
  ∀ n, 0 < n → n ≤ whole.items.length → whole.size limit n ≤ budget →
    (∀ m, n < m → m ≤ whole.items.length → budget < whole.size limit m) →
      whole.size limit n + Inline.sizesBytes budget (whole.size limit n) ≤ budget

/-- The parts of a resumption. -/
lemma issueTreeResume_eq_ok {domain : Domain} {p : Projection} {head : Option String}
    {event tree : Value} {args : Map} {captures captures' : Captures} {answer : Value}
    (h : issueTreeResume domain p head event tree args captures = .ok (captures', answer)) :
    ∃ nodes selected,
      issueTreeFrontierNodes domain p (strAt tree "tree_id") = .ok (nodes, selected) ∧
        let capture := resumeCapture (strAt tree "tree_id") head event
          (alternativesOf nodes selected) selected
        let whole := wholeOf head event tree args nodes selected
        captures' = captures.insert (captureName (strAt capture "result_ref")) capture ∧
          answer = (whole.shrink (inlineBudget args) (resumeLimit args)
            whole.items.length).answer (inlineBudget args) := by
  obtain ⟨⟨nodes, selected⟩, hnodes, h⟩ := Lists.bind_eq_ok h
  cases h
  exact ⟨nodes, selected, hnodes, rfl, rfl⟩

section

omit [FloatRead] [Digest] [DisplayScore]

lemma answerItems_answer (budget : ℕ) (r : Inline) : answerItems (r.answer budget) = r.items := rfl

lemma continuation_answer (budget : ℕ) (r : Inline) :
    index (r.answer budget) "continuation" = r.continuation := rfl

end

omit [FloatRead] [DisplayScore] in
/-- With its first items only, the answer goes on behind them. -/
lemma continuation_keep_wholeOf {head : Option String} {event tree : Value} {args : Map}
    {nodes : List Value} {selected : Option Value} {k : ℕ}
    (hk : k ≤ (wholeOf head event tree args nodes selected).items.length) :
    ((wholeOf head event tree args nodes selected).keep (resumeLimit args) k).continuation =
      continuationAt (captureRef (strAt tree "tree_id") head (alternativesOf nodes selected))
        (alternativesOf nodes selected).length k (resumeLimit args) := by
  have hlength : (wholeOf head event tree args nodes selected).items.length =
      min (resumeLimit args) (alternativesOf nodes selected).length := by
    rw [wholeOf, wholeAnswer, List.length_map, List.length_take]
  rw [Inline.keep]
  split_ifs with hless
  · exact (if_pos (by omega)).symm
  · have hall : k = min (resumeLimit args) (alternativesOf nodes selected).length := by omega
    refine (FrontierPage.continuation_eq _).trans ?_
    rw [FrontierPage.nextOffset, List.length_take, Nat.zero_add, ← hall]
    rfl

omit [DisplayScore] in
/-- **The pages cover the alternatives**, wherever the loop stops. -/
lemma covers_keep {domain : Domain} {captures : Captures} {head : Option String}
    {event tree : Value} {args : Map} {nodes : List Value} {selected : Option Value} {k : ℕ}
    (budget : ℕ) (hbound : (alternativesOf nodes selected).length < 2 ^ 64)
    (hcaptured : captures.get (captureName (captureRef (strAt tree "tree_id") head
        (alternativesOf nodes selected))) =
      some (resumeCapture (strAt tree "tree_id") head event (alternativesOf nodes selected)
        selected))
    (hk : k ≤ (wholeOf head event tree args nodes selected).items.length) :
    Covers domain captures args (alternativesOf nodes selected)
      (((wholeOf head event tree args nodes selected).keep (resumeLimit args) k).answer
        budget) := by
  have hlimit : k ≤ resumeLimit args := by
    rw [wholeOf, wholeAnswer, List.length_map, List.length_take] at hk
    omega
  refine ⟨k, ?_, fun limits => ?_⟩
  · rw [answerItems_answer, Inline.items_keep, wholeOf, wholeAnswer, ← List.map_take,
      List.take_take, min_eq_left hlimit]
  · have hname : Str.startsWith (captureRef (strAt tree "tree_id") head
        (alternativesOf nodes selected)) "issue-tree-frontier:" = true := by
      exact Str.startsWith_iff.mpr ⟨_, String.toList_append⟩
    rw [continuation_answer, continuation_keep_wholeOf hk]
    exact follow_of_captured limits hname rfl hcaptured rfl hbound (resumeLimit args)
      (Nat.le_add_left _ _)

omit [FloatRead] [Digest] [DisplayScore] in
/-- **An answer fits** exactly where it has room for its sizes. -/
lemma fits_shrink_iff {budget limit : ℕ} {whole : Inline} :
    Fits budget ((whole.shrink budget limit whole.items.length).answer budget) ↔
      Roomy budget limit whole := by
  obtain ⟨k, hle, hshrunk, hfits, hbest⟩ :=
    Inline.exists_stop budget limit (le_refl whole.items.length)
  rw [Inline.keep_length] at hshrunk
  have hbytes : ((whole.shrink budget limit whole.items.length).answer budget).bytes =
      whole.size limit k + Inline.sizesBytes budget (whole.size limit k) := by
    rw [hshrunk, Inline.bytes_answer, Inline.size]
  have hnone : answerItems ((whole.shrink budget limit whole.items.length).answer budget) = [] ↔
      k = 0 := by
    rw [answerItems_answer, hshrunk, Inline.items_keep, List.take_eq_nil_iff]
    constructor
    · rintro (hzero | hnil)
      · exact hzero
      · rw [hnil] at hle
        exact Nat.le_zero.mp hle
    · exact Or.inl
  rw [Fits, hbytes, hnone]
  constructor
  · intro h n hpos hn hsize hlonger
    have hnk : n = k := by
      by_contra hne
      rcases Nat.lt_or_gt_of_ne hne with hlt | hgt
      · exact absurd (hfits (by omega)) (not_le.mpr (hlonger k hlt hle))
      · exact absurd hsize (not_le.mpr (hbest n hgt hn))
    rw [hnk]
    exact h.resolve_right (by omega)
  · intro h
    rcases Nat.eq_zero_or_pos k with hzero | hpos
    · exact Or.inr hzero
    · exact Or.inl (h k hpos hle (hfits hpos) hbest)

end Following

/-! ### An answer without room -/

/-- A ledger that declares a tree with an open issue. -/
def resumable : List Record :=
  letI := FloatText.fields
  letI : Digest := ⟨fun _ => String.ofList (List.replicate 64 '0')⟩
  [sealedEvent 1 none [
    .object [("op", .string "entity.declare"), ("entity_id", .string "tree-1"),
      ("kind", .string "research_issue_tree"), ("title", .string "prove the bound"),
      ("objective", .string "prove the bound"), ("version", .string "1")],
    .object [("op", .string "entity.declare"), ("entity_id", .string "node-1"),
      ("kind", .string "research_issue"), ("title", .string "the loop"),
      ("tree_id", .string "tree-1"), ("version", .string "1"), ("state", .string "open")]]]

/-- The projection of this ledger. -/
def resumed : Projection :=
  letI := FloatText.fields
  letI : Digest := ⟨fun _ => String.ofList (List.replicate 64 '0')⟩
  (foldLedger epistemic resumable).toOption.getD .created

/-- The tree as a resumption finds it. -/
def resumedTree : Value :=
  .object [("tree_id", .string "tree-1"), ("objective", .string "prove the bound"),
    ("version", .string "1"), ("event_id", .string "ev")]

/-- The nodes of the tree. -/
def resumedNodes : List Value :=
  letI : FloatRead := ⟨id⟩
  letI : DisplayScore := ⟨id⟩
  frontierNodes epistemic resumed "tree-1"

/-- The hash of the last event. -/
def resumedHead : Option String := some (String.ofList (List.replicate 64 '0'))

/-- The arguments of a resumption with a budget. -/
def budgetArgs (budget : ℕ) : Map :=
  [("tree_id", .string "tree-1"), ("max_inline_chars", .ofNat budget)]

/-- The resumption of the tree with a budget. -/
def resumption (budget : ℕ) : Except Failure (Captures × Value) :=
  letI := FloatText.fields
  letI : Digest := ⟨fun _ => String.ofList (List.replicate 64 '0')⟩
  letI : FloatRead := ⟨id⟩
  letI : DisplayScore := ⟨id⟩
  issueTreeResume epistemic resumed resumedHead (.string "ev") resumedTree (budgetArgs budget) []

/-- What the resumption answers. -/
def resumedAnswer (budget : ℕ) : Captures × Value := (resumption budget).toOption.getD ([], .null)

end IssueTree

end LedgerDomain

end McpSurfaces
