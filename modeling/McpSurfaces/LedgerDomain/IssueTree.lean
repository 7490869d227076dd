import McpSurfaces.Json.Reread
import McpSurfaces.LedgerDomain.Validate

/-!
The nodes at the frontier of an issue tree: `issue_tree_frontier_nodes`.

* `issueTreeFrontierNodes` reads the tables of a projection: the research issues of a tree that
  are not disposed of and that no relation supersedes, the best score first. Two selected ones
  are refused.
* `Unresolved` says of a row that it is one of them. **`mem_frontier_iff`**: the nodes of the
  frontier are the unresolved rows.
-/

namespace McpSurfaces

namespace LedgerDomain

open EventLedger (Failure)

namespace IssueTree

/-! ### Scores -/

/-- The nearest binary64 of a natural number, with a sign. -/
def binary64 (sign : Bool) (n : ℕ) : F64 :=
  let m := roundToF64 n
  if m = 0 then ⟨sign, 0, 0⟩
  else ⟨sign, Fin.ofNat 2047 (1023 + Nat.log2 m), Fin.ofNat (2 ^ 52) (m * 2 ^ 52 / 2 ^ Nat.log2 m)⟩

/-- `Value::as_f64`. -/
def asF64 : Value → Option F64
  | .number (.posInt n _) => some (binary64 false n)
  | .number (.negInt n _) => some (binary64 true (n + 1))
  | .number (.float x) => some x
  | _ => none

/-- `(score * 100.0).round() / 10.0`, in binary64. -/
class DisplayScore where
  outOfTen : F64 → F64

def zeroScore : F64 := ⟨false, 0, 0⟩

/-- The text of a field, empty without one. -/
def strAt (v : Value) (key : String) : String := ((v.get key).bind Value.asStr).getD ""

/-- `v[key]`. -/
def index (v : Value) (key : String) : Value := (v.get key).getD .null

/-! ### Nodes -/

/-- The first characters of a text, and whether there are more. -/
def clip (text : String) (maximum : ℕ) : String × Bool :=
  if maximum < text.length then (String.ofList (text.toList.take maximum) ++ "…", true)
  else (text, false)

/-- The state that is shown for the one that is stored. -/
def shownState (payload : Value) : String :=
  let stored := ((payload.get "state").bind Value.asStr).getD "open"
  if stored = "active" then "open" else stored

/-- The length of an array, nothing else having one. -/
def lengthAt (payload : Value) (key : String) : ℕ :=
  (((payload.get key).bind Value.asArray).map List.length).getD 0

section Nodes

variable [FloatRead] [DisplayScore]

/-- The payload of a row, as it is read from its column. -/
def payloadOf (row : Row) : Value := row.payload.reread

/-- The id of the entity of a row. -/
def nodeIdOf (row : Row) : String := (row.get "entity_id").getD ""

/-- A node of the frontier. -/
def frontierNode (row : Row) : Value :=
  let payload := payloadOf row
  let (title, titleClipped) := clip (strAt payload "title") 300
  let (rationale, rationaleClipped) := clip (strAt payload "rationale") 500
  let score := ((payload.get "score").bind asF64).getD zeroScore
  .object [("node_id", .string (nodeIdOf row)), ("version", index payload "version"),
    ("title", .string title), ("title_clipped", .bool titleClipped),
    ("state", .string (shownState payload)), ("score", .number (.float score)),
    ("display_score_out_of_10", .number (.float (DisplayScore.outOfTen score))),
    ("disposition", index payload "disposition"), ("rationale_excerpt", .string rationale),
    ("rationale_clipped", .bool rationaleClipped),
    ("blocker_count", .ofNat (lengthAt payload "blockers")),
    ("evidence_reference_count", .ofNat (lengthAt payload "evidence_refs")),
    ("event_id", .string ((row.get "event_id").getD ""))]

section

omit [FloatRead] [DisplayScore]

/-- The id of a node. -/
def nodeId (node : Value) : String := strAt node "node_id"

/-- The order of the frontier: the best score first, and then the ids. -/
def compareNodes (left right : Value) : Ordering :=
  let score (node : Value) : ℤ := ((node.get "score").bind asF64).elim 0 F64.scaled
  (compare (score right) (score left)).then (compare (nodeId left) (nodeId right))

/-- The ids that the relations of a projection supersede. -/
def supersededIds (domain : Domain) (p : Projection) : List String :=
  ((p.rows domain.relationTable).filter fun row => row.get "relation_type" = some "supersedes").map
    fun row => (row.get "target_id").getD ""

end

/-- A row of an issue of a tree that is not disposed of and not superseded. -/
def Unresolved (domain : Domain) (p : Projection) (treeId : String) (row : Row) : Prop :=
  row.get "kind" = some "research_issue" ∧
    ((payloadOf row).get "tree_id").bind Value.asStr = some treeId ∧
    ((payloadOf row).get "state").bind Value.asStr ≠ some "disposed" ∧
    nodeIdOf row ∉ supersededIds domain p

omit [DisplayScore] in
instance (domain : Domain) (p : Projection) (treeId : String) :
    DecidablePred (Unresolved domain p treeId) :=
  fun _ => inferInstanceAs (Decidable (_ ∧ _))

/-- The nodes at the frontier of a tree. -/
def frontierNodes (domain : Domain) (p : Projection) (treeId : String) : List Value :=
  Lists.sortBy compareNodes
    (((p.rows domain.entityTable).filter (Unresolved domain p treeId)).map frontierNode)

omit [FloatRead] [DisplayScore] in
/-- The nodes that are selected. -/
def selectedNodes (nodes : List Value) : List Value :=
  nodes.filter fun node => strAt node "state" = "selected"

/-- `issue_tree_frontier_nodes`, on the projection as it is rebuilt. -/
def issueTreeFrontierNodes (domain : Domain) (p : Projection) (treeId : String) :
    Except Failure (List Value × Option Value) :=
  let nodes := frontierNodes domain p treeId
  let selected := selectedNodes nodes
  if 1 < selected.length then
    .error (domainError domain "issue_tree_selected_conflict" "more than one selected leaf exists"
      (.object [("tree_id", .string treeId),
        ("selected_node_ids", .array (selected.map fun node => index node "node_id"))]))
  else .ok (nodes, selected.head?)

/-- **The nodes of the frontier are the unresolved rows.** -/
lemma mem_frontier_iff {domain : Domain} {p : Projection} {treeId id : String} :
    id ∈ (frontierNodes domain p treeId).map nodeId ↔
      ∃ row ∈ p.rows domain.entityTable, Unresolved domain p treeId row ∧ nodeIdOf row = id := by
  simp only [frontierNodes, List.mem_map, Lists.mem_sortBy, List.mem_filter, decide_eq_true_eq]
  constructor
  · rintro ⟨-, ⟨row, ⟨hrow, hunresolved⟩, rfl⟩, rfl⟩
    exact ⟨row, hrow, hunresolved, rfl⟩
  · rintro ⟨row, hrow, hunresolved, rfl⟩
    exact ⟨frontierNode row, ⟨row, ⟨hrow, hunresolved⟩, rfl⟩, rfl⟩

end Nodes

end IssueTree

end LedgerDomain

end McpSurfaces
