import McpSurfaces.Query.Adequacy

/-!
Reachability against the graph of its attribute.

* `Distance`: the length of a shortest walk along the datoms of the attribute.
* **`reachable_exact`**: the results of `apply_reachable` are those of `unify` on the nodes whose
  distance from the start is between one and the given depth, each node once.
-/

namespace McpSurfaces

namespace Query

open Assignment BoundedSearch

/-- The length of a shortest walk from one node to another along the datoms of an attribute. -/
def Distance (datoms : List Datom) (attr start node : String) (k : ℕ) : Prop :=
  IsLeast {k | Walk (Edge datoms attr) start node k} k

variable {datoms : List Datom} {attr start node : String} {maxDepth : ℕ}

lemma exists_distance {k : ℕ} (h : Walk (Edge datoms attr) start node k) :
    ∃ least ≤ k, Distance datoms attr start node least := by
  obtain ⟨least, hleast, hmin⟩ :=
    WellFounded.has_min Nat.lt_wfRel.wf {k | Walk (Edge datoms attr) start node k} ⟨k, h⟩
  have hlower : ∀ j, Walk (Edge datoms attr) start node j → least ≤ j :=
    fun j hj => not_lt.mp (hmin j hj)
  exact ⟨least, hlower k h, hleast, hlower⟩

/-- Only the start is at no distance from itself. -/
lemma distance_pos_iff {k : ℕ} (h : Distance datoms attr start node k) : 1 ≤ k ↔ node ≠ start := by
  constructor
  · rintro hpos rfl
    have hzero : k ≤ 0 := h.2 .refl
    omega
  · intro hne
    by_contra hnot
    obtain rfl : k = 0 := by omega
    cases h.1
    exact hne rfl

/-- The nodes of the search are those within the depth, other than the start. -/
lemma mem_reachedFrom_iff_distance :
    node ∈ reachedFrom (edgesOf datoms attr) start maxDepth ↔
      ∃ k, Distance datoms attr start node k ∧ 1 ≤ k ∧ k ≤ maxDepth := by
  rw [mem_reachedFrom]
  constructor
  · rintro ⟨hne, k, hk, hwalk⟩
    obtain ⟨least, hle, hleast⟩ := exists_distance hwalk
    exact ⟨least, hleast, (distance_pos_iff hleast).mpr hne, hle.trans hk⟩
  · rintro ⟨k, hdistance, hpos, hk⟩
    exact ⟨(distance_pos_iff hdistance).mp hpos, k, hk, hdistance.1⟩

/-- No node is met twice. -/
lemma nodup_reachedFrom : (reachedFrom (edgesOf datoms attr) start maxDepth).Nodup := by
  have hclosed : ∀ u, ∀ w ∈ adjacent (edgesOf datoms attr) u,
      w ∈ start :: (edgesOf datoms attr).map Prod.snd := fun u w hw =>
    List.mem_cons_of_mem _ (List.mem_map_of_mem (f := Prod.snd) (mem_adjacent.mp hw))
  exact nodup_reached hclosed List.mem_cons_self (by simp)

variable [FloatText]

/-- **Reachability is exact**: what `apply_reachable` answers are the extensions of the binding
under which the term is a node at a distance between one and `maxDepth` from the start, each node
once. -/
theorem reachable_exact {binding : Map} {fromTerm toTerm : Term} {budget left : ExecutionBudget}
    {results : List Map}
    (h : (applyReachable binding fromTerm attr toTerm maxDepth (DatomIndex.new datoms)).run budget =
      .ok (results, left)) :
    ∃ (start : String) (nodes : List String), resolve fromTerm binding = some (.string start) ∧ nodes.Nodup ∧
      (∀ node, node ∈ nodes ↔ ∃ k, Distance datoms attr start node k ∧ 1 ≤ k ∧ k ≤ maxDepth) ∧
      results = nodes.filterMap fun node => unify toTerm (.string node) binding := by
  have hanswers := (applyReachable_simulates datoms binding fromTerm attr toTerm maxDepth).ok h
  obtain ⟨start, hstart, hresults⟩ := Lists.bind_eq_ok hanswers
  cases hresults
  refine ⟨start, _, ?_, nodup_reachedFrom, fun node => mem_reachedFrom_iff_distance, rfl⟩
  unfold reachableStart at hstart
  split at hstart
  · cases hstart
  · next found hfound =>
      cases hstart
      exact hfound
  · cases hstart

omit [FloatText]

/-- Replies in a circle, one of them twice. -/
def circleOfReplies : List Datom :=
  [⟨"m0", "m0", "replied_by", .string "m1", 1, "e1"⟩,
    ⟨"m0", "m0", "replied_by", .string "m1", 2, "e2"⟩,
    ⟨"m1", "m1", "replied_by", .string "m2", 3, "e3"⟩,
    ⟨"m2", "m2", "replied_by", .string "m0", 4, "e4"⟩,
    ⟨"m2", "m2", "replied_by", .string "m3", 5, "e5"⟩]

/-- The messages that are at most two replies away. -/
theorem reachable_exact_replies :
    letI := FloatText.fields
    ∃ (start : String) (nodes : List String),
      resolve (.value (.string "m0")) [] = some (.string start) ∧ nodes.Nodup ∧
      (∀ node, node ∈ nodes ↔
        ∃ k, Distance circleOfReplies "replied_by" start node k ∧ 1 ≤ k ∧ k ≤ 2) ∧
      [[("?message", Value.string "m1")], [("?message", .string "m2")]] =
        nodes.filterMap fun node => unify (.var "?message") (.string node) [] := by
  let _ : FloatText := FloatText.fields
  have hfirst : ((applyReachable [] (.value (.string "m0")) "replied_by" (.var "?message") 2
      (DatomIndex.new circleOfReplies)).run (.new testLimits 1000)).toOption.map Prod.fst =
        some [[("?message", Value.string "m1")], [("?message", .string "m2")]] := by
    decide +kernel
  obtain ⟨⟨results, left⟩, hrun, hresults⟩ := Option.map_eq_some_iff.mp hfirst
  have hok := Lists.eq_ok_of_isSome (Option.isSome_of_mem hrun) (results, left)
  rw [hrun] at hok
  exact hresults ▸ reachable_exact hok

end Query

end McpSurfaces
