import Mathlib.Tactic

/-!
Breadth-first search up to a depth, over any graph given by its successor lists.

* `search`: the loop with its queue of nodes and depths; `found` are the nodes met so
  far with the depth they were met at, in order.
* `Search.Invariant` is the loop invariant: the queue is the part of `found` whose
  successors have not been looked at, its depths increase and stay within one of
  its head, and the looked-at nodes below the bound have their successors in `found`.
* `mem_reached_iff`: **the search finds the nodes other than the start that a walk of
  at most `maxDepth` steps reaches**, each once (`nodup_reached`).
-/

namespace McpSurfaces

namespace BoundedSearch

variable {ν : Type*}

/-- `Walk r u v k`: `k` steps of the relation `r` lead from `u` to `v`. -/
inductive Walk (r : ν → ν → Prop) (u : ν) : ν → ℕ → Prop
  | refl : Walk r u u 0
  | step {v w : ν} {k : ℕ} (h : Walk r u v k) (hw : r v w) : Walk r u w (k + 1)

/-- A walk only depends on what the steps relate. -/
lemma Walk.mono {r r' : ν → ν → Prop} (hr : ∀ v w, r v w → r' v w) {u v : ν} {k : ℕ}
    (h : Walk r u v k) : Walk r' u v k := by
  induction h with
  | refl => exact .refl
  | step _ hw ih => exact .step ih (hr _ _ hw)

/-- The steps along successor lists. -/
def Succ (succ : ν → List ν) (v w : ν) : Prop := w ∈ succ v

variable [DecidableEq ν]

/-- The state of the search: the queue of nodes to look at and the nodes found, both
with their depths. -/
structure Search (ν : Type*) where
  queue : List (ν × ℕ)
  found : List (ν × ℕ)

/-- A successor met at depth `depth + 1`: queued when it is new. -/
def visit (depth : ℕ) (s : Search ν) (next : ν) : Search ν :=
  if next ∈ s.found.map Prod.fst then s
  else ⟨s.queue ++ [(next, depth + 1)], s.found ++ [(next, depth + 1)]⟩

/-- The loop over the queue; `fuel` bounds the number of nodes looked at. -/
def loop (succ : ν → List ν) (maxDepth : ℕ) : ℕ → Search ν → Search ν
  | 0, s => s
  | fuel + 1, s =>
      match s.queue with
      | [] => s
      | (current, depth) :: rest =>
          if maxDepth ≤ depth then loop succ maxDepth fuel ⟨rest, s.found⟩
          else loop succ maxDepth fuel ((succ current).foldl (visit depth) ⟨rest, s.found⟩)

/-- The nodes found from `start`, without `start`, in the order they are met. -/
def reached (succ : ν → List ν) (maxDepth fuel : ℕ) (start : ν) : List ν :=
  ((loop succ maxDepth fuel ⟨[(start, 0)], [(start, 0)]⟩).found.map Prod.fst).tail

/-! ### One node -/

/-- What looking at one node adds: new nodes at the next depth, the same ones at the
end of the queue and of the found nodes. -/
lemma foldl_visit (depth : ℕ) (nexts : List ν) (s : Search ν) :
    ∃ added : List (ν × ℕ),
      (nexts.foldl (visit depth) s) = ⟨s.queue ++ added, s.found ++ added⟩ ∧
      (∀ e ∈ added, e.2 = depth + 1 ∧ e.1 ∈ nexts) ∧
      (∀ w ∈ nexts, w ∈ (s.found ++ added).map Prod.fst) ∧
      ((s.found.map Prod.fst).Nodup → ((s.found ++ added).map Prod.fst).Nodup) := by
  induction nexts generalizing s with
  | nil => exact ⟨[], by simp⟩
  | cons w nexts ih =>
      obtain ⟨added, hs, hadded, hnexts, hnodup⟩ := ih (visit depth s w)
      rw [List.foldl_cons, hs]
      by_cases hw : w ∈ s.found.map Prod.fst
      · have hv : visit depth s w = s := if_pos hw
        rw [hv] at hnexts hnodup ⊢
        refine ⟨added, rfl, fun e he => ⟨(hadded e he).1, List.mem_cons_of_mem _ (hadded e he).2⟩,
          ?_, hnodup⟩
        intro x hx
        rcases List.mem_cons.mp hx with rfl | hx
        · rw [List.map_append]
          exact List.mem_append_left _ hw
        · exact hnexts x hx
      · have hv : visit depth s w =
            ⟨s.queue ++ [(w, depth + 1)], s.found ++ [(w, depth + 1)]⟩ := if_neg hw
        rw [hv] at hnexts hnodup ⊢
        simp only [List.append_assoc] at hnexts hnodup ⊢
        refine ⟨(w, depth + 1) :: added, rfl, ?_, ?_, ?_⟩
        · intro e he
          rcases List.mem_cons.mp he with rfl | he
          · exact ⟨rfl, List.mem_cons_self⟩
          · exact ⟨(hadded e he).1, List.mem_cons_of_mem _ (hadded e he).2⟩
        · intro x hx
          rcases List.mem_cons.mp hx with rfl | hx
          · simp
          · exact hnexts x hx
        · intro hnd
          refine hnodup ?_
          rw [List.map_append]
          exact hnd.append (List.nodup_singleton w) (List.disjoint_singleton.mpr hw)

/-! ### The loop -/

/-- The loop invariant, `done` being the nodes already looked at. -/
structure Search.Invariant (succ : ν → List ν) (maxDepth : ℕ) (start : ν)
    (done : List (ν × ℕ)) (s : Search ν) : Prop where
  split : s.found = done ++ s.queue
  start_first : ∃ rest, s.found = (start, 0) :: rest
  nodup : (s.found.map Prod.fst).Nodup
  walk : ∀ e ∈ s.found, Walk (Succ succ) start e.1 e.2
  bound : ∀ e ∈ s.found, e.2 ≤ maxDepth
  sorted : s.queue.Pairwise fun e f => e.2 ≤ f.2
  near : ∀ e ∈ s.queue.head?, ∀ f ∈ s.found, f.2 ≤ e.2 + 1
  closed : ∀ e ∈ done, e.2 < maxDepth → ∀ w ∈ succ e.1, ∃ d ≤ e.2 + 1, (w, d) ∈ s.found

namespace Search.Invariant

variable {succ : ν → List ν} {maxDepth : ℕ} {start : ν} {done found : List (ν × ℕ)}

omit [DecidableEq ν] in
lemma init (succ : ν → List ν) (maxDepth : ℕ) (start : ν) :
    Search.Invariant succ maxDepth start [] ⟨[(start, 0)], [(start, 0)]⟩ where
  split := rfl
  start_first := ⟨[], rfl⟩
  nodup := List.nodup_singleton _
  walk := by
    intro e he
    rw [List.mem_singleton.mp he]
    exact .refl
  bound := by
    intro e he
    rw [List.mem_singleton.mp he]
    exact Nat.zero_le _
  sorted := List.pairwise_singleton _ _
  near := by simp
  closed := by simp

/-- The head of the queue is looked at without its successors: it is at the bound. -/
lemma skip {e : ν × ℕ} {rest : List (ν × ℕ)}
    (h : Search.Invariant succ maxDepth start done ⟨e :: rest, found⟩)
    (hdepth : maxDepth ≤ e.2) :
    Search.Invariant succ maxDepth start (done ++ [e]) ⟨rest, found⟩ where
  split := by simpa using h.split
  start_first := h.start_first
  nodup := h.nodup
  walk := h.walk
  bound := h.bound
  sorted := (List.pairwise_cons.mp h.sorted).2
  near := by
    intro f hf g hg
    have hle : e.2 ≤ f.2 := (List.pairwise_cons.mp h.sorted).1 f (List.mem_of_mem_head? hf)
    have hnear := h.near e (by simp) g hg
    omega
  closed := by
    intro f hf hlt
    rcases List.mem_append.mp hf with hf | hf
    · exact h.closed f hf hlt
    · rw [List.mem_singleton.mp hf] at hlt
      omega

/-- The head of the queue is looked at with its successors. -/
lemma expand {e : ν × ℕ} {rest : List (ν × ℕ)}
    (h : Search.Invariant succ maxDepth start done ⟨e :: rest, found⟩)
    (hdepth : e.2 < maxDepth) :
    Search.Invariant succ maxDepth start (done ++ [e])
      ((succ e.1).foldl (visit e.2) ⟨rest, found⟩) := by
  obtain ⟨added, hs, hadded, hnexts, hnodup⟩ := foldl_visit e.2 (succ e.1) ⟨rest, found⟩
  rw [hs]
  simp only at hnexts hnodup ⊢
  have hsplit : found = done ++ e :: rest := h.split
  have he : e ∈ found := by rw [hsplit]; simp
  have hnear : ∀ f ∈ found, f.2 ≤ e.2 + 1 := h.near e (by simp)
  have hrest : ∀ f ∈ rest, e.2 ≤ f.2 ∧ f ∈ found := fun f hf =>
    ⟨(List.pairwise_cons.mp h.sorted).1 f hf, by rw [hsplit]; simp [hf]⟩
  refine ⟨?_, ?_, hnodup h.nodup, ?_, ?_, ?_, ?_, ?_⟩
  · simp only [hsplit, List.append_assoc, List.cons_append, List.nil_append]
  · obtain ⟨tail, htail⟩ := h.start_first
    simp only at htail
    exact ⟨tail ++ added, by rw [htail]; rfl⟩
  · intro f hf
    rcases List.mem_append.mp hf with hf | hf
    · exact h.walk f hf
    · rw [(hadded f hf).1]
      exact (h.walk e he).step (hadded f hf).2
  · intro f hf
    rcases List.mem_append.mp hf with hf | hf
    · exact h.bound f hf
    · rw [(hadded f hf).1]; omega
  · rw [List.pairwise_append]
    refine ⟨(List.pairwise_cons.mp h.sorted).2, ?_, ?_⟩
    · exact List.pairwise_of_forall_mem_list fun a ha b hb => by
        rw [(hadded a ha).1, (hadded b hb).1]
    · intro a ha b hb
      rw [(hadded b hb).1]
      exact hnear a (hrest a ha).2
  · -- Everything found is at most one below the old head, hence below the new one.
    intro f hf g hg
    have hef : e.2 ≤ f.2 := by
      rcases List.mem_append.mp (List.mem_of_mem_head? hf) with hf | hf
      · exact (hrest f hf).1
      · rw [(hadded f hf).1]; omega
    rcases List.mem_append.mp hg with hg | hg
    · have := hnear g hg
      omega
    · rw [(hadded g hg).1]; omega
  · intro f hf hlt w hw
    rcases List.mem_append.mp hf with hf | hf
    · obtain ⟨d, hd, hmem⟩ := h.closed f hf hlt w hw
      exact ⟨d, hd, List.mem_append_left _ hmem⟩
    · rw [List.mem_singleton.mp hf] at hw ⊢
      obtain ⟨g, hg, hgw⟩ := List.mem_map.mp (hnexts w hw)
      refine ⟨g.2, ?_, by rw [← hgw]; exact hg⟩
      rcases List.mem_append.mp hg with hg | hg
      · exact hnear g hg
      · exact (hadded g hg).1.le

end Search.Invariant

variable {succ : ν → List ν} {maxDepth : ℕ} {start : ν}

/-- With fuel for every node of a universe the loop ends with an empty queue. -/
lemma loop_invariant {universe_ : List ν} (hclosed : ∀ v, ∀ w ∈ succ v, w ∈ universe_)
    (fuel : ℕ) {done : List (ν × ℕ)} {s : Search ν}
    (h : s.Invariant succ maxDepth start done)
    (hfound : ∀ e ∈ s.found, e.1 ∈ universe_) (hfuel : universe_.length ≤ fuel + done.length) :
    ∃ done', (loop succ maxDepth fuel s).Invariant succ maxDepth start done' ∧
      (loop succ maxDepth fuel s).queue = [] := by
  induction fuel generalizing done s with
  | zero =>
      refine ⟨done, h, ?_⟩
      have hsub : s.found.map Prod.fst ⊆ universe_ := by
        intro v hv
        obtain ⟨e, he, rfl⟩ := List.mem_map.mp hv
        exact hfound e he
      have hlen := (h.nodup.subperm hsub).length_le
      rw [h.split, List.length_map, List.length_append] at hlen
      have hqueue : s.queue.length = 0 := by omega
      exact List.length_eq_zero_iff.mp hqueue
  | succ fuel ih =>
      obtain ⟨queue, found⟩ := s
      cases queue with
      | nil => exact ⟨done, h, rfl⟩
      | cons e rest =>
          have hlen : universe_.length ≤ fuel + (done ++ [e]).length := by
            rw [List.length_append, List.length_singleton]; omega
          unfold loop
          simp only
          split_ifs with hd
          · exact ih (h.skip hd) hfound hlen
          · refine ih (h.expand (not_le.mp hd)) ?_ hlen
            obtain ⟨added, hs, hadded, -, -⟩ := foldl_visit e.2 (succ e.1) ⟨rest, found⟩
            rw [hs]
            intro f hf
            rcases List.mem_append.mp hf with hf | hf
            · exact hfound f hf
            · exact hclosed e.1 f.1 (hadded f hf).2

section Reached

variable (maxDepth) {universe_ : List ν} (hclosed : ∀ v, ∀ w ∈ succ v, w ∈ universe_)
  (hstart : start ∈ universe_) {fuel : ℕ} (hfuel : universe_.length ≤ fuel)
include hclosed hstart hfuel

private lemma loop_final : ∃ done,
    (loop succ maxDepth fuel ⟨[(start, 0)], [(start, 0)]⟩).Invariant succ maxDepth start done ∧
      (loop succ maxDepth fuel ⟨[(start, 0)], [(start, 0)]⟩).queue = [] := by
  refine loop_invariant hclosed fuel (Search.Invariant.init succ maxDepth start) ?_
    (by simpa using hfuel)
  intro e he
  rw [List.mem_singleton.mp he]
  exact hstart

variable {maxDepth}

/-- **The search is exact**: it finds the nodes other than the start within
`maxDepth` steps. -/
theorem mem_reached_iff {v : ν} :
    v ∈ reached succ maxDepth fuel start ↔ v ≠ start ∧ ∃ k ≤ maxDepth, Walk (Succ succ) start v k := by
  obtain ⟨done, h, hqueue⟩ := loop_final maxDepth hclosed hstart hfuel
  unfold reached
  generalize loop succ maxDepth fuel ⟨[(start, 0)], [(start, 0)]⟩ = s at h hqueue
  have hdone : s.found = done := by rw [h.split, hqueue, List.append_nil]
  -- Every walk within the bound ends in a found node of no greater depth.
  have complete : ∀ {w : ν} {k : ℕ}, Walk (Succ succ) start w k → k ≤ maxDepth →
      ∃ d ≤ k, (w, d) ∈ s.found := by
    intro w k hwalk
    induction hwalk with
    | refl =>
        intro _
        obtain ⟨rest, hrest⟩ := h.start_first
        exact ⟨0, le_rfl, by rw [hrest]; exact List.mem_cons_self⟩
    | @step u w k _ hw ih =>
        intro hk
        obtain ⟨d, hd, hmem⟩ := ih (by omega)
        obtain ⟨d', hd', hmem'⟩ := h.closed (u, d) (hdone ▸ hmem) (by simp; omega) w hw
        exact ⟨d', by simp at hd'; omega, hmem'⟩
  obtain ⟨rest, hrest⟩ := h.start_first
  have hnodup := h.nodup
  rw [hrest, List.map_cons, List.nodup_cons] at hnodup
  rw [hrest, List.map_cons, List.tail_cons]
  constructor
  · intro hv
    obtain ⟨e, he, rfl⟩ := List.mem_map.mp hv
    have hmem : e ∈ s.found := by rw [hrest]; exact List.mem_cons_of_mem _ he
    refine ⟨?_, e.2, h.bound e hmem, h.walk e hmem⟩
    intro heq
    exact hnodup.1 (heq ▸ hv)
  · rintro ⟨hne, k, hk, hwalk⟩
    obtain ⟨d, -, hmem⟩ := complete hwalk hk
    rw [hrest] at hmem
    rcases List.mem_cons.mp hmem with heq | hmem
    · exact absurd (congrArg Prod.fst heq) hne
    · exact List.mem_map_of_mem (f := Prod.fst) hmem

/-- No node is found twice. -/
lemma nodup_reached : (reached succ maxDepth fuel start).Nodup := by
  obtain ⟨done, h, -⟩ := loop_final maxDepth hclosed hstart hfuel
  exact h.nodup.sublist (List.tail_sublist _)

end Reached

end BoundedSearch

end McpSurfaces
