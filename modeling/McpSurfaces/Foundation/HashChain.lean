import Mathlib.Data.List.Forall2
import Mathlib.Tactic

/-!
Hash chains: lists of records that name the hash of the record before them.

* `Linked prev hash Sealed p rs`: the records of `rs` follow one another behind a record
  with hash `p`, and each carries a hash that is its own (`Sealed`).
* `Pinning`: a hash pins the content of a sealed record, up to a relation `Same`.
* **`same_of_head_eq`**: two chains of one length with the same head have the same
  content, record by record. `same_take_of_hash_eq` reads it at a position of the longer
  one.
-/

namespace McpSurfaces

namespace HashChain

variable {ρ η : Type*} (prev hash : ρ → Option η) (Sealed : ρ → Prop)

/-- The records are a chain behind a record with hash `p`. -/
def Linked : Option η → List ρ → Prop
  | _, [] => True
  | p, r :: rest => prev r = p ∧ Sealed r ∧ (hash r).isSome ∧ Linked (hash r) rest

/-- The hash of the last record, `p` without one. -/
def head : Option η → List ρ → Option η
  | p, [] => p
  | _, r :: rest => head (hash r) rest

variable {prev hash Sealed}

lemma head_append (p : Option η) (rs ss : List ρ) :
    head hash p (rs ++ ss) = head hash (head hash p rs) ss := by
  induction rs generalizing p with
  | nil => rfl
  | cons r rest ih => exact ih (hash r)

lemma head_eq_getLast? (p : Option η) (rs : List ρ) :
    head hash p rs = (rs.getLast?.map hash).getD p := by
  induction rs generalizing p with
  | nil => rfl
  | cons r rest ih =>
      rw [head, ih, List.getLast?_cons]
      cases rest.getLast? <;> rfl

lemma linked_append {p : Option η} {rs ss : List ρ} :
    Linked prev hash Sealed p (rs ++ ss) ↔
      Linked prev hash Sealed p rs ∧ Linked prev hash Sealed (head hash p rs) ss := by
  induction rs generalizing p with
  | nil => simp [Linked, head]
  | cons r rest ih =>
      rw [List.cons_append, Linked, Linked, ih, head]
      tauto

lemma Linked.sealed {p : Option η} {rs : List ρ} (h : Linked prev hash Sealed p rs) :
    ∀ r ∈ rs, Sealed r ∧ (hash r).isSome := by
  induction rs generalizing p with
  | nil => simp
  | cons r rest ih =>
      obtain ⟨-, hsealed, hhash, hrest⟩ := h
      intro s hs
      rcases List.mem_cons.mp hs with rfl | hs
      · exact ⟨hsealed, hhash⟩
      · exact ih hrest s hs

/-- A hash pins the content of a sealed record, and with it the hash before. -/
structure Pinning (prev hash : ρ → Option η) (Sealed : ρ → Prop) (Same : ρ → ρ → Prop) :
    Prop where
  same : ∀ r s, Sealed r → Sealed s → (hash r).isSome → hash r = hash s → Same r s
  prev_eq : ∀ r s, Same r s → prev r = prev s

variable {Same : ρ → ρ → Prop}

/-- **The head pins the chain**: two chains of one length with the same head have the same
content. -/
theorem same_of_head_eq (hpin : Pinning prev hash Sealed Same) {p : Option η} {rs ss : List ρ}
    (hr : Linked prev hash Sealed p rs) (hs : Linked prev hash Sealed p ss)
    (hlen : rs.length = ss.length) (hhead : head hash p rs = head hash p ss) :
    List.Forall₂ Same rs ss := by
  -- From the last record to the first: a pinned record names the head before it.
  induction rs using List.reverseRecOn generalizing ss with
  | nil =>
      rw [List.eq_nil_of_length_eq_zero hlen.symm]
      exact .nil
  | append_singleton rs r ih =>
      obtain ⟨ss, s, rfl⟩ : ∃ front last, ss = front ++ [last] := by
        refine ⟨ss.dropLast, ss.getLast ?_, (List.dropLast_append_getLast _).symm⟩
        rintro rfl
        simp at hlen
      obtain ⟨hrs, hprev, hsealed, hsome, -⟩ := linked_append.mp hr
      obtain ⟨hss, hprev', hsealed', -, -⟩ := linked_append.mp hs
      rw [head_append, head_append] at hhead
      have hsame : Same r s := hpin.same r s hsealed hsealed' hsome hhead
      have hbefore : head hash p rs = head hash p ss := by
        rw [← hprev, ← hprev', hpin.prev_eq r s hsame]
      have hlen' : rs.length = ss.length := by simpa using hlen
      exact List.rel_append (ih hrs hss hlen' hbefore) (.cons hsame .nil)

/-- A hash at a position pins the records up to it. -/
theorem same_take_of_hash_eq (hpin : Pinning prev hash Sealed Same) {p : Option η}
    {rs ss : List ρ} (hr : Linked prev hash Sealed p rs) (hs : Linked prev hash Sealed p ss)
    (hlen : rs.length ≤ ss.length) (hhead : head hash p rs = head hash p (ss.take rs.length)) :
    List.Forall₂ Same rs (ss.take rs.length) := by
  have hsplit : ss.take rs.length ++ ss.drop rs.length = ss := List.take_append_drop _ _
  rw [← hsplit] at hs
  refine same_of_head_eq hpin hr (linked_append.mp hs).1 ?_ hhead
  rw [List.length_take]
  omega

end HashChain

end McpSurfaces
