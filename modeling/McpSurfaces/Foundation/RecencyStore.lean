import McpSurfaces.Foundation.OrderedMap
import Mathlib.Data.List.Nodup
import Mathlib.Data.List.Perm.Basic

/-!
A store that holds what was used last, with an index into it.

* `put` stores something under an id and indexes it under a key; `touch` makes an id the last one
  that was used, and drops what was used longest ago.
* `Linked`: the ids of the order are those of the entries, and the index points to entries.
* **`Linked.touch`**: a touch keeps the links and leaves no more than fit;
  **`Linked.length_entries`** counts them.
-/

namespace McpSurfaces

/-- Entries by their ids, the ids by when they were used, and an index into them. -/
structure RecencyStore (κ ι α : Type*) where
  index : OrderedMap κ (ι × α)
  entries : OrderedMap ι α
  order : List ι

namespace RecencyStore

variable {κ ι α : Type*}

def empty : RecencyStore κ ι α := ⟨[], [], []⟩

/-- The order lists the entries, and the index points to them. -/
structure Linked (s : RecencyStore κ ι α) : Prop where
  nodup : s.order.Nodup
  distinct : s.entries.keys.Nodup
  listed : ∀ id, id ∈ s.entries.keys ↔ id ∈ s.order
  indexed : ∀ e ∈ s.index, e.2.1 ∈ s.order

/-- A store without entries is linked. -/
lemma linked_empty : Linked (empty : RecencyStore κ ι α) :=
  ⟨List.nodup_nil, List.nodup_nil, fun _ => Iff.rfl, fun _ h => (List.not_mem_nil h).elim⟩

variable {s : RecencyStore κ ι α}

/-- As many are stored as the order lists. -/
theorem Linked.length_entries (h : s.Linked) : s.entries.length = s.order.length := by
  have hperm : s.entries.keys.Perm s.order :=
    (List.perm_ext_iff_of_nodup h.distinct h.nodup).mpr h.listed
  rw [← hperm.length_eq, OrderedMap.keys, List.length_map]

/-- What the index points to is stored. -/
lemma Linked.mem_keys (h : s.Linked) {e : κ × ι × α} (he : e ∈ s.index) :
    e.2.1 ∈ s.entries.keys := (h.listed _).mpr (h.indexed e he)

variable [DecidableEq ι]

/-- What is left of a store whose order has too many ids, the ones used longest ago standing
first. -/
def trim (capacity : ℕ) (index : OrderedMap κ (ι × α)) (entries : OrderedMap ι α) :
    List ι → RecencyStore κ ι α
  | [] => ⟨index, entries, []⟩
  | id :: rest =>
      if (id :: rest).length ≤ capacity then ⟨index, entries, id :: rest⟩
      else trim capacity (index.filter fun e => e.2.1 ≠ id) (entries.remove id) rest

/-- An id becomes the last one that was used. -/
def touch (s : RecencyStore κ ι α) (capacity : ℕ) (id : ι) : RecencyStore κ ι α :=
  trim capacity s.index s.entries (s.order.filter (· ≠ id) ++ [id])

/-- Something is stored and indexed. -/
def put [DecidableEq κ] (s : RecencyStore κ ι α) (k : κ) (id : ι) (a : α) : RecencyStore κ ι α :=
  { s with index := s.index.insert k (id, a), entries := s.entries.insert id a }

variable {capacity : ℕ} {index : OrderedMap κ (ι × α)}
  {entries : OrderedMap ι α} {order : List ι}

/-! ### Dropping what was used longest ago -/

/-- The keys without one of them. -/
lemma mem_keys_remove {id other : ι} :
    other ∈ (entries.remove id).keys ↔ other ∈ entries.keys ∧ other ≠ id := by
  rw [OrderedMap.keys, OrderedMap.remove, OrderedMap.keys, List.mem_map, List.mem_map]
  constructor
  · rintro ⟨e, he, rfl⟩
    rw [List.mem_filter] at he
    exact ⟨⟨e, he.1, rfl⟩, by simpa using he.2⟩
  · rintro ⟨⟨e, he, rfl⟩, hne⟩
    exact ⟨e, List.mem_filter.mpr ⟨he, by simpa using hne⟩, rfl⟩

/-- Trimming keeps the links. -/
lemma Linked.trim (h : Linked ⟨index, entries, order⟩) :
    (RecencyStore.trim capacity index entries order).Linked := by
  induction order generalizing index entries with
  | nil => exact h
  | cons id rest ih =>
      rw [RecencyStore.trim]
      split_ifs with hfits
      · exact h
      · obtain ⟨hnew, hrest⟩ := List.nodup_cons.mp h.nodup
        refine ih ⟨hrest, ?_, fun other => ?_, fun e he => ?_⟩
        · exact h.distinct.sublist (List.filter_sublist.map _)
        · rw [mem_keys_remove, h.listed other, List.mem_cons]
          constructor
          · rintro ⟨rfl | hother, hne⟩
            · exact absurd rfl hne
            · exact hother
          · intro hother
            exact ⟨.inr hother, fun heq => hnew (heq ▸ hother)⟩
        · obtain ⟨he, hne⟩ := List.mem_filter.mp he
          obtain heq | hmem := List.mem_cons.mp (h.indexed e he)
          · exact absurd heq (by simpa using hne)
          · exact hmem

/-- What is left fits. -/
lemma length_order_trim :
    (RecencyStore.trim capacity index entries order).order.length ≤ capacity := by
  induction order generalizing index entries with
  | nil => exact Nat.zero_le _
  | cons id rest ih =>
      rw [RecencyStore.trim]
      split_ifs with hfits
      · exact hfits
      · exact ih

lemma mem_of_mem_entries_trim {e : ι × α}
    (he : e ∈ (RecencyStore.trim capacity index entries order).entries) : e ∈ entries := by
  induction order generalizing index entries with
  | nil => exact he
  | cons id rest ih =>
      rw [RecencyStore.trim] at he
      split_ifs at he with hfits
      · exact he
      · exact List.mem_of_mem_filter (ih he)

lemma mem_of_mem_index_trim {e : κ × ι × α}
    (he : e ∈ (RecencyStore.trim capacity index entries order).index) : e ∈ index := by
  induction order generalizing index entries with
  | nil => exact he
  | cons id rest ih =>
      rw [RecencyStore.trim] at he
      split_ifs at he with hfits
      · exact he
      · exact List.mem_of_mem_filter (ih he)

/-! ### Storing and touching -/

/-- The ids once one of them was used. -/
lemma mem_touched {id other : ι} :
    other ∈ order.filter (· ≠ id) ++ [id] ↔ other ∈ order ∨ other = id := by
  rw [List.mem_append, List.mem_filter, List.mem_singleton]
  by_cases h : other = id <;> simp [h]

lemma nodup_touched (h : order.Nodup) (id : ι) : (order.filter (· ≠ id) ++ [id]).Nodup := by
  refine List.nodup_append'.mpr ⟨h.filter _, List.nodup_singleton id, ?_⟩
  rw [List.disjoint_singleton, List.mem_filter]
  simp

/-- **A touch of what is stored** keeps the links. -/
theorem Linked.touch (h : s.Linked) {id : ι} (hid : id ∈ s.entries.keys) :
    (s.touch capacity id).Linked := by
  refine Linked.trim ⟨nodup_touched h.nodup id, h.distinct, fun other => ?_, fun e he => ?_⟩
  · rw [mem_touched, h.listed other]
    constructor
    · exact .inl
    · rintro (hother | rfl)
      · exact hother
      · exact (h.listed _).mp hid
  · exact mem_touched.mpr (.inl (h.indexed e he))

/-- What is put in and then touched is linked. -/
theorem Linked.put_touch [DecidableEq κ] (h : s.Linked) (k : κ) (id : ι) (a : α) :
    ((s.put k id a).touch capacity id).Linked := by
  refine Linked.trim ⟨nodup_touched h.nodup id, OrderedMap.nodup_keys_insert h.distinct id a,
    fun other => ?_, fun e he => ?_⟩
  · rw [mem_touched, put, OrderedMap.mem_keys_insert, h.listed other, or_comm]
  · rw [mem_touched]
    obtain rfl | he := OrderedMap.mem_insert he
    · exact .inr rfl
    · exact .inl (h.indexed e he)

lemma length_order_touch (id : ι) : (s.touch capacity id).order.length ≤ capacity :=
  length_order_trim

end RecencyStore

end McpSurfaces
