import Mathlib.Tactic

/-!
Insertion-ordered maps, the library under every JSON object and every index of
the development.

* A map is the list of its entries in insertion order; `insert` overwrites the
  value of a key in place and appends a new key at the end, so the order of the
  keys is the order of their first insertion (`keys_insert`).
* `get_insert` is the read-over-write law and `nodup_keys_insert` says that an
  insertion keeps the keys distinct.
* `pushAll` groups a list under a key function, one bucket a key, in the order of
  the list. `getD_pushAll` is its only property the users need: **a bucket is the
  sublist of the elements with that key**.
-/

namespace McpSurfaces

/-- A map as the list of its entries in insertion order. -/
abbrev OrderedMap (κ ν : Type*) := List (κ × ν)

namespace OrderedMap

variable {κ ν : Type*}

/-- The keys in insertion order. -/
def keys (m : OrderedMap κ ν) : List κ := m.map Prod.fst

/-- The values in insertion order. -/
def values (m : OrderedMap κ ν) : List ν := m.map Prod.snd

@[simp] lemma keys_nil : keys ([] : OrderedMap κ ν) = [] := rfl

@[simp] lemma keys_cons (e : κ × ν) (m : OrderedMap κ ν) : keys (e :: m) = e.1 :: keys m := rfl

variable [DecidableEq κ]

/-- The value of a key. -/
def get (m : OrderedMap κ ν) (k : κ) : Option ν := m.lookup k

/-- Whether the key has an entry. -/
def containsKey (m : OrderedMap κ ν) (k : κ) : Bool := (m.get k).isSome

/-- Insertion: an existing key keeps its place and takes the new value, a new key
goes last. -/
def insert (m : OrderedMap κ ν) (k : κ) (v : ν) : OrderedMap κ ν :=
  match m with
  | [] => [(k, v)]
  | (k', v') :: rest => if k' = k then (k, v) :: rest else (k', v') :: insert rest k v

/-- Removal of a key, the order of the others kept. -/
def remove (m : OrderedMap κ ν) (k : κ) : OrderedMap κ ν := m.filter (fun e => e.1 ≠ k)

/-- Removal of a key as `preserve_order` does it: the last entry takes the place of the
removed one. -/
def swapRemove (m : OrderedMap κ ν) (k : κ) : OrderedMap κ ν :=
  match m.findIdx? (fun e => e.1 = k), m.getLast? with
  | some i, some last => (m.set i last).dropLast
  | _, _ => m

@[simp] lemma get_nil (k : κ) : get ([] : OrderedMap κ ν) k = none := rfl

lemma get_cons (e : κ × ν) (m : OrderedMap κ ν) (k : κ) :
    get (e :: m) k = if e.1 = k then some e.2 else get m k := by
  unfold get
  rw [List.lookup_cons]
  by_cases h : e.1 = k
  · simp [h]
  · have h' : (k == e.1) = false := by simpa using fun hk => h hk.symm
    simp [h, h']

/-! ### Reading -/

lemma get_eq_none_iff {m : OrderedMap κ ν} {k : κ} : m.get k = none ↔ k ∉ m.keys := by
  induction m with
  | nil => simp
  | cons e rest ih =>
      rw [get_cons, keys_cons, List.mem_cons, not_or]
      by_cases h : e.1 = k
      · simp [h]
      · simp [h, ih, Ne.symm h]

lemma get_isSome_iff {m : OrderedMap κ ν} {k : κ} : (m.get k).isSome ↔ k ∈ m.keys := by
  rw [← Option.ne_none_iff_isSome, Ne, get_eq_none_iff, not_not]

lemma containsKey_iff {m : OrderedMap κ ν} {k : κ} : m.containsKey k ↔ k ∈ m.keys :=
  get_isSome_iff

lemma mem_of_get {m : OrderedMap κ ν} {k : κ} {v : ν} (h : m.get k = some v) : (k, v) ∈ m := by
  induction m with
  | nil => simp at h
  | cons e rest ih =>
      rw [get_cons] at h
      split_ifs at h with he
      · obtain ⟨a, b⟩ := e
        simp only [Option.some.injEq] at h
        simp_all
      · exact List.mem_cons_of_mem _ (ih h)

/-- With distinct keys an entry is what reading its key gives. -/
lemma get_of_mem {m : OrderedMap κ ν} (hm : m.keys.Nodup) {k : κ} {v : ν}
    (h : (k, v) ∈ m) : m.get k = some v := by
  induction m with
  | nil => simp at h
  | cons e rest ih =>
      rw [keys_cons, List.nodup_cons] at hm
      rw [get_cons]
      rcases List.mem_cons.mp h with rfl | h
      · simp
      · have hk : k ∈ keys rest := List.mem_map_of_mem h
        have hne : e.1 ≠ k := fun he => hm.1 (he ▸ hk)
        rw [if_neg hne]
        exact ih hm.2 h

/-- Reading does not depend on the order of distinct keys. -/
lemma get_eq_of_perm {m m' : OrderedMap κ ν} (hm : m.keys.Nodup) (h : m.Perm m') (k : κ) :
    m.get k = m'.get k := by
  have hm' : (keys m').Nodup := (h.map Prod.fst).nodup_iff.mp hm
  cases hk : m'.get k with
  | none =>
      rw [get_eq_none_iff] at hk ⊢
      exact fun hmem => hk ((h.map Prod.fst).mem_iff.mp hmem)
  | some v => exact get_of_mem hm (h.mem_iff.mpr (mem_of_get hk))

/-- A removal takes one entry out, up to the order. -/
lemma swapRemove_perm {m : OrderedMap κ ν} {k : κ} {v : ν} (h : m.get k = some v) :
    m.Perm ((k, v) :: m.swapRemove k) := by
  induction m with
  | nil => simp at h
  | cons e rest ih =>
      rw [get_cons] at h
      by_cases hk : e.1 = k
      · rw [if_pos hk] at h
        obtain rfl : e = (k, v) := by
          obtain ⟨a, b⟩ := e
          simp_all
        have hfind : ((k, v) :: rest).findIdx? (fun e => e.1 = k) = some 0 := by
          rw [List.findIdx?_cons, if_pos (by simp)]
        rw [swapRemove, hfind, List.getLast?_cons]
        cases hlast : rest.getLast? with
        | none =>
            rw [List.getLast?_eq_none_iff.mp hlast]
            simp
        | some last =>
            obtain ⟨front, rfl⟩ := List.getLast?_eq_some_iff.mp hlast
            simp only [Option.getD_some, List.set_cons_zero]
            rw [List.dropLast_cons_of_ne_nil (by simp), List.dropLast_concat]
            exact (List.perm_append_singleton last front).cons _
      · rw [if_neg hk] at h
        have hmem : (k, v) ∈ rest := mem_of_get h
        have hne : rest ≠ [] := List.ne_nil_of_mem hmem
        have hfind : (e :: rest).findIdx? (fun e => e.1 = k) =
            (rest.findIdx? fun e => e.1 = k).map (· + 1) := by
          rw [List.findIdx?_cons, if_neg (by simpa using hk)]
        have hstep : swapRemove (e :: rest) k = e :: swapRemove rest k := by
          rw [swapRemove, hfind, List.getLast?_cons, swapRemove]
          cases hi : rest.findIdx? (fun e => e.1 = k) with
          | none => rfl
          | some i =>
              cases hlast : rest.getLast? with
              | none => exact absurd (List.getLast?_eq_none_iff.mp hlast) hne
              | some last =>
                  simp only [Option.map_some, Option.getD_some, List.set_cons_succ]
                  rw [List.dropLast_cons_of_ne_nil]
                  simpa using hne
        rw [hstep]
        exact ((ih h).cons e).trans (List.Perm.swap _ _ _)

/-- A removal keeps what the other keys read. -/
lemma get_swapRemove {m : OrderedMap κ ν} (hm : m.keys.Nodup) {k k' : κ} (hne : k ≠ k') :
    (m.swapRemove k).get k' = m.get k' := by
  cases hk : m.get k with
  | none =>
      have hfind : m.findIdx? (fun e => e.1 = k) = none := by
        rw [List.findIdx?_eq_none_iff]
        intro e he
        have hkey := get_eq_none_iff.mp hk
        simpa using fun heq : e.1 = k => hkey (heq ▸ List.mem_map_of_mem he)
      rw [swapRemove, hfind]
  | some v =>
      rw [get_eq_of_perm hm (swapRemove_perm hk), get_cons, if_neg hne]

/-- A removal brings no entry. -/
lemma mem_swapRemove {m : OrderedMap κ ν} {k : κ} {e : κ × ν} (h : e ∈ m.swapRemove k) : e ∈ m := by
  unfold swapRemove at h
  split at h
  · next i last _ hlast =>
      rcases List.mem_or_eq_of_mem_set (List.mem_of_mem_dropLast h) with hmem | rfl
      · exact hmem
      · exact List.mem_of_getLast? hlast
  · exact h

/-- Reading an appended list of entries: the first list answers first. -/
lemma get_append (m₁ m₂ : OrderedMap κ ν) (k : κ) :
    get (m₁ ++ m₂) k = (get m₁ k).or (get m₂ k) := by
  unfold get
  exact List.lookup_append

/-! ### Writing -/

lemma get_insert (m : OrderedMap κ ν) (k k' : κ) (v : ν) :
    (m.insert k v).get k' = if k = k' then some v else m.get k' := by
  induction m with
  | nil => simp [insert, get_cons]
  | cons e rest ih =>
      obtain ⟨a, b⟩ := e
      unfold insert
      by_cases ha : a = k
      · subst ha
        simp only [if_true, get_cons]
        split_ifs <;> rfl
      · simp only [if_neg ha, get_cons, ih]
        by_cases hk : a = k'
        · have : k ≠ k' := fun h => ha (hk.trans h.symm)
          simp [hk, this]
        · simp [hk]

@[simp] lemma get_insert_self (m : OrderedMap κ ν) (k : κ) (v : ν) :
    (m.insert k v).get k = some v := by
  rw [get_insert, if_pos rfl]

lemma get_insert_of_ne (m : OrderedMap κ ν) {k k' : κ} (v : ν) (h : k ≠ k') :
    (m.insert k v).get k' = m.get k' := by
  rw [get_insert, if_neg h]

/-- A new key leaves what the others read. -/
lemma get_insert_of_new {m : OrderedMap κ ν} {k k' : κ} {v v' : ν} (hnew : ¬ m.containsKey k)
    (h : m.get k' = some v') : (m.insert k v).get k' = some v' := by
  have hne : k ≠ k' := by
    rintro rfl
    rw [containsKey, h] at hnew
    exact hnew rfl
  rw [get_insert_of_ne m v hne, h]

/-- A new key goes to the end. -/
lemma insert_of_get_none {m : OrderedMap κ ν} {k : κ} (v : ν) (h : m.get k = none) :
    m.insert k v = m ++ [(k, v)] := by
  induction m with
  | nil => rfl
  | cons e rest ih =>
      rw [get_cons] at h
      split_ifs at h with he
      obtain ⟨a, b⟩ := e
      unfold insert
      rw [if_neg he, ih h]
      rfl

/-- The entry that was inserted last is removed without a trace. -/
lemma swapRemove_insert {m : OrderedMap κ ν} {k : κ} (v : ν) (h : m.get k = none) :
    (m.insert k v).swapRemove k = m := by
  have hnone : m.findIdx? (fun e => e.1 = k) = none := by
    rw [List.findIdx?_eq_none_iff]
    intro e he
    have hk : k ∉ m.keys := get_eq_none_iff.mp h
    have hne : e.1 ≠ k := fun hek => hk (hek ▸ List.mem_map_of_mem he)
    simpa using hne
  rw [insert_of_get_none v h, swapRemove, List.findIdx?_append, hnone, List.getLast?_concat]
  simp

/-- The keys after an insertion, in order. -/
lemma keys_insert (m : OrderedMap κ ν) (k : κ) (v : ν) :
    (m.insert k v).keys = if k ∈ m.keys then m.keys else m.keys ++ [k] := by
  induction m with
  | nil => rfl
  | cons e rest ih =>
      obtain ⟨a, b⟩ := e
      unfold insert
      by_cases ha : a = k
      · simp [ha]
      · have hka : k ≠ a := Ne.symm ha
        rw [if_neg ha, keys_cons, keys_cons, ih]
        by_cases hk : k ∈ keys rest
        · simp [hk]
        · simp [hk, hka]

/-- An entry after an insertion is the new one or an old one. -/
lemma mem_insert {m : OrderedMap κ ν} {k : κ} {v : ν} {e : κ × ν} (h : e ∈ m.insert k v) :
    e = (k, v) ∨ e ∈ m := by
  induction m with
  | nil => exact Or.inl (List.mem_singleton.mp h)
  | cons e' rest ih =>
      obtain ⟨a, b⟩ := e'
      simp only [insert] at h
      split_ifs at h
      · rcases List.mem_cons.mp h with rfl | h
        · exact Or.inl rfl
        · exact Or.inr (List.mem_cons_of_mem _ h)
      · rcases List.mem_cons.mp h with rfl | h
        · exact Or.inr List.mem_cons_self
        · exact (ih h).imp id (List.mem_cons_of_mem _)

lemma mem_keys_insert {m : OrderedMap κ ν} {k k' : κ} {v : ν} :
    k' ∈ (m.insert k v).keys ↔ k' = k ∨ k' ∈ m.keys := by
  rw [keys_insert]
  split_ifs with h
  · constructor
    · exact Or.inr
    · rintro (rfl | hk)
      · exact h
      · exact hk
  · rw [List.mem_append, List.mem_singleton, or_comm]

lemma nodup_keys_insert {m : OrderedMap κ ν} (hm : m.keys.Nodup) (k : κ) (v : ν) :
    (m.insert k v).keys.Nodup := by
  rw [keys_insert]
  split_ifs with h
  · exact hm
  · exact hm.append (List.nodup_singleton k) (List.disjoint_singleton.mpr h)

/-! ### Grouping a list under a key -/

section Grouping

variable {α : Type*} (key : α → κ)

/-- One element appended to the bucket of its key. -/
def push (m : OrderedMap κ (List α)) (a : α) : OrderedMap κ (List α) :=
  m.insert (key a) ((m.get (key a)).getD [] ++ [a])

/-- A list grouped under its keys. -/
def pushAll (xs : List α) : OrderedMap κ (List α) := xs.foldl (push key) []

lemma getD_push (m : OrderedMap κ (List α)) (a : α) (k : κ) :
    ((push key m a).get k).getD [] =
      (m.get k).getD [] ++ if key a = k then [a] else [] := by
  unfold push
  rw [get_insert]
  by_cases h : key a = k
  · simp [h]
  · simp [h]

private lemma getD_foldl_push (xs : List α) (m : OrderedMap κ (List α)) (k : κ) :
    ((xs.foldl (push key) m).get k).getD [] =
      (m.get k).getD [] ++ xs.filter (fun a => key a = k) := by
  induction xs generalizing m with
  | nil => simp
  | cons a rest ih =>
      rw [List.foldl_cons, ih, getD_push, List.append_assoc]
      congr 1
      by_cases h : key a = k
      · simp [h]
      · simp [h]

/-- **A bucket is the sublist of the elements with its key.** -/
theorem getD_pushAll (xs : List α) (k : κ) :
    ((pushAll key xs).get k).getD [] = xs.filter (fun a => key a = k) := by
  rw [pushAll, getD_foldl_push]
  rfl

end Grouping

end OrderedMap

end McpSurfaces
