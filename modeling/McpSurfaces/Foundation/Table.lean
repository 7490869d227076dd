import McpSurfaces.Foundation.Lists

/-!
Tables of a relational store: lists of rows that a key names.

* `updateWhere` is `update … set … where …`; **`row_updateWhere`**: an update that leaves the
  keys changes the row of a key exactly as it says.
* `insertOnce` is an insertion where no row has the key; **`nodup_insertOnce_iff`**: when the rows
  that were so inserted have distinct labels.
* `firstBy` is `select … order by … limit 1`; **`mem_take_sortBy`**: which rows are the first
  of an order.
-/

namespace McpSurfaces

namespace Table

open Lists

variable {ρ κ : Type*}

/-! ### Rows by their key -/

section Row

variable [DecidableEq κ] (key : ρ → κ)

/-- The row of a key. -/
def row (rows : List ρ) (k : κ) : Option ρ := rows.find? fun r => key r = k

variable {key} {rows : List ρ} {k : κ} {r : ρ}

lemma mem_of_row (h : row key rows k = some r) : r ∈ rows := List.mem_of_find?_eq_some h

lemma key_of_row (h : row key rows k = some r) : key r = k := by
  simpa using List.find?_some h

/-- With distinct keys a row is the row of its key. -/
lemma row_of_mem (hnodup : (rows.map key).Nodup) (h : r ∈ rows) : row key rows (key r) = some r :=
  find?_of_nodup hnodup h

lemma row_eq_none_iff : row key rows k = none ↔ k ∉ rows.map key := by
  simp [row, List.find?_eq_none]

lemma exists_row_of_mem (h : r ∈ rows) : ∃ other, row key rows (key r) = some other := by
  cases hrow : row key rows (key r) with
  | some other => exact ⟨other, rfl⟩
  | none => exact absurd (List.mem_map_of_mem h) (row_eq_none_iff.mp hrow)

/-! ### Insertion -/

lemma row_append (new : List ρ) :
    row key (rows ++ new) k = (row key rows k).or (row key new k) := by
  simp [row, List.find?_append]

/-- A row that is there stays what it is under an insertion. -/
lemma row_append_of_some (new : List ρ) (h : row key rows k = some r) :
    row key (rows ++ new) k = some r := by
  rw [row_append, h]
  rfl

lemma row_singleton (r : ρ) : row key [r] k = if key r = k then some r else none := by
  by_cases h : key r = k <;> simp [row, h]

/-- Distinct keys stay so under an insertion with a new key. -/
lemma nodup_append_singleton (hnodup : (rows.map key).Nodup) (h : row key rows (key r) = none) :
    ((rows ++ [r]).map key).Nodup := by
  rw [List.map_append, List.map_singleton, List.nodup_append]
  refine ⟨hnodup, List.nodup_singleton _, fun a ha b hb => ?_⟩
  rw [List.mem_singleton] at hb
  rintro rfl
  exact row_eq_none_iff.mp h (hb ▸ ha)

end Row

/-! ### Insertions under a new key -/

section Once

variable {ι : Type*} [DecidableEq κ] (key : ρ → κ) (label : ρ → ι)

/-- A row is inserted where none has its key. -/
def insertOnce (rows : List ρ) (r : ρ) : List ρ := if key r ∈ rows.map key then rows else rows ++ [r]

variable {key label} {rows new : List ρ}

lemma mem_foldl_insertOnce {r : ρ} (h : r ∈ new.foldl (insertOnce key) rows) :
    r ∈ rows ∨ r ∈ new := by
  induction new generalizing rows with
  | nil => exact .inl h
  | cons first rest ih =>
      rcases ih h with hbefore | hrest
      · rw [insertOnce] at hbefore
        split_ifs at hbefore
        · exact .inl hbefore
        · rcases List.mem_append.mp hbefore with hold | hnew
          · exact .inl hold
          · exact .inr (List.mem_singleton.mp hnew ▸ List.mem_cons_self)
      · exact .inr (List.mem_cons_of_mem _ hrest)

lemma nodup_foldl_insertOnce (h : (rows.map key).Nodup) :
    ((new.foldl (insertOnce key) rows).map key).Nodup := by
  induction new generalizing rows with
  | nil => exact h
  | cons first rest ih =>
      refine ih ?_
      rw [insertOnce]
      split_ifs with hthere
      · exact h
      · exact nodup_append_singleton h (row_eq_none_iff.mpr hthere)

/-- Every key that is there, or that is inserted, has its row. -/
lemma exists_mem_foldl_insertOnce {r : ρ} (h : r ∈ rows ∨ r ∈ new) :
    ∃ other ∈ new.foldl (insertOnce key) rows, key other = key r := by
  induction new generalizing rows r with
  | nil => exact ⟨r, h.resolve_right List.not_mem_nil, rfl⟩
  | cons first rest ih =>
      have hfirst : ∃ other ∈ insertOnce key rows first, key other = key first := by
        rw [insertOnce]
        split_ifs with hthere
        · exact List.mem_map.mp hthere
        · exact ⟨first, List.mem_append_right _ (List.mem_singleton_self _), rfl⟩
      have hkept : ∀ other ∈ rows, other ∈ insertOnce key rows first := by
        intro other hother
        rw [insertOnce]
        split_ifs
        · exact hother
        · exact List.mem_append_left _ hother
      rcases h with hold | hnew
      · exact ih (.inl (hkept r hold))
      · rcases List.mem_cons.mp hnew with rfl | hrest
        · obtain ⟨other, hother, hkey⟩ := hfirst
          obtain ⟨kept, hkept, hsame⟩ := ih (.inl hother)
          exact ⟨kept, hkept, hsame.trans hkey⟩
        · exact ih (.inr hrest)

/-- **Rows that were inserted once have distinct labels**, exactly if those of one label have one
key. -/
theorem nodup_insertOnce_iff
    (hlabel : ∀ r ∈ new, ∀ other ∈ new, key r = key other → label r = label other) :
    ((new.foldl (insertOnce key) []).map label).Nodup ↔
      ∀ r ∈ new, ∀ other ∈ new, label r = label other → key r = key other := by
  have hnew : ∀ r ∈ new.foldl (insertOnce key) [], r ∈ new := fun r hr =>
    (mem_foldl_insertOnce hr).resolve_left List.not_mem_nil
  constructor
  · intro hnodup r hr other hother hsame
    obtain ⟨kept, hkept, hkey⟩ := @exists_mem_foldl_insertOnce ρ κ _ key [] new r (.inr hr)
    obtain ⟨kept', hkept', hkey'⟩ :=
      @exists_mem_foldl_insertOnce ρ κ _ key [] new other (.inr hother)
    have hlabels : label kept = label kept' :=
      (hlabel kept (hnew _ hkept) r hr hkey).trans
        (hsame.trans (hlabel kept' (hnew _ hkept') other hother hkey').symm)
    rw [← hkey, ← hkey', List.inj_on_of_nodup_map hnodup hkept hkept' hlabels]
  · intro hsame
    have hkeys : ((new.foldl (insertOnce key) []).map key).Nodup :=
      nodup_foldl_insertOnce List.nodup_nil
    refine List.Nodup.map_on (fun r hr other hother hlabels => ?_) hkeys.of_map
    exact List.inj_on_of_nodup_map hkeys hr hother
      (hsame r (hnew r hr) other (hnew other hother) hlabels)

end Once

/-! ### Updates -/

section Update

variable (p : ρ → Prop) [DecidablePred p] (set : ρ → ρ)

/-- `update … set … where …`. -/
def updateWhere (rows : List ρ) : List ρ := rows.map fun r => if p r then set r else r

variable {p set} {rows : List ρ}

lemma mem_updateWhere {r : ρ} :
    r ∈ updateWhere p set rows ↔ ∃ old ∈ rows, (if p old then set old else old) = r :=
  List.mem_map

/-- Two updates of the same rows. -/
lemma updateWhere_updateWhere {set' : ρ → ρ} (hp : ∀ r, p r → p (set r)) :
    updateWhere p set' (updateWhere p set rows) = updateWhere p (set' ∘ set) rows := by
  rw [updateWhere, updateWhere, List.map_map]
  refine List.map_congr_left fun r _ => ?_
  by_cases h : p r
  · simp [h, hp r h]
  · simp [h]

/-- An update of other rows leaves those that meet a condition. -/
lemma filter_updateWhere {q : ρ → Bool} (hp : ∀ r ∈ rows, p r → q r = false ∧ q (set r) = false) :
    (updateWhere p set rows).filter q = rows.filter q := by
  induction rows with
  | nil => rfl
  | cons r rest ih =>
      have hrest := ih fun r' hr' => hp r' (List.mem_cons_of_mem _ hr')
      rw [updateWhere] at hrest ⊢
      rw [List.map_cons]
      by_cases h : p r
      · obtain ⟨hbefore, hbehind⟩ := hp r List.mem_cons_self h
        rw [if_pos h, List.filter_cons_of_neg (by simp [hbehind]),
          List.filter_cons_of_neg (by simp [hbefore]), hrest]
      · rw [if_neg h, List.filter_cons, List.filter_cons, hrest]

variable {key : ρ → κ}

/-- An update that leaves the keys. -/
lemma keys_updateWhere (hkey : ∀ r, p r → key (set r) = key r) :
    (updateWhere p set rows).map key = rows.map key := by
  rw [updateWhere, List.map_map]
  refine List.map_congr_left fun r _ => ?_
  by_cases h : p r <;> simp [h, hkey r]

variable [DecidableEq κ]

/-- **An update that leaves the keys changes the row of a key as it says.** -/
lemma row_updateWhere (hkey : ∀ r, p r → key (set r) = key r) (k : κ) :
    row key (updateWhere p set rows) k =
      (row key rows k).map fun r => if p r then set r else r := by
  induction rows with
  | nil => rfl
  | cons r rest ih =>
      have hsame : key (if p r then set r else r) = key r := by
        by_cases h : p r <;> simp [h, hkey r]
      by_cases hk : key r = k
      · simp [row, updateWhere, hsame, hk]
      · simpa [row, updateWhere, hsame, hk] using ih

end Update

/-! ### The first row of an order -/

section First

variable (p : ρ → Prop) [DecidablePred p] (cmp : ρ → ρ → Ordering)

/-- `select … where … order by … limit 1`. -/
def firstBy (rows : List ρ) : Option ρ := (sortBy cmp (rows.filter p)).head?

variable {p cmp} {rows : List ρ} {r : ρ}

lemma firstBy_mem (h : firstBy p cmp rows = some r) : r ∈ rows ∧ p r := by
  have hmem : r ∈ rows.filter p := (sortBy_perm cmp _).mem_iff.mp (List.mem_of_head? h)
  simpa using List.mem_filter.mp hmem

/-- A row is found as soon as one meets the condition. -/
lemma firstBy_eq_none_iff : firstBy p cmp rows = none ↔ ∀ r ∈ rows, ¬ p r := by
  rw [firstBy, List.head?_eq_none_iff, ← List.length_eq_zero_iff,
    (sortBy_perm cmp _).length_eq, List.length_eq_zero_iff, List.filter_eq_nil_iff]
  simp

/-- **The first rows of an order**: a row is one of the first so many exactly when fewer come
before it. -/
theorem mem_take_sortBy (hcmp : Consistent cmp rows) (hnodup : rows.Nodup)
    (hstrict : ∀ a ∈ rows, ∀ b ∈ rows, cmp a b = .eq → a = b) (hr : r ∈ rows) (limit : ℕ) :
    r ∈ (sortBy cmp rows).take limit ↔ (rows.filter fun b => cmp b r = .lt).length < limit := by
  have hperm := sortBy_perm cmp rows
  have hin {a : ρ} (ha : a ∈ sortBy cmp rows) : a ∈ rows := hperm.mem_iff.mp ha
  obtain ⟨before, behind, hsplit⟩ := List.append_of_mem (hperm.mem_iff.mpr hr)
  have hsorted := sortBy_pairwise hcmp
  have hdistinct : (sortBy cmp rows).Nodup := hperm.nodup_iff.mpr hnodup
  rw [hsplit] at hsorted hdistinct
  have hnotin : r ∉ before := fun hmem =>
    (List.nodup_append.mp hdistinct).2.2 r hmem r List.mem_cons_self rfl
  -- what is sorted before the row compares below it, and nothing behind does
  have hbelow : ∀ a ∈ before, cmp a r = .lt := fun a ha => by
    have hrow := hin (a := a) (hsplit ▸ List.mem_append_left _ ha)
    have hle := (List.pairwise_append.mp hsorted).2.2 a ha r List.mem_cons_self
    cases hcase : cmp a r with
    | lt => rfl
    | eq => exact absurd (hstrict a hrow r hr hcase ▸ ha) hnotin
    | gt => exact absurd hcase hle
  have hnotbelow : ∀ a ∈ r :: behind, ¬ cmp a r = .lt := fun a ha hlt => by
    have hrow := hin (a := a) (hsplit ▸ List.mem_append_right _ ha)
    have hgt := (hcmp.lt_iff_gt hrow hr).mp hlt
    rcases List.mem_cons.mp ha with rfl | ha
    · rw [hlt] at hgt
      cases hgt
    · exact (List.pairwise_cons.mp (List.pairwise_append.mp hsorted).2.1).1 a ha hgt
  have hcount : (rows.filter fun b => cmp b r = .lt).length = before.length := by
    rw [← (hperm.filter _).length_eq, hsplit, List.filter_append,
      List.filter_eq_self.mpr (by simpa using hbelow),
      List.filter_eq_nil_iff.mpr (by simpa using hnotbelow), List.append_nil]
  rw [hcount, hsplit, List.take_append, List.mem_append]
  constructor
  · rintro (hmem | hmem)
    · exact absurd (List.mem_of_mem_take hmem) hnotin
    · by_contra hge
      rw [Nat.sub_eq_zero_of_le (not_lt.mp hge), List.take_zero] at hmem
      cases hmem
  · intro hlt
    right
    obtain ⟨k, hk⟩ := Nat.exists_eq_succ_of_ne_zero (Nat.sub_ne_zero_of_lt hlt)
    rw [hk, List.take_succ_cons]
    exact List.mem_cons_self

end First

end Table

end McpSurfaces
