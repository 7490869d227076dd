import Mathlib.Tactic

/-!
Lists as a pipeline of answers: filtered, deduplicated by a key, sorted, cut.

* `retainFirst` keeps the first element of every key, the way a set of seen keys does.
* `sortBy` is the stable sort of a comparison: sorted where the comparison is a total
  preorder (`sortBy_pairwise`), and stable (`sortBy_filter`).
-/

namespace McpSurfaces

namespace Lists

variable {α β κ : Type*}

/-! ### Filtering before answering -/

section Filter

variable {p : α → Bool} {f : α → Option β}

lemma length_filterMap_filter_le (xs : List α) :
    ((xs.filter p).filterMap f).length ≤ (xs.filterMap f).length :=
  (List.filter_sublist.filterMap f).length_le

/-- A filter that keeps as many answers as there are keeps every element that has one. -/
lemma kept_of_length_eq {xs : List α}
    (h : ((xs.filter p).filterMap f).length = (xs.filterMap f).length) :
    ∀ x ∈ xs, (f x).isSome → p x := by
  induction xs with
  | nil => simp
  | cons x xs ih =>
      have hle := length_filterMap_filter_le (p := p) (f := f) xs
      by_cases hp : p x
      · have htail : ((xs.filter p).filterMap f).length = (xs.filterMap f).length := by
          rw [List.filter_cons_of_pos hp, List.filterMap_cons, List.filterMap_cons] at h
          cases hf : f x with
          | none => simpa [hf] using h
          | some b => simpa [hf] using h
        intro y hy
        rcases List.mem_cons.mp hy with rfl | hy
        · exact fun _ => hp
        · exact ih htail y hy
      · rw [List.filter_cons_of_neg hp, List.filterMap_cons] at h
        cases hf : f x with
        | none =>
            rw [hf] at h
            intro y hy
            rcases List.mem_cons.mp hy with rfl | hy
            · rw [hf]; simp
            · exact ih h y hy
        | some b =>
            rw [hf, List.length_cons] at h
            omega

lemma filterMap_filter_eq {xs : List α} (h : ∀ x ∈ xs, (f x).isSome → p x) :
    (xs.filter p).filterMap f = xs.filterMap f := by
  rw [List.filterMap_filter]
  refine List.filterMap_congr fun x hx => ?_
  cases hf : f x with
  | none => simp
  | some b => simp [h x hx (by simp [hf])]

end Filter

/-! ### Deduplication by a key -/

section Retain

variable [DecidableEq κ] (key : α → κ)

/-- The elements whose key is not among the seen ones, each key once. -/
def retainUnseen : List κ → List α → List α
  | _, [] => []
  | seen, a :: rest =>
      if key a ∈ seen then retainUnseen seen rest else a :: retainUnseen (key a :: seen) rest

/-- The first element of every key. -/
def retainFirst (xs : List α) : List α := retainUnseen key [] xs

lemma retainUnseen_sublist (seen : List κ) (xs : List α) :
    (retainUnseen key seen xs).Sublist xs := by
  induction xs generalizing seen with
  | nil => exact List.Sublist.slnil
  | cons a rest ih =>
      unfold retainUnseen
      split_ifs
      · exact (ih seen).cons a
      · exact (ih _).cons_cons a

lemma retainFirst_sublist (xs : List α) : (retainFirst key xs).Sublist xs :=
  retainUnseen_sublist key [] xs

private lemma nodup_map_retainUnseen (seen : List κ) (xs : List α) :
    ((retainUnseen key seen xs).map key).Nodup ∧
      ∀ k ∈ (retainUnseen key seen xs).map key, k ∉ seen := by
  induction xs generalizing seen with
  | nil => simp [retainUnseen]
  | cons a rest ih =>
      unfold retainUnseen
      split_ifs with h
      · exact ih seen
      · obtain ⟨hnodup, hunseen⟩ := ih (key a :: seen)
        refine ⟨?_, ?_⟩
        · rw [List.map_cons, List.nodup_cons]
          exact ⟨fun hmem => hunseen _ hmem List.mem_cons_self, hnodup⟩
        · intro k hk
          rcases List.mem_cons.mp hk with rfl | hk
          · exact h
          · exact fun hseen => hunseen k hk (List.mem_cons_of_mem _ hseen)

/-- The retained elements have distinct keys. -/
lemma nodup_map_retainFirst (xs : List α) : ((retainFirst key xs).map key).Nodup :=
  (nodup_map_retainUnseen key [] xs).1

private lemma mem_map_retainUnseen (seen : List κ) (xs : List α) {a : α} (ha : a ∈ xs) :
    key a ∈ seen ∨ key a ∈ (retainUnseen key seen xs).map key := by
  induction xs generalizing seen with
  | nil => simp at ha
  | cons b rest ih =>
      unfold retainUnseen
      split_ifs with h
      · rcases List.mem_cons.mp ha with rfl | ha
        · exact Or.inl h
        · exact ih seen ha
      · rcases List.mem_cons.mp ha with rfl | ha
        · exact Or.inr List.mem_cons_self
        · rcases ih (key b :: seen) ha with hseen | hmem
          · rcases List.mem_cons.mp hseen with heq | hseen
            · exact Or.inr (by rw [heq]; exact List.mem_cons_self)
            · exact Or.inl hseen
          · exact Or.inr (List.mem_cons_of_mem _ hmem)

/-- Every element has one of its key among the retained ones. -/
lemma exists_mem_retainFirst {xs : List α} {a : α} (ha : a ∈ xs) :
    ∃ b ∈ retainFirst key xs, key b = key a := by
  rcases mem_map_retainUnseen key [] xs ha with h | h
  · simp at h
  · exact List.mem_map.mp h

/-- Where the key determines the element, deduplication keeps every element. -/
lemma mem_retainFirst {xs : List α} (hkey : ∀ a ∈ xs, ∀ b ∈ xs, key a = key b → a = b)
    {a : α} : a ∈ retainFirst key xs ↔ a ∈ xs := by
  refine ⟨fun h => (retainFirst_sublist key xs).subset h, fun h => ?_⟩
  obtain ⟨b, hb, hba⟩ := exists_mem_retainFirst key h
  rwa [← hkey b ((retainFirst_sublist key xs).subset hb) a h hba]

end Retain

/-! ### Sorting by a comparison -/

section Sorting

variable (cmp : α → α → Ordering)

/-- The stable sort by a comparison. A standard library promises its result where
the comparison is a total preorder on the elements, and nothing elsewhere. -/
def sortBy (xs : List α) : List α := xs.insertionSort fun a b => cmp a b ≠ .gt

lemma sortBy_perm (xs : List α) : (sortBy cmp xs).Perm xs := List.perm_insertionSort _ xs

@[simp] lemma mem_sortBy {xs : List α} {a : α} : a ∈ sortBy cmp xs ↔ a ∈ xs :=
  (sortBy_perm cmp xs).mem_iff

/-- The comparison is a total preorder on the elements of the list. -/
structure Consistent (xs : List α) : Prop where
  swap : ∀ a ∈ xs, ∀ b ∈ xs, cmp b a = (cmp a b).swap
  trans : ∀ a ∈ xs, ∀ b ∈ xs, ∀ c ∈ xs, cmp a b ≠ .gt → cmp b c ≠ .gt → cmp a c ≠ .gt

variable {cmp}

namespace Consistent

lemma subset {xs ys : List α} (h : Consistent cmp xs) (hsub : ∀ a ∈ ys, a ∈ xs) :
    Consistent cmp ys where
  swap a ha b hb := h.swap a (hsub a ha) b (hsub b hb)
  trans a ha b hb c hc := h.trans a (hsub a ha) b (hsub b hb) c (hsub c hc)

variable {xs : List α} (h : Consistent cmp xs) {a b c : α} (ha : a ∈ xs) (hb : b ∈ xs)
include h ha hb

lemma total : cmp a b ≠ .gt ∨ cmp b a ≠ .gt := by
  rw [h.swap a ha b hb]
  cases cmp a b <;> simp

lemma lt_iff_gt : cmp a b = .lt ↔ cmp b a = .gt := by
  rw [h.swap a ha b hb]
  cases cmp a b <;> simp

lemma eq_comm : cmp a b = .eq ↔ cmp b a = .eq := by
  rw [h.swap a ha b hb]
  cases cmp a b <;> simp

/-- Strictly below what is not above is strictly below. -/
lemma lt_of_lt_of_le (hc : c ∈ xs) (hab : cmp a b = .lt) (hbc : cmp b c ≠ .gt) :
    cmp a c = .lt := by
  have hac : cmp a c ≠ .gt := h.trans a ha b hb c hc (by rw [hab]; decide) hbc
  have hne : cmp a c ≠ .eq := by
    intro heq
    have hca : cmp c a ≠ .gt := by
      rw [h.swap a ha c hc, heq]
      decide
    have hba := h.trans b hb c hc a ha hbc hca
    exact hba ((h.lt_iff_gt ha hb).mp hab)
  cases hcmp : cmp a c with
  | lt => rfl
  | eq => exact absurd hcmp hne
  | gt => exact absurd hcmp hac

omit ha hb in
/-- Consistent comparisons make a consistent lexicographic one. -/
lemma lex {cmp' : α → α → Ordering} (h' : Consistent cmp' xs) :
    Consistent (fun a b => (cmp a b).then (cmp' a b)) xs where
  swap a ha b hb := by
    rw [Ordering.swap_then, h.swap a ha b hb, h'.swap a ha b hb]
  trans a ha b hb c hc hab hbc := by
    have hle : cmp a b ≠ .gt := fun hgt => hab (by rw [hgt]; rfl)
    have hle' : cmp b c ≠ .gt := fun hgt => hbc (by rw [hgt]; rfl)
    have hac := h.trans a ha b hb c hc hle hle'
    cases hcmp : cmp a c with
    | gt => exact absurd hcmp hac
    | lt => simp
    | eq =>
        -- Equal ends leave no room between them.
        have hca := (h.eq_comm ha hc).mp hcmp
        have hba : cmp b a ≠ .gt := h.trans b hb c hc a ha hle' (by rw [hca]; decide)
        have hcb : cmp c b ≠ .gt := h.trans c hc a ha b hb (by rw [hca]; decide) hle
        have heq : cmp a b = .eq := by
          rw [h.swap a ha b hb] at hba
          cases hab : cmp a b <;> simp_all
        have heq' : cmp b c = .eq := by
          rw [h.swap b hb c hc] at hcb
          cases hbc : cmp b c <;> simp_all
        rw [heq, Ordering.eq_then] at hab
        rw [heq', Ordering.eq_then] at hbc
        rw [Ordering.eq_then]
        exact h'.trans a ha b hb c hc hab hbc

end Consistent

private lemma pairwise_orderedInsert {a : α} {xs : List α} (h : Consistent cmp (a :: xs))
    (hxs : xs.Pairwise fun a b => cmp a b ≠ .gt) :
    (xs.orderedInsert (fun a b => cmp a b ≠ .gt) a).Pairwise fun a b => cmp a b ≠ .gt := by
  induction xs with
  | nil => simp
  | cons b rest ih =>
      obtain ⟨hb, hrest⟩ := List.pairwise_cons.mp hxs
      rw [List.orderedInsert_cons]
      split_ifs with hab
      · refine List.pairwise_cons.mpr ⟨fun c hc => ?_, hxs⟩
        rcases List.mem_cons.mp hc with rfl | hc
        · exact hab
        · exact h.trans a (by simp) b (by simp) c (by simp [hc]) hab (hb c hc)
      · have hba : cmp b a ≠ .gt :=
          (h.total (a := a) (b := b) (by simp) (by simp)).resolve_left hab
        refine List.pairwise_cons.mpr ⟨fun c hc => ?_, ?_⟩
        · rcases List.mem_orderedInsert _ |>.mp hc with rfl | hc
          · exact hba
          · exact hb c hc
        · refine ih (h.subset fun x hx => ?_) hrest
          rcases List.mem_cons.mp hx with rfl | hx <;> simp [*]

/-- The sort is sorted where the comparison is a total preorder. -/
lemma sortBy_pairwise {xs : List α} (h : Consistent cmp xs) :
    (sortBy cmp xs).Pairwise fun a b => cmp a b ≠ .gt := by
  induction xs with
  | nil => exact List.Pairwise.nil
  | cons a rest ih =>
      have hrest : Consistent cmp rest := h.subset fun x hx => List.mem_cons_of_mem _ hx
      refine pairwise_orderedInsert (h.subset fun x hx => ?_) (ih hrest)
      rcases List.mem_cons.mp hx with rfl | hx
      · exact List.mem_cons_self
      · exact List.mem_cons_of_mem _ ((mem_sortBy cmp).mp hx)

private lemma filter_orderedInsert {p : α → Bool} {a : α} {xs : List α}
    (h : Consistent cmp (a :: xs)) (hxs : xs.Pairwise fun a b => cmp a b ≠ .gt) :
    (xs.orderedInsert (fun a b => cmp a b ≠ .gt) a).filter p =
      if p a then (xs.filter p).orderedInsert (fun a b => cmp a b ≠ .gt) a else xs.filter p := by
  induction xs with
  | nil => by_cases hp : p a <;> simp [hp]
  | cons b rest ih =>
      obtain ⟨hb, hrest⟩ := List.pairwise_cons.mp hxs
      rw [List.orderedInsert_cons]
      split_ifs with hab hp hp
      · -- Everything that is left of the list is above `b`, hence above `a`.
        rw [List.filter_cons_of_pos hp]
        cases hf : (b :: rest).filter p with
        | nil => rfl
        | cons c tail =>
            have hc : c ∈ b :: rest := (List.mem_filter.mp (hf ▸ List.mem_cons_self)).1
            have hac : cmp a c ≠ .gt := by
              rcases List.mem_cons.mp hc with rfl | hc
              · exact hab
              · exact h.trans a (by simp) b (by simp) c (by simp [hc]) hab (hb c hc)
            rw [List.orderedInsert_cons, if_pos hac]
      · rw [List.filter_cons_of_neg hp]
      · have hih := ih (h.subset fun x hx => by
          rcases List.mem_cons.mp hx with rfl | hx <;> simp [*]) hrest
        rw [if_pos hp] at hih
        by_cases hpb : p b
        · rw [List.filter_cons_of_pos hpb, List.filter_cons_of_pos hpb, hih,
            List.orderedInsert_cons, if_neg hab]
        · rw [List.filter_cons_of_neg hpb, List.filter_cons_of_neg hpb, hih]
      · have hih := ih (h.subset fun x hx => by
          rcases List.mem_cons.mp hx with rfl | hx <;> simp [*]) hrest
        rw [if_neg hp] at hih
        by_cases hpb : p b
        · rw [List.filter_cons_of_pos hpb, List.filter_cons_of_pos hpb, hih]
        · rw [List.filter_cons_of_neg hpb, List.filter_cons_of_neg hpb, hih]

/-- Sorting commutes with filtering: the sort is stable. -/
lemma sortBy_filter {p : α → Bool} {xs : List α} (h : Consistent cmp xs) :
    sortBy cmp (xs.filter p) = (sortBy cmp xs).filter p := by
  induction xs with
  | nil => rfl
  | cons a rest ih =>
      have hrest : Consistent cmp rest := h.subset fun x hx => List.mem_cons_of_mem _ hx
      have hinsert : Consistent cmp (a :: sortBy cmp rest) := h.subset fun x hx => by
        rcases List.mem_cons.mp hx with rfl | hx
        · exact List.mem_cons_self
        · exact List.mem_cons_of_mem _ ((mem_sortBy cmp).mp hx)
      have hfilter := filter_orderedInsert (p := p) hinsert (sortBy_pairwise hrest)
      have hsort : sortBy cmp (a :: rest) =
          (sortBy cmp rest).orderedInsert (fun a b => cmp a b ≠ .gt) a := rfl
      rw [hsort, hfilter]
      by_cases hp : p a
      · rw [List.filter_cons_of_pos hp, if_pos hp, ← ih hrest]
        rfl
      · rw [List.filter_cons_of_neg hp, if_neg hp, ih hrest]

end Sorting

/-! ### Lists that grow at the end -/

section Growing

variable {P Q : List α → α → Prop}

/-- Something of every element and the elements before it. -/
def EachAfter (P : List α → α → Prop) (xs : List α) : Prop :=
  ∀ before x, before ++ [x] <+: xs → P before x

lemma EachAfter.nil : EachAfter P [] := fun before x h => by
  simp at h

lemma EachAfter.concat {xs : List α} (h : EachAfter P xs) {x : α} (hx : P xs x) :
    EachAfter P (xs ++ [x]) := by
  intro before y hy
  rcases List.prefix_concat_iff.mp hy with heq | hy
  · obtain ⟨rfl, hxy⟩ := List.append_inj' heq rfl
    obtain rfl := List.singleton_inj.mp hxy
    exact hx
  · exact h before y hy

lemma EachAfter.mono {xs : List α} (h : EachAfter P xs) (hPQ : ∀ before x, P before x → Q before x) :
    EachAfter Q xs :=
  fun before x hx => hPQ before x (h before x hx)

lemma EachAfter.of_prefix {xs ys : List α} (h : EachAfter P xs) (hle : ys <+: xs) :
    EachAfter P ys :=
  fun before x hx => h before x (hx.trans hle)

/-- The element at a place, and the elements before it. -/
lemma EachAfter.take {xs : List α} (h : EachAfter P xs) {i : ℕ} {x : α} (hx : xs[i]? = some x) :
    P (xs.take i) x := by
  refine h _ _ ?_
  obtain ⟨hi, rfl⟩ := List.getElem?_eq_some_iff.mp hx
  rw [List.take_concat_get' xs i hi]
  exact List.take_prefix _ _

/-- An element of a list, with the elements before it. -/
lemma exists_before {xs : List α} {x : α} (hx : x ∈ xs) : ∃ before, before ++ [x] <+: xs := by
  obtain ⟨before, after, rfl⟩ := List.append_of_mem hx
  exact ⟨before, after, by simp⟩

/-- A key that differs from those before it at every element is a key of each element. -/
lemma nodup_map_of_eachAfter {f : α → β} {xs : List α}
    (h : EachAfter (fun before x => ∀ y ∈ before, f y ≠ f x) xs) : (xs.map f).Nodup := by
  induction xs using List.reverseRecOn with
  | nil => exact List.nodup_nil
  | append_singleton xs x ih =>
      have hxs := ih (h.of_prefix (List.prefix_append xs [x]))
      have hx := h xs x List.prefix_rfl
      rw [List.map_append, List.nodup_append]
      refine ⟨hxs, List.nodup_singleton _, fun a ha b hb => ?_⟩
      obtain ⟨y, hy, rfl⟩ := List.mem_map.mp ha
      rw [List.map_singleton, List.mem_singleton] at hb
      rw [hb]
      exact hx y hy

/-- The element of a key that is found by its key. -/
lemma find?_of_nodup [DecidableEq β] {f : α → β} {xs : List α} (h : (xs.map f).Nodup) {x : α}
    (hx : x ∈ xs) : xs.find? (fun y => f y = f x) = some x := by
  cases hfind : xs.find? (fun y => f y = f x) with
  | none => exact absurd (List.find?_eq_none.mp hfind x hx) (by simp)
  | some y =>
      have hkey : f y = f x := by simpa using List.find?_some hfind
      rw [List.inj_on_of_nodup_map h (List.mem_of_find?_eq_some hfind) hx hkey]

/-- A key that is distinct is that of one element. -/
lemma length_filter_of_nodup [DecidableEq β] {f : α → β} {xs : List α} (h : (xs.map f).Nodup)
    {x : α} (hx : x ∈ xs) : (xs.filter fun y => f y = f x).length = 1 := by
  have hcount : (xs.map f).count (f x) = 1 := List.count_eq_one_of_mem h (List.mem_map_of_mem hx)
  rw [List.count, List.countP_map, List.countP_eq_length_filter] at hcount
  exact hcount

end Growing

/-! ### A fallible function on every element -/

section Fallible

lemma exists_related {R : α → β → Prop} {xs : List α} {ys : List β} (h : List.Forall₂ R xs ys)
    {x : α} (hx : x ∈ xs) : ∃ y ∈ ys, R x y := by
  induction h with
  | nil => simp at hx
  | @cons a b _ _ hab _ ih =>
      rcases List.mem_cons.mp hx with rfl | hx
      · exact ⟨b, List.mem_cons_self, hab⟩
      · obtain ⟨y, hy, hxy⟩ := ih hx
        exact ⟨y, List.mem_cons_of_mem _ hy, hxy⟩

variable {ε : Type*} {f : α → Except ε β}

/-- A computation that succeeds does so in both of its parts. -/
lemma bind_eq_ok {γ δ : Type u} {x : Except ε γ} {g : γ → Except ε δ} {b : δ}
    (h : (x >>= g) = .ok b) : ∃ a, x = .ok a ∧ g a = .ok b := by
  cases hx : x with
  | error e => rw [hx] at h; cases h
  | ok a => rw [hx] at h; exact ⟨a, rfl, h⟩

lemma eq_ok_of_isSome {γ : Type*} {x : Except ε γ} (h : x.toOption.isSome) (default : γ) :
    x = .ok (x.toOption.getD default) := by
  cases x with
  | error e => cases h
  | ok a => rfl

/-- A list of results is one result for every element. -/
lemma mapM_eq_ok_iff {xs : List α} {ys : List β} :
    xs.mapM f = .ok ys ↔ List.Forall₂ (fun x y => f x = .ok y) xs ys := by
  induction xs generalizing ys with
  | nil =>
      rw [List.mapM_nil, List.forall₂_nil_left_iff]
      exact ⟨fun h => by cases h; rfl, fun h => by rw [h]; rfl⟩
  | cons x xs ih =>
      rw [List.mapM_cons, List.forall₂_cons_left_iff]
      constructor
      · intro h
        cases hx : f x with
        | error e => rw [hx] at h; cases h
        | ok y =>
            cases hxs : xs.mapM f with
            | error e => rw [hx, hxs] at h; cases h
            | ok zs =>
                rw [hx, hxs] at h
                cases h
                exact ⟨y, zs, rfl, ih.mp hxs, rfl⟩
      · rintro ⟨y, zs, hx, hzs, rfl⟩
        rw [hx, ih.mpr hzs]
        rfl

/-- A check of a whole list that passes passes on every element. -/
lemma forM_ok {check : α → Except ε PUnit} {xs : List α} (h : xs.forM check = .ok ⟨⟩) :
    ∀ x ∈ xs, check x = .ok ⟨⟩ := by
  induction xs with
  | nil => simp
  | cons y rest ih =>
      rw [List.forM_eq_forM, List.forM_cons] at h
      obtain ⟨u, hy, h⟩ := bind_eq_ok h
      intro x hx
      rcases List.mem_cons.mp hx with rfl | hx
      · exact hy
      · exact ih h x hx

/-- A function that succeeds on every element succeeds on the list. -/
lemma exists_mapM_ok {xs : List α} (h : ∀ x ∈ xs, ∃ y, f x = .ok y) :
    ∃ ys, xs.mapM f = .ok ys := by
  induction xs with
  | nil => exact ⟨[], rfl⟩
  | cons x rest ih =>
      obtain ⟨y, hy⟩ := h x List.mem_cons_self
      obtain ⟨ys, hys⟩ := ih fun z hz => h z (List.mem_cons_of_mem x hz)
      refine ⟨y :: ys, ?_⟩
      rw [List.mapM_cons, hy, hys]
      rfl

/-- A step that succeeds and keeps an invariant succeeds on a list of inputs. -/
lemma exists_foldlM_ok {γ : Type*} {step : γ → α → Except ε γ} {inv : γ → Prop} {xs : List α}
    (h : ∀ c, inv c → ∀ x ∈ xs, ∃ c', step c x = .ok c' ∧ inv c') {c : γ} (hc : inv c) :
    ∃ c', xs.foldlM step c = .ok c' ∧ inv c' := by
  induction xs generalizing c with
  | nil => exact ⟨c, rfl, hc⟩
  | cons x rest ih =>
      obtain ⟨d, hstep, hd⟩ := h c hc x List.mem_cons_self
      obtain ⟨c', hrest, hc'⟩ := ih (fun c hc y hy => h c hc y (List.mem_cons_of_mem x hy)) hd
      refine ⟨c', ?_, hc'⟩
      rw [List.foldlM_cons, hstep]
      exact hrest

/-- What every step of a run keeps, with the inputs it has taken, holds behind the run. -/
lemma foldlM_traces {γ : Type*} {step : γ → α → Except ε γ} {inv : List α → γ → Prop}
    (h : ∀ taken c c' x, inv taken c → step c x = .ok c' → inv (taken ++ [x]) c')
    {taken xs : List α} {c c' : γ} (hc : inv taken c) (hrun : xs.foldlM step c = .ok c') :
    inv (taken ++ xs) c' := by
  induction xs generalizing taken c with
  | nil =>
      cases hrun
      rwa [List.append_nil]
  | cons x rest ih =>
      rw [List.foldlM_cons] at hrun
      obtain ⟨d, hstep, hrest⟩ := bind_eq_ok hrun
      rw [List.append_cons]
      exact ih (h taken c d x hc hstep) hrest

lemma exists_ok_of_mapM {xs : List α} {ys : List β} (h : xs.mapM f = .ok ys) {x : α}
    (hx : x ∈ xs) : ∃ y ∈ ys, f x = .ok y :=
  exists_related (mapM_eq_ok_iff.mp h) hx

lemma exists_source_of_mapM {xs : List α} {ys : List β} (h : xs.mapM f = .ok ys) {y : β}
    (hy : y ∈ ys) : ∃ x ∈ xs, f x = .ok y :=
  exists_related (List.Forall₂.flip (mapM_eq_ok_iff.mp h)) hy

end Fallible

end Lists

end McpSurfaces
