import McpSurfaces.Foundation.Lists

/-!
Keyset paging over a list: every page is cut off the sorted elements that compare
strictly above the last element of the page before.

* `Pages cmp limit all cursor pages`: the pages from a cursor to the end.
* `NoSplitTie cmp limit sorted`: no page boundary separates two elements that compare
  equal.
* **`pages_exact_iff`**: the pages contain every element once and in order exactly when
  no boundary separates a tie. A tied element behind a boundary is above no cursor any
  more, and lost.
-/

namespace McpSurfaces

namespace KeysetPaging

open Lists

variable {α : Type*} (cmp : α → α → Ordering) (limit : ℕ) (all : List α)

/-- The elements behind a cursor: those strictly above it, all without one. -/
def after : Option α → List α
  | none => all
  | some last => all.filter fun a => cmp a last = .gt

/-- The pages from a cursor on. A page that leaves nothing behind is the last. -/
inductive Pages : Option α → List (List α) → Prop
  | last {cursor : Option α} (h : (after cmp all cursor).length ≤ limit) :
      Pages cursor [sortBy cmp (after cmp all cursor)]
  | more {cursor : Option α} {a : α} {pages : List (List α)}
      (h : limit < (after cmp all cursor).length)
      (ha : ((sortBy cmp (after cmp all cursor)).take limit).getLast? = some a)
      (hpages : Pages (some a) pages) :
      Pages cursor ((sortBy cmp (after cmp all cursor)).take limit :: pages)

/-- No page boundary, a positive multiple of the limit, separates a tie. -/
def NoSplitTie (sorted : List α) : Prop :=
  ∀ k a b, 0 < k → sorted[k * limit - 1]? = some a → sorted[k * limit]? = some b →
    cmp a b ≠ .eq

variable {cmp limit all}

lemma after_subset (cursor : Option α) : ∀ a ∈ after cmp all cursor, a ∈ all := by
  intro a ha
  cases cursor with
  | none => exact ha
  | some last => exact (List.mem_filter.mp ha).1

/-- What the pages from a cursor on contain is behind the cursor. -/
lemma Pages.subset {cursor : Option α} {pages : List (List α)}
    (h : Pages cmp limit all cursor pages) (hcons : Consistent cmp all)
    (hcursor : ∀ c ∈ cursor, c ∈ all) :
    ∀ a ∈ pages.flatten, a ∈ after cmp all cursor := by
  induction h with
  | last h => simp
  | @more cursor last pages h hlast hpages ih =>
      have hmem : last ∈ after cmp all cursor :=
        (mem_sortBy cmp).mp (List.mem_of_mem_take (List.mem_of_getLast? hlast))
      have hall : last ∈ all := after_subset cursor last hmem
      intro a ha
      rcases List.mem_append.mp ha with ha | ha
      · exact (mem_sortBy cmp).mp (List.mem_of_mem_take ha)
      · have hafter := ih (by simpa using hall) a ha
        obtain ⟨haall, hgt⟩ := List.mem_filter.mp hafter
        have hgt : cmp a last = .gt := by simpa using hgt
        cases cursor with
        | none => exact haall
        | some c =>
            -- Above the last element of a page behind `c` is above `c`.
            have hc : c ∈ all := hcursor c rfl
            have hlc : cmp last c = .gt := by simpa using (List.mem_filter.mp hmem).2
            have hlt := (hcons.lt_iff_gt hc hall).mpr hlc
            have hle : cmp last a ≠ .gt := by
              rw [hcons.swap a haall last hall, hgt]; decide
            refine List.mem_filter.mpr ⟨haall, ?_⟩
            simpa using (hcons.lt_iff_gt hc haall).mp
              (hcons.lt_of_lt_of_le hc hall haall hlt hle)

section Boundary

variable {sorted : List α} (hcons : Consistent cmp sorted)
  (hsorted : sorted.Pairwise fun a b => cmp a b ≠ .gt)
include hcons hsorted

/-- Elements of a page are not above its last one. -/
private lemma not_gt_last {last : α} (hlast : (sorted.take limit).getLast? = some last) :
    ∀ a ∈ sorted.take limit, cmp a last ≠ .gt := by
  intro a ha
  obtain ⟨front, hfront⟩ := List.getLast?_eq_some_iff.mp hlast
  have htake : (sorted.take limit).Pairwise fun a b => cmp a b ≠ .gt :=
    hsorted.sublist (List.take_sublist _ _)
  rw [hfront] at ha htake
  rcases List.mem_append.mp ha with ha | ha
  · exact (List.pairwise_append.mp htake).2.2 a ha last List.mem_cons_self
  · have hmem : last ∈ sorted := List.mem_of_mem_take (List.mem_of_getLast? hlast)
    rw [List.mem_singleton.mp ha]
    rcases hcons.total hmem hmem with h | h <;> exact h

/-- **A strict boundary**: the elements above the last of the page are the rest. -/
lemma after_eq_drop {last first : α} (hlast : (sorted.take limit).getLast? = some last)
    (hfirst : sorted[limit]? = some first) (hstrict : cmp last first ≠ .eq) :
    sorted.filter (fun a => cmp a last = .gt) = sorted.drop limit := by
  have hlen : limit < sorted.length := (List.getElem?_eq_some_iff.mp hfirst).1
  have hdrop : sorted.drop limit = first :: sorted.drop (limit + 1) := by
    rw [List.drop_eq_getElem_cons hlen, (List.getElem?_eq_some_iff.mp hfirst).2]
  have hsplit : sorted.take limit ++ sorted.drop limit = sorted := List.take_append_drop _ _
  have hlastmem : last ∈ sorted := List.mem_of_mem_take (List.mem_of_getLast? hlast)
  have hfirstmem : first ∈ sorted := List.mem_of_getElem? hfirst
  have hpair := hsorted
  rw [← hsplit, List.pairwise_append] at hpair
  obtain ⟨-, hback, hcross⟩ := hpair
  have hle : cmp last first ≠ .gt :=
    hcross last (List.mem_of_getLast? hlast) first (by rw [hdrop]; exact List.mem_cons_self)
  have hlt : cmp last first = .lt := by
    cases hcmp : cmp last first with
    | lt => rfl
    | eq => exact absurd hcmp hstrict
    | gt => exact absurd hcmp hle
  have hgt : ∀ a ∈ sorted.drop limit, cmp a last = .gt := by
    intro a ha
    have hamem : a ∈ sorted := List.mem_of_mem_drop ha
    have hfa : cmp last a = .lt := by
      rw [hdrop] at ha hback
      rcases List.mem_cons.mp ha with rfl | ha
      · exact hlt
      · exact hcons.lt_of_lt_of_le hlastmem hfirstmem hamem hlt
          ((List.pairwise_cons.mp hback).1 a ha)
    exact (hcons.lt_iff_gt hlastmem hamem).mp hfa
  have htake : (sorted.take limit).filter (fun a => cmp a last = .gt) = [] := by
    refine List.filter_eq_nil_iff.mpr fun a ha => ?_
    simpa using not_gt_last hcons hsorted hlast a ha
  calc sorted.filter (fun a => cmp a last = .gt)
      = (sorted.take limit ++ sorted.drop limit).filter (fun a => cmp a last = .gt) := by
        rw [hsplit]
    _ = (sorted.drop limit).filter (fun a => cmp a last = .gt) := by
        rw [List.filter_append, htake, List.nil_append]
    _ = sorted.drop limit := List.filter_eq_self.mpr fun a ha => by simpa using hgt a ha

end Boundary

/-! ### The first page and the others -/

/-- Ties behind the first boundary are ties of the rest. -/
lemma noSplitTie_drop {sorted : List α} (hlimit : 0 < limit) (h : NoSplitTie cmp limit sorted) :
    NoSplitTie cmp limit (sorted.drop limit) := by
  intro k a b hk ha hb
  rw [List.getElem?_drop] at ha hb
  have hpos : 0 < k * limit := Nat.mul_pos hk hlimit
  refine h (k + 1) a b (Nat.succ_pos k) ?_ ?_
  · rw [← ha, Nat.succ_mul]; congr 1; omega
  · rw [← hb, Nat.succ_mul]; congr 1; omega

/-- Without a tie at the first boundary the ties are those of the rest. -/
lemma noSplitTie_of_drop {sorted : List α} (hlimit : 0 < limit)
    (hfirst : ∀ a b, sorted[limit - 1]? = some a → sorted[limit]? = some b → cmp a b ≠ .eq)
    (h : NoSplitTie cmp limit (sorted.drop limit)) : NoSplitTie cmp limit sorted := by
  intro k a b hk ha hb
  obtain ⟨k, rfl⟩ : ∃ j, k = j + 1 := ⟨k - 1, by omega⟩
  by_cases hk0 : k = 0
  · subst hk0
    rw [Nat.zero_add, Nat.one_mul] at ha hb
    exact hfirst a b ha hb
  · have hpos : 0 < k * limit := Nat.mul_pos (by omega) hlimit
    refine h k a b (by omega) ?_ ?_
    · rw [List.getElem?_drop, ← ha, Nat.succ_mul]; congr 1; omega
    · rw [List.getElem?_drop, ← hb, Nat.succ_mul]; congr 1; omega

/-- The last element of a full page. -/
lemma getLast?_take {sorted : List α} (hlimit : 0 < limit) (hlen : limit < sorted.length) :
    (sorted.take limit).getLast? = sorted[limit - 1]? := by
  rw [List.getLast?_take, if_neg (by omega)]
  cases h : sorted[limit - 1]? with
  | some a => rfl
  | none =>
      rw [List.getElem?_eq_none_iff] at h
      omega

section Exact

variable (hcons : Consistent cmp all) (hlimit : 0 < limit)
include hcons hlimit

omit hlimit in
/-- The sorted elements behind the last one of a page, read off the page's own list. -/
private lemma sortBy_after_some {cursor : Option α} {last : α} (hcursor : ∀ c ∈ cursor, c ∈ all)
    (hmem : last ∈ after cmp all cursor) :
    sortBy cmp (after cmp all (some last)) =
      (sortBy cmp (after cmp all cursor)).filter fun a => cmp a last = .gt := by
  have hall : last ∈ all := after_subset cursor last hmem
  cases cursor with
  | none => exact sortBy_filter hcons
  | some c =>
      have hc : c ∈ all := hcursor c rfl
      have hlc : cmp last c = .gt := by simpa using (List.mem_filter.mp hmem).2
      have hlt := (hcons.lt_iff_gt hc hall).mpr hlc
      rw [after, after, sortBy_filter hcons, sortBy_filter hcons, List.filter_filter]
      refine List.filter_congr fun a ha => ?_
      have haall : a ∈ all := (mem_sortBy cmp).mp ha
      by_cases hgt : cmp a last = .gt
      · have hle : cmp last a ≠ .gt := by rw [hcons.swap a haall last hall, hgt]; decide
        have hac := (hcons.lt_iff_gt hc haall).mp
          (hcons.lt_of_lt_of_le hc hall haall hlt hle)
        simp [hgt, hac]
      · simp [hgt]

/-- Without a split tie the pages are the sorted elements, cut. -/
lemma Pages.flatten_eq {cursor : Option α} {pages : List (List α)}
    (h : Pages cmp limit all cursor pages) (hcursor : ∀ c ∈ cursor, c ∈ all)
    (htie : NoSplitTie cmp limit (sortBy cmp (after cmp all cursor))) :
    pages.flatten = sortBy cmp (after cmp all cursor) := by
  induction h with
  | last h => simp
  | @more cursor last pages h hlast hpages ih =>
      set sorted := sortBy cmp (after cmp all cursor) with hsorteddef
      have hconsAfter : Consistent cmp (after cmp all cursor) :=
        hcons.subset (after_subset cursor)
      have hconsSorted : Consistent cmp sorted :=
        hconsAfter.subset fun a ha => (mem_sortBy cmp).mp ha
      have hsorted := sortBy_pairwise hconsAfter
      have hlen : limit < sorted.length := by rwa [(sortBy_perm cmp _).length_eq]
      have hmem : last ∈ after cmp all cursor :=
        (mem_sortBy cmp).mp (List.mem_of_mem_take (List.mem_of_getLast? hlast))
      have hfirst : sorted[limit]? = some sorted[limit] := List.getElem?_eq_getElem hlen
      have hstrict : cmp last sorted[limit] ≠ .eq := by
        refine htie 1 last sorted[limit] one_pos ?_ (by rwa [Nat.one_mul])
        rw [Nat.one_mul, ← getLast?_take hlimit hlen, hlast]
      have hdrop := after_eq_drop hconsSorted hsorted hlast hfirst hstrict
      have hnext := sortBy_after_some hcons hcursor hmem
      rw [← hsorteddef, hdrop] at hnext
      have hrest := ih (by simpa using after_subset cursor last hmem)
        (by rw [hnext]; exact noSplitTie_drop hlimit htie)
      rw [List.flatten_cons, hrest, hnext, List.take_append_drop]

/-- A split tie loses an element. -/
lemma Pages.exists_lost {cursor : Option α} {pages : List (List α)}
    (h : Pages cmp limit all cursor pages) (hcursor : ∀ c ∈ cursor, c ∈ all)
    (hnodup : all.Nodup)
    (htie : ¬ NoSplitTie cmp limit (sortBy cmp (after cmp all cursor))) :
    ∃ a ∈ after cmp all cursor, a ∉ pages.flatten := by
  induction h with
  | @last cursor h =>
      -- A page that leaves nothing behind has no boundary.
      refine absurd (fun k a b hk _ hb => ?_) htie
      have hlen := (List.getElem?_eq_some_iff.mp hb).1
      rw [(sortBy_perm cmp _).length_eq] at hlen
      have hle : limit ≤ k * limit := Nat.le_mul_of_pos_left limit hk
      omega
  | @more cursor last pages h hlast hpages ih =>
      set sorted := sortBy cmp (after cmp all cursor) with hsorteddef
      have hconsAfter : Consistent cmp (after cmp all cursor) :=
        hcons.subset (after_subset cursor)
      have hconsSorted : Consistent cmp sorted :=
        hconsAfter.subset fun a ha => (mem_sortBy cmp).mp ha
      have hsorted := sortBy_pairwise hconsAfter
      have hlen : limit < sorted.length := by rwa [(sortBy_perm cmp _).length_eq]
      have hmem : last ∈ after cmp all cursor :=
        (mem_sortBy cmp).mp (List.mem_of_mem_take (List.mem_of_getLast? hlast))
      have hlastall : last ∈ all := after_subset cursor last hmem
      have hfirst : sorted[limit]? = some sorted[limit] := List.getElem?_eq_getElem hlen
      have hnodupAfter : (after cmp all cursor).Nodup := by
        cases cursor with
        | none => exact hnodup
        | some c => exact hnodup.filter _
      have hnodupSorted : sorted.Nodup := (sortBy_perm cmp _).nodup_iff.mpr hnodupAfter
      have hdisjoint : ∀ a ∈ sorted.drop limit, a ∉ sorted.take limit := fun a ha hta =>
        List.disjoint_take_drop hnodupSorted le_rfl hta ha
      have hcursor' : ∀ c ∈ some last, c ∈ all := by simpa using hlastall
      by_cases hstrict : cmp last sorted[limit] = .eq
      · -- The first element behind the boundary ties with the cursor.
        refine ⟨sorted[limit], (mem_sortBy cmp).mp (List.getElem_mem hlen), fun hmem' => ?_⟩
        rcases List.mem_append.mp hmem' with hpage | hpage
        · refine hdisjoint _ ?_ hpage
          rw [List.drop_eq_getElem_cons hlen]
          exact List.mem_cons_self
        · have hafter := hpages.subset hcons hcursor' _ hpage
          have hgt : cmp sorted[limit] last = .gt := by simpa using (List.mem_filter.mp hafter).2
          have heq := (hcons.eq_comm hlastall (after_subset cursor _
            ((mem_sortBy cmp).mp (List.getElem_mem hlen)))).mp hstrict
          rw [heq] at hgt
          cases hgt
      · have hdrop := after_eq_drop hconsSorted hsorted hlast hfirst hstrict
        have hnext := sortBy_after_some hcons hcursor hmem
        rw [← hsorteddef, hdrop] at hnext
        have htie' : ¬ NoSplitTie cmp limit (sortBy cmp (after cmp all (some last))) := by
          rw [hnext]
          refine fun hrest => htie (noSplitTie_of_drop hlimit (fun a b ha hb => ?_) hrest)
          rw [← getLast?_take hlimit hlen, hlast] at ha
          rw [hfirst] at hb
          cases ha
          cases hb
          exact hstrict
        obtain ⟨a, ha, hlost⟩ := ih hcursor' htie'
        have hadrop : a ∈ sorted.drop limit := by
          rw [← hnext]
          exact (mem_sortBy cmp).mpr ha
        refine ⟨a, (mem_sortBy cmp).mp (List.mem_of_mem_drop hadrop), fun hmem' => ?_⟩
        rcases List.mem_append.mp hmem' with hpage | hpage
        · exact hdisjoint a hadrop hpage
        · exact hlost hpage

/-- **Keyset paging is exact without split ties, and only then**: the pages contain every
element once and in order. -/
theorem pages_exact_iff {pages : List (List α)} (h : Pages cmp limit all none pages)
    (hnodup : all.Nodup) :
    (pages.flatten.Perm all ∧ pages.flatten.Pairwise fun a b => cmp a b ≠ .gt) ↔
      NoSplitTie cmp limit (sortBy cmp all) := by
  constructor
  · rintro ⟨hperm, -⟩
    by_contra htie
    obtain ⟨a, ha, hlost⟩ := h.exists_lost hcons hlimit (by simp) hnodup htie
    exact hlost (hperm.mem_iff.mpr ha)
  · intro htie
    have hflatten := h.flatten_eq hcons hlimit (by simp) htie
    rw [hflatten]
    exact ⟨sortBy_perm cmp all, sortBy_pairwise hcons⟩

end Exact

end KeysetPaging

end McpSurfaces
