import Mathlib.Tactic

/-!
Reading a list in pages, each asked for by what the page before it names.

* `Follows`: the pages that calls answer, one after the other, until a page names no further call.
  The calls are numbered, as they may differ in more than what they ask for.
* `Windowed`: a page has the items from its position on, at least one while there are any, and it
  names the position behind them while there are more.
* **`exists_follows`**: windowed pages end, and `flatMap_of_follows`: they have every item from the
  first position on, once and in order.
-/

namespace McpSurfaces

namespace OffsetPaging

variable {κ α ε π : Type*} {answer : ℕ → κ → Except ε π} {items : π → List α}
  {next : π → Option κ} {pos : κ → ℕ} {Ok : κ → Prop} {xs : List α}

/-- The pages from a call on. -/
inductive Follows (answer : ℕ → κ → Except ε π) (next : π → Option κ) : ℕ → κ → List π → Prop
  | last {i : ℕ} {key : κ} {page : π} (hpage : answer i key = .ok page)
      (hnext : next page = none) : Follows answer next i key [page]
  | more {i : ℕ} {key behind : κ} {page : π} {pages : List π} (hpage : answer i key = .ok page)
      (hnext : next page = some behind) (hrest : Follows answer next (i + 1) behind pages) :
      Follows answer next i key (page :: pages)

/-- There is a first page. -/
lemma Follows.exists_page {i : ℕ} {key : κ} {pages : List π} (h : Follows answer next i key pages) :
    ∃ page, answer i key = .ok page := by
  cases h with
  | last hpage _ => exact ⟨_, hpage⟩
  | more hpage _ _ => exact ⟨_, hpage⟩

/-- A page of a list at a position. -/
structure Windowed (items : π → List α) (next : π → Option κ) (pos : κ → ℕ) (Ok : κ → Prop)
    (xs : List α) (offset : ℕ) (page : π) : Prop where
  window : ∃ k, 0 < k ∧ items page = (xs.drop offset).take k
  more : offset + (items page).length < xs.length →
    ∃ behind, next page = some behind ∧ pos behind = offset + (items page).length ∧ Ok behind
  done : xs.length ≤ offset + (items page).length → next page = none

/-- A page that names a call has its items before the position of that call. -/
lemma Windowed.of_next {offset : ℕ} {page : π} {behind : κ}
    (h : Windowed items next pos Ok xs offset page) (hnext : next page = some behind) :
    pos behind = offset + (items page).length ∧ Ok behind := by
  rcases Nat.lt_or_ge (offset + (items page).length) xs.length with hmore | hdone
  · obtain ⟨behind', hbehind', hpos, hok⟩ := h.more hmore
    obtain rfl := Option.some.inj (hnext.symm.trans hbehind')
    exact ⟨hpos, hok⟩
  · exact absurd (hnext.symm.trans (h.done hdone)) nofun

/-- **Windowed pages have every item** from the first position on. -/
theorem flatMap_of_follows
    (h : ∀ i key page, Ok key → answer i key = .ok page →
      Windowed items next pos Ok xs (pos key) page)
    {i : ℕ} {key : κ} {pages : List π} (hok : Ok key) (hfollows : Follows answer next i key pages) :
    pages.flatMap items = xs.drop (pos key) := by
  induction hfollows with
  | @last i key page hpage hnext =>
      have hwindowed := h i key page hok hpage
      obtain ⟨k, -, hitems⟩ := hwindowed.window
      have hlast : xs.length ≤ pos key + (items page).length := by
        by_contra hmore
        obtain ⟨behind, hbehind, -⟩ := hwindowed.more (not_le.mp hmore)
        exact absurd (hnext.symm.trans hbehind) nofun
      have hall : (xs.drop (pos key)).length ≤ k := by
        have hlength := congrArg List.length hitems
        rw [List.length_take, List.length_drop] at hlength
        rw [List.length_drop]
        omega
      rw [List.flatMap_singleton, hitems, List.take_of_length_le hall]
  | @more i key behind page pages hpage hnext hrest ih =>
      have hwindowed := h i key page hok hpage
      obtain ⟨k, -, hitems⟩ := hwindowed.window
      obtain ⟨hpos, hok'⟩ := hwindowed.of_next hnext
      have hlength : (items page).length ≤ k := by
        rw [hitems]
        exact List.length_take_le k _
      have hsplit : (xs.drop (pos key)).take k = (xs.drop (pos key)).take (items page).length := by
        rw [List.take_eq_take_iff, hitems, List.length_take]
        omega
      calc (page :: pages).flatMap items
          = (xs.drop (pos key)).take k ++ xs.drop (pos behind) := by
            rw [List.flatMap_cons, hitems, ih hok']
        _ = (xs.drop (pos key)).take (items page).length ++
              (xs.drop (pos key)).drop (items page).length := by
            rw [hsplit, List.drop_drop, hpos]
        _ = xs.drop (pos key) := List.take_append_drop _ _

/-- **Windowed pages end.** -/
theorem exists_follows
    (h : ∀ i key, Ok key →
      ∃ page, answer i key = .ok page ∧ Windowed items next pos Ok xs (pos key) page)
    (i : ℕ) {key : κ} (hok : Ok key) : ∃ pages, Follows answer next i key pages := by
  -- what is left of the list becomes less with each page
  induction hleft : xs.length - pos key using Nat.strong_induction_on generalizing i key with
  | _ left ih =>
      obtain ⟨page, hpage, hwindowed⟩ := h i key hok
      obtain ⟨k, hk, hitems⟩ := hwindowed.window
      rcases Nat.lt_or_ge (pos key + (items page).length) xs.length with hmore | hdone
      · obtain ⟨behind, hnext, hpos, hok'⟩ := hwindowed.more hmore
        have hlength : (items page).length = min k (xs.length - pos key) := by
          rw [hitems, List.length_take, List.length_drop]
        obtain ⟨pages, hpages⟩ := ih (xs.length - pos behind) (by omega) (i + 1) hok' rfl
        exact ⟨page :: pages, .more hpage hnext hpages⟩
      · exact ⟨[page], .last hpage (hwindowed.done hdone)⟩

/-- Pages that name the position behind as many items as they have, and that end no sooner than some
total, have that many items. -/
theorem length_le_of_follows {total : ℕ}
    (h : ∀ i key page, Ok key → answer i key = .ok page →
      (∀ behind, next page = some behind →
        pos behind = pos key + (items page).length ∧ Ok behind) ∧
      (next page = none → total ≤ pos key + (items page).length))
    {i : ℕ} {key : κ} {pages : List π} (hok : Ok key) (hfollows : Follows answer next i key pages) :
    total ≤ pos key + (pages.flatMap items).length := by
  induction hfollows with
  | @last i key page hpage hnext =>
      rw [List.flatMap_singleton]
      exact (h i key page hok hpage).2 hnext
  | @more i key behind page pages hpage hnext hrest ih =>
      obtain ⟨hpos, hok'⟩ := (h i key page hok hpage).1 behind hnext
      have hrest := ih hok'
      rw [List.flatMap_cons, List.length_append]
      omega

/-- What holds of every page that is answered holds of those that follow. -/
theorem forall_of_follows {P : π → Prop}
    (h : ∀ i key page, Ok key → answer i key = .ok page →
      P page ∧ ∀ behind, next page = some behind → Ok behind)
    {i : ℕ} {key : κ} {pages : List π} (hok : Ok key) (hfollows : Follows answer next i key pages) :
    ∀ page ∈ pages, P page := by
  induction hfollows with
  | @last i key page hpage hnext =>
      exact fun other hother => List.mem_singleton.mp hother ▸ (h i key page hok hpage).1
  | @more i key behind page pages hpage hnext hrest ih =>
      obtain ⟨hholds, hok'⟩ := h i key page hok hpage
      exact List.forall_mem_cons.mpr ⟨hholds, ih (hok' behind hnext)⟩

end OffsetPaging

end McpSurfaces
