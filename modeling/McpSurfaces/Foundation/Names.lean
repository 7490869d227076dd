import Mathlib.Tactic

/-!
Names that are put together from parts and a separator, and what they name.

* `mem_toString`, **`toString_injective`**: the decimal text of an integer has no letters, and
  names the integer.
-/

namespace McpSurfaces

namespace Names

/-! ### Separators -/

section Separators

variable {α : Type*} {a a' b b' : List α} {c : α}

/-- A part before the first separator. -/
lemma append_cons_inj_left (h : c ∉ a) (h' : c ∉ a') :
    a ++ c :: b = a' ++ c :: b' ↔ a = a' ∧ b = b' := by
  constructor
  · intro heq
    induction a generalizing a' with
    | nil =>
        cases a' with
        | nil => exact ⟨rfl, (List.cons.inj heq).2⟩
        | cons x rest => exact absurd ((List.cons.inj heq).1 ▸ List.mem_cons_self) h'
    | cons x rest ih =>
        cases a' with
        | nil => exact absurd ((List.cons.inj heq).1 ▸ List.mem_cons_self) h
        | cons y rest' =>
            obtain ⟨rfl, hrest⟩ := List.cons.inj heq
            obtain ⟨rfl, rfl⟩ := ih (fun hc => h (List.mem_cons_of_mem _ hc))
              (fun hc => h' (List.mem_cons_of_mem _ hc)) hrest
            exact ⟨rfl, rfl⟩
  · rintro ⟨rfl, rfl⟩
    rfl

/-- A part behind the last separator. -/
lemma append_cons_inj_right (h : c ∉ b) (h' : c ∉ b') :
    a ++ c :: b = a' ++ c :: b' ↔ a = a' ∧ b = b' := by
  rw [← List.reverse_inj, List.reverse_append, List.reverse_append, List.reverse_cons,
    List.reverse_cons, List.append_assoc, List.append_assoc, List.singleton_append,
    List.singleton_append, append_cons_inj_left (by simpa using h) (by simpa using h'),
    List.reverse_inj, List.reverse_inj, and_comm]

end Separators

/-! ### Integers -/

lemma toList_toString_nat (n : ℕ) : (toString (n : ℤ)).toList = Nat.toDigits 10 n :=
  String.toList_ofList

lemma toList_toString_negSucc (n : ℕ) :
    (toString (Int.negSucc n)).toList = '-' :: Nat.toDigits 10 (n + 1) := by
  show ("-" ++ Nat.repr (n + 1)).toList = _
  rw [String.toList_append, Nat.toList_repr]
  rfl

/-- The characters of a decimal text. -/
lemma mem_toString {n : ℤ} {c : Char} (h : c ∈ (toString n).toList) : c.isDigit ∨ c = '-' := by
  have hdigit {m : ℕ} (h : c ∈ Nat.toDigits 10 m) : c.isDigit :=
    Nat.isDigit_of_mem_toDigits (by norm_num) (by norm_num) h
  cases n with
  | ofNat m =>
      rw [Int.ofNat_eq_natCast, toList_toString_nat] at h
      exact .inl (hdigit h)
  | negSucc m =>
      rw [toList_toString_negSucc] at h
      rcases List.mem_cons.mp h with h | h
      · exact .inr h
      · exact .inl (hdigit h)

/-- A character that is neither a digit nor a sign is in no decimal text. -/
lemma notMem_toString {c : Char} (hdigit : c.isDigit = false) (hsign : c ≠ '-') (n : ℤ) :
    c ∉ (toString n).toList := by
  intro h
  rcases mem_toString h with h | h
  · rw [hdigit] at h
    cases h
  · exact hsign h

lemma toDigits_injective {m n : ℕ} (h : Nat.toDigits 10 m = Nat.toDigits 10 n) : m = n := by
  calc m = Nat.ofDigitChars 10 (Nat.toDigits 10 m) 0 := Nat.ofDigitChars_ten_toDigits.symm
    _ = Nat.ofDigitChars 10 (Nat.toDigits 10 n) 0 := by rw [h]
    _ = n := Nat.ofDigitChars_ten_toDigits

/-- **A decimal text names its integer.** -/
theorem toString_injective {m n : ℤ} (h : toString m = toString n) : m = n := by
  have hchars := congrArg String.toList h
  have hsign {i j : ℕ} (heq : Nat.toDigits 10 i = '-' :: Nat.toDigits 10 j) : False := by
    have hmem : '-' ∈ Nat.toDigits 10 i := heq ▸ List.mem_cons_self
    exact absurd (Nat.isDigit_of_mem_toDigits (by norm_num) (by norm_num) hmem) (by decide)
  cases m with
  | ofNat i =>
      cases n with
      | ofNat j =>
          rw [Int.ofNat_eq_natCast, Int.ofNat_eq_natCast, toList_toString_nat,
            toList_toString_nat] at hchars
          rw [toDigits_injective hchars]
      | negSucc j =>
          rw [Int.ofNat_eq_natCast, toList_toString_nat, toList_toString_negSucc] at hchars
          exact (hsign hchars).elim
  | negSucc i =>
      cases n with
      | ofNat j =>
          rw [Int.ofNat_eq_natCast, toList_toString_nat, toList_toString_negSucc] at hchars
          exact (hsign hchars.symm).elim
      | negSucc j =>
          rw [toList_toString_negSucc, toList_toString_negSucc] at hchars
          rw [Nat.succ_injective (toDigits_injective (List.cons.inj hchars).2)]

end Names

end McpSurfaces
