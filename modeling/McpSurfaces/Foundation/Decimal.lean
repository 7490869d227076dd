import Mathlib.Tactic

/-!
Numbers in decimal at a fixed width, with zeros in front: the order of the texts is the
order of the numbers.

* **`padded_append_lt`**: numbers below `10 ^ width` compare first, whatever follows them.
* **`fieldsText_lt`**: texts of fields, each at its width and behind it its mark, compare as the
  fields.
-/

namespace McpSurfaces

namespace Decimal

/-- The digits of a number, filled up with zeros to a width. -/
def padded (width n : ℕ) : List Char :=
  List.replicate (width - (Nat.toDigits 10 n).length) '0' ++ Nat.toDigits 10 n

variable {width m n : ℕ}

lemma length_padded (hwidth : 0 < width) (hn : n < 10 ^ width) :
    (padded width n).length = width := by
  have hlen : (Nat.toDigits 10 n).length ≤ width :=
    (Nat.length_toDigits_le_iff (by norm_num) hwidth).mpr hn
  rw [padded, List.length_append, List.length_replicate]
  omega

lemma isDigit_of_mem_padded {c : Char} (h : c ∈ padded width n) : c.isDigit := by
  rw [padded, List.mem_append] at h
  rcases h with h | h
  · rw [List.eq_of_mem_replicate h]
    decide
  · exact Nat.isDigit_of_mem_toDigits (by norm_num) (by norm_num) h

/-- The padding is read as nothing. -/
lemma ofDigitChars_padded : Nat.ofDigitChars 10 (padded width n) 0 = n := by
  rw [padded, Nat.ofDigitChars_append, Nat.ofDigitChars_replicate_zero, Nat.mul_zero,
    Nat.ofDigitChars_ten_toDigits]

/-! ### The order of the digits -/

lemma digit_bounds {c : Char} (h : c.isDigit) : '0'.toNat ≤ c.toNat ∧ c.toNat < '0'.toNat + 10 := by
  simp only [Char.isDigit, Bool.and_eq_true, decide_eq_true_eq, ge_iff_le,
    UInt32.le_iff_toNat_le] at h
  change 48 ≤ c.toNat ∧ c.toNat ≤ 57 at h
  change 48 ≤ c.toNat ∧ c.toNat < 48 + 10
  omega

/-- Digits write less than ten to their number. -/
lemma value_lt {cs : List Char} (h : ∀ c ∈ cs, c.isDigit) :
    Nat.ofDigitChars 10 cs 0 < 10 ^ cs.length := by
  induction cs with
  | nil => simp
  | cons c rest ih =>
      have hrest := ih fun d hd => h d (List.mem_cons_of_mem c hd)
      have hc := digit_bounds (h c List.mem_cons_self)
      rw [Nat.ofDigitChars_cons, Nat.ofDigitChars_eq_ofDigitChars_zero, List.length_cons, pow_succ]
      have hdigit : 10 * 0 + (c.toNat - '0'.toNat) ≤ 9 := by omega
      calc 10 ^ rest.length * (10 * 0 + (c.toNat - '0'.toNat)) + Nat.ofDigitChars 10 rest 0
          < 10 ^ rest.length * 9 + 10 ^ rest.length :=
            add_lt_add_of_le_of_lt (Nat.mul_le_mul_left _ hdigit) hrest
        _ = 10 ^ rest.length * 10 := by ring

/-- **Digits of one length compare as their numbers**, whatever follows them. -/
lemma lt_of_value_lt {cs ds us vs : List Char} (hlen : cs.length = ds.length)
    (hcs : ∀ c ∈ cs, c.isDigit) (hds : ∀ d ∈ ds, d.isDigit)
    (h : Nat.ofDigitChars 10 cs 0 < Nat.ofDigitChars 10 ds 0) : cs ++ us < ds ++ vs := by
  induction cs generalizing ds with
  | nil =>
      rw [List.length_eq_zero_iff.mp hlen.symm] at h
      exact absurd h (lt_irrefl _)
  | cons c cs ih =>
      cases ds with
      | nil => cases hlen
      | cons d ds =>
          rw [List.length_cons, List.length_cons, Nat.add_right_cancel_iff] at hlen
          have hcs' : ∀ c ∈ cs, c.isDigit := fun x hx => hcs x (List.mem_cons_of_mem c hx)
          have hds' : ∀ d ∈ ds, d.isDigit := fun x hx => hds x (List.mem_cons_of_mem d hx)
          have hc := digit_bounds (hcs c List.mem_cons_self)
          have hd := digit_bounds (hds d List.mem_cons_self)
          rw [Nat.ofDigitChars_cons, Nat.ofDigitChars_eq_ofDigitChars_zero, Nat.ofDigitChars_cons,
            Nat.ofDigitChars_eq_ofDigitChars_zero (l := ds), hlen] at h
          rw [List.cons_append, List.cons_append, List.cons_lt_cons_iff]
          rcases lt_trichotomy c.toNat d.toNat with hlt | heq | hgt
          · exact Or.inl hlt
          · -- the leading digits agree, so the rest decides
            rw [heq] at h
            exact Or.inr ⟨Char.toNat_inj.mp heq, ih hlen hcs' hds' (by omega)⟩
          · -- a greater leading digit outweighs all that follows
            exfalso
            have hrest := value_lt hds'
            have hlead : 10 * 0 + (d.toNat - '0'.toNat) + 1 ≤ 10 * 0 + (c.toNat - '0'.toNat) := by
              omega
            have hweight := Nat.mul_le_mul_left (10 ^ ds.length) hlead
            rw [Nat.mul_add, Nat.mul_one] at hweight
            omega

/-- **Numbers at a width compare before what follows them.** -/
theorem padded_append_lt (hwidth : 0 < width) (hmn : m < n) (hn : n < 10 ^ width)
    (us vs : List Char) : padded width m ++ us < padded width n ++ vs := by
  refine lt_of_value_lt ?_ (fun _ => isDigit_of_mem_padded) (fun _ => isDigit_of_mem_padded) ?_
  · rw [length_padded hwidth (hmn.trans hn), length_padded hwidth hn]
  · rwa [ofDigitChars_padded, ofDigitChars_padded]

/-! ### Fields -/

/-- The text of fields: each number at its width, and behind it its mark. -/
def fieldsText : List (ℕ × Char) → List ℕ → List Char
  | (width, mark) :: shape, n :: rest => padded width n ++ mark :: fieldsText shape rest
  | _, _ => []

/-- **Texts of fields compare as the fields.** -/
theorem fieldsText_lt {shape : List (ℕ × Char)} {ms ns : List ℕ}
    (hwidth : ∀ field ∈ shape, 0 < field.1) (hlen : ms.length = ns.length)
    (hfit : List.Forall₂ (fun field n => n < 10 ^ field.1) shape ns) (h : ms < ns) :
    fieldsText shape ms < fieldsText shape ns := by
  induction hfit generalizing ms with
  | nil =>
      rw [List.length_eq_zero_iff.mp hlen] at h
      exact absurd h (List.lt_irrefl _)
  | @cons field n shape rest hn hrest ih =>
      cases ms with
      | nil => cases hlen
      | cons m ms =>
          have hpos := hwidth field List.mem_cons_self
          rcases List.cons_lt_cons_iff.mp h with hlt | ⟨rfl, hlt⟩
          · exact padded_append_lt hpos hlt hn _ _
          · refine List.append_left_lt (List.cons_lt_cons_iff.mpr (.inr ⟨rfl, ?_⟩))
            exact ih (fun other hother => hwidth other (List.mem_cons_of_mem _ hother))
              (Nat.succ.inj hlen) hlt

end Decimal

end McpSurfaces
