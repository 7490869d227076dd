import McpSurfaces.Json.Value

/-!
The compact text of a JSON value, `serde_json::to_string`: no blanks, fields in
insertion order. It is the key of the value index, of the deduplication of answers
and of the digest of a ledger record.

* `Value.chars` is the text as characters. The digits of a float come from a crate
  of their own, the parameter `FloatText`; `FloatText.Lawful` is what its
  documentation promises.
* `Value.text_injective`: **the text determines the value**, the order of the
  fields included. `Value.scalar_chars_append_inj` is the case of the scalars, which
  needs nothing about floats.
-/

namespace McpSurfaces

/-- The printer of floats, a crate of its own. -/
class FloatText where
  text : F64 → String

/-- The characters of a JSON number. -/
def IsNumberChar (c : Char) : Prop := c.isDigit ∨ c = '-' ∨ c = '+' ∨ c = '.' ∨ c = 'e'

instance : DecidablePred IsNumberChar := fun c => by
  unfold IsNumberChar; infer_instance

/-- What the float printer promises: distinct floats have distinct texts, a text is
a JSON number and never one of an integer. -/
structure FloatText.Lawful [FloatText] : Prop where
  injective : ∀ x y : F64, FloatText.text x = FloatText.text y → x = y
  numberChars : ∀ x : F64, ∀ c ∈ (FloatText.text x).toList, IsNumberChar c
  notInteger : ∀ x : F64, '.' ∈ (FloatText.text x).toList ∨ 'e' ∈ (FloatText.text x).toList

/-- A stand-in for the printer of floats: the fields of the number in decimal. -/
@[reducible] def FloatText.fields : FloatText where
  text x := String.ofList (Nat.toDigits 10 x.fraction ++
    'e' :: Nat.toDigits 10 (2 * x.exponent + if x.sign then 1 else 0))

/-! ### Strings -/

/-- A lowercase hexadecimal digit. -/
def hexDigit (n : ℕ) : Char := Nat.digitChar n

/-- The escaped form of a character. -/
def escape (c : Char) : List Char :=
  if c = '"' then ['\\', '"']
  else if c = '\\' then ['\\', '\\']
  else if c = '\x08' then ['\\', 'b']
  else if c = '\t' then ['\\', 't']
  else if c = '\n' then ['\\', 'n']
  else if c = '\x0c' then ['\\', 'f']
  else if c = '\r' then ['\\', 'r']
  else if c.toNat < 32 then
    ['\\', 'u', '0', '0', hexDigit (c.toNat / 16), hexDigit (c.toNat % 16)]
  else [c]

/-- The value of a hexadecimal digit. -/
def hexValue (c : Char) : ℕ := if c.toNat < 58 then c.toNat - 48 else c.toNat - 87

/-- The first character of an escaped text and the rest. -/
def unescape : List Char → Option (Char × List Char)
  | '\\' :: 'b' :: r => some ('\x08', r)
  | '\\' :: 't' :: r => some ('\t', r)
  | '\\' :: 'n' :: r => some ('\n', r)
  | '\\' :: 'f' :: r => some ('\x0c', r)
  | '\\' :: 'r' :: r => some ('\r', r)
  | '\\' :: 'u' :: _ :: _ :: a :: b :: r => some (Char.ofNat (hexValue a * 16 + hexValue b), r)
  | '\\' :: c :: r => some (c, r)
  | c :: r => some (c, r)
  | [] => none

private lemma hexValue_hexDigit : ∀ n < 16, hexValue (hexDigit n) = n := by decide

/-- `unescape` reads back one escaped character. -/
lemma unescape_escape (c : Char) (r : List Char) : unescape (escape c ++ r) = some (c, r) := by
  unfold escape
  split_ifs with h₁ h₂ h₃ h₄ h₅ h₆ h₇ h₈
  · subst h₁; rfl
  · subst h₂; rfl
  · subst h₃; rfl
  · subst h₄; rfl
  · subst h₅; rfl
  · subst h₆; rfl
  · subst h₇; rfl
  · have ha := hexValue_hexDigit (c.toNat / 16) (by omega)
    have hb := hexValue_hexDigit (c.toNat % 16) (by omega)
    have hc : c.toNat / 16 * 16 + c.toNat % 16 = c.toNat := by omega
    simp only [List.cons_append, List.nil_append, unescape, ha, hb, hc, Char.ofNat_toNat]
  · simp only [List.cons_append, List.nil_append]
    unfold unescape
    split <;> simp_all

/-- An escaped character does not start with the closing quote. -/
lemma escape_head_ne_quote (c : Char) (r s : List Char) : escape c ++ r ≠ '"' :: s := by
  unfold escape
  split_ifs with h₁ <;> simp [h₁]

/-- A string between quotes. -/
def quoted (s : String) : List Char := '"' :: (s.toList.flatMap escape ++ ['"'])

private lemma flatMap_escape_inj (a b r s : List Char)
    (h : a.flatMap escape ++ '"' :: r = b.flatMap escape ++ '"' :: s) : a = b ∧ r = s := by
  induction a generalizing b with
  | nil =>
      cases b with
      | nil => simpa using h
      | cons d b =>
          rw [List.flatMap_cons, List.append_assoc] at h
          exact absurd h.symm (escape_head_ne_quote d _ _)
  | cons c a ih =>
      cases b with
      | nil =>
          rw [List.flatMap_cons, List.append_assoc] at h
          exact absurd h (escape_head_ne_quote c _ _)
      | cons d b =>
          rw [List.flatMap_cons, List.flatMap_cons, List.append_assoc, List.append_assoc] at h
          have hu := congrArg unescape h
          rw [unescape_escape, unescape_escape] at hu
          simp only [Option.some.injEq, Prod.mk.injEq] at hu
          obtain ⟨rfl, hrest⟩ := hu
          obtain ⟨rfl, hr⟩ := ih b hrest
          exact ⟨rfl, hr⟩

/-- A quoted string determines itself and what follows it. -/
lemma quoted_append_inj {k l : String} {r s : List Char}
    (h : quoted k ++ r = quoted l ++ s) : k = l ∧ r = s := by
  unfold quoted at h
  simp only [List.cons_append, List.append_assoc, List.nil_append, List.cons.injEq,
    true_and] at h
  obtain ⟨hkl, hrs⟩ := flatMap_escape_inj _ _ _ _ h
  exact ⟨String.toList_injective hkl, hrs⟩

/-! ### Numbers -/

variable [FloatText]

/-- The text of a number. -/
def Number.chars : Number → List Char
  | .posInt n _ => Nat.toDigits 10 n
  | .negInt n _ => '-' :: Nat.toDigits 10 (n + 1)
  | .float x => (FloatText.text x).toList

section

omit [FloatText]

private lemma toDigits_injective {m n : ℕ} (h : Nat.toDigits 10 m = Nat.toDigits 10 n) :
    m = n := by
  rw [← Nat.ofDigitChars_ten_toDigits (n := m), h, Nat.ofDigitChars_ten_toDigits]

private lemma isDigit_of_mem_toDigits {n : ℕ} {c : Char} (h : c ∈ Nat.toDigits 10 n) :
    c.isDigit :=
  Nat.isDigit_of_mem_toDigits (by norm_num) (by norm_num) h

private lemma toDigits_ne_dash {n : ℕ} {l : List Char} : Nat.toDigits 10 n ≠ '-' :: l := by
  intro h
  have hdash : '-' ∈ Nat.toDigits 10 n := h ▸ List.mem_cons_self
  exact absurd (isDigit_of_mem_toDigits hdash) (by decide)

end

/-- The numbers whose text is known: integers, and floats under the promise of their
printer. -/
def Number.Printed (n : Number) : Prop := n.IsInteger ∨ FloatText.Lawful

lemma Number.chars_all {n : Number} (hn : n.Printed) : ∀ c ∈ n.chars, IsNumberChar c := by
  intro c hc
  cases n with
  | posInt n _ => exact Or.inl (isDigit_of_mem_toDigits hc)
  | negInt n _ =>
      rcases List.mem_cons.mp hc with rfl | hc
      · exact Or.inr (Or.inl rfl)
      · exact Or.inl (isDigit_of_mem_toDigits hc)
  | float x => exact (hn.resolve_left id).numberChars x c hc

lemma Number.chars_ne_nil {n : Number} (hn : n.Printed) : n.chars ≠ [] := by
  cases n with
  | posInt n _ => exact Nat.toDigits_ne_nil
  | negInt n _ => exact List.cons_ne_nil _ _
  | float x =>
      show (FloatText.text x).toList ≠ []
      intro h
      rcases (hn.resolve_left id).notInteger x with hx | hx <;> simp [h] at hx

private lemma float_chars_ne_integer (hf : FloatText.Lawful) {x : F64} {n : Number}
    (hn : n.IsInteger) : (FloatText.text x).toList ≠ n.chars := by
  intro h
  have hdot : '.' ∉ n.chars ∧ 'e' ∉ n.chars := by
    cases n with
    | posInt n _ =>
        exact ⟨fun hc => absurd (isDigit_of_mem_toDigits hc) (by decide),
          fun hc => absurd (isDigit_of_mem_toDigits hc) (by decide)⟩
    | negInt n _ =>
        refine ⟨fun hc => ?_, fun hc => ?_⟩ <;>
        · rcases List.mem_cons.mp hc with hd | hd
          · exact absurd hd (by decide)
          · exact absurd (isDigit_of_mem_toDigits hd) (by decide)
    | float _ => exact absurd hn id
  rcases hf.notInteger x with hx | hx
  · exact hdot.1 (h ▸ hx)
  · exact hdot.2 (h ▸ hx)

omit [FloatText] in
/-- The promise of the printer can be kept. -/
lemma FloatText.fields_lawful : @FloatText.Lawful FloatText.fields := by
  refine @FloatText.Lawful.mk FloatText.fields ?_ ?_ ?_
  · intro x y h
    have hlist := String.ofList_injective h
    have he : ∀ n, 'e' ∉ Nat.toDigits 10 n := fun n hn =>
      absurd (isDigit_of_mem_toDigits hn) (by decide)
    obtain ⟨hfraction, -, hrest⟩ := (List.append_cons_inj_of_notMem (he _) (he _)).mp hlist
    have hfraction := Fin.ext (toDigits_injective hfraction)
    have hfields := toDigits_injective hrest
    have hsign : x.sign = y.sign := by
      cases hx : x.sign <;> cases hy : y.sign <;> simp [hx, hy] at hfields ⊢ <;> omega
    have hexponent : x.exponent = y.exponent := by
      rw [hsign] at hfields
      exact Fin.ext (by omega)
    cases x; cases y
    simp_all
  · intro x c hc
    rw [show (@FloatText.text FloatText.fields x).toList = _ from String.toList_ofList,
      List.mem_append, List.mem_cons] at hc
    rcases hc with hc | rfl | hc
    · exact Or.inl (isDigit_of_mem_toDigits hc)
    · simp [IsNumberChar]
    · exact Or.inl (isDigit_of_mem_toDigits hc)
  · intro x
    rw [show (@FloatText.text FloatText.fields x).toList = _ from String.toList_ofList]
    simp

/-- The text of a number determines the number. -/
lemma Number.chars_injective {m n : Number} (hm : m.Printed) (hn : n.Printed)
    (h : m.chars = n.chars) : m = n := by
  cases m with
  | posInt a _ =>
      cases n with
      | posInt b _ => cases toDigits_injective h; rfl
      | negInt b _ => exact absurd h toDigits_ne_dash
      | float y => exact absurd h.symm (float_chars_ne_integer (hn.resolve_left id) trivial)
  | negInt a _ =>
      cases n with
      | posInt b _ => exact absurd h.symm toDigits_ne_dash
      | negInt b _ =>
          have hab : a + 1 = b + 1 := toDigits_injective (List.cons.inj h).2
          cases Nat.succ.inj hab
          rfl
      | float y => exact absurd h.symm (float_chars_ne_integer (hn.resolve_left id) trivial)
  | float x =>
      cases n with
      | posInt b _ => exact absurd h (float_chars_ne_integer (hm.resolve_left id) trivial)
      | negInt b _ => exact absurd h (float_chars_ne_integer (hm.resolve_left id) trivial)
      | float y =>
          have hxy := (hm.resolve_left id).injective x y (String.toList_injective h)
          rw [hxy]

/-! ### Values -/

namespace Value

mutual

/-- The compact text of a value. -/
def chars : Value → List Char
  | .null => ['n', 'u', 'l', 'l']
  | .bool true => ['t', 'r', 'u', 'e']
  | .bool false => ['f', 'a', 'l', 's', 'e']
  | .number n => n.chars
  | .string s => quoted s
  | .array [] => ['[', ']']
  | .array (v :: rest) => '[' :: (v.chars ++ itemsChars rest)
  | .object [] => ['{', '}']
  | .object ((k, v) :: rest) => '{' :: (quoted k ++ ':' :: (v.chars ++ fieldsChars rest))

/-- The text of the items after the first, with the closing bracket. -/
def itemsChars : List Value → List Char
  | [] => [']']
  | v :: rest => ',' :: (v.chars ++ itemsChars rest)

/-- The text of the fields after the first, with the closing brace. -/
def fieldsChars : List (String × Value) → List Char
  | [] => ['}']
  | (k, v) :: rest => ',' :: (quoted k ++ ':' :: (v.chars ++ fieldsChars rest))

end

/-- `serde_json::to_string`, the bytes of the characters one behind the other. -/
def text (v : Value) : String where
  toByteArray := ⟨⟨v.chars.flatMap String.utf8EncodeChar⟩⟩
  isValidUTF8 := ⟨v.chars, ByteArray.ext (by rw [List.utf8Encode, List.data_toByteArray])⟩

lemma text_eq_ofList (v : Value) : v.text = String.ofList v.chars :=
  String.toByteArray_inj.mp (ByteArray.ext (by
    rw [String.toByteArray_ofList, List.utf8Encode, List.data_toByteArray, text]))

/-- What may follow a value: nothing, or a character of no number. -/
def Ends (r : List Char) : Prop := ∀ c ∈ r.head?, ¬ IsNumberChar c

section

omit [FloatText]

lemma ends_nil : Ends [] := by simp [Ends]

lemma ends_cons {c : Char} {r : List Char} (h : ¬ IsNumberChar c) : Ends (c :: r) := by
  simpa [Ends] using h

/-- Two runs of number characters that are followed by something else. -/
private lemma append_inj_of_ends {a b r s : List Char} (ha : ∀ c ∈ a, IsNumberChar c)
    (hb : ∀ c ∈ b, IsNumberChar c) (hr : Ends r) (hs : Ends s) (h : a ++ r = b ++ s) :
    a = b ∧ r = s := by
  induction a generalizing b with
  | nil =>
      cases b with
      | nil => exact ⟨rfl, h⟩
      | cons d b =>
          rw [List.nil_append] at h
          exact absurd (hb d List.mem_cons_self) (hr d (by simp [h]))
  | cons c a ih =>
      cases b with
      | nil =>
          rw [List.nil_append] at h
          exact absurd (ha c List.mem_cons_self) (hs c (by simp [← h]))
      | cons d b =>
          obtain ⟨rfl, htail⟩ := List.cons.inj h
          obtain ⟨rfl, hrs⟩ := ih (fun c hc => ha c (List.mem_cons_of_mem _ hc))
            (fun c hc => hb c (List.mem_cons_of_mem _ hc)) htail
          exact ⟨rfl, hrs⟩

end

/-- The number texts are a prefix code once something ends them. -/
lemma number_chars_append_inj {m n : Number} (hm : m.Printed) (hn : n.Printed)
    {r s : List Char} (hr : Ends r) (hs : Ends s) (h : m.chars ++ r = n.chars ++ s) :
    m = n ∧ r = s := by
  obtain ⟨hmn, hrs⟩ := append_inj_of_ends (Number.chars_all hm) (Number.chars_all hn) hr hs h
  exact ⟨Number.chars_injective hm hn hmn, hrs⟩

/-- Only a number starts with a number character. -/
private lemma number_chars_ne_cons {n : Number} (hn : n.Printed) {c : Char}
    (hc : ¬ IsNumberChar c) (r s : List Char) : n.chars ++ r ≠ c :: s := by
  intro h
  cases hd : n.chars with
  | nil => exact Number.chars_ne_nil hn hd
  | cons d l =>
      rw [hd, List.cons_append] at h
      have hdc : d = c := (List.cons.inj h).1
      exact hc (hdc ▸ Number.chars_all hn d (hd ▸ List.mem_cons_self))

/-- The first character of the text of anything but a number. -/
private def lead : Value → Char
  | .null => 'n'
  | .bool b => if b then 't' else 'f'
  | .number _ => '0'
  | .string _ => '"'
  | .array _ => '['
  | .object _ => '{'

/-- The values whose number, if they are one, has a known text. -/
private def Known : Value → Prop
  | .number n => n.Printed
  | _ => True

/-- Two values that start alike: of one kind, and equal when the kind leaves no
choice. -/
private inductive SameKind : Value → Value → Prop
  | null : SameKind .null .null
  | bool (b : Bool) : SameKind (.bool b) (.bool b)
  | number (m n : Number) : SameKind (.number m) (.number n)
  | string (a b : String) : SameKind (.string a) (.string b)
  | array (a b : List Value) : SameKind (.array a) (.array b)
  | object (a b : Map) : SameKind (.object a) (.object b)

private lemma chars_eq_lead_cons {v : Value} (hv : ∀ n, v ≠ .number n) :
    ∃ l, v.chars = lead v :: l := by
  cases v with
  | null => exact ⟨_, rfl⟩
  | bool b => cases b <;> exact ⟨_, rfl⟩
  | number n => exact absurd rfl (hv n)
  | string s => exact ⟨_, rfl⟩
  | array items => cases items <;> exact ⟨_, rfl⟩
  | object fields => cases fields <;> exact ⟨_, rfl⟩

omit [FloatText] in
private lemma lead_not_numberChar {v : Value} (hv : ∀ n, v ≠ .number n) :
    ¬ IsNumberChar (lead v) := by
  cases v with
  | number n => exact absurd rfl (hv n)
  | bool b => cases b <;> (simp only [lead]; decide)
  | _ => simp only [lead]; decide

omit [FloatText] in
private lemma sameKind_of_lead {v w : Value} (hv : ∀ n, v ≠ .number n)
    (hw : ∀ n, w ≠ .number n) (h : lead v = lead w) : SameKind v w := by
  rcases v with _ | (_ | _) | _ | _ | _ | _ <;> rcases w with _ | (_ | _) | _ | _ | _ | _ <;>
    first
      | constructor
      | exact absurd rfl (hv _)
      | exact absurd rfl (hw _)
      | exact absurd h (by simp [lead])

/-- Values of the same text are of the same kind. -/
private lemma sameKind_of_chars {v w : Value} (hv : Known v) (hw : Known w) {r s : List Char}
    (h : v.chars ++ r = w.chars ++ s) : SameKind v w := by
  by_cases hvn : ∃ n, v = .number n
  · obtain ⟨m, rfl⟩ := hvn
    by_cases hwn : ∃ n, w = .number n
    · obtain ⟨n, rfl⟩ := hwn
      exact .number m n
    · have hw' : ∀ n, w ≠ .number n := fun n hn => hwn ⟨n, hn⟩
      obtain ⟨l, hl⟩ := chars_eq_lead_cons hw'
      rw [hl, List.cons_append] at h
      exact absurd h (number_chars_ne_cons hv (lead_not_numberChar hw') r _)
  · have hv' : ∀ n, v ≠ .number n := fun n hn => hvn ⟨n, hn⟩
    obtain ⟨l, hl⟩ := chars_eq_lead_cons hv'
    rw [hl, List.cons_append] at h
    by_cases hwn : ∃ n, w = .number n
    · obtain ⟨n, rfl⟩ := hwn
      exact absurd h.symm (number_chars_ne_cons hw (lead_not_numberChar hv') s _)
    · have hw' : ∀ n, w ≠ .number n := fun n hn => hwn ⟨n, hn⟩
      obtain ⟨l', hl'⟩ := chars_eq_lead_cons hw'
      rw [hl', List.cons_append] at h
      exact sameKind_of_lead hv' hw' (List.cons.inj h).1

/-- **The texts of scalars are a prefix code** once something ends them. -/
theorem scalar_chars_append_inj {v w : Value} (hv : v.Scalar) (hw : w.Scalar)
    {r s : List Char} (hr : Ends r) (hs : Ends s) (h : v.chars ++ r = w.chars ++ s) :
    v = w ∧ r = s := by
  have known : ∀ u : Value, u.Scalar → Known u := fun u hu => by
    cases u with
    | number n => exact Or.inl hu
    | _ => trivial
  cases sameKind_of_chars (known v hv) (known w hw) h with
  | null => exact ⟨rfl, List.append_cancel_left h⟩
  | bool b => exact ⟨rfl, List.append_cancel_left h⟩
  | number m n =>
      obtain ⟨rfl, hrs⟩ := number_chars_append_inj (Or.inl hv) (Or.inl hw) hr hs h
      exact ⟨rfl, hrs⟩
  | string a b =>
      obtain ⟨rfl, hrs⟩ := quoted_append_inj h
      exact ⟨rfl, hrs⟩
  | array a b => exact absurd hv id
  | object a b => exact absurd hv id

/-! ### The text of an object -/

omit [FloatText] in
private lemma ends_comma (r : List Char) : Ends (',' :: r) := ends_cons (by decide)

omit [FloatText] in
private lemma ends_close (r : List Char) : Ends (']' :: r) ∧ Ends ('}' :: r) :=
  ⟨ends_cons (by decide), ends_cons (by decide)⟩

private lemma itemsChars_ends (vs : List Value) (r : List Char) : Ends (itemsChars vs ++ r) := by
  cases vs with
  | nil => exact (ends_close r).1
  | cons v vs => exact ends_comma _

private lemma fieldsChars_ends (es : List (String × Value)) (r : List Char) :
    Ends (fieldsChars es ++ r) := by
  cases es with
  | nil => exact (ends_close r).2
  | cons e es => exact ends_comma _

/-- Reading back one value off a text, whatever ends it. -/
def ReadsBack (v : Value) (P : Value → Prop) : Prop :=
  ∀ w, P w → ∀ r s : List Char, Ends r → Ends s → v.chars ++ r = w.chars ++ s → v = w ∧ r = s

private lemma itemsChars_append_inj {P : Value → Prop} {vs ws : List Value}
    (hvs : ∀ v ∈ vs, ReadsBack v P) (hws : ∀ w ∈ ws, P w) {r s : List Char}
    (h : itemsChars vs ++ r = itemsChars ws ++ s) : vs = ws ∧ r = s := by
  induction vs generalizing ws with
  | nil =>
      cases ws with
      | nil => exact ⟨rfl, (List.cons.inj h).2⟩
      | cons w ws => exact absurd (List.cons.inj h).1 (by decide)
  | cons v vs ih =>
      cases ws with
      | nil => exact absurd (List.cons.inj h).1 (by decide)
      | cons w ws =>
          have h' : v.chars ++ (itemsChars vs ++ r) = w.chars ++ (itemsChars ws ++ s) := by
            simpa [itemsChars] using h
          obtain ⟨rfl, htail⟩ := hvs v List.mem_cons_self w (hws w List.mem_cons_self) _ _
            (itemsChars_ends vs r) (itemsChars_ends ws s) h'
          obtain ⟨rfl, hrs⟩ := ih (fun v hv => hvs v (List.mem_cons_of_mem _ hv))
            (fun w hw => hws w (List.mem_cons_of_mem _ hw)) htail
          exact ⟨rfl, hrs⟩

private lemma fieldsChars_append_inj {P : Value → Prop} {as bs : List (String × Value)}
    (has : ∀ e ∈ as, ReadsBack e.2 P) (hbs : ∀ e ∈ bs, P e.2) {r s : List Char}
    (h : fieldsChars as ++ r = fieldsChars bs ++ s) : as = bs ∧ r = s := by
  induction as generalizing bs with
  | nil =>
      cases bs with
      | nil => exact ⟨rfl, (List.cons.inj h).2⟩
      | cons e bs => exact absurd (List.cons.inj h).1 (by decide)
  | cons e as ih =>
      cases bs with
      | nil => exact absurd (List.cons.inj h).1 (by decide)
      | cons f bs =>
          obtain ⟨k, v⟩ := e
          obtain ⟨l, w⟩ := f
          have h' : quoted k ++ ':' :: (v.chars ++ (fieldsChars as ++ r)) =
              quoted l ++ ':' :: (w.chars ++ (fieldsChars bs ++ s)) := by
            simpa [fieldsChars] using h
          obtain ⟨rfl, hvalue⟩ := quoted_append_inj h'
          obtain ⟨rfl, htail⟩ := has (k, v) List.mem_cons_self w (hbs (k, w) List.mem_cons_self)
            _ _ (fieldsChars_ends as r) (fieldsChars_ends bs s) (List.cons.inj hvalue).2
          obtain ⟨rfl, hrs⟩ := ih (fun e he => has e (List.mem_cons_of_mem _ he))
            (fun e he => hbs e (List.mem_cons_of_mem _ he)) htail
          exact ⟨rfl, hrs⟩

private lemma array_chars_append_inj (hf : FloatText.Lawful) {vs ws : List Value}
    (hvs : ∀ v ∈ vs, ReadsBack v fun _ => True) {r s : List Char}
    (h : (Value.array vs).chars ++ r = (Value.array ws).chars ++ s) : vs = ws ∧ r = s := by
  have close : ∀ (v : Value) (r s : List Char), v.chars ++ r ≠ ']' :: s := by
    intro v r s hv
    by_cases hvn : ∃ n, v = .number n
    · obtain ⟨n, rfl⟩ := hvn
      exact number_chars_ne_cons (Or.inr hf) (by decide) r s hv
    · have hv' : ∀ n, v ≠ .number n := fun n hn => hvn ⟨n, hn⟩
      obtain ⟨l, hl⟩ := chars_eq_lead_cons hv'
      rw [hl, List.cons_append] at hv
      have hlead := (List.cons.inj hv).1
      rcases v with _ | (_ | _) | _ | _ | _ | _ <;> simp [lead] at hlead
  cases vs with
  | nil =>
      cases ws with
      | nil => exact ⟨rfl, List.append_cancel_left h⟩
      | cons w ws =>
          have h' : w.chars ++ (itemsChars ws ++ s) = ']' :: r := by
            simpa [chars] using h.symm
          exact absurd h' (close w _ _)
  | cons v vs =>
      cases ws with
      | nil =>
          have h' : v.chars ++ (itemsChars vs ++ r) = ']' :: s := by
            simpa [chars] using h
          exact absurd h' (close v _ _)
      | cons w ws =>
          -- Behind the bracket the text is that of the items after a first one.
          have h' : itemsChars (v :: vs) ++ r = itemsChars (w :: ws) ++ s := by
            simpa [chars, itemsChars] using h
          exact itemsChars_append_inj hvs (fun _ _ => trivial) h'

/-- An object determines its fields, in order, as soon as its values can be read
back. -/
lemma object_chars_append_inj {P : Value → Prop} {as bs : Map}
    (has : ∀ e ∈ as, ReadsBack e.2 P) (hbs : ∀ e ∈ bs, P e.2) {r s : List Char}
    (h : (Value.object as).chars ++ r = (Value.object bs).chars ++ s) : as = bs ∧ r = s := by
  cases as with
  | nil =>
      cases bs with
      | nil => exact ⟨rfl, List.append_cancel_left h⟩
      | cons f bs => exact absurd (List.cons.inj (List.cons.inj h).2).1 (by decide)
  | cons e as =>
      cases bs with
      | nil => exact absurd (List.cons.inj (List.cons.inj h).2).1 (by decide)
      | cons f bs =>
          obtain ⟨k, v⟩ := e
          obtain ⟨l, w⟩ := f
          have h' : fieldsChars ((k, v) :: as) ++ r = fieldsChars ((l, w) :: bs) ++ s := by
            simpa [chars, fieldsChars] using h
          exact fieldsChars_append_inj has hbs h'

/-- **The text determines an object of scalars**, the order of its fields included. -/
theorem scalar_object_text_injective {as bs : Map} (has : ∀ e ∈ as, e.2.Scalar)
    (hbs : ∀ e ∈ bs, e.2.Scalar) (h : text (.object as) = text (.object bs)) : as = bs := by
  have hchars : (Value.object as).chars ++ [] = (Value.object bs).chars ++ [] := by
    simpa [text_eq_ofList] using congrArg String.toList h
  exact (object_chars_append_inj (P := Scalar)
    (fun e he w hw r s hr hs => scalar_chars_append_inj (has e he) hw hr hs) hbs hchars).1

/-! ### The text of any value -/

/-- The texts of all values are a prefix code under the promise of the float
printer. -/
lemma readsBack (hf : FloatText.Lawful) (v : Value) : ReadsBack v fun _ => True := by
  have known : ∀ u : Value, Known u := fun u => by
    cases u with
    | number n => exact Or.inr hf
    | _ => trivial
  induction v using Value.ind with
  | null =>
      intro w _ r s _ _ h
      cases sameKind_of_chars (known _) (known w) h
      exact ⟨rfl, List.append_cancel_left h⟩
  | bool b =>
      intro w _ r s _ _ h
      cases sameKind_of_chars (known _) (known w) h
      exact ⟨rfl, List.append_cancel_left h⟩
  | number m =>
      intro w _ r s hr hs h
      cases sameKind_of_chars (known _) (known w) h
      obtain ⟨rfl, hrs⟩ := number_chars_append_inj (Or.inr hf) (Or.inr hf) hr hs h
      exact ⟨rfl, hrs⟩
  | string a =>
      intro w _ r s _ _ h
      cases sameKind_of_chars (known _) (known w) h
      obtain ⟨rfl, hrs⟩ := quoted_append_inj h
      exact ⟨rfl, hrs⟩
  | array items ih =>
      intro w _ r s _ _ h
      cases sameKind_of_chars (known _) (known w) h
      obtain ⟨rfl, hrs⟩ := array_chars_append_inj hf ih h
      exact ⟨rfl, hrs⟩
  | object fields ih =>
      intro w _ r s _ _ h
      cases sameKind_of_chars (known _) (known w) h
      obtain ⟨rfl, hrs⟩ := object_chars_append_inj ih (fun _ _ => trivial) h
      exact ⟨rfl, hrs⟩

/-- **The text determines the value.** -/
theorem text_injective (hf : FloatText.Lawful) {v w : Value} (h : v.text = w.text) : v = w := by
  have hchars : v.chars ++ [] = w.chars ++ [] := by
    simpa [text_eq_ofList] using congrArg String.toList h
  exact (readsBack hf v w trivial [] [] ends_nil ends_nil hchars).1

end Value

end McpSurfaces
