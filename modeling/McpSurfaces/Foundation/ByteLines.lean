import McpSurfaces.Foundation.FileLines

/-!
The lines of a file as bytes, and those of the text that the bytes encode.

* `rawLines` cuts a list at its line feeds; what is behind the last one is a line of its own unless
  it is empty. `shownLines` are its lines without the carriage return at the end of each.
* **`shownLines_encode`**: the lines of the bytes encode the lines of the text.
-/

namespace McpSurfaces

namespace ByteLines

open TextLines (Text)

/-! ### Lines -/

section Lines

variable {α : Type*} [DecidableEq α]

/-- The lines of a list behind the beginning of one. -/
def rawLinesFrom (feed : α) (front : List α) : List α → List (List α)
  | [] => if front = [] then [] else [front]
  | a :: rest =>
      if a = feed then front :: rawLinesFrom feed [] rest
      else rawLinesFrom feed (front ++ [a]) rest

/-- The lines of a list, without the line feeds. -/
def rawLines (feed : α) (content : List α) : List (List α) := rawLinesFrom feed [] content

/-- A line without the carriage return at its end. -/
def stripEnd (ret : α) (line : List α) : List α :=
  if line.getLast? = some ret then line.dropLast else line

/-- The lines of a list as they are shown. -/
def shownLines (feed ret : α) (content : List α) : List (List α) :=
  (rawLines feed content).map (stripEnd ret)

lemma rawLinesFrom_append {feed : α} {front body rest : List α} (h : feed ∉ body) :
    rawLinesFrom feed front (body ++ rest) = rawLinesFrom feed (front ++ body) rest := by
  induction body generalizing front with
  | nil => rw [List.nil_append, List.append_nil]
  | cons a body ih =>
      have ha : ¬ a = feed := fun ha => h (ha ▸ List.mem_cons_self)
      rw [List.cons_append, rawLinesFrom, if_neg ha,
        ih fun hmem => h (List.mem_cons_of_mem a hmem), List.append_assoc, List.singleton_append]

lemma rawLinesFrom_feed (feed : α) (front rest : List α) :
    rawLinesFrom feed front (feed :: rest) = front :: rawLines feed rest := by
  rw [rawLinesFrom, if_pos rfl, rawLines]

end Lines

/-! ### UTF-8 -/

/-- The bytes of a text. -/
def encode (text : Text) : List UInt8 := text.flatMap String.utf8EncodeChar

/-- `String::from_utf8`. -/
def decode (bytes : List UInt8) : Option Text := (bytes.toByteArray.utf8Decode?).map Array.toList

lemma decode_encode (text : Text) : decode (encode text) = some text := by
  change (text.utf8Encode.utf8Decode?).map Array.toList = some text
  rw [List.utf8Decode?_utf8Encode, Option.map_some]

@[simp] lemma encode_nil : encode [] = [] := rfl

lemma encode_cons (c : Char) (text : Text) :
    encode (c :: text) = String.utf8EncodeChar c ++ encode text := List.flatMap_cons

lemma encode_append (front back : Text) : encode (front ++ back) = encode front ++ encode back :=
  List.flatMap_append

lemma encode_injective {text text' : Text} (h : encode text = encode text') : text = text' := by
  have hdecoded := decode_encode text
  rw [h, decode_encode] at hdecoded
  exact (Option.some.inj hdecoded).symm

lemma encode_eq_nil_iff {text : Text} : encode text = [] ↔ text = [] :=
  ⟨fun h => encode_injective (h.trans encode_nil.symm), fun h => h ▸ encode_nil⟩

/-- The bytes of a character: one below 128, which is its code, or all from 128 on. -/
lemma encodeChar_cases (c : Char) :
    (c.toNat < 128 ∧ String.utf8EncodeChar c = [UInt8.ofNat c.toNat]) ∨
      (128 ≤ c.toNat ∧ ∀ byte ∈ String.utf8EncodeChar c, 128 ≤ byte.toNat) := by
  rw [String.utf8EncodeChar, show c.val.toNat = c.toNat from rfl]
  split_ifs with hone htwo hthree
  · exact Or.inl ⟨by omega, rfl⟩
  all_goals
    refine Or.inr ⟨by omega, fun byte hbyte => ?_⟩
    simp only [List.mem_cons, List.not_mem_nil, or_false] at hbyte
  · rcases hbyte with rfl | rfl <;> rw [UInt8.toNat_ofNat'] <;> omega
  · rcases hbyte with rfl | rfl | rfl <;> rw [UInt8.toNat_ofNat'] <;> omega
  · rcases hbyte with rfl | rfl | rfl | rfl <;> rw [UInt8.toNat_ofNat'] <;> omega

/-- The bytes of a character other than a small one are other bytes. -/
lemma notMem_encodeChar {c d : Char} (hd : d.toNat < 128) (hne : c ≠ d) :
    UInt8.ofNat d.toNat ∉ String.utf8EncodeChar c := by
  have hbyte : (UInt8.ofNat d.toNat).toNat = d.toNat := by
    rw [UInt8.toNat_ofNat']
    omega
  rcases encodeChar_cases c with ⟨hc, hcode⟩ | ⟨-, hhigh⟩
  · rw [hcode, List.mem_singleton]
    intro heq
    have hsame := congrArg UInt8.toNat heq
    rw [hbyte, UInt8.toNat_ofNat', Nat.mod_eq_of_lt (by omega)] at hsame
    exact hne (Char.toNat_inj.mp hsame.symm)
  · intro hmem
    have := hhigh _ hmem
    omega

/-- **The lines of the bytes** encode those of the text. -/
lemma rawLinesFrom_encode (front text : Text) :
    rawLinesFrom 10 (encode front) (encode text) =
      (rawLinesFrom '\n' front text).map encode := by
  induction text generalizing front with
  | nil =>
      rw [encode_nil, rawLinesFrom, rawLinesFrom]
      split_ifs with hbytes htext htext
      · rfl
      · exact absurd (encode_eq_nil_iff.mp hbytes) htext
      · exact absurd (encode_eq_nil_iff.mpr htext) hbytes
      · rfl
  | cons c rest ih =>
      by_cases hc : c = '\n'
      · subst hc
        have hrest := ih []
        rw [encode_nil] at hrest
        rw [encode_cons, show String.utf8EncodeChar '\n' = [10] from rfl, List.singleton_append,
          rawLinesFrom_feed, rawLinesFrom_feed, rawLines, rawLines, hrest, List.map_cons]
      · have hbytes : (10 : UInt8) ∉ String.utf8EncodeChar c :=
          notMem_encodeChar (d := '\n') (by decide) hc
        rw [encode_cons, rawLinesFrom_append hbytes, rawLinesFrom, if_neg hc, ← ih, encode_append]
        congr 2
        exact (List.append_nil _).symm

lemma rawLines_encode (text : Text) :
    rawLines 10 (encode text) = (rawLines '\n' text).map encode :=
  rawLinesFrom_encode [] text

lemma getLast?_encode {text : Text} :
    (encode text).getLast? = some 13 ↔ text.getLast? = some '\r' := by
  rcases List.eq_nil_or_concat' text with rfl | ⟨front, c, rfl⟩
  · simp
  · have hbytes : encode [c] ≠ [] := fun h => List.cons_ne_nil c [] (encode_eq_nil_iff.mp h)
    have hsingle : encode [c] = String.utf8EncodeChar c := by
      rw [encode_cons, encode_nil, List.append_nil]
    rw [encode_append, List.getLast?_append_of_ne_nil _ hbytes, List.getLast?_concat, hsingle]
    constructor
    · intro hlast
      by_contra hne
      exact notMem_encodeChar (d := '\r') (by decide) (fun h => hne (congrArg some h))
        (List.mem_of_getLast? hlast)
    · rintro ⟨⟩
      rfl

lemma stripEnd_encode (line : Text) :
    stripEnd 13 (encode line) = encode (stripEnd '\r' line) := by
  rw [stripEnd, stripEnd]
  by_cases hlast : line.getLast? = some '\r'
  · obtain ⟨front, rfl⟩ := List.getLast?_eq_some_iff.mp hlast
    rw [if_pos hlast, if_pos (getLast?_encode.mpr hlast), List.dropLast_concat, encode_append]
    exact List.dropLast_concat
  · rw [if_neg hlast, if_neg fun h => hlast (getLast?_encode.mp h)]

/-- **The lines that are shown of the bytes** are those of the text. -/
theorem shownLines_encode (text : Text) :
    shownLines 10 13 (encode text) = (shownLines '\n' '\r' text).map encode := by
  rw [shownLines, rawLines_encode, shownLines, List.map_map, List.map_map]
  exact List.map_congr_left fun line _ => stripEnd_encode line

end ByteLines

end McpSurfaces
