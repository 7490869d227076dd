import McpSurfaces.LedgerDomain.CursorToken
import McpSurfaces.LedgerDomain.Proposals
import McpSurfaces.Query.Paging

/-!
The tokens that `generic_query_locked` reads and issues.

* `Sound`: a token is answered, and it is taken for a cursor only where a cursor is written so, up
  to the case of its digits. `Clear` says of a token that no slice splits a character in it, and
  that what it spells, where that is a cursor, is the compact text of a value without signs.
* **`sound_iff_clear`**: a token is sound exactly when it is clear, and issued cursors are read
  back.
-/

namespace McpSurfaces

namespace LedgerDomain

namespace QueryTokens

/-! ### Pairs of digits -/

/-- The characters of pairs. -/
def flatPairs (pairs : List (Char × Char)) : List Char := pairs.flatMap fun p => [p.1, p.2]

/-- A slice of two bytes ends inside a character. -/
def Straddles : List Char → Prop
  | [] => False
  | [c] => 2 < c.utf8Size
  | c :: d :: _ => 2 < c.utf8Size ∨ c.utf8Size = 1 ∧ 1 < d.utf8Size

@[simp] lemma flatPairs_nil : flatPairs [] = [] := rfl

@[simp] lemma flatPairs_cons (c d : Char) (pairs : List (Char × Char)) :
    flatPairs ((c, d) :: pairs) = c :: d :: flatPairs pairs := rfl

private lemma hexRadix_ofNat : ∀ k < 103, ∀ n ∈ hexRadix (Char.ofNat k),
    n < 16 ∧ (Char.ofNat k).utf8Size = 1 ∧ Char.ofNat k ≠ '+' ∧
      (Char.ofNat k).toLower = hexDigit n := by
  decide

/-- A digit in base sixteen is a character of one byte, and small it is the digit that is
written. -/
private lemma hexRadix_eq_some {c : Char} {n : ℕ} (h : hexRadix c = some n) :
    n < 16 ∧ c.utf8Size = 1 ∧ c ≠ '+' ∧ c.toLower = hexDigit n := by
  have hbound : c.toNat < 103 := by
    have hcode := h
    simp only [hexRadix, Char.isDigit, Char.le_def, UInt32.le_iff_toNat_le] at hcode
    split at hcode
    · next hdigit =>
        simp only [Bool.and_eq_true, decide_eq_true_eq] at hdigit
        exact lt_of_le_of_lt hdigit.2 (by decide)
    · split at hcode
      · next hsmall => exact lt_of_le_of_lt hsmall.2 (by decide)
      · split at hcode
        · next hlarge => exact lt_of_le_of_lt hlarge.2 (by decide)
        · cases hcode
  have hchar : Char.ofNat c.toNat = c := Char.ofNat_toNat c
  have hread := hexRadix_ofNat c.toNat hbound n (by rw [hchar]; exact h)
  rwa [hchar] at hread

/-- A pair that is read consists of characters of one byte. -/
private lemma byteFromRadix_eq_some {c d : Char} {byte : UInt8}
    (h : byteFromRadix c d = some byte) : c.utf8Size = 1 ∧ d.utf8Size = 1 := by
  unfold byteFromRadix at h
  split at h
  · next hsign =>
      obtain ⟨n, hn, -⟩ := Option.map_eq_some_iff.mp h
      subst hsign
      exact ⟨rfl, (hexRadix_eq_some hn).2.1⟩
  · obtain ⟨high, hhigh, h⟩ := Option.bind_eq_some_iff.mp h
    obtain ⟨low, hlow, -⟩ := Option.bind_eq_some_iff.mp h
    exact ⟨(hexRadix_eq_some hhigh).2.1, (hexRadix_eq_some hlow).2.1⟩

/-- A pair without a sign is the pair that is written for its byte, up to the case. -/
private lemma toLower_pair {c d : Char} {byte : UInt8} (h : byteFromRadix c d = some byte)
    (hsign : c ≠ '+') : [c.toLower, d.toLower] = hexPair byte := by
  rw [byteFromRadix, if_neg hsign] at h
  obtain ⟨high, hhigh, h⟩ := Option.bind_eq_some_iff.mp h
  obtain ⟨low, hlow, h⟩ := Option.bind_eq_some_iff.mp h
  cases h
  obtain ⟨hhighBound, -, -, hhigh⟩ := hexRadix_eq_some hhigh
  obtain ⟨hlowBound, -, -, hlow⟩ := hexRadix_eq_some hlow
  have hbyte : (UInt8.ofNat (16 * high + low)).toNat = 16 * high + low :=
    Nat.mod_eq_of_lt (by omega)
  have hdiv : (16 * high + low) / 16 = high := by omega
  have hmod : (16 * high + low) % 16 = low := by omega
  rw [hexPair, hbyte, hdiv, hmod, hhigh, hlow]

/-- The bytes that pairs spell. -/
def pairBytes (pairs : List (Char × Char)) : Option (List UInt8) :=
  pairs.mapM fun p => byteFromRadix p.1 p.2

lemma pairBytes_cons_eq_some {c d : Char} {pairs : List (Char × Char)} {bytes : List UInt8} :
    pairBytes ((c, d) :: pairs) = some bytes ↔
      ∃ byte rest, byteFromRadix c d = some byte ∧ pairBytes pairs = some rest ∧
        bytes = byte :: rest := by
  simp only [pairBytes, List.mapM_cons, Option.bind_eq_bind, Option.bind_eq_some_iff,
    Option.pure_def, Option.some.injEq]
  constructor
  · rintro ⟨byte, hbyte, rest, hrest, rfl⟩
    exact ⟨byte, rest, hbyte, hrest, rfl⟩
  · rintro ⟨byte, rest, hbyte, hrest, rfl⟩
    exact ⟨byte, hbyte, rest, hrest, rfl⟩

/-- **What the loop reads**: the bytes of pairs. -/
lemma hexBytes_eq_ok_iff {cs : List Char} {bytes : List UInt8} :
    hexBytes cs = .ok bytes ↔ ∃ pairs, cs = flatPairs pairs ∧ pairBytes pairs = some bytes := by
  constructor
  · intro h
    induction cs using hexBytes.induct generalizing bytes with
    | case1 =>
        cases h
        exact ⟨[], rfl, rfl⟩
    | case2 c hsize => rw [hexBytes, if_pos hsize] at h; cases h
    | case3 c hsize => rw [hexBytes, if_neg hsize] at h; cases h
    | case4 c d rest hsize => rw [hexBytes, if_pos hsize] at h; cases h
    | case5 c d rest hsize hsplit => rw [hexBytes, if_neg hsize, if_pos hsplit] at h; cases h
    | case6 c d rest hsize hsplit hnone =>
        rw [hexBytes, if_neg hsize, if_neg hsplit, hnone] at h
        cases h
    | case7 c d rest hsize hsplit byte hbyte ih =>
        rw [hexBytes, if_neg hsize, if_neg hsplit, hbyte] at h
        obtain ⟨more, hmore, h⟩ := Lists.bind_eq_ok h
        cases h
        obtain ⟨pairs, rfl, hpairs⟩ := ih hmore
        exact ⟨(c, d) :: pairs, rfl, pairBytes_cons_eq_some.mpr ⟨byte, more, hbyte, hpairs, rfl⟩⟩
  · rintro ⟨pairs, rfl, h⟩
    induction pairs generalizing bytes with
    | nil =>
        cases h
        rfl
    | cons p pairs ih =>
        obtain ⟨c, d⟩ := p
        obtain ⟨byte, rest, hbyte, hrest, rfl⟩ := pairBytes_cons_eq_some.mp h
        obtain ⟨hc, hd⟩ := byteFromRadix_eq_some hbyte
        rw [flatPairs_cons, hexBytes, if_neg (by rw [hc]; decide),
          if_neg (by rw [hc, hd]; decide), hbyte, ih hrest]
        rfl

/-- A character of no one and no two bytes takes three or four. -/
private lemma two_lt_utf8Size {c : Char} (hone : c.utf8Size ≠ 1) (htwo : c.utf8Size ≠ 2) :
    2 < c.utf8Size := by
  have := c.utf8Size_pos
  omega

/-- **Where a slice splits a character**: behind pairs that are read. -/
lemma hexBytes_eq_panic_iff {cs : List Char} (heven : (cs.map Char.utf8Size).sum % 2 = 0) :
    hexBytes cs = .error .panic ↔
      ∃ pairs rest, cs = flatPairs pairs ++ rest ∧ (pairBytes pairs).isSome ∧ Straddles rest := by
  constructor
  · intro h
    induction cs using hexBytes.induct with
    | case1 => cases h
    | case2 c hsize => rw [hexBytes, if_pos hsize] at h; cases h
    | case3 c hsize =>
        have hone : c.utf8Size ≠ 1 := by
          intro hone
          rw [List.map_singleton, List.sum_singleton, hone] at heven
          cases heven
        exact ⟨[], [c], rfl, rfl, two_lt_utf8Size hone hsize⟩
    | case4 c d rest hsize => rw [hexBytes, if_pos hsize] at h; cases h
    | case5 c d rest hsize hsplit =>
        refine ⟨[], c :: d :: rest, rfl, rfl, ?_⟩
        by_cases hone : c.utf8Size = 1
        · have hd : d.utf8Size ≠ 1 := hsplit.resolve_left (not_not.mpr hone)
          have := d.utf8Size_pos
          exact Or.inr ⟨hone, by omega⟩
        · exact Or.inl (two_lt_utf8Size hone hsize)
    | case6 c d rest hsize hsplit hnone =>
        rw [hexBytes, if_neg hsize, if_neg hsplit, hnone] at h
        cases h
    | case7 c d rest hsize hsplit byte hbyte ih =>
        obtain ⟨hc, hd⟩ := byteFromRadix_eq_some hbyte
        rw [hexBytes, if_neg hsize, if_neg hsplit, hbyte] at h
        have hrest : hexBytes rest = .error .panic := by
          cases hmore : hexBytes rest with
          | error e => rw [hmore] at h; exact h
          | ok more => rw [hmore] at h; cases h
        have heven' : (rest.map Char.utf8Size).sum % 2 = 0 := by
          simp only [List.map_cons, List.sum_cons, hc, hd] at heven
          omega
        obtain ⟨pairs, rest', rfl, hpairs, hstraddles⟩ := ih heven' hrest
        obtain ⟨bytes, hbytes⟩ := Option.isSome_iff_exists.mp hpairs
        refine ⟨(c, d) :: pairs, rest', rfl, ?_, hstraddles⟩
        rw [pairBytes_cons_eq_some.mpr ⟨byte, bytes, hbyte, hbytes, rfl⟩]
        rfl
  · rintro ⟨pairs, rest, rfl, hpairs, hstraddles⟩
    clear heven
    induction pairs with
    | nil =>
        rw [flatPairs_nil, List.nil_append]
        rcases rest with - | ⟨c, - | ⟨d, rest⟩⟩
        · exact hstraddles.elim
        · have hsize : c.utf8Size ≠ 2 := ne_of_gt hstraddles
          rw [hexBytes, if_neg hsize]
        · have hsize : c.utf8Size ≠ 2 ∧ (c.utf8Size ≠ 1 ∨ d.utf8Size ≠ 1) := by
            rcases hstraddles with hwide | ⟨hone, hwide⟩ <;> omega
          rw [hexBytes, if_neg hsize.1, if_pos hsize.2]
    | cons p pairs ih =>
        obtain ⟨c, d⟩ := p
        obtain ⟨bytes, hbytes⟩ := Option.isSome_iff_exists.mp hpairs
        obtain ⟨byte, more, hbyte, hmore, -⟩ := pairBytes_cons_eq_some.mp hbytes
        obtain ⟨hc, hd⟩ := byteFromRadix_eq_some hbyte
        rw [flatPairs_cons, List.cons_append, List.cons_append, hexBytes,
          if_neg (by rw [hc]; decide), if_neg (by rw [hc, hd]; decide), hbyte,
          ih (by rw [hmore]; rfl)]
        rfl

private lemma plus_not_mem_hexPair : ∀ byte : UInt8, '+' ∉ hexPair byte := by
  intro byte
  have hbound : byte.toNat < 256 := byte.toNat_lt
  have hdigits : ∀ n < 16, hexDigit n ≠ '+' := by decide
  have hhigh := hdigits (byte.toNat / 16) (by omega)
  have hlow := hdigits (byte.toNat % 16) (by omega)
  simp [hexPair, hhigh.symm, hlow.symm]

lemma hexPair_injective {a b : UInt8} (h : hexPair a = hexPair b) : a = b := by
  have ha := hexBytes_flatMap_hexPair [a]
  rw [List.flatMap_singleton, h] at ha
  have hb := hexBytes_flatMap_hexPair [b]
  rw [List.flatMap_singleton, ha] at hb
  cases hb
  rfl

/-- The digits of bytes are those of pairs, up to the case, when no pair has a sign and the pairs
spell these bytes. -/
lemma map_toLower_flatPairs_iff {pairs : List (Char × Char)} {bytes others : List UInt8}
    (h : pairBytes pairs = some bytes) :
    (flatPairs pairs).map Char.toLower = others.flatMap hexPair ↔
      '+' ∉ flatPairs pairs ∧ others = bytes := by
  induction pairs generalizing bytes others with
  | nil =>
      cases h
      cases others with
      | nil => simp
      | cons byte others => simp [hexPair]
  | cons p pairs ih =>
      obtain ⟨c, d⟩ := p
      obtain ⟨byte, rest, hbyte, hrest, rfl⟩ := pairBytes_cons_eq_some.mp h
      cases others with
      | nil => simp
      | cons other others =>
          have hcons : (flatPairs ((c, d) :: pairs)).map Char.toLower =
              (other :: others).flatMap hexPair ↔
                [c.toLower, d.toLower] = hexPair other ∧
                  (flatPairs pairs).map Char.toLower = others.flatMap hexPair := by
            simp [hexPair, and_assoc]
          rw [hcons, ih hrest, flatPairs_cons, List.mem_cons, List.mem_cons, not_or, not_or,
            List.cons.injEq]
          constructor
          · rintro ⟨hpair, hplus, rfl⟩
            have hc : '+' ≠ c := by
              rintro rfl
              exact plus_not_mem_hexPair other (hpair ▸ List.mem_cons_self)
            have hd : '+' ≠ d := by
              rintro rfl
              exact plus_not_mem_hexPair other
                (hpair ▸ List.mem_cons_of_mem _ (List.mem_singleton_self _))
            exact ⟨⟨hc, hd, hplus⟩,
              hexPair_injective (hpair.symm.trans (toLower_pair hbyte hc.symm)), rfl⟩
          · rintro ⟨⟨hc, -, hplus⟩, rfl, rfl⟩
            exact ⟨toLower_pair hbyte (Ne.symm hc), hplus, rfl⟩

/-! ### What is answered -/

/-- The digits of a token. -/
def Digits (token : String) (digits : List Char) : Prop :=
  token.toList = "v1.".toList ++ digits

/-- The pairs of a token spell bytes. -/
def Spells (token : String) (bytes : List UInt8) : Prop :=
  ∃ pairs, pairs ≠ [] ∧ Digits token (flatPairs pairs) ∧ pairBytes pairs = some bytes

/-- Behind pairs that are read a slice splits a character of the token, whose digits take an even
number of bytes. -/
def Splits (token : String) : Prop :=
  ∃ pairs rest, Digits token (flatPairs pairs ++ rest) ∧
    ((flatPairs pairs ++ rest).map Char.utf8Size).sum % 2 = 0 ∧ (pairBytes pairs).isSome ∧
      Straddles rest

/-- One token is another one, up to the case of its digits. -/
def UpToCase (token other : String) : Prop :=
  ∃ digits, Digits token digits ∧ Digits other (digits.map Char.toLower)

lemma Digits.unique {token : String} {digits others : List Char} (h : Digits token digits)
    (h' : Digits token others) : digits = others :=
  List.append_cancel_left (h.symm.trans h')

lemma Digits.drop {token : String} {digits : List Char} (h : Digits token digits) :
    token.toList.drop 3 = digits := by
  rw [h]
  rfl

lemma sum_utf8Size_flatPairs {pairs : List (Char × Char)} {bytes : List UInt8}
    (h : pairBytes pairs = some bytes) : ((flatPairs pairs).map Char.utf8Size).sum % 2 = 0 := by
  induction pairs generalizing bytes with
  | nil => rfl
  | cons p pairs ih =>
      obtain ⟨c, d⟩ := p
      obtain ⟨byte, rest, hbyte, hrest, -⟩ := pairBytes_cons_eq_some.mp h
      obtain ⟨hc, hd⟩ := byteFromRadix_eq_some hbyte
      have := ih hrest
      simp only [flatPairs_cons, List.map_cons, List.sum_cons, hc, hd]
      omega

section Decoding

variable [JsonRead]

/-- The cursor that bytes are the text of. -/
def readCursor (schema : String) (bytes : List UInt8) : Except TokenError Value :=
  match JsonRead.parse bytes with
  | none => .error .malformed
  | some decoded => if isQueryCursor schema decoded then .ok decoded else .error .malformed

lemma readCursor_eq_ok_iff {schema : String} {bytes : List UInt8} {v : Value} :
    readCursor schema bytes = .ok v ↔ JsonRead.parse bytes = some v ∧ isQueryCursor schema v := by
  cases hparse : JsonRead.parse bytes with
  | none => simp [readCursor, hparse]
  | some decoded =>
      simp only [readCursor, hparse, Option.some.injEq]
      by_cases hshape : isQueryCursor schema decoded
      · rw [if_pos hshape, Except.ok.injEq]
        exact ⟨fun h => ⟨h, h ▸ hshape⟩, And.left⟩
      · rw [if_neg hshape]
        exact ⟨nofun, fun h => absurd (h.1 ▸ h.2) hshape⟩

lemma readCursor_ne_panic (schema : String) (bytes : List UInt8) :
    readCursor schema bytes ≠ .error .panic := by
  unfold readCursor
  split
  · nofun
  · split <;> nofun

/-- A token with digits in an even number of bytes is read pair by pair. -/
lemma decode_of_digits {token schema : String} {digits : List Char} (h : Digits token digits)
    (hne : digits ≠ []) (heven : (digits.map Char.utf8Size).sum % 2 = 0) :
    decodeCursorToken (.string token) schema = hexBytes digits >>= readCursor schema := by
  rw [decodeCursorToken]
  simp only [Value.asStr]
  rw [if_pos (Str.startsWith_iff.mpr ⟨digits, h⟩), h.drop, if_neg]
  · rfl
  · rintro (hnil | hodd)
    · exact hne hnil
    · exact hodd heven

/-- Every other token is malformed. -/
lemma decode_of_not_digits {token schema : String}
    (h : ¬ ∃ digits, Digits token digits ∧ digits ≠ [] ∧
      (digits.map Char.utf8Size).sum % 2 = 0) :
    decodeCursorToken (.string token) schema = .error .malformed := by
  rw [decodeCursorToken]
  simp only [Value.asStr]
  split
  · next hstart =>
      obtain ⟨digits, hdigits⟩ := Str.startsWith_iff.mp hstart
      have hshape : Digits token digits := hdigits
      rw [hshape.drop, if_pos]
      by_contra hnot
      rw [not_or, not_not] at hnot
      exact h ⟨digits, hshape, hnot⟩
  · rfl

/-- **A token is decoded** when it spells the text of a cursor. -/
lemma decode_eq_ok_iff {token schema : String} {v : Value} :
    decodeCursorToken (.string token) schema = .ok v ↔
      ∃ bytes, Spells token bytes ∧ JsonRead.parse bytes = some v ∧ isQueryCursor schema v := by
  by_cases h : ∃ digits, Digits token digits ∧ digits ≠ [] ∧
      (digits.map Char.utf8Size).sum % 2 = 0
  · obtain ⟨digits, hdigits, hne, heven⟩ := h
    rw [decode_of_digits hdigits hne heven]
    constructor
    · intro hok
      obtain ⟨bytes, hbytes, hread⟩ := Lists.bind_eq_ok hok
      obtain ⟨pairs, rfl, hpairs⟩ := hexBytes_eq_ok_iff.mp hbytes
      have hsome : pairs ≠ [] := by
        rintro rfl
        exact hne rfl
      exact ⟨bytes, ⟨pairs, hsome, hdigits, hpairs⟩, readCursor_eq_ok_iff.mp hread⟩
    · rintro ⟨bytes, ⟨pairs, -, hpairs, hbytes⟩, hread⟩
      rw [hdigits.unique hpairs, hexBytes_eq_ok_iff.mpr ⟨pairs, rfl, hbytes⟩]
      exact readCursor_eq_ok_iff.mpr hread
  · rw [decode_of_not_digits h]
    refine ⟨nofun, ?_⟩
    rintro ⟨bytes, ⟨pairs, hne, hdigits, hbytes⟩, -⟩
    refine absurd ⟨_, hdigits, ?_, sum_utf8Size_flatPairs hbytes⟩ h
    cases pairs with
    | nil => exact absurd rfl hne
    | cons p pairs => nofun

/-- **A token panics** when a slice splits a character. -/
lemma decode_eq_panic_iff {token schema : String} :
    decodeCursorToken (.string token) schema = .error .panic ↔ Splits token := by
  by_cases h : ∃ digits, Digits token digits ∧ digits ≠ [] ∧
      (digits.map Char.utf8Size).sum % 2 = 0
  · obtain ⟨digits, hdigits, hne, heven⟩ := h
    rw [decode_of_digits hdigits hne heven]
    constructor
    · intro hpanic
      have hbytes : hexBytes digits = .error .panic := by
        cases hbytes : hexBytes digits with
        | error e =>
            rw [hbytes] at hpanic
            cases hpanic
            rfl
        | ok bytes =>
            rw [hbytes] at hpanic
            exact absurd hpanic (readCursor_ne_panic schema bytes)
      obtain ⟨pairs, rest, rfl, hpairs, hstraddles⟩ := (hexBytes_eq_panic_iff heven).mp hbytes
      exact ⟨pairs, rest, hdigits, heven, hpairs, hstraddles⟩
    · rintro ⟨pairs, rest, hsplit, -, hpairs, hstraddles⟩
      rw [(hexBytes_eq_panic_iff heven).mpr
        ⟨pairs, rest, hdigits.unique hsplit, hpairs, hstraddles⟩]
      rfl
  · rw [decode_of_not_digits h]
    refine ⟨nofun, ?_⟩
    rintro ⟨pairs, rest, hdigits, heven, -, hstraddles⟩
    refine absurd ⟨_, hdigits, ?_, heven⟩ h
    cases rest with
    | nil => exact absurd hstraddles id
    | cons c rest => simp

variable [FloatText]

/-- The decoder answers the token, and takes it for a cursor only where a cursor is written so, up
to the case of the digits. -/
structure Sound (token schema : String) : Prop where
  answered : decodeCursorToken (.string token) schema ≠ .error .panic
  image : ∀ v, decodeCursorToken (.string token) schema = .ok v →
    ∃ w, UpToCase token (encodeCursorToken w)

/-- No slice splits a character of the token, and where it spells the text of a cursor, no pair of
it has a sign and the text is what is written of a value. -/
structure Clear (token schema : String) : Prop where
  whole : ¬ Splits token
  compact : ∀ bytes v, Spells token bytes → JsonRead.parse bytes = some v →
    isQueryCursor schema v → '+' ∉ token.toList ∧ ∃ w : Value, utf8 w.text = bytes

omit [JsonRead] in
lemma digits_encodeCursorToken (w : Value) :
    Digits (encodeCursorToken w) ((utf8 w.text).flatMap hexPair) := by
  simp [Digits, encodeCursorToken]

omit [JsonRead] in
/-- A token that spells bytes is that of a value, up to the case, when it has no sign and the bytes
are the text of the value. -/
lemma upToCase_encode_iff {token : String} {bytes : List UInt8} (h : Spells token bytes)
    (w : Value) :
    UpToCase token (encodeCursorToken w) ↔ '+' ∉ token.toList ∧ utf8 w.text = bytes := by
  obtain ⟨pairs, -, hdigits, hbytes⟩ := h
  have hplus : '+' ∉ token.toList ↔ '+' ∉ flatPairs pairs := by
    rw [hdigits]
    simp
  rw [hplus, ← map_toLower_flatPairs_iff hbytes]
  constructor
  · rintro ⟨digits, htoken, hencoded⟩
    rw [hdigits.unique htoken]
    exact hencoded.unique (digits_encodeCursorToken w)
  · intro hlower
    refine ⟨flatPairs pairs, hdigits, ?_⟩
    rw [hlower]
    exact digits_encodeCursorToken w

/-- A token is sound exactly when it is clear. -/
lemma sound_iff {token schema : String} : Sound token schema ↔ Clear token schema := by
  constructor
  · intro h
    refine ⟨fun hsplits => h.answered (decode_eq_panic_iff.mpr hsplits), ?_⟩
    intro bytes v hspells hparse hshape
    obtain ⟨w, hw⟩ := h.image v (decode_eq_ok_iff.mpr ⟨bytes, hspells, hparse, hshape⟩)
    obtain ⟨hplus, htext⟩ := (upToCase_encode_iff hspells w).mp hw
    exact ⟨hplus, w, htext⟩
  · intro h
    refine ⟨fun hpanic => h.whole (decode_eq_panic_iff.mp hpanic), ?_⟩
    intro v hok
    obtain ⟨bytes, hspells, hparse, hshape⟩ := decode_eq_ok_iff.mp hok
    obtain ⟨hplus, w, hw⟩ := h.compact bytes v hspells hparse hshape
    exact ⟨w, (upToCase_encode_iff hspells w).mpr ⟨hplus, hw⟩⟩

end Decoding

/-! ### A projection without datoms -/

section Empty

open Query

variable [FloatText]

omit [FloatText] in
private lemma reachedFrom_nil (start : String) (maxDepth : ℕ) :
    reachedFrom [] start maxDepth = [] := by
  simp only [reachedFrom, BoundedSearch.reached, BoundedSearch.loop, List.length_nil]
  split <;> rfl

/-- Without datoms a clause leaves one binding at most. -/
private lemma length_applyClause_nil {c : Clause} {binding : Map} {out : List Map}
    (h : applyClause (listAccess []) c binding = .ok out) : out.length ≤ 1 := by
  cases c with
  | triple subject attr object =>
      cases h
      exact Nat.zero_le _
  | reachable fromTerm attr toTerm maxDepth =>
      obtain ⟨start, -, hout⟩ := Lists.bind_eq_ok (h : reachableAnswers _ _ _ _ _ _ = .ok out)
      cases hout
      rw [show edgesOf [] attr = [] from rfl, reachedFrom_nil]
      exact Nat.zero_le _
  | compare op left right =>
      have hout : applyCompare binding op left right = .ok out := by
        rw [applyClause] at h
        beta_reduce at h
        cases hcompare : applyCompare binding op left right with
        | error e => rw [hcompare] at h; cases h
        | ok found => rw [hcompare] at h; exact h
      unfold applyCompare at hout
      split at hout
      · cases hout
      · split at hout
        · cases hout
        · cases hout
          split
          · exact Nat.le_refl 1
          · exact Nat.zero_le 1
  | exists_ clauses =>
      obtain ⟨found, -, hout⟩ := Lists.bind_eq_ok h
      cases hout
      split
      · exact Nat.zero_le 1
      · exact Nat.le_refl 1
  | notExists clauses =>
      obtain ⟨found, -, hout⟩ := Lists.bind_eq_ok h
      cases hout
      split
      · exact Nat.le_refl 1
      · exact Nat.zero_le 1

/-- A step that leaves one binding at most. -/
private def Narrow (step : Step (Except QueryFailure)) : Prop :=
  ∀ binding out, step.apply binding = .ok out → out.length ≤ 1

private lemma narrow_clauseSteps (clauses : List Clause) :
    ∀ step ∈ clauseSteps (listAccess []) clauses, Narrow step := by
  induction clauses with
  | nil => exact fun _ h => absurd h List.not_mem_nil
  | cons c rest ih =>
      intro step hstep
      rcases List.mem_cons.mp hstep with rfl | hstep
      · exact fun _ _ h => length_applyClause_nil h
      · exact ih step hstep

private lemma length_planLoop {fuel : ℕ} {remaining : List (Step (Except QueryFailure))}
    {bindings out : List Map} (hnarrow : ∀ step ∈ remaining, Narrow step)
    (hone : bindings.length ≤ 1) (h : planLoop (listAccess []) fuel remaining bindings = .ok out) :
    out.length ≤ 1 := by
  induction fuel generalizing remaining bindings with
  | zero =>
      cases h
      exact hone
  | succ fuel ih =>
      match remaining, bindings with
      | [], bindings =>
          cases h
          exact hone
      | first :: others, [] =>
          cases h
          exact Nat.zero_le _
      | first :: others, [binding] =>
          have hchosen : ∀ position : ℕ,
              Narrow (((first :: others)[position]?).getD first) := by
            intro position
            cases hposition : (first :: others)[position]? with
            | none => exact hnarrow first List.mem_cons_self
            | some step => exact hnarrow step (List.mem_of_getElem? hposition)
          rw [planLoop] at h
          split at h
          · exact hchosen _ _ _ h
          · next position _ =>
              obtain ⟨next, hnext, hrest⟩ := Lists.bind_eq_ok h
              obtain ⟨results, hresults, rfl⟩ := extendAll_ok (fun _ => rfl) hnext
              obtain ⟨found, hfound, hresults⟩ := Lists.bind_eq_ok hresults
              cases hresults
              refine ih (fun step hstep => hnarrow step (List.mem_of_mem_eraseIdx hstep)) ?_ hrest
              simpa using hchosen position binding found hfound
      | _, _ :: _ :: _ => simp at hone

omit [FloatText] in
/-- The cursor leaves no more than there is. -/
private lemma length_filterCursor {orderBy : List OrderTerm} {cursor : Map}
    {bindings after : List Map} (h : filterCursor orderBy cursor bindings = .ok after) :
    after.length ≤ bindings.length := by
  unfold filterCursor at h
  split at h
  · cases h
    exact Nat.le_refl _
  · induction bindings generalizing after with
    | nil =>
        cases h
        exact Nat.le_refl _
    | cons binding rest ih =>
        obtain ⟨keep, -, h⟩ := Lists.bind_eq_ok h
        obtain ⟨behind, hbehind, h⟩ := Lists.bind_eq_ok h
        cases h
        have hrest := ih hbehind
        split
        · exact Nat.succ_le_succ hrest
        · exact Nat.le_succ_of_le hrest

/-- **A query of no datoms has no second page.** -/
lemma hasMore_execute_nil {spec : QuerySpec} {result : QueryResult} (hlimit : 0 < spec.limit)
    (h : execute spec [] = .ok result) : result.hasMore = false := by
  have hrun := executeUnbounded_of_execute h
  obtain ⟨bindings, hbindings, hrun⟩ := Lists.bind_eq_ok hrun
  have hstart : [initialBinding spec.inputs].length ≤ 1 := Nat.le_refl 1
  have hone : bindings.length ≤ 1 :=
    length_planLoop (narrow_clauseSteps spec.clauses) hstart hbindings
  obtain ⟨after, hpage⟩ := executeWith_ok hrun
  have hafter : after.length ≤ spec.limit :=
    calc after.length ≤ (distinctAnswers bindings).length := length_filterCursor hpage.cursor
      _ ≤ bindings.length := (distinctAnswers_sublist bindings).length_le
      _ ≤ 1 := hone
      _ ≤ spec.limit := hlimit
  rw [hpage.hasMore, decide_eq_false_iff_not]
  exact Nat.not_lt.mpr hafter

end Empty

/-! ### What is issued -/

/-- A value that the reader takes behind so many levels of arrays and objects: without floats, and
with the keys of its objects distinct. -/
inductive Readable : ℕ → Value → Prop
  | null (levels : ℕ) : Readable levels .null
  | bool (levels : ℕ) (b : Bool) : Readable levels (.bool b)
  | number (levels : ℕ) {n : Number} : n.IsInteger → Readable levels (.number n)
  | string (levels : ℕ) (s : String) : Readable levels (.string s)
  | array (levels : ℕ) {items : List Value} : (∀ v ∈ items, Readable levels v) →
      Readable (levels + 1) (.array items)
  | object (levels : ℕ) {fields : Map} : (OrderedMap.keys fields).Nodup →
      (∀ e ∈ fields, Readable levels e.2) → Readable (levels + 1) (.object fields)

/-- The compact text of a value of 127 levels at most is read back. -/
def JsonRead.Exact [FloatText] [JsonRead] : Prop :=
  ∀ v, Readable 127 v → JsonRead.parse (utf8 v.text) = some v

/-- What a query reads: the rows of the datoms of a projection, and the head of its ledger. -/
structure QuerySite where
  rows : List DatomRow
  head : Option String
  empty : head = none → rows = []

section Issued

open EventLedger (optionText)

variable [FloatText] [JsonRead]

omit [FloatText] [JsonRead] in
/-- The schema of the cursors of queries. -/
def queryCursorSchema (domain : Domain) : String := domain.schemaNamespace ++ ".cursor.v1"

/-- `datom_from_row`. -/
def datomFromRow (row : DatomRow) : Query.Datom where
  originId := row.originId
  subject := row.subject
  attr := row.attr
  value := (JsonRead.parse (utf8 row.value.text)).getD (.string row.value.text)
  eventSequence := (row.eventSequence % 2 ^ 64).toNat
  eventId := row.eventId

section

omit [FloatText] [JsonRead]

/-- The cursor behind a page. -/
def queryCursor (domain : Domain) (head : Option String) (scope : String) (values : Map) : Value :=
  .object [("schema", .string (queryCursorSchema domain)), ("head", optionText head),
    ("query", .string scope), ("values", .object values)]

/-- The cursor that a page gives its caller. -/
def nextQueryCursor (domain : Domain) (head : Option String) (scope : String)
    (spec : Query.QuerySpec) (result : Query.QueryResult) : Option Value :=
  result.bindings.getLast?.bind fun binding =>
    if result.hasMore then
      some (queryCursor domain head scope (Query.cursorOf spec.orderBy binding))
    else none

end

/-- The cursors that queries of a site issue. -/
def Issued (domain : Domain) (site : QuerySite) (v : Value) : Prop :=
  ∃ query defaultLimit limits spec loaded result scope,
    Query.parse query defaultLimit limits = .ok spec ∧
      (∀ d ∈ loaded, ∃ row ∈ site.rows, d = datomFromRow row) ∧
      Query.execute spec loaded = .ok result ∧
      ¬ (result.hasMore ∧ spec.orderBy = []) ∧
      nextQueryCursor domain site.head scope spec result = some v

/-- An issued cursor names the head of the ledger. -/
lemma Issued.shape {domain : Domain} {site : QuerySite} {v : Value} (h : Issued domain site v) :
    isQueryCursor (queryCursorSchema domain) v := by
  obtain ⟨query, defaultLimit, limits, spec, loaded, result, scope, hparse, hloaded, hexecute, -,
    hnext⟩ := h
  obtain ⟨binding, -, hnext⟩ := Option.bind_eq_some_iff.mp hnext
  split at hnext
  · next hmore =>
      cases hnext
      have hhead : site.head ≠ none := by
        intro hnone
        have hempty : loaded = [] := by
          rw [List.eq_nil_iff_forall_not_mem]
          intro d hd
          obtain ⟨row, hrow, -⟩ := hloaded d hd
          rw [site.empty hnone] at hrow
          exact List.not_mem_nil hrow
        rw [hempty] at hexecute
        have hlast := hasMore_execute_nil (Query.parse_order hparse).1 hexecute
        rw [hmore] at hlast
        cases hlast
      obtain ⟨head, hhead⟩ := Option.ne_none_iff_exists'.mp hhead
      rw [hhead, isQueryCursor, Bool.and_eq_true, Bool.and_eq_true, Bool.and_eq_true]
      exact ⟨⟨⟨rfl, decide_eq_true rfl⟩, rfl⟩, rfl⟩
  · cases hnext

omit [JsonRead] in
/-- The token of an object spells its text. -/
lemma spells_encodeCursorToken (fields : Map) :
    Spells (encodeCursorToken (.object fields)) (utf8 (Value.object fields).text) := by
  obtain ⟨pairs, hpairs, hbytes⟩ :=
    hexBytes_eq_ok_iff.mp (hexBytes_flatMap_hexPair (utf8 (Value.object fields).text))
  have hdigits := digits_encodeCursorToken (.object fields)
  rw [hpairs] at hdigits
  refine ⟨pairs, ?_, hdigits, hbytes⟩
  rintro rfl
  have htext : utf8 (Value.object fields).text = utf8 "" := (Option.some.inj hbytes).symm
  have hchars := congrArg String.toList (utf8_injective htext)
  rw [Value.text_eq_ofList, String.toList_ofList] at hchars
  cases fields <;> cases hchars

/-- A token that is encoded is decoded, where the value has the shape of a cursor. -/
lemma decode_encode_of_readable (hread : JsonRead.Exact) {v : Value} (hv : Readable 127 v)
    {schema : String} (hshape : isQueryCursor schema v) :
    decodeCursorToken (.string (encodeCursorToken v)) schema = .ok v := by
  cases v with
  | object fields =>
      exact decode_eq_ok_iff.mpr ⟨_, spells_encodeCursorToken fields, hread _ hv, hshape⟩
  | null | bool | number | string | array => cases hshape

/-- **A token is sound exactly when it is clear, and issued cursors are read back.** -/
theorem sound_iff_clear (hread : JsonRead.Exact) {domain : Domain} {site : QuerySite} {v : Value}
    (hissued : Issued domain site v) (hv : Readable 127 v) (token schema : String) :
    (Sound token schema ↔ Clear token schema) ∧
      decodeCursorToken (.string (encodeCursorToken v)) (queryCursorSchema domain) = .ok v :=
  ⟨sound_iff, decode_encode_of_readable hread hv hissued.shape⟩

/-- A reader of the texts of values. -/
@[reducible] noncomputable def JsonRead.ofText : JsonRead where
  parse bytes := by
    classical
    exact if h : ∃ v : Value, utf8 v.text = bytes then some h.choose else none

omit [JsonRead] in
lemma JsonRead.ofText_exact (hf : FloatText.Lawful) : @JsonRead.Exact _ JsonRead.ofText := by
  intro v _
  have h : ∃ v' : Value, utf8 v'.text = utf8 v.text := ⟨v, rfl⟩
  have hsame := Value.text_injective hf (utf8_injective h.choose_spec)
  exact (dif_pos h).trans (congrArg some hsame)

end Issued

/-! ### A token that splits a character -/

/-- The row of a text of a message. -/
def textRow (text : String) : DatomRow :=
  ⟨"d-" ++ text, "m", "m", "p", .string text, "string", 1, "ev1"⟩

/-- Two texts of a message. -/
def textSite : QuerySite := ⟨[textRow "b", textRow "a"], some "head", nofun⟩

/-- The cursor behind the first text. -/
def firstCursor : Value := queryCursor epistemic (some "head") "scope" [("?x", .string "a")]

/-- The cursor behind the first of two texts is read back, and its token is sound. -/
theorem sound_iff_clear_texts :
    letI := FloatText.fields
    letI := JsonRead.ofText
    (Sound (encodeCursorToken firstCursor) "narada.epistemic.cursor.v1" ↔
      Clear (encodeCursorToken firstCursor) "narada.epistemic.cursor.v1") ∧
        decodeCursorToken (.string (encodeCursorToken firstCursor)) (queryCursorSchema epistemic) =
          .ok firstCursor := by
  let _ : FloatText := FloatText.fields
  let _ : JsonRead := JsonRead.ofText
  have hexact : JsonRead.Exact := JsonRead.ofText_exact FloatText.fields_lawful
  have hrow : ∀ text, datomFromRow (textRow text) = ⟨"m", "m", "p", .string text, 1, "ev1"⟩ := by
    intro text
    have hparse : JsonRead.parse (utf8 (Value.string text).text) = some (.string text) :=
      hexact _ (.string _ text)
    rw [datomFromRow, textRow, hparse]
    rfl
  have hissued : Issued epistemic textSite firstCursor := by
    refine ⟨Query.orderedQuery, 50, Query.testLimits, Query.orderedSpec,
      Query.valueDatoms [.string "b", .string "a"],
      ⟨[[("?x", .string "a")]], [], Query.orderedSpec.orderBy, true⟩, "scope",
      Query.parse_orderedQuery, ?_, by decide +kernel, nofun, rfl⟩
    intro d hd
    obtain ⟨value, hvalue, rfl⟩ := List.mem_map.mp hd
    simp only [List.mem_cons, List.not_mem_nil, or_false] at hvalue
    rcases hvalue with rfl | rfl
    · exact ⟨textRow "b", List.mem_cons_self, (hrow "b").symm⟩
    · exact ⟨textRow "a", List.mem_cons_of_mem _ (List.mem_singleton_self _), (hrow "a").symm⟩
  have hreadable : Readable 127 firstCursor := by
    refine .object 126 (by decide +kernel) fun e he => ?_
    simp only [List.mem_cons, List.not_mem_nil, or_false] at he
    rcases he with rfl | rfl | rfl | rfl
    · exact .string _ _
    · exact .string _ _
    · exact .string _ _
    · refine .object 125 (by decide +kernel) fun e he => ?_
      cases List.mem_singleton.mp he
      exact .string _ _
  exact sound_iff_clear hexact hissued hreadable _ _

/-- A slice of two bytes splits the second character behind `v1.`. -/
theorem not_sound_of_split :
    letI := FloatText.fields
    letI := JsonRead.ofText
    ¬ ∀ token schema, Sound token schema := by
  let _ : FloatText := FloatText.fields
  let _ : JsonRead := JsonRead.ofText
  intro h
  refine (h "v1.1é2" "narada.epistemic.cursor.v1").answered (decode_eq_panic_iff.mpr ?_)
  have hdigits : Digits "v1.1é2" ['1', 'é', '2'] := by
    rw [Digits]
    decide
  exact ⟨[], ['1', 'é', '2'], hdigits, by decide, rfl, Or.inr ⟨by decide, by decide⟩⟩

end QueryTokens

end LedgerDomain

end McpSurfaces
