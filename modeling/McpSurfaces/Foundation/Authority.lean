import Mathlib.Data.List.DropRight
import Mathlib.Tactic

/-!
The scheme, the host and the port of a URL, in the syntax of RFC 3986.

* `origin`: the three of them, without the user information.
* **`origin_append_eq_iff`**: a longer URL has the origin of a shorter one just where the
  authority of the shorter one was over, or nothing is added to it, or user information with the
  same host and port behind it.
-/

namespace McpSurfaces

namespace Uri

/-! ### The parts of a URL -/

/-- The characters at which an authority ends. -/
def delimits (c : Char) : Bool := c = '/' || c = '?' || c = '#'

/-- The text of an authority at the front. -/
def authority (cs : List Char) : List Char := cs.takeWhile fun c => !delimits c

/-- The characters behind the last of one kind: all of them where there is none. -/
def afterLast (c : Char) (cs : List Char) : List Char := cs.rtakeWhile fun d => d ≠ c

/-- An authority without its user information. -/
def hostPort (authority : List Char) : List Char := afterLast '@' authority

/-- The digits at the end. -/
def digitsAtEnd (cs : List Char) : List Char := cs.rtakeWhile Char.isDigit

/-- The host, and the port: the digits behind the last colon. A colon inside of brackets has a
bracket behind it. -/
def splitPort (cs : List Char) : List Char × Option (List Char) :=
  let rest := cs.rdropWhile Char.isDigit
  if rest.getLast? = some ':' then (rest.dropLast, some (digitsAtEnd cs)) else (cs, none)

/-- The scheme, the host and the port of a URL. -/
structure Origin where
  scheme : List Char
  host : List Char
  port : Option (List Char)
deriving DecidableEq, Repr

/-- The origin of an authority under a scheme. -/
def Origin.ofAuthority (scheme authority : List Char) : Origin :=
  ⟨scheme, (splitPort (hostPort authority)).1, (splitPort (hostPort authority)).2⟩

/-- The text of a scheme at the front. -/
def schemeOf (cs : List Char) : List Char := cs.takeWhile fun c => !(delimits c || c = ':')

/-- The origin of a URL that has an authority. -/
def origin (cs : List Char) : Option Origin :=
  match cs.drop (schemeOf cs).length with
  | ':' :: '/' :: '/' :: rest => some (.ofAuthority (schemeOf cs) (authority rest))
  | _ => none

/-! ### What follows the last of a kind -/

section AfterLast

variable {c : Char} {a x : List Char}

lemma afterLast_of_notMem (h : c ∉ a) : afterLast c a = a := by
  rw [afterLast, List.rtakeWhile_eq_self_iff]
  intro d hd
  exact decide_eq_true fun heq => h (heq ▸ hd)

lemma notMem_afterLast : c ∉ afterLast c a := by
  intro hmem
  have hall := List.mem_rtakeWhile_imp hmem
  exact (of_decide_eq_true hall) rfl

lemma afterLast_append_cons (u : List Char) (h : c ∉ x) : afterLast c (u ++ c :: x) = x := by
  rw [afterLast, List.rtakeWhile, List.reverse_append, List.reverse_cons, List.append_assoc,
    List.takeWhile_append_of_pos]
  · simp
  · intro d hd
    exact decide_eq_true fun heq => h (heq ▸ List.mem_reverse.mp hd)

/-- A list with an element in it is split at the last one. -/
lemma exists_eq_append_afterLast (h : c ∈ a) : ∃ u, a = u ++ c :: afterLast c a := by
  induction a using List.reverseRecOn with
  | nil => cases h
  | append_singleton front d ih =>
      by_cases hd : d = c
      · subst hd
        exact ⟨front, by rw [afterLast_append_cons front List.not_mem_nil]⟩
      · have hfront : c ∈ front := by
          rcases List.mem_append.mp h with h | h
          · exact h
          · exact absurd (List.mem_singleton.mp h).symm hd
        obtain ⟨u, hu⟩ := ih hfront
        have hstep : afterLast c (front ++ [d]) = afterLast c front ++ [d] := by
          rw [afterLast, List.rtakeWhile_concat, if_pos (decide_eq_true hd), afterLast]
        exact ⟨u, by rw [hstep, ← List.cons_append, ← List.append_assoc, ← hu]⟩

lemma afterLast_append_of_mem (h : c ∈ x) : afterLast c (a ++ x) = afterLast c x := by
  obtain ⟨u, hu⟩ := exists_eq_append_afterLast h
  conv_lhs => rw [hu, ← List.append_assoc]
  exact afterLast_append_cons _ notMem_afterLast

lemma afterLast_append_of_notMem (h : c ∉ x) : afterLast c (a ++ x) = afterLast c a ++ x := by
  by_cases ha : c ∈ a
  · obtain ⟨u, hu⟩ := exists_eq_append_afterLast ha
    conv_lhs => rw [hu, List.append_assoc, List.cons_append]
    refine afterLast_append_cons u fun hmem => ?_
    rcases List.mem_append.mp hmem with hmem | hmem
    · exact notMem_afterLast hmem
    · exact h hmem
  · rw [afterLast_of_notMem ha, afterLast_of_notMem]
    exact fun hmem => (List.mem_append.mp hmem).elim ha h

/-- **Behind an authority host and port stay** where nothing follows, or user information with the
same host and port behind it. -/
lemma hostPort_append_eq_iff :
    hostPort (a ++ x) = hostPort a ↔ x = [] ∨ ∃ user, x = user ++ '@' :: hostPort a := by
  by_cases hx : '@' ∈ x
  · rw [hostPort, afterLast_append_of_mem hx]
    obtain ⟨u, hu⟩ := exists_eq_append_afterLast hx
    constructor
    · intro h
      exact Or.inr ⟨u, by rw [← h]; exact hu⟩
    · rintro (rfl | ⟨user, huser⟩)
      · cases hx
      · rw [huser]
        exact afterLast_append_cons user notMem_afterLast
  · rw [hostPort, afterLast_append_of_notMem hx, hostPort, List.append_right_eq_self]
    refine ⟨Or.inl, ?_⟩
    rintro (h | ⟨user, rfl⟩)
    · exact h
    · simp at hx

end AfterLast

/-! ### Host and port -/

/-- Host and port are the text that they were read from. -/
lemma splitPort_text (cs : List Char) :
    (splitPort cs).1 ++ ((splitPort cs).2.map (':' :: ·)).getD [] = cs := by
  rw [splitPort]
  split_ifs with hcolon
  · have hparts : cs.rdropWhile Char.isDigit ++ digitsAtEnd cs = cs :=
      List.rdropWhile_append_rtakeWhile ..
    obtain ⟨front, hfront⟩ : ∃ front, cs.rdropWhile Char.isDigit = front ++ [':'] :=
      List.getLast?_eq_some_iff.mp hcolon
    rw [hfront] at hparts ⊢
    simpa using hparts
  · simp

lemma splitPort_inj {a b : List Char} : splitPort a = splitPort b ↔ a = b := by
  refine ⟨fun h => ?_, fun h => h ▸ rfl⟩
  rw [← splitPort_text a, ← splitPort_text b, h]

lemma Origin.ofAuthority_inj {scheme a b : List Char} :
    Origin.ofAuthority scheme a = .ofAuthority scheme b ↔ hostPort a = hostPort b := by
  rw [← splitPort_inj, Prod.ext_iff]
  simp [Origin.ofAuthority]

/-! ### A URL and a longer one -/

/-- A scheme has no colon and no delimiter. -/
def IsScheme (scheme : List Char) : Prop := ∀ c ∈ scheme, !(delimits c || c = ':')

instance (scheme : List Char) : Decidable (IsScheme scheme) := List.decidableBAll _ scheme

lemma origin_of_scheme {scheme : List Char} (h : IsScheme scheme) (rest : List Char) :
    origin (scheme ++ ':' :: '/' :: '/' :: rest) = some (.ofAuthority scheme (authority rest)) := by
  have hscheme : schemeOf (scheme ++ ':' :: '/' :: '/' :: rest) = scheme := by
    rw [schemeOf, List.takeWhile_append_of_pos h]
    simp
  rw [origin, hscheme, List.drop_left]
  rfl

/-- **A longer URL has the same origin** just where the authority of the shorter one is over, or
what is added to it is nothing, or user information with the same host and port behind it. -/
theorem origin_append_eq_iff {scheme q rest : List Char} (h : IsScheme scheme) :
    origin (scheme ++ ':' :: '/' :: '/' :: (q ++ rest)) = origin (scheme ++ ':' :: '/' :: '/' :: q) ↔
      (∃ c ∈ q, delimits c) ∨ authority rest = [] ∨
        ∃ user, authority rest = user ++ '@' :: hostPort q := by
  rw [origin_of_scheme h, origin_of_scheme h, Option.some.injEq, Origin.ofAuthority_inj]
  by_cases hq : ∃ c ∈ q, delimits c
  · obtain ⟨c, hc, hdelimits⟩ := hq
    have hover : authority (q ++ rest) = authority q := by
      rw [authority, List.takeWhile_append, if_neg]
      · rfl
      · intro hlength
        have hall := List.takeWhile_eq_self_iff.mp
          ((List.takeWhile_prefix _).eq_of_length hlength) c hc
        simp [hdelimits] at hall
    rw [hover]
    exact iff_of_true rfl (Or.inl ⟨c, hc, hdelimits⟩)
  · push Not at hq
    have hall : ∀ c ∈ q, !delimits c := fun c hc => by simpa using hq c hc
    have hwhole : authority q = q := List.takeWhile_eq_self_iff.mpr hall
    have happend : authority (q ++ rest) = q ++ authority rest := by
      rw [authority, List.takeWhile_append_of_pos hall, authority]
    rw [hwhole, happend, hostPort_append_eq_iff]
    refine ⟨Or.inr, ?_⟩
    rintro (⟨c, hc, hdelimits⟩ | h)
    · exact absurd hdelimits (hq c hc)
    · exact h

end Uri

end McpSurfaces
