import McpSurfaces.Foundation.Authority
import McpSurfaces.Foundation.Str
import McpSurfaces.Json.Value

/-!
The URLs that the mailbox sends its token to: a base URL from the configuration, and the
continuation URLs that the source answers with.

* `validateGraphBaseUrl`, `validateGraphPageUrl`: the checks of the code, the second by a prefix.
* **`page_origin_eq_iff`**: a page URL that passes has the origin of the base URL exactly where its
  authority ends with the prefix, or goes on with user information and the same host and port.
* `page_origin_longer`: a longer host name passes.
-/

namespace McpSurfaces

namespace Mailbox

open Uri (origin authority hostPort delimits IsScheme)

/-! ### The checks -/

/-- `error`. -/
def refusal (code message : String) : Value :=
  .object [("schema", .string "narada.mailbox.error.v1"), ("code", .string code),
    ("message", .string message)]

/-- `validate_graph_base_url`, with whether the environment allows a loopback test. -/
def validateGraphBaseUrl (allowInsecureTest : Bool) (value : String) : Except Value Unit :=
  if Str.startsWith value "https://" ||
      (allowInsecureTest && Str.startsWith value "http://127.0.0.1:") then .ok ()
  else .error (refusal "mailbox_graph_base_url_not_allowed"
    "Graph mailbox sync requires HTTPS or an explicit loopback test override")

/-- `graph_origin_prefix`: the text before the first slash behind the scheme. -/
def graphOriginPrefix (value : String) : String :=
  match Str.splitOnceChars "://".toList [] value.toList with
  | some (scheme, rest) =>
      String.ofList (scheme ++ "://".toList ++ rest.takeWhile (· ≠ '/'))
  | none => String.ofList (value.toList.takeWhile (· ≠ '/'))

/-- `validate_graph_page_url`. -/
def validateGraphPageUrl (value baseUrl : String) : Except Value Unit :=
  if Str.startsWith value (graphOriginPrefix baseUrl) then .ok ()
  else .error (refusal "mailbox_graph_page_url_not_allowed"
    "Graph continuation URL changed authority")

/-- The two sides of a separator, with it between them, are the text. -/
lemma splitOnceChars_eq {sep before cs l r : List Char}
    (h : Str.splitOnceChars sep before cs = some (l, r)) : before ++ cs = l ++ sep ++ r := by
  induction cs generalizing before with
  | nil =>
      rw [Str.splitOnceChars] at h
      split_ifs at h with hsep
      obtain ⟨rfl, rfl⟩ := Prod.mk.inj (Option.some.inj h)
      rw [hsep, List.append_nil, List.append_nil]
  | cons c rest ih =>
      rw [Str.splitOnceChars] at h
      split_ifs at h with hfront
      · obtain ⟨rfl, rfl⟩ := Prod.mk.inj (Option.some.inj h)
        obtain ⟨tail, htail⟩ := hfront
        rw [← htail, List.drop_left, List.append_assoc]
      · rw [← ih h, List.append_assoc, List.singleton_append]

/-- The prefix of a URL is a prefix of it. -/
lemma graphOriginPrefix_prefix (base : String) : (graphOriginPrefix base).toList <+: base.toList := by
  unfold graphOriginPrefix
  split
  · rename_i scheme rest hsplit
    have heq := splitOnceChars_eq hsplit
    rw [List.nil_append] at heq
    rw [heq, String.toList_ofList]
    exact (List.prefix_append_right_inj _).mpr (List.takeWhile_prefix _)
  · rw [String.toList_ofList]
    exact List.takeWhile_prefix _

/-- What goes on behind the base URL passes. -/
lemma validateGraphPageUrl_append (base rest : String) :
    validateGraphPageUrl (base ++ rest) base = .ok () := by
  obtain ⟨tail, htail⟩ := graphOriginPrefix_prefix base
  rw [validateGraphPageUrl, if_pos]
  exact Str.startsWith_iff.mpr ⟨tail ++ rest.toList, by
    rw [String.toList_append, ← htail, List.append_assoc]⟩

/-! ### The shape of a base URL -/

/-- A scheme is split off at its colon. -/
lemma splitOnceChars_scheme {scheme : List Char} (h : IsScheme scheme) (before rest : List Char) :
    Str.splitOnceChars "://".toList before (scheme ++ ':' :: '/' :: '/' :: rest) =
      some (before ++ scheme, rest) := by
  induction scheme generalizing before with
  | nil =>
      rw [List.nil_append, Str.splitOnceChars, if_pos (by exact ⟨rest, rfl⟩), List.append_nil]
      rfl
  | cons c scheme ih =>
      have hc : c ≠ ':' := by
        have hcolon := h c List.mem_cons_self
        rintro rfl
        exact absurd hcolon (by decide)
      have hnot : ¬ "://".toList <+: c :: (scheme ++ ':' :: '/' :: '/' :: rest) := by
        rintro ⟨tail, htail⟩
        exact hc (List.cons.inj htail).1.symm
      rw [List.cons_append, Str.splitOnceChars, if_neg hnot,
        ih (fun d hd => h d (List.mem_cons_of_mem c hd)), List.append_assoc]
      rfl

/-- A base URL that passes has a scheme, two slashes and the rest. -/
lemma baseUrl_shape {allow : Bool} {base : String} (h : validateGraphBaseUrl allow base = .ok ()) :
    ∃ scheme rest, IsScheme scheme ∧ base.toList = scheme ++ ':' :: '/' :: '/' :: rest := by
  rw [validateGraphBaseUrl] at h
  split_ifs at h with hallowed
  rw [Bool.or_eq_true, Bool.and_eq_true] at hallowed
  rcases hallowed with hsecure | ⟨-, hloopback⟩
  · obtain ⟨rest, hrest⟩ := Str.startsWith_iff.mp hsecure
    exact ⟨"https".toList, rest, by decide, hrest⟩
  · obtain ⟨rest, hrest⟩ := Str.startsWith_iff.mp hloopback
    exact ⟨"http".toList, "127.0.0.1:".toList ++ rest, by decide, hrest⟩

/-- The prefix of a URL goes up to the first slash of the rest. -/
lemma graphOriginPrefix_eq {base : String} {scheme rest : List Char} (h : IsScheme scheme)
    (hbase : base.toList = scheme ++ ':' :: '/' :: '/' :: rest) :
    (graphOriginPrefix base).toList = scheme ++ ':' :: '/' :: '/' :: rest.takeWhile (· ≠ '/') := by
  rw [graphOriginPrefix, hbase, splitOnceChars_scheme h]
  simp

/-! ### The authority of a page -/

/-- What the prefix of a base URL has behind the scheme. -/
def baseAuthority (base : String) : List Char :=
  (graphOriginPrefix base).toList.drop ((graphOriginPrefix base).toList.idxOf ':' + 3)

/-- What a page URL adds to the authority that ends the prefix. -/
def addedAuthority (base page : String) : List Char :=
  authority (page.toList.drop (graphOriginPrefix base).toList.length)

/-- The authority of the base URL ends in front of a slash or within the prefix already, or the
page adds nothing to it, or user information with the same host and port behind it. -/
def Stays (base page : String) : Prop :=
  (∃ c ∈ baseAuthority base, delimits c) ∨ addedAuthority base page = [] ∨
    ∃ user, addedAuthority base page = user ++ '@' :: hostPort (baseAuthority base)

lemma baseAuthority_eq {base : String} {scheme rest : List Char} (h : IsScheme scheme)
    (hbase : base.toList = scheme ++ ':' :: '/' :: '/' :: rest) :
    baseAuthority base = rest.takeWhile (· ≠ '/') := by
  have hcolon : ':' ∉ scheme := fun hmem => absurd (h ':' hmem) (by decide)
  rw [baseAuthority, graphOriginPrefix_eq h hbase, List.idxOf_append_of_notMem hcolon,
    List.idxOf_cons_self, Nat.add_zero, ← List.drop_drop, List.drop_left]
  rfl

/-- The rest of a base URL adds nothing to its authority. -/
lemma origin_prefix {base : String} {scheme rest : List Char} (h : IsScheme scheme)
    (hbase : base.toList = scheme ++ ':' :: '/' :: '/' :: rest) :
    origin base.toList = origin (graphOriginPrefix base).toList := by
  have hsplit : rest.takeWhile (· ≠ '/') ++ rest.dropWhile (· ≠ '/') = rest :=
    List.takeWhile_append_dropWhile
  rw [graphOriginPrefix_eq h hbase, hbase]
  conv_lhs => rw [← hsplit]
  refine (Uri.origin_append_eq_iff h).mpr (Or.inr (Or.inl ?_))
  match hdrop : rest.dropWhile (· ≠ '/') with
  | [] => rfl
  | c :: tail =>
      have hslash : c = '/' := by
        have hnot := List.head?_dropWhile_not (fun c => decide (c ≠ '/')) rest
        rw [hdrop] at hnot
        exact not_not.mp (of_decide_eq_false hnot)
      subst hslash
      rfl

/-- **A page keeps the origin of its base exactly where nothing is added to the authority**, or
user information with the same host and port behind it. -/
theorem page_origin_eq_iff (allowInsecureTest : Bool) (base page : String)
    (hbase : validateGraphBaseUrl allowInsecureTest base = .ok ())
    (hpage : validateGraphPageUrl page base = .ok ()) :
    origin page.toList = origin base.toList ↔ Stays base page := by
  obtain ⟨scheme, rest, hscheme, hshape⟩ := baseUrl_shape hbase
  rw [validateGraphPageUrl] at hpage
  split_ifs at hpage with hstarts
  obtain ⟨more, hmore⟩ := Str.startsWith_iff.mp hstarts
  have hadded : addedAuthority base page = authority more := by
    rw [addedAuthority, hmore, List.drop_left]
  rw [Stays, hadded, baseAuthority_eq hscheme hshape, origin_prefix hscheme hshape, hmore,
    graphOriginPrefix_eq hscheme hshape, List.append_assoc]
  exact Uri.origin_append_eq_iff hscheme

/-- A page of the host itself stays. -/
theorem page_origin_next :
    origin "https://graph.microsoft.com/v1.0/next".toList =
      origin "https://graph.microsoft.com/v1.0".toList :=
  (page_origin_eq_iff false "https://graph.microsoft.com/v1.0" "https://graph.microsoft.com/v1.0/next"
    (by decide +kernel) (by decide +kernel)).mpr (Or.inr (Or.inl (by decide +kernel)))

/-- The token goes to a host whose name begins with that of the base URL. -/
theorem page_origin_longer :
    ¬ ∀ (allowInsecureTest : Bool) (base page : String),
      validateGraphBaseUrl allowInsecureTest base = .ok () →
      validateGraphPageUrl page base = .ok () → origin page.toList = origin base.toList := by
  intro h
  have hsame := h false "https://graph.microsoft.com/v1.0"
    "https://graph.microsoft.com.example.org/v1.0" (by decide +kernel) (by decide +kernel)
  exact absurd hsame (by decide +kernel)

end Mailbox

end McpSurfaces
