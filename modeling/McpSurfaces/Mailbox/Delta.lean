import McpSurfaces.Mailbox.GraphUrls
import McpSurfaces.Mailbox.Segments

/-!
A fetch: `fetch_graph_batch` up to its messages and its next checkpoint, `walk_delta` and
`fetch_attachments`.

* `Fetch`: a computation that asks the source and renews the lease; `Traffic` is what it asked
  for so far. The source, the token and the lease are the parameter `Remote`.
* `Fetch.Does`: what a fetch asks for and what it returns, with a rule for each way to put
  fetches together.
* **`does_fetchGraphMessages`**: every request goes to a URL that `validateGraphPageUrl` lets pass,
  and every link that a fetch returns is a delta link that the source answered with.
-/

namespace McpSurfaces

namespace Mailbox

open LedgerDomain (JsonRead utf8)

/-! ### The source -/

/-- `GraphConfig`, what a fetch reads of it. -/
structure GraphConfig where
  userId : String
  baseUrl : String
  preferImmutableIds : Bool
  requestTimeoutMs : ℕ

/-- `ScopeConfig`, what a generation reads of it. -/
structure ScopeConfig where
  scopeId : String
  graph : GraphConfig
  includedContainerRefs : List String
  attachmentPolicy : String
  bodyPolicy : String
  includeHeaders : Bool
  tombstonesEnabled : Bool

/-- A scope on the public service. -/
def publicScope : ScopeConfig where
  scopeId := "mail"
  graph := { userId := "me", baseUrl := "https://graph.microsoft.com/v1.0",
             preferImmutableIds := true, requestTimeoutMs := 20000 }
  includedContainerRefs := ["inbox"]
  attachmentPolicy := "metadata_only"
  bodyPolicy := "text_only"
  includeHeaders := false
  tombstonesEnabled := true

/-- A request of `graph_get`. -/
structure Request where
  url : String
  authorization : String
  prefer : Option String
  timeoutMs : ℕ

/-- `GraphHttpError`. -/
inductive GraphHttpError where
  | status (code : ℕ) (body : String)
  | failure (message : String)

/-- What a fetch gets from outside: the token, the answer to each request and to each renewal of
the lease. -/
structure Remote where
  accessToken : Except Value String
  get : ℕ → Request → Except GraphHttpError Value
  heartbeat : ℕ → Except Value Unit

/-- The requests and the number of renewals so far. -/
structure Traffic where
  requests : List Request
  heartbeats : ℕ

/-- What a fetch has asked for at its beginning. -/
def noTraffic : Traffic := { requests := [], heartbeats := 0 }

/-- A computation that asks the source and renews the lease. -/
abbrev Fetch (ε α : Type) := ExceptT ε (StateM Traffic) α

/-- `MAX_GRAPH_PAGES`. -/
def maxGraphPages : ℕ := 100

/-- `MAX_GRAPH_RECORDS`. -/
def maxGraphRecords : ℕ := 10000

/-- `bounded_error`. -/
def boundedError (value : String) : String :=
  String.ofList ((value.toList.map fun c => if c = '\r' ∨ c = '\n' then ' ' else c).take 2048)

def GraphHttpError.intoValue : GraphHttpError → Value
  | .status code body =>
      refusal "mailbox_graph_request_failed"
        ("Graph API error (" ++ toString code ++ "): " ++ boundedError body)
  | .failure message => refusal "mailbox_graph_request_failed" message

/-- `GraphWalkError`. -/
inductive GraphWalkError where
  | stale
  | failure (value : Value)

def GraphWalkError.intoValue : GraphWalkError → Value
  | .stale => refusal "mailbox_graph_delta_cursor_stale" "mailbox_graph_delta_cursor_stale"
  | .failure value => value

/-! ### Pages -/

section Walk

variable (remote : Remote) (scope : ScopeConfig) (token : String)

/-- `graph_get`. -/
def graphGet (url : String) : Fetch GraphHttpError Value := fun t =>
  let request : Request :=
    { url
      authorization := "Bearer " ++ token
      prefer := if scope.graph.preferImmutableIds then some "IdType=\"ImmutableId\"" else none
      timeoutMs := scope.graph.requestTimeoutMs }
  (remote.get t.requests.length request, { t with requests := t.requests ++ [request] })

/-- The heartbeat of a fetch, `renew_lease`. -/
def heartbeat : Fetch Value Unit := fun t =>
  (remote.heartbeat t.heartbeats, { t with heartbeats := t.heartbeats + 1 })

/-- A page of the source, behind the check of its URL and a heartbeat. -/
def graphPage (url : String) : Fetch Value (Except GraphHttpError Value) := do
  ExceptT.mk (pure (validateGraphPageUrl url scope.graph.baseUrl))
  heartbeat remote
  ExceptT.lift (graphGet remote scope token url).run

/-- `graph_mailbox_path`. -/
def graphMailboxPath (userId : String) : String :=
  if userId = "me" then "/me" else "/users/" ++ encodeComponent userId

/-- The text under a key of a page. -/
def pageLink (page : Value) (key : String) : Option String := (page.get key).bind Value.asStr

/-- The loop of `fetch_attachments`, with the pages that it may still read. -/
def attachmentPages : ℕ → String → List Value → Fetch Value (List Value)
  | 0, _, _ =>
      throw (refusal "mailbox_graph_page_limit_exceeded" "mailbox_graph_page_limit_exceeded")
  | pages + 1, url, attachments => do
      match ← graphPage remote scope token url with
      | .error e => throw e.intoValue
      | .ok page =>
          match (page.get "value").bind Value.asArray with
          | none =>
              throw (refusal "mailbox_graph_attachment_response_invalid"
                "mailbox_graph_attachment_response_invalid")
          | some values =>
              if attachments.length + values.length > maxGraphRecords then
                throw (refusal "mailbox_graph_attachment_limit_exceeded"
                  "mailbox_graph_attachment_limit_exceeded")
              else
                match pageLink page "@odata.nextLink" with
                | some next => attachmentPages pages next (attachments ++ values)
                | none => return attachments ++ values

/-- `fetch_attachments`. -/
def fetchAttachments (messageId : String) : Fetch Value (List Value) :=
  attachmentPages remote scope token maxGraphPages
    (scope.graph.baseUrl ++ graphMailboxPath scope.graph.userId ++ "/messages/" ++
      encodeComponent messageId ++ "/attachments") []

/-- Whether the attachments of a message have to be fetched. -/
def lacksAttachments (message : Map) : Bool :=
  decide (scope.attachmentPolicy ≠ "exclude") && (message.get "@removed").isNone &&
    decide ((message.get "hasAttachments").bind Value.asBool = some true) &&
    (((message.get "attachments").bind Value.asArray).map List.isEmpty).getD true

/-- A message of a page, with the folder that was asked for it and with its attachments. -/
def deltaMessage (folder : String) (raw : Value) : Fetch Value Value :=
  match raw.asObject with
  | none =>
      throw (refusal "mailbox_graph_delta_message_invalid" "mailbox_graph_delta_message_invalid")
  | some fields => do
      let message := OrderedMap.insert fields "sourceQueriedFolderRef" (.string folder)
      if lacksAttachments scope message then
        match (message.get "id").bind Value.asStr with
        | none => return .object message
        | some messageId =>
            let attachments ← fetchAttachments remote scope token messageId
            return .object (OrderedMap.insert message "attachments" (.array attachments))
      else return .object message

/-- The loop of `walk_delta`, with the pages that it may still read. -/
def deltaPages (folder : String) :
    ℕ → String → List Value → Option String → Fetch GraphWalkError (List Value × String)
  | 0, _, _, _ =>
      throw (.failure
        (refusal "mailbox_graph_page_limit_exceeded" "mailbox_graph_page_limit_exceeded"))
  | pages + 1, url, values, deltaLink => do
      match ← ExceptT.adapt GraphWalkError.failure (graphPage remote scope token url) with
      | .error (.status 410 _) => throw .stale
      | .error e => throw (.failure e.intoValue)
      | .ok page =>
          match (page.get "value").bind Value.asArray with
          | none =>
              throw (.failure (refusal "mailbox_graph_delta_response_invalid"
                "mailbox_graph_delta_response_invalid"))
          | some pageValues =>
              if values.length + pageValues.length > maxGraphRecords then
                throw (.failure (refusal "mailbox_graph_record_limit_exceeded"
                  "mailbox_graph_record_limit_exceeded"))
              else do
                let messages ← ExceptT.adapt GraphWalkError.failure
                  (pageValues.mapM (deltaMessage remote scope token folder))
                let deltaLink := (pageLink page "@odata.deltaLink").or deltaLink
                match pageLink page "@odata.nextLink" with
                | some next => deltaPages folder pages next (values ++ messages) deltaLink
                | none =>
                    match deltaLink with
                    | some link => return (values ++ messages, link)
                    | none =>
                        throw (.failure (refusal "mailbox_graph_delta_link_missing"
                          "Delta query did not return @odata.deltaLink"))

/-- `walk_delta`. -/
def walkDelta (startUrl folder : String) : Fetch GraphWalkError (List Value × String) :=
  deltaPages remote scope token folder maxGraphPages startUrl [] none

end Walk

/-! ### Folders -/

/-- The checkpoint as a map from folders to links. -/
def composite [JsonRead] (checkpoint : Option String) : Option Map :=
  checkpoint.bind fun value => (JsonRead.parse (utf8 value)).bind Value.asObject

/-- The cursor of a folder: the whole checkpoint where one folder is configured. -/
def folderCursor [JsonRead] (scope : ScopeConfig) (checkpoint : Option String) (folder : String) :
    Option String :=
  if scope.includedContainerRefs.length = 1 then checkpoint
  else ((composite checkpoint).bind (OrderedMap.get · folder)).bind Value.asStr

/-- The base delta URL of a folder. -/
def deltaUrl (scope : ScopeConfig) (folder : String) : String :=
  scope.graph.baseUrl ++ graphMailboxPath scope.graph.userId ++ "/mailFolders/" ++
    encodeComponent folder ++ "/messages/delta"

/-- Where the walk of a folder starts. -/
def startUrl [JsonRead] (scope : ScopeConfig) (checkpoint : Option String) (folder : String) :
    String :=
  (folderCursor scope checkpoint folder).getD (deltaUrl scope folder)

section Folders

variable [JsonRead] (remote : Remote) (scope : ScopeConfig) (token : String)
  (checkpoint : Option String)

/-- The walk of a folder, from its base once more where its cursor is stale. -/
def walkFolder (folder : String) : Fetch Value (List Value × String) := fun t =>
  match walkDelta remote scope token (startUrl scope checkpoint folder) folder t with
  | (.ok walked, t') => (.ok walked, t')
  | (.error .stale, t') =>
      if (folderCursor scope checkpoint folder).isSome then
        (walkDelta remote scope token (deltaUrl scope folder) folder).adapt
          GraphWalkError.intoValue t'
      else (.error GraphWalkError.stale.intoValue, t')
  | (.error e, t') => (.error e.intoValue, t')

/-- The messages and the links of the folders so far, and of one more. -/
def fetchFolder (fetched : List Value × Map) (folder : String) :
    Fetch Value (List Value × Map) := do
  if (Str.trim folder).isEmpty then
    throw (refusal "mailbox_graph_folder_ref_invalid" "Configured folder ref is empty")
  else
    heartbeat remote
    let walked ← walkFolder remote scope token checkpoint folder
    if fetched.1.length + walked.1.length > maxGraphRecords then
      throw (refusal "mailbox_graph_record_limit_exceeded" "mailbox_graph_record_limit_exceeded")
    else
      return (fetched.1 ++ walked.1, OrderedMap.insert fetched.2 folder (.string walked.2))

/-- `fetch_graph_batch` as far as it asks the source: the messages in the order of the folders,
and the link of each folder. -/
def fetchGraphMessages : Fetch Value (List Value × Map) := do
  let token ← ExceptT.mk (pure remote.accessToken)
  scope.includedContainerRefs.foldlM (fetchFolder remote scope token checkpoint) ([], [])

end Folders

/-- The next checkpoint of a fetch: the link itself where one folder is configured. -/
def nextCheckpoint [FloatText] (scope : ScopeConfig) (links : Map) : Option String :=
  if scope.includedContainerRefs.length = 1 then (OrderedMap.values links).head?.bind Value.asStr
  else some (Value.object links).text

/-! ### What a fetch does -/

namespace Fetch

variable {ε ε' α β : Type} {P : Request → Prop} {Q Q' : α → Prop} {R : β → Prop}

/-- A fetch whose requests are as `P` asks for them and which returns a value that meets `Q`. -/
def Does (P : Request → Prop) (m : Fetch ε α) (Q : α → Prop) : Prop :=
  ∀ t : Traffic, (∀ r ∈ t.requests, P r) →
    (∀ r ∈ (m.run.run t).2.requests, P r) ∧ ∀ a, (m.run.run t).1 = .ok a → Q a

lemma Does.pure {a : α} (h : Q a) : Does P (pure a : Fetch ε α) Q :=
  fun _ ht => ⟨ht, fun _ ha => Except.ok.inj ha ▸ h⟩

lemma Does.throw (e : ε) : Does P (throw e : Fetch ε α) Q :=
  fun _ ht => ⟨ht, fun _ ha => by cases ha⟩

/-- An answer that is there already. -/
lemma Does.lift {r : Except ε α} (h : ∀ a, r = .ok a → Q a) :
    Does P (ExceptT.mk (Pure.pure r) : Fetch ε α) Q :=
  fun _ ht => ⟨ht, fun a ha => h a ha⟩

lemma Does.bind {m : Fetch ε α} {f : α → Fetch ε β} (hm : Does P m Q)
    (hf : ∀ a, Q a → Does P (f a) R) : Does P (m >>= f) R := by
  intro t ht
  obtain ⟨hrequests, hvalue⟩ := hm t ht
  rw [ExceptT.run_bind, StateT.run_bind]
  rcases hrun : m.run.run t with ⟨e | a, t'⟩
  · rw [hrun] at hrequests
    exact ⟨hrequests, fun b hb => by cases hb⟩
  · rw [hrun] at hrequests hvalue
    exact hf a (hvalue a rfl) t' hrequests

lemma run_adapt (f : ε → ε') (m : Fetch ε α) (t : Traffic) :
    (ExceptT.adapt f m).run.run t = ((m.run.run t).1.mapError f, (m.run.run t).2) := rfl

/-- A fetch that returns does so in both of its parts. -/
lemma bind_eq_ok {m : Fetch ε α} {f : α → Fetch ε β} {t : Traffic} {b : β}
    (h : ((m >>= f).run.run t).1 = .ok b) :
    ∃ a t', m.run.run t = (.ok a, t') ∧ ((f a).run.run t').1 = .ok b := by
  rw [ExceptT.run_bind, StateT.run_bind] at h
  rcases hm : m.run.run t with ⟨e | a, t'⟩
  · rw [hm] at h
    cases h
  · rw [hm] at h
    exact ⟨a, t', rfl, h⟩

lemma Does.adapt {m : Fetch ε α} (h : Does P m Q) (f : ε → ε') : Does P (ExceptT.adapt f m) Q := by
  intro t ht
  obtain ⟨hrequests, hvalue⟩ := h t ht
  rw [run_adapt]
  refine ⟨hrequests, fun a ha => ?_⟩
  rcases hm : (m.run.run t).1 with e | b
  · rw [hm] at ha
    cases ha
  · rw [hm] at ha
    obtain rfl : b = a := Except.ok.inj ha
    exact hvalue b hm

lemma Does.mapM {f : β → Fetch ε α} (hf : ∀ b, Does P (f b) fun _ => True) (bs : List β) :
    Does P (bs.mapM f) fun _ => True := by
  induction bs with
  | nil => exact Does.pure trivial
  | cons b bs ih =>
      rw [List.mapM_cons]
      exact (hf b).bind fun a _ => ih.bind fun as _ => Does.pure trivial

lemma Does.foldlM {f : α → β → Fetch ε α} {bs : List β}
    (hf : ∀ a, ∀ b ∈ bs, Q a → Does P (f a b) Q) {a : α} (ha : Q a) :
    Does P (bs.foldlM f a) Q := by
  induction bs generalizing a with
  | nil => exact Does.pure ha
  | cons b bs ih =>
      rw [List.foldlM_cons]
      exact (hf a b List.mem_cons_self ha).bind fun a' ha' =>
        ih (fun a b hb => hf a b (List.mem_cons_of_mem _ hb)) ha'

end Fetch

open Fetch (Does)

section Requests

variable (remote : Remote) (scope : ScopeConfig) (token : String)

/-- A request that goes to a URL that the scope lets pass. -/
def Request.Validated (scope : ScopeConfig) (r : Request) : Prop :=
  validateGraphPageUrl r.url scope.graph.baseUrl = .ok ()

/-- A page that the source answered with. -/
def Remote.Answers (remote : Remote) (page : Value) : Prop := ∃ n r, remote.get n r = .ok page

/-- A delta link that the source answered with. -/
def Remote.Links (remote : Remote) (link : String) : Prop :=
  ∃ page, remote.Answers page ∧ pageLink page "@odata.deltaLink" = some link

/-- The links of configured folders, one for each folder, that the source answered with. -/
structure Remote.FolderLinks (remote : Remote) (scope : ScopeConfig) (links : Map) : Prop where
  nodup : (OrderedMap.keys links).Nodup
  configured : ∀ folder ∈ OrderedMap.keys links, folder ∈ scope.includedContainerRefs
  answered : ∀ e ∈ links, ∃ link, e.2 = .string link ∧ remote.Links link

variable {remote scope} in
lemma Remote.FolderLinks.insert {links : Map} (h : remote.FolderLinks scope links)
    {folder link : String} (hfolder : folder ∈ scope.includedContainerRefs)
    (hlink : remote.Links link) :
    remote.FolderLinks scope (OrderedMap.insert links folder (.string link)) where
  nodup := OrderedMap.nodup_keys_insert h.nodup _ _
  configured key hkey := by
    rcases OrderedMap.mem_keys_insert.mp hkey with rfl | hold
    · exact hfolder
    · exact h.configured key hold
  answered e he := by
    rcases OrderedMap.mem_insert he with rfl | hold
    · exact ⟨link, rfl, hlink⟩
    · exact h.answered e hold

variable {P : Request → Prop}

lemma does_heartbeat : Does P (heartbeat remote) fun _ => True :=
  fun _ ht => ⟨ht, fun _ _ => trivial⟩

/-- A page is asked for behind the check of its URL. -/
lemma does_graphPage (url : String) :
    Does (Request.Validated scope) (graphPage remote scope token url) fun answer =>
      ∀ page, answer = .ok page → remote.Answers page := by
  refine (Does.lift (Q := fun _ => validateGraphPageUrl url scope.graph.baseUrl = .ok ())
    fun _ h => h).bind fun _ hurl => (does_heartbeat remote).bind fun _ _ => ?_
  intro t ht
  refine ⟨fun r hr => ?_, fun answer hanswer page hpage => ?_⟩
  · rcases List.mem_append.mp hr with hr | hr
    · exact ht r hr
    · obtain rfl := List.mem_singleton.mp hr
      exact hurl
  · subst hpage
    exact ⟨_, _, Except.ok.inj hanswer⟩

lemma does_attachmentPages (pages : ℕ) (url : String) (attachments : List Value) :
    Does (Request.Validated scope) (attachmentPages remote scope token pages url attachments)
      fun _ => True := by
  induction pages generalizing url attachments with
  | zero => exact Does.throw _
  | succ pages ih =>
      refine (does_graphPage remote scope token url).bind fun answer _ => ?_
      split
      · exact Does.throw _
      · split
        · exact Does.throw _
        · split_ifs
          · exact Does.throw _
          · split
            · exact ih _ _
            · exact Does.pure trivial

lemma does_deltaMessage (folder : String) (raw : Value) :
    Does (Request.Validated scope) (deltaMessage remote scope token folder raw)
      fun _ => True := by
  unfold deltaMessage
  split
  · exact Does.throw _
  · dsimp only
    split_ifs
    · split
      · exact Does.pure trivial
      · exact (does_attachmentPages remote scope token _ _ _).bind fun _ _ => Does.pure trivial
    · exact Does.pure trivial

/-- **A walk asks for validated URLs only, and its link is one of the source.** -/
lemma does_deltaPages (folder : String) (pages : ℕ) (url : String) (values : List Value)
    (deltaLink : Option String) (hlink : ∀ link ∈ deltaLink, remote.Links link) :
    Does (Request.Validated scope) (deltaPages remote scope token folder pages url values deltaLink)
      fun walked => remote.Links walked.2 := by
  induction pages generalizing url values deltaLink with
  | zero => exact Does.throw _
  | succ pages ih =>
      refine ((does_graphPage remote scope token url).adapt _).bind fun answer hanswer => ?_
      split
      · exact Does.throw _
      · exact Does.throw _
      · rename_i page
        split
        · exact Does.throw _
        · split_ifs
          · exact Does.throw _
          · have hnext : ∀ link ∈ (pageLink page "@odata.deltaLink").or deltaLink,
                remote.Links link := by
              intro link hmem
              rcases Option.or_eq_some_iff.mp hmem with hpage | ⟨-, hbefore⟩
              · exact ⟨page, hanswer page rfl, hpage⟩
              · exact hlink link hbefore
            refine ((Does.mapM (does_deltaMessage remote scope token folder) _).adapt _).bind
              fun messages _ => ?_
            split
            · exact ih _ _ _ hnext
            · dsimp only
              split
              · rename_i link hsome
                exact Does.pure (hnext link hsome)
              · exact Does.throw _

variable [JsonRead] (checkpoint : Option String)

lemma does_walkFolder (folder : String) :
    Does (Request.Validated scope) (walkFolder remote scope token checkpoint folder)
      fun walked => remote.Links walked.2 := by
  have hwalk (url : String) : Does (Request.Validated scope)
      (walkDelta remote scope token url folder) fun walked => remote.Links walked.2 :=
    does_deltaPages remote scope token folder _ _ _ _ fun _ h => by cases h
  intro t ht
  obtain ⟨hrequests, hvalue⟩ := hwalk (startUrl scope checkpoint folder) t ht
  have hrun : (walkFolder remote scope token checkpoint folder).run.run t =
      walkFolder remote scope token checkpoint folder t := rfl
  rw [hrun, walkFolder]
  rcases hwalked : walkDelta remote scope token (startUrl scope checkpoint folder) folder t with
    ⟨(_ | e) | walked, t'⟩
  all_goals
    change (walkDelta remote scope token (startUrl scope checkpoint folder) folder).run.run t = _
      at hwalked
    rw [hwalked] at hrequests hvalue
  · dsimp only
    split_ifs
    · exact (hwalk (deltaUrl scope folder)).adapt GraphWalkError.intoValue t' hrequests
    · exact ⟨hrequests, fun _ h => by cases h⟩
  · exact ⟨hrequests, fun _ h => by cases h⟩
  · exact ⟨hrequests, fun walked' h => Except.ok.inj h ▸ hvalue walked rfl⟩

/-- **A fetch asks for validated URLs only, and its links are delta links of the source.** -/
theorem does_fetchGraphMessages :
    Does (Request.Validated scope) (fetchGraphMessages remote scope checkpoint) fun fetched =>
      remote.FolderLinks scope fetched.2 := by
  have hstart : remote.FolderLinks scope [] :=
    ⟨List.nodup_nil, fun _ h => absurd h List.not_mem_nil, fun _ h => absurd h List.not_mem_nil⟩
  refine (Does.lift (Q := fun _ => True) fun _ _ => trivial).bind fun token _ => ?_
  refine Does.foldlM (fun fetched folder hfolder hlinks => ?_) hstart
  unfold fetchFolder
  split_ifs
  · exact Does.throw _
  · refine (does_heartbeat remote).bind fun _ _ => ?_
    refine (does_walkFolder remote scope token checkpoint folder).bind fun walked hwalked => ?_
    split_ifs
    · exact Does.throw _
    · exact Does.pure (hlinks.insert hfolder hwalked)

end Requests

end Mailbox

end McpSurfaces
