import Xerv.Api.Client

/-!
# Requests of the client (`xerv-client/src/client.rs`)

The URL and the headers of a request, and the answer of the server. `reqwest` and its URL parser are a parameter:
of a URL without anything to rewrite they send the path and the query as they stand.
-/

namespace Xerv.Api
open Xerv.Lib

/-! ### The client -/

structure Client where
  baseUrl : List Char
  apiKey : Option String

namespace Client

def new (baseUrl : List Char) : Except String Client :=
  if ("http://".toList.isPrefixOf baseUrl || "https://".toList.isPrefixOf baseUrl) = false then
    .error ("URL must start with http:// or https://, got: " ++ String.ofList baseUrl)
  else .ok ⟨baseUrl, none⟩

def withApiKey (client : Client) (apiKey : String) : Client := { client with apiKey := some apiKey }

def url (client : Client) (path : List Char) : List Char :=
  let path := (path.dropPrefix? ['/']).getD path
  AuthConfig.trimEnd client.baseUrl ++ "/api/v1/".toList ++ path

/-- `with_auth`, over the headers that the HTTP library sends; names are looked up in lower case. -/
def withAuth (client : Client) (toLowercase : String → String) (others : String → Option String) (name : String) :
    Option String :=
  if toLowercase name = "authorization" then (client.apiKey.map ("Bearer " ++ ·)).or (others name) else others name

end Client

/-- A byte that `HeaderValue::to_str` reads. -/
def visibleAscii (c : Char) : Bool := c = '\t' || (32 ≤ c.toNat && c.toNat < 127)

def toStr (value : String) : Option String := if value.toList.all visibleAscii then some value else none

/-- What the server reads of the headers (`HyperHeaders::get`). -/
def Client.headers (client : Client) (toLowercase : String → String) (others : String → Option String)
    (name : String) : Option String :=
  (client.withAuth toLowercase others name).bind toStr

/-! ### What is sent -/

/-- The characters of a path and of a query that a URL parser does not rewrite. -/
def pathChar (c : Char) : Bool := c.isAlphanum || c ∈ "-._~!$&'()*+,;=:@/".toList

def queryChar (c : Char) : Bool := pathChar c || c = '?' || c = '%'

def hostChar (c : Char) : Bool := c.isAlphanum || c = '-' || c = '.' || c = ':'

def dotSegment (segment : List Char) : Bool := segment = ['.'] || segment = ['.', '.']

def plainPath (path : Path) : Bool := path.all pathChar && (path.splitOn '/').all fun segment => !dotSegment segment

/-- What the HTTP library sends to the server for a URL. -/
structure Transport where
  target : List Char → Path × Option (List Char)
  plain : ∀ (scheme host : List Char) (path : Path) (query : Option (List Char)),
    scheme = "http://".toList ∨ scheme = "https://".toList → host ≠ [] → (∀ c ∈ host, hostChar c = true) →
    plainPath ('/' :: path) = true → (∀ text ∈ query, ∀ c ∈ text, queryChar c = true) →
    target (scheme ++ host ++ '/' :: path ++ (query.map ('?' :: ·)).getD []) = ('/' :: path, query)

theorem plainPath_append (path rest : Path) : plainPath (path ++ '/' :: rest) = (plainPath path && plainPath rest) := by
  unfold plainPath
  rw [List.splitOn_append_cons_self, List.all_append, List.all_append, List.all_cons]
  have hslash : pathChar '/' = true := by decide
  rw [hslash]
  cases path.all pathChar <;> cases rest.all pathChar <;> simp

theorem plainPath_word {word : Path} (h : ∀ c ∈ word, c.isAlphanum = true ∨ c = '-') : plainPath word = true := by
  have hslash : '/' ∉ word := fun hmem => by
    rcases h _ hmem with h | h <;> simp at h
  have hdot : '.' ∉ word := fun hmem => by
    rcases h _ hmem with h | h <;> simp at h
  have hchars : word.all pathChar = true := by
    refine List.all_eq_true.mpr fun c hc => ?_
    rcases h c hc with h | rfl
    · simp [pathChar, h]
    · decide
  have hsegment : dotSegment word = false := by
    unfold dotSegment
    have hone : word ≠ ['.'] := fun he => hdot (by simp [he])
    have htwo : word ≠ ['.', '.'] := fun he => hdot (by simp [he])
    simp [hone, htwo]
  unfold plainPath
  rw [List.splitOn_eq_singleton hslash, hchars]
  simp [hsegment]

/-- The texts of the caller that come into the path. -/
def ClientCall.texts : ClientCall → List Path
  | .validatePipelineForDeploy id | .getPipeline id | .deletePipeline id | .startPipeline id | .pausePipeline id
  | .resumePipeline id | .drainPipeline id | .stopPipeline id | .listTracesByPipeline id | .listTriggers id => [id]
  | .fireTrigger id triggerId | .pauseTrigger id triggerId | .resumeTrigger id triggerId => [id, triggerId]
  | .getLogsByLevel level _ => [level]
  | _ => []

/-- The URL parser has nothing to rewrite. -/
structure ClientCall.Plain (encode : String → List Char) (call : ClientCall) : Prop where
  texts : ∀ text ∈ call.texts, plainPath text = true
  query : ∀ query ∈ call.query encode, ∀ c ∈ query, queryChar c = true

/-- A base URL of a scheme, a host and slashes, and a key that can be sent and read as a header. -/
structure Client.Hosted (client : Client) where
  scheme : List Char
  host : List Char
  slashes : ℕ
  base : client.baseUrl = scheme ++ host ++ List.replicate slashes '/'
  http : scheme = "http://".toList ∨ scheme = "https://".toList
  named : host ≠ []
  chars : ∀ c ∈ host, hostChar c = true
  key : ∀ key, client.apiKey = some key → key.toList.all visibleAscii = true

/-- The request, with what the rate limiter of the server says of its address. -/
def Client.request (client : Client) (transport : Transport) (encode : String → List Char)
    (toLowercase : String → String) (others : String → Option String) (limited : Bool) (call : ClientCall) :
    Request where
  method := call.method
  path := (transport.target (client.url (call.path ++ ((call.query encode).map ('?' :: ·)).getD []))).1
  headers := client.headers toLowercase others
  limited := limited

theorem plain_pipeline {id : Path} (h : plainPath id = true) : plainPath ("pipelines/".toList ++ id) = true := by
  have hpath : "pipelines/".toList ++ id = "pipelines".toList ++ '/' :: id := by simp
  have hfirst : plainPath "pipelines".toList = true := by decide
  rw [hpath, plainPath_append, hfirst, h, Bool.and_true]

theorem plain_action {id action : Path} (h : plainPath id = true) (haction : plainPath action = true) :
    plainPath ("pipelines/".toList ++ id ++ '/' :: action) = true := by
  rw [plainPath_append, plain_pipeline h, haction, Bool.and_true]

theorem plain_trigger {id triggerId action : Path} (h : plainPath id = true) (htrigger : plainPath triggerId = true)
    (haction : plainPath action = true) :
    plainPath ("pipelines/".toList ++ id ++ "/triggers/".toList ++ triggerId ++ '/' :: action) = true := by
  have hpath : "pipelines/".toList ++ id ++ "/triggers/".toList ++ triggerId ++ '/' :: action =
      "pipelines/".toList ++ id ++ '/' :: ("triggers".toList ++ '/' :: (triggerId ++ '/' :: action)) := by simp
  have hmiddle : plainPath "triggers".toList = true := by decide
  rw [hpath]
  refine plain_action h ?_
  rw [plainPath_append, plainPath_append, hmiddle, htrigger, haction]
  rfl

theorem path_plain (call : ClientCall) (h : ∀ text ∈ call.texts, plainPath text = true) :
    plainPath call.path = true := by
  cases call with
  | deployPipeline | validatePipeline | listPipelines | listTraces | getLogStats | clearLogs => decide
  | queryLogs _ => exact (by decide : plainPath "logs".toList = true)
  | getRecentLogs _ => exact (by decide : plainPath "logs/recent".toList = true)
  | getPipeline id | deletePipeline id => exact plain_pipeline (h id List.mem_cons_self)
  | validatePipelineForDeploy id | startPipeline id | pausePipeline id | resumePipeline id | drainPipeline id
  | stopPipeline id | listTracesByPipeline id | listTriggers id =>
    exact plain_action (h id List.mem_cons_self) (by decide)
  | fireTrigger id triggerId | pauseTrigger id triggerId | resumeTrigger id triggerId =>
    exact plain_trigger (h id List.mem_cons_self) (h triggerId (List.mem_cons_of_mem _ List.mem_cons_self)) (by decide)
  | getTrace traceId =>
    have hpath : "traces/".toList ++ traceId.uuid = "traces".toList ++ '/' :: traceId.uuid := by simp
    have hfirst : plainPath "traces".toList = true := by decide
    change plainPath ("traces/".toList ++ traceId.uuid) = true
    rw [hpath, plainPath_append, hfirst, plainPath_word (uuid_chars traceId), Bool.and_true]
  | getTraceLogs traceId =>
    have hpath : "logs/by-trace/".toList ++ traceId.uuid = "logs/by-trace".toList ++ '/' :: traceId.uuid := by simp
    have hfirst : plainPath "logs/by-trace".toList = true := by decide
    change plainPath ("logs/by-trace/".toList ++ traceId.uuid) = true
    rw [hpath, plainPath_append, hfirst, plainPath_word (uuid_chars traceId), Bool.and_true]
  | getLogsByLevel level limit =>
    have hpath : "logs/by-level/".toList ++ level = "logs/by-level".toList ++ '/' :: level := by simp
    have hfirst : plainPath "logs/by-level".toList = true := by decide
    change plainPath ("logs/by-level/".toList ++ level) = true
    rw [hpath, plainPath_append, hfirst, h level List.mem_cons_self, Bool.and_true]

theorem trimEnd_slashes {path : Path} {c : Char} (hc : c ≠ '/') (n : ℕ) :
    AuthConfig.trimEnd (path ++ [c] ++ List.replicate n '/') = path ++ [c] := by
  unfold AuthConfig.trimEnd
  induction n with
  | zero =>
    rw [List.replicate_zero, List.append_nil]
    exact List.rdropWhile_concat_neg _ _ _ (by simpa using hc)
  | succ n ih =>
    rw [List.replicate_succ', ← List.append_assoc, List.rdropWhile_concat_pos _ _ _ (by simp)]
    exact ih

theorem call_path_start (call : ClientCall) (rest : List Char) : (call.path ++ rest).dropPrefix? ['/'] = none := by
  cases call <;> rfl

/-- What stands behind the host of a URL, cut at the question mark. -/
def behindHost (url : List Char) : Path × Option (List Char) :=
  let rest := if "https://".toList.isPrefixOf url then url.drop 8 else url.drop 7
  let target := rest.dropWhile (· != '/')
  (target.takeWhile (· != '?'), (target.dropWhile (· != '?')).tail?)

theorem behindHost_plain {path : Path} (hpath : plainPath path = true) (query : Option (List Char)) :
    let target := path ++ (query.map ('?' :: ·)).getD []
    (target.takeWhile (· != '?'), (target.dropWhile (· != '?')).tail?) = (path, query) := by
  have hchars : ∀ c ∈ path, (c != '?') = true := by
    intro c hc
    have hall := (Bool.and_eq_true _ _).mp hpath
    have hchar := List.all_eq_true.mp hall.1 c hc
    have hne : c ≠ '?' := by
      rintro rfl
      exact absurd hchar (by decide)
    simpa using hne
  intro target
  unfold target
  rw [List.takeWhile_append_of_pos hchars, List.dropWhile_append_of_pos hchars]
  cases query with
  | none => simp
  | some text => simp

def plainTransport : Transport where
  target := behindHost
  plain scheme host path query hscheme _ hhost hpath _ := by
    have hskip : ∀ c ∈ host, (c != '/') = true := by
      intro c hc
      have hne : c ≠ '/' := by
        rintro rfl
        exact absurd (hhost _ hc) (by decide)
      simpa using hne
    have hrest (rest : List Char) : (host ++ '/' :: rest).dropWhile (· != '/') = '/' :: rest := by
      rw [List.dropWhile_append_of_pos hskip]
      simp
    have htarget := behindHost_plain hpath query
    unfold behindHost
    rcases hscheme with rfl | rfl
    · simpa [hrest] using htarget
    · simpa [hrest] using htarget

section Requests
variable (ops : KeyOps) (now : ℕ) (transport : Transport) (encode : String → List Char)
  (others : String → Option String) {client : Client} (hosted : client.Hosted)

include hosted in
theorem trimEnd_base : AuthConfig.trimEnd client.baseUrl = hosted.scheme ++ hosted.host := by
  obtain ⟨host, c, hhost⟩ : ∃ host c, hosted.host = host ++ [c] :=
    ⟨_, _, (List.dropLast_append_getLast hosted.named).symm⟩
  have hc : c ≠ '/' := by
    have hchar := hosted.chars c (by simp [hhost])
    intro he
    simp [he, hostChar] at hchar
  rw [hosted.base, hhost, ← List.append_assoc]
  exact trimEnd_slashes hc hosted.slashes

include hosted in
theorem request_path {limited : Bool} {call : ClientCall} (hplain : call.Plain encode) :
    (client.request transport encode ops.toLowercase others limited call).path = "/api/v1".toList ++ '/' :: call.path := by
  have hurl : client.url (call.path ++ ((call.query encode).map ('?' :: ·)).getD []) =
      hosted.scheme ++ hosted.host ++ '/' :: ("api/v1/".toList ++ call.path) ++
        ((call.query encode).map ('?' :: ·)).getD [] := by
    unfold Client.url
    rw [call_path_start, Option.getD_none, trimEnd_base hosted]
    simp
  have hpath : '/' :: ("api/v1/".toList ++ call.path) =
      [] ++ '/' :: ("api".toList ++ '/' :: ("v1".toList ++ '/' :: call.path)) := by simp
  have hwhole : plainPath ('/' :: ("api/v1/".toList ++ call.path)) = true := by
    have hnil : plainPath [] = true := by decide
    have hapi : plainPath "api".toList = true := by decide
    have hversion : plainPath "v1".toList = true := by decide
    rw [hpath, plainPath_append, plainPath_append, plainPath_append, hnil, hapi, hversion,
      path_plain call hplain.texts]
    rfl
  have htarget := transport.plain hosted.scheme hosted.host ("api/v1/".toList ++ call.path) (call.query encode)
    hosted.http hosted.named hosted.chars hwhole hplain.query
  unfold Client.request
  rw [hurl, htarget]
  simp

/-- What the router makes of the answer of the authentication. -/
def replyTo (limited : Bool) (auth : Except String AuthContext) (call : ClientCall) : Reply :=
  if limited then .tooManyRequests "Rate limit exceeded"
  else
    match auth with
    | .error cause => .unauthorized ("E1001: Authentication failed: " ++ cause)
    | .ok ctx => dispatch ctx call.method ('/' :: call.path)

include hosted in
theorem route_request {config : AuthConfig} {limited : Bool} {call : ClientCall} (hplain : call.Plain encode) :
    route ops now config (client.request transport encode ops.toLowercase others limited call) =
      replyTo limited (authenticate ops now config ("/api/v1".toList ++ '/' :: call.path)
        (client.headers ops.toLowercase others)) call := by
  have hmethod : (client.request transport encode ops.toLowercase others limited call).method ≠ .options := by
    cases call <;> exact nofun
  have hapi : "/api/v1".toList.isPrefixOf ("/api/v1".toList ++ '/' :: call.path) = true := by simp
  have hdrop : ("/api/v1".toList ++ '/' :: call.path).dropPrefix? "/api/v1".toList = some ('/' :: call.path) :=
    List.dropPrefix?_eq_some_iff.mpr ⟨_, rfl, beq_self_eq_true _⟩
  rw [route, if_neg hmethod, request_path ops transport encode others hosted hplain, hapi, hdrop,
    if_neg (by simp)]
  rfl

theorem dispatch_call_iff (ctx : AuthContext) (call : ClientCall) :
    dispatch ctx call.method ('/' :: call.path) = .handler call.handler ↔
      call.Addresses ∧ ctx.hasScope call.scope = true := by
  constructor
  · intro hcall
    have haddresses := (addresses_iff call).mp (addressed_dispatch ctx _ _ _ hcall)
    rw [call_reaches ctx call haddresses] at hcall
    unfold requireScope at hcall
    split at hcall
    · exact ⟨haddresses, by assumption⟩
    · cases hcall
  · rintro ⟨haddresses, hscope⟩
    rw [call_reaches ctx call haddresses, requireScope, if_pos hscope]

include hosted in
/-- A call of the client with texts that the URL parser leaves alone comes to the handler it is meant for, with
these texts as its ids, if and only if the rate limiter lets it pass, each id stands for one segment of the path,
and the caller is authenticated with the scope of the handler. Otherwise the first of these that fails is what
the answer says. -/
theorem client_call_reaches_iff {config : AuthConfig} {limited : Bool} {call : ClientCall}
    (hplain : call.Plain encode) :
    let reply := route ops now config (client.request transport encode ops.toLowercase others limited call)
    let auth := authenticate ops now config ("/api/v1".toList ++ '/' :: call.path)
      (client.headers ops.toLowercase others)
    (reply = .handler call.handler ↔
        limited = false ∧ call.Addresses ∧ ∃ ctx, auth = .ok ctx ∧ ctx.hasScope call.scope = true) ∧
      (limited = true → reply = .tooManyRequests "Rate limit exceeded") ∧
      (limited = false → ∀ cause, auth = .error cause →
        reply = .unauthorized ("E1001: Authentication failed: " ++ cause)) ∧
      (limited = false → call.Addresses → ∀ ctx, auth = .ok ctx → ctx.hasScope call.scope = false →
        reply = .forbidden ("Missing required scope: " ++ call.scope.asStr)) := by
  intro reply auth
  have hreply : reply = replyTo limited auth call := route_request ops now transport encode others hosted hplain
  rw [hreply]
  refine ⟨?_, fun hlimited => ?_, fun hlimited cause hauth => ?_, fun hlimited haddresses ctx hauth hscope => ?_⟩
  · cases limited with
    | true => exact iff_of_false nofun fun hall => nomatch hall.1
    | false =>
      cases hauth : auth with
      | error cause =>
        refine iff_of_false nofun ?_
        rintro ⟨-, -, ctx, hok, -⟩
        cases hok
      | ok ctx =>
        have hcall := dispatch_call_iff ctx call
        simpa [replyTo] using hcall
  · rw [hlimited]
    rfl
  · rw [hlimited, hauth]
    rfl
  · rw [hlimited, hauth]
    change dispatch ctx call.method ('/' :: call.path) = _
    rw [call_reaches ctx call haddresses, requireScope, if_neg (by simp [hscope])]

end Requests

/-! ### A client on one machine -/

def localClient : Client := ⟨"http://localhost:8080/".toList, some "k"⟩

def localHosted : localClient.Hosted where
  scheme := "http://".toList
  host := "localhost:8080".toList
  slashes := 1
  base := by decide
  http := .inl rfl
  named := by decide
  chars := List.all_eq_true.mp (by decide : "localhost:8080".toList.all hostChar = true)
  key key h := by
    obtain rfl := Option.some.inj h
    decide

def headerOps : KeyOps := ⟨id, fun name => if name = "X-API-Key" then "x-api-key" else name⟩

theorem startPipeline_plain : (ClientCall.startPipeline "orders@v1".toList).Plain String.toList where
  texts text h := by
    have htext : text = "orders@v1".toList := by simpa [ClientCall.texts] using h
    rw [htext]
    decide
  query _ h := by cases h

theorem start_reaches :
    route headerOps 0 .new (localClient.request plainTransport String.toList headerOps.toLowercase (fun _ => none)
      false (.startPipeline "orders@v1".toList)) = .handler (.pipelinesStart "orders@v1".toList) := by
  refine (client_call_reaches_iff headerOps 0 plainTransport String.toList (fun _ => none) localHosted
    startPipeline_plain).1.mpr ?_
  exact ⟨rfl, ⟨by decide, by decide⟩, ⟨"anonymous", AuthScope.all⟩, rfl, by decide⟩

section Requests
variable (ops : KeyOps) (now : ℕ) (transport : Transport) (encode : String → List Char)
  (others : String → Option String) {client : Client} (hosted : client.Hosted)

/-- The server knows the header that the client sends, and the text in it is the key of an entry. -/
def Client.Identified (client : Client) (config : AuthConfig) (entry : ApiKeyEntry) : Prop :=
  ∃ apiKey key, config.apiKey = some apiKey ∧ client.apiKey = some key ∧
    ops.toLowercase apiKey.headerName = "authorization" ∧
    apiKey.keys.find? (fun e => e.hashes ops ("Bearer " ++ key)) = some entry ∧ entry.isExpired now = false

theorem validateFrom_find {key : String} {entries : List ApiKeyEntry} {entry : ApiKeyEntry}
    (hfind : entries.find? (fun e => e.hashes ops key) = some entry) (hexpired : entry.isExpired now = false) :
    validateFrom ops now key entries = some ⟨entry.identity, entry.scopes⟩ := by
  induction entries with
  | nil => cases hfind
  | cons e entries ih =>
    rw [validateFrom]
    by_cases hhash : e.hashes ops key = true
    · rw [List.find?_cons_of_pos (p := fun e : ApiKeyEntry => e.hashes ops key) hhash] at hfind
      cases hfind
      simp [hhash, hexpired]
    · rw [List.find?_cons_of_neg (p := fun e : ApiKeyEntry => e.hashes ops key) hhash] at hfind
      rw [if_neg hhash]
      exact ih hfind

include hosted in
theorem toStr_bearer {key : String} (hkey : client.apiKey = some key) :
    toStr ("Bearer " ++ key) = some ("Bearer " ++ key) := by
  have hvisible : ("Bearer " ++ key).toList.all visibleAscii = true := by
    rw [String.toList_append, List.all_append, hosted.key key hkey, Bool.and_true]
    decide
  rw [toStr, if_pos hvisible]

include hosted in
theorem identified_iff {config : AuthConfig} {entry : ApiKeyEntry}
    (hothers : ∀ apiKey, config.apiKey = some apiKey → others apiKey.headerName = none) :
    config.Identifies ops now (client.headers ops.toLowercase others) entry ↔
      client.Identified ops now config entry := by
  constructor
  · rintro ⟨apiKey, text, hconfig, hheader, hfind, hexpired⟩
    have hnone := hothers apiKey hconfig
    obtain ⟨value, hsent, hread⟩ := Option.bind_eq_some_iff.mp hheader
    unfold Client.withAuth at hsent
    split at hsent
    · rename_i hname
      rw [hnone, Option.or_none] at hsent
      obtain ⟨key, hkey, rfl⟩ := Option.map_eq_some_iff.mp hsent
      rw [toStr_bearer hosted hkey] at hread
      cases hread
      exact ⟨apiKey, key, hconfig, hkey, hname, hfind, hexpired⟩
    · rw [hnone] at hsent
      cases hsent
  · rintro ⟨apiKey, key, hconfig, hkey, hname, hfind, hexpired⟩
    refine ⟨apiKey, "Bearer " ++ key, hconfig, ?_, hfind, hexpired⟩
    unfold Client.headers Client.withAuth
    rw [if_pos hname, hkey]
    exact toStr_bearer hosted hkey

include hosted in
/-- While authentication is on, off the exempt paths and within the rate limit, a call of the client is authenticated
if and only if the configured header is `Authorization` and an entry that has not expired is the first one for the
text `Bearer` and the key; under any other header that the HTTP library does not send itself, the default
`X-API-Key` among them, every call is answered as unauthorized. -/
theorem client_authenticated {config : AuthConfig} {limited : Bool} {call : ClientCall} (hplain : call.Plain encode)
    (henabled : config.enabled = true) (hexempt : config.isPathExempt ("/api/v1".toList ++ '/' :: call.path) = false)
    (hothers : ∀ apiKey, config.apiKey = some apiKey → others apiKey.headerName = none) :
    let reply := route ops now config (client.request transport encode ops.toLowercase others limited call)
    (limited = true → reply = .tooManyRequests "Rate limit exceeded") ∧
      (limited = false → ∀ entry, client.Identified ops now config entry →
        reply = dispatch ⟨entry.identity, entry.scopes⟩ call.method ('/' :: call.path)) ∧
      (limited = false → (¬∃ entry, client.Identified ops now config entry) →
        ∃ cause, reply = .unauthorized ("E1001: Authentication failed: " ++ cause)) := by
  intro reply
  have hroute : reply = replyTo limited (authenticate ops now config ("/api/v1".toList ++ '/' :: call.path)
      (client.headers ops.toLowercase others)) call := route_request ops now transport encode others hosted hplain
  refine ⟨fun hlimited => ?_, fun hlimited entry hentry => ?_, fun hlimited hnobody => ?_⟩
  · rw [hroute, hlimited]
    rfl
  · obtain ⟨apiKey, text, hconfig, hheader, hfind, hexpired⟩ :=
      (identified_iff ops now others hosted hothers).mpr hentry
    have hvalid : apiKey.validate ops now text = some ⟨entry.identity, entry.scopes⟩ :=
      validateFrom_find ops now hfind hexpired
    have hauth : authenticate ops now config ("/api/v1".toList ++ '/' :: call.path)
        (client.headers ops.toLowercase others) = .ok ⟨entry.identity, entry.scopes⟩ := by
      unfold authenticate
      rw [if_neg (by simp [henabled]), hexempt, hconfig]
      simp only [Bool.false_eq_true, if_false, hheader, hvalid]
    rw [hroute, hauth, hlimited]
    rfl
  · cases hauth : authenticate ops now config ("/api/v1".toList ++ '/' :: call.path)
      (client.headers ops.toLowercase others) with
    | error cause =>
      rw [hroute, hauth, hlimited]
      exact ⟨cause, rfl⟩
    | ok ctx =>
      rcases authenticate_ok ops now henabled hauth with ⟨hfree, -⟩ | ⟨-, entry, hentry, -⟩
      · rw [hexempt] at hfree
        cases hfree
      · exact absurd ⟨entry, (identified_iff ops now others hosted hothers).mp hentry⟩ hnobody

end Requests

def defaultKeys : AuthConfig :=
  { AuthConfig.new with
    enabled := true
    apiKey := some ⟨"X-API-Key", [⟨"local", "k", {.pipelineWrite}, none⟩]⟩ }

theorem default_key_unauthorized :
    ∃ cause, route headerOps 0 defaultKeys (localClient.request plainTransport String.toList headerOps.toLowercase
      (fun _ => none) false (.startPipeline "orders@v1".toList)) =
        .unauthorized ("E1001: Authentication failed: " ++ cause) := by
  refine (client_authenticated headerOps 0 plainTransport String.toList (fun _ => none) localHosted
    startPipeline_plain rfl (by decide) fun _ _ => rfl).2.2 rfl ?_
  rintro ⟨entry, apiKey, key, hconfig, -, hname, -⟩
  cases hconfig
  exact absurd hname (by decide)

end Xerv.Api
