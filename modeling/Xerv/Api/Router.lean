import Xerv.Api.Auth

/-!
# Routing of requests (`api/router.rs`)

A handler is what `route` calls, with the ids it takes out of the path. What the rate limiter answers is part
of a request. Bodies, CORS headers and the files under `web/dist` are left out.
-/

namespace Xerv.Api

inductive Method where
  | get | post | put | delete | options
  | other (name : String)
  deriving DecidableEq

structure Request where
  method : Method
  path : Path
  headers : String → Option String
  -- the request has an address, and the rate limiter refuses it
  limited : Bool

inductive Handler where
  | getHealth | getStatus | getMetrics | getCapabilities | nodesMetadata
  | pipelinesList | pipelinesCreate | pipelinesValidate
  | pipelinesGet (pipelineId : Path)
  | pipelinesUpdate (pipelineId : Path)
  | pipelinesDelete (pipelineId : Path)
  | pipelinesStart (pipelineId : Path)
  | pipelinesValidateDeploy (pipelineId : Path)
  | pipelinesPause (pipelineId : Path)
  | pipelinesResume (pipelineId : Path)
  | pipelinesDrain (pipelineId : Path)
  | pipelinesStop (pipelineId : Path)
  | pipelinesMetrics (pipelineId : Path)
  | triggersList (pipelineId : Path)
  | triggersFire (pipelineId triggerId : Path)
  | triggersPause (pipelineId triggerId : Path)
  | triggersResume (pipelineId triggerId : Path)
  | tracesList | tracesCreate
  | tracesListByPipeline (pipelineId : Path)
  | tracesGet (traceId : Path)
  | tracesStream (traceId : Path)
  | tracesLogs (traceId : Path)
  | tracesSuspend (traceId : Path)
  | tracesResume (traceId : Path)
  | tracesCancel (traceId : Path)
  | logsQuery | logsRecent | logsStats | logsClear
  | logsByTrace (traceId : Path)
  | logsByLevel (level : Path)
  | resumeList
  | resumeListByPipeline (pipelineId : Path)
  | resumeGet (hookId : Path)
  | resumeResume (hookId : Path)
  deriving DecidableEq

inductive Resource where
  | pipelines | triggers | traces | logs | suspensions
  deriving DecidableEq

namespace Handler

/-- What of the state the body of each handler lists, reads or changes. -/
def resources : Handler → List Resource
  | getHealth | nodesMetadata | pipelinesValidate | pipelinesValidateDeploy _ => []
  | getStatus | getMetrics => [.pipelines, .traces, .triggers]
  | getCapabilities => [.pipelines]
  | pipelinesList | pipelinesCreate | pipelinesGet _ | pipelinesUpdate _ | pipelinesDelete _
  | pipelinesStart _ | pipelinesPause _ | pipelinesResume _ | pipelinesDrain _ | pipelinesStop _
  | pipelinesMetrics _ => [.pipelines]
  | triggersList _ | triggersPause _ _ | triggersResume _ _ => [.pipelines, .triggers]
  | triggersFire _ _ => [.pipelines, .triggers, .traces]
  | tracesList | tracesCreate | tracesListByPipeline _ | tracesGet _ | tracesStream _ | tracesSuspend _
  | tracesResume _ | tracesCancel _ => [.traces]
  | tracesLogs _ | logsQuery | logsRecent | logsStats | logsClear | logsByTrace _ | logsByLevel _ => [.logs]
  | resumeList | resumeListByPipeline _ | resumeGet _ => [.suspensions]
  | resumeResume _ => [.suspensions, .pipelines]

/-- The scope that `route` and its sub-routers name where they call the handler. -/
def scope : Handler → Option AuthScope
  | getHealth | getStatus | getMetrics | getCapabilities | nodesMetadata => none
  | pipelinesList | pipelinesGet _ | pipelinesMetrics _ | triggersList _ => some .pipelineRead
  | pipelinesCreate | pipelinesValidate | pipelinesUpdate _ | pipelinesDelete _ | pipelinesStart _
  | pipelinesValidateDeploy _ | pipelinesPause _ | pipelinesResume _ | pipelinesDrain _ | pipelinesStop _
  | triggersPause _ _ | triggersResume _ _ => some .pipelineWrite
  | tracesList | tracesListByPipeline _ | tracesGet _ | tracesStream _ | tracesLogs _ | logsQuery
  | logsRecent | logsStats | logsByTrace _ | logsByLevel _ | resumeList | resumeListByPipeline _
  | resumeGet _ => some .traceRead
  | tracesCreate | triggersFire _ _ | tracesSuspend _ | tracesCancel _ => some .traceWrite
  | tracesResume _ | resumeResume _ => some .traceResume
  | logsClear => some .admin

/-- The status, metrics and capabilities of the whole server. -/
def overview : Handler → Bool
  | getStatus | getMetrics | getCapabilities => true
  | _ => false

theorem scope_of_resources (handler : Handler) (hresources : handler.resources ≠ [])
    (hoverview : handler.overview = false) : ∃ scope, handler.scope = some scope := by
  cases handler <;> first | exact ⟨_, rfl⟩ | exact absurd rfl hresources | cases hoverview

end Handler

inductive Reply where
  | handler (handler : Handler)
  | preflight
  | serveStatic (path : Path)
  | notFound
  | methodNotAllowed (allowed : List String)
  | unauthorized (message : String)
  | forbidden (message : String)
  | tooManyRequests (message : String)
  deriving DecidableEq

/-! ### The routers -/

/-- The arms of a `match`, in order. -/
def firstArm (otherwise : Reply) : List (Bool × Reply) → Reply
  | [] => otherwise
  | (guard, reply) :: arms => if guard then reply else firstArm otherwise arms

/-- `str::split_once` -/
def splitOnce (path : Path) : Option (Path × Path) :=
  if '/' ∈ path then some (path.takeWhile (· != '/'), (path.dropWhile (· != '/')).tail) else none

def splitId (path : Path) : Path × Option Path :=
  match splitOnce path with
  | some (id, rest) => (id, some rest)
  | none => (path, none)

def afterPrefix (path : Path) (pre : String) : Path := (path.dropPrefix? pre.toList).getD []

def requireScope (ctx : AuthContext) (scope : AuthScope) (reply : Reply) : Reply :=
  if ctx.hasScope scope then reply else .forbidden ("Missing required scope: " ++ scope.asStr)

def routeTriggerSubpath (ctx : AuthContext) (method : Method) (pipelineId subpath : Path) : Reply :=
  let triggerPath := afterPrefix subpath "triggers"
  if triggerPath = [] ∨ triggerPath = ['/'] then
    if method = .get then requireScope ctx .pipelineRead (.handler (.triggersList pipelineId))
    else .methodNotAllowed ["GET"]
  else
    let triggerPath := (triggerPath.dropPrefix? ['/']).getD triggerPath
    let (triggerId, action) := splitId triggerPath
    if triggerId = [] then .notFound
    else firstArm .notFound [
      (method = .post ∧ action = some "fire".toList,
        requireScope ctx .traceWrite (.handler (.triggersFire pipelineId triggerId))),
      (method = .post ∧ action = some "pause".toList,
        requireScope ctx .pipelineWrite (.handler (.triggersPause pipelineId triggerId))),
      (method = .post ∧ action = some "resume".toList,
        requireScope ctx .pipelineWrite (.handler (.triggersResume pipelineId triggerId)))]

def routePipelineSubpath (ctx : AuthContext) (method : Method) (path : Path) : Reply :=
  let (pipelineId, subpath) := splitId (afterPrefix path "/pipelines/")
  if pipelineId = [] then .notFound
  else firstArm .notFound [
    (method = .get ∧ subpath = none,
      requireScope ctx .pipelineRead (.handler (.pipelinesGet pipelineId))),
    (method = .put ∧ subpath = none,
      requireScope ctx .pipelineWrite (.handler (.pipelinesUpdate pipelineId))),
    (method = .delete ∧ subpath = none,
      requireScope ctx .pipelineWrite (.handler (.pipelinesDelete pipelineId))),
    (method = .post ∧ subpath = some "start".toList,
      requireScope ctx .pipelineWrite (.handler (.pipelinesStart pipelineId))),
    (method = .post ∧ subpath = some "deploy/validate".toList,
      requireScope ctx .pipelineWrite (.handler (.pipelinesValidateDeploy pipelineId))),
    (method = .post ∧ subpath = some "pause".toList,
      requireScope ctx .pipelineWrite (.handler (.pipelinesPause pipelineId))),
    (method = .post ∧ subpath = some "resume".toList,
      requireScope ctx .pipelineWrite (.handler (.pipelinesResume pipelineId))),
    (method = .post ∧ subpath = some "drain".toList,
      requireScope ctx .pipelineWrite (.handler (.pipelinesDrain pipelineId))),
    (method = .post ∧ subpath = some "stop".toList,
      requireScope ctx .pipelineWrite (.handler (.pipelinesStop pipelineId))),
    (method = .get ∧ subpath = some "metrics".toList,
      requireScope ctx .pipelineRead (.handler (.pipelinesMetrics pipelineId))),
    (method = .get ∧ subpath = some "traces".toList,
      requireScope ctx .traceRead (.handler (.tracesListByPipeline pipelineId))),
    (method = .get ∧ subpath = some "suspensions".toList,
      requireScope ctx .traceRead (.handler (.resumeListByPipeline pipelineId))),
    (subpath.any fun s => "triggers".toList.isPrefixOf s,
      routeTriggerSubpath ctx method pipelineId (subpath.getD []))]

def routeTraceSubpath (ctx : AuthContext) (method : Method) (path : Path) : Reply :=
  let (traceId, subpath) := splitId (afterPrefix path "/traces/")
  if traceId = [] then .notFound
  else firstArm (.methodNotAllowed ["GET", "POST"]) [
    (method = .get ∧ subpath = none,
      requireScope ctx .traceRead (.handler (.tracesGet traceId))),
    (method = .get ∧ subpath = some "stream".toList,
      requireScope ctx .traceRead (.handler (.tracesStream traceId))),
    (method = .get ∧ subpath = some "logs".toList,
      requireScope ctx .traceRead (.handler (.tracesLogs traceId))),
    (method = .post ∧ subpath = some "suspend".toList,
      requireScope ctx .traceWrite (.handler (.tracesSuspend traceId))),
    (method = .post ∧ subpath = some "resume".toList,
      requireScope ctx .traceResume (.handler (.tracesResume traceId))),
    (method = .post ∧ subpath = some "cancel".toList,
      requireScope ctx .traceWrite (.handler (.tracesCancel traceId)))]

/-- The methods are not looked at here. -/
def routeLogSubpath (ctx : AuthContext) (path : Path) : Reply :=
  let subpath := afterPrefix path "/logs/"
  if subpath = [] then .notFound
  else requireScope ctx .traceRead <| firstArm .notFound [
    (afterPrefix subpath "by-trace/" ≠ [], .handler (.logsByTrace (afterPrefix subpath "by-trace/"))),
    (afterPrefix subpath "by-level/" ≠ [], .handler (.logsByLevel (afterPrefix subpath "by-level/")))]

def routeResumeSubpath (ctx : AuthContext) (method : Method) (path : Path) : Reply :=
  let hookId := afterPrefix path "/resume/"
  if hookId = [] then .notFound
  else firstArm (.methodNotAllowed ["GET", "POST"]) [
    (method = .get, requireScope ctx .traceRead (.handler (.resumeGet hookId))),
    (method = .post, requireScope ctx .traceResume (.handler (.resumeResume hookId)))]

/-- The `match` of `route` on the method and the path without the API prefix. -/
def dispatch (ctx : AuthContext) (method : Method) (path : Path) : Reply :=
  firstArm .notFound [
    (method = .get ∧ path = "/health".toList, .handler .getHealth),
    (method = .get ∧ path = "/status".toList, .handler .getStatus),
    (method = .get ∧ path = "/metrics".toList, .handler .getMetrics),
    (method = .get ∧ path = "/capabilities".toList, .handler .getCapabilities),
    (method = .get ∧ path = "/nodes/metadata".toList, .handler .nodesMetadata),
    (method = .get ∧ path = "/pipelines".toList, requireScope ctx .pipelineRead (.handler .pipelinesList)),
    (method = .post ∧ path = "/pipelines".toList,
      requireScope ctx .pipelineWrite (.handler .pipelinesCreate)),
    (method = .post ∧ path = "/pipelines/validate".toList,
      requireScope ctx .pipelineWrite (.handler .pipelinesValidate)),
    ("/pipelines/".toList.isPrefixOf path, routePipelineSubpath ctx method path),
    (method = .get ∧ path = "/traces".toList, requireScope ctx .traceRead (.handler .tracesList)),
    (method = .post ∧ path = "/traces".toList, requireScope ctx .traceWrite (.handler .tracesCreate)),
    ("/traces/".toList.isPrefixOf path, routeTraceSubpath ctx method path),
    (method = .get ∧ path = "/logs".toList, requireScope ctx .traceRead (.handler .logsQuery)),
    (method = .get ∧ path = "/logs/recent".toList, requireScope ctx .traceRead (.handler .logsRecent)),
    (method = .get ∧ path = "/logs/stats".toList, requireScope ctx .traceRead (.handler .logsStats)),
    (method = .delete ∧ path = "/logs".toList, requireScope ctx .admin (.handler .logsClear)),
    ("/logs/".toList.isPrefixOf path, routeLogSubpath ctx path),
    (method = .get ∧ path = "/suspensions".toList, requireScope ctx .traceRead (.handler .resumeList)),
    ("/resume/".toList.isPrefixOf path, routeResumeSubpath ctx method path)]

/-! ### Every call of a handler is behind the check of its scope -/

/-- A reply that calls a handler only if the context has the scope named for it. -/
def Reply.Guarded (ctx : AuthContext) (reply : Reply) : Prop :=
  ∀ handler, reply = .handler handler →
    ∀ scope, handler.scope = some scope → ctx.hasScope scope = true

theorem firstArm_of_all {P : Reply → Prop} {otherwise : Reply} {arms : List (Bool × Reply)}
    (hotherwise : P otherwise) (harms : ∀ arm ∈ arms, P arm.2) : P (firstArm otherwise arms) := by
  induction arms with
  | nil => exact hotherwise
  | cons arm arms ih =>
    obtain ⟨harm, hrest⟩ := List.forall_mem_cons.mp harms
    rw [firstArm]
    split
    · exact harm
    · exact ih hrest

section Guarded
variable (ctx : AuthContext)

theorem guarded_free {handler : Handler} (h : handler.scope = none) :
    (Reply.handler handler).Guarded ctx := by
  intro called hcall scope hscope
  cases hcall
  rw [h] at hscope
  cases hscope

theorem guarded_notFound : Reply.notFound.Guarded ctx := by
  intro handler hcall
  cases hcall

theorem guarded_methodNotAllowed (allowed : List String) :
    (Reply.methodNotAllowed allowed).Guarded ctx := by
  intro handler hcall
  cases hcall

theorem guarded_requireScope {required : AuthScope} {reply : Reply}
    (h : ∀ handler, reply = .handler handler → handler.scope = some required) :
    (requireScope ctx required reply).Guarded ctx := by
  intro handler hcall scope hscope
  unfold requireScope at hcall
  by_cases hhas : ctx.hasScope required = true
  · rw [if_pos hhas] at hcall
    rw [h handler hcall] at hscope
    cases hscope
    exact hhas
  · rw [if_neg hhas] at hcall
    cases hcall

theorem guarded_scoped {handler : Handler} {required : AuthScope} (h : handler.scope = some required) :
    (requireScope ctx required (.handler handler)).Guarded ctx := by
  refine guarded_requireScope ctx fun called hcall => ?_
  cases hcall
  exact h

theorem guarded_triggerSubpath (method : Method) (pipelineId subpath : Path) :
    (routeTriggerSubpath ctx method pipelineId subpath).Guarded ctx := by
  unfold routeTriggerSubpath
  dsimp only
  split
  · split
    · exact guarded_scoped ctx rfl
    · exact guarded_methodNotAllowed ctx _
  · split
    · exact guarded_notFound ctx
    · refine firstArm_of_all (guarded_notFound ctx) ?_
      simp only [List.forall_mem_cons, List.not_mem_nil, false_imp_iff, implies_true, and_true]
      exact ⟨guarded_scoped ctx rfl, guarded_scoped ctx rfl, guarded_scoped ctx rfl⟩

theorem guarded_pipelineSubpath (method : Method) (path : Path) :
    (routePipelineSubpath ctx method path).Guarded ctx := by
  unfold routePipelineSubpath
  dsimp only
  split
  · exact guarded_notFound ctx
  · refine firstArm_of_all (guarded_notFound ctx) ?_
    simp only [List.forall_mem_cons, List.not_mem_nil, false_imp_iff, implies_true, and_true]
    refine ⟨guarded_scoped ctx rfl, guarded_scoped ctx rfl, guarded_scoped ctx rfl, guarded_scoped ctx rfl,
      guarded_scoped ctx rfl, guarded_scoped ctx rfl, guarded_scoped ctx rfl, guarded_scoped ctx rfl,
      guarded_scoped ctx rfl, guarded_scoped ctx rfl, guarded_scoped ctx rfl, guarded_scoped ctx rfl, ?_⟩
    exact guarded_triggerSubpath ctx method _ _

theorem guarded_traceSubpath (method : Method) (path : Path) :
    (routeTraceSubpath ctx method path).Guarded ctx := by
  unfold routeTraceSubpath
  dsimp only
  split
  · exact guarded_notFound ctx
  · refine firstArm_of_all (guarded_methodNotAllowed ctx _) ?_
    simp only [List.forall_mem_cons, List.not_mem_nil, false_imp_iff, implies_true, and_true]
    exact ⟨guarded_scoped ctx rfl, guarded_scoped ctx rfl, guarded_scoped ctx rfl, guarded_scoped ctx rfl,
      guarded_scoped ctx rfl, guarded_scoped ctx rfl⟩

theorem logHandlers_scope (subpath : Path) {handler : Handler}
    (hcall : firstArm .notFound [
      (afterPrefix subpath "by-trace/" ≠ [], .handler (.logsByTrace (afterPrefix subpath "by-trace/"))),
      (afterPrefix subpath "by-level/" ≠ [], .handler (.logsByLevel (afterPrefix subpath "by-level/")))] =
        .handler handler) : handler.scope = some .traceRead := by
  revert handler
  refine firstArm_of_all (P := fun reply => ∀ {handler}, reply = .handler handler →
    handler.scope = some .traceRead) (fun hcall => by cases hcall) ?_
  simp only [List.forall_mem_cons, List.not_mem_nil, false_imp_iff, implies_true, and_true]
  constructor
  · intro handler hcall
    cases hcall
    rfl
  · intro handler hcall
    cases hcall
    rfl

theorem guarded_logSubpath (path : Path) : (routeLogSubpath ctx path).Guarded ctx := by
  unfold routeLogSubpath
  dsimp only
  split
  · exact guarded_notFound ctx
  · exact guarded_requireScope ctx fun handler hcall => logHandlers_scope _ hcall

theorem guarded_resumeSubpath (method : Method) (path : Path) :
    (routeResumeSubpath ctx method path).Guarded ctx := by
  unfold routeResumeSubpath
  dsimp only
  split
  · exact guarded_notFound ctx
  · refine firstArm_of_all (guarded_methodNotAllowed ctx _) ?_
    simp only [List.forall_mem_cons, List.not_mem_nil, false_imp_iff, implies_true, and_true]
    exact ⟨guarded_scoped ctx rfl, guarded_scoped ctx rfl⟩

theorem guarded_dispatch (method : Method) (path : Path) : (dispatch ctx method path).Guarded ctx := by
  refine firstArm_of_all (guarded_notFound ctx) ?_
  simp only [List.forall_mem_cons, List.not_mem_nil, false_imp_iff, implies_true, and_true]
  refine ⟨guarded_free ctx rfl, guarded_free ctx rfl, guarded_free ctx rfl, guarded_free ctx rfl,
    guarded_free ctx rfl, guarded_scoped ctx rfl, guarded_scoped ctx rfl, guarded_scoped ctx rfl, ?_,
    guarded_scoped ctx rfl, guarded_scoped ctx rfl, ?_, guarded_scoped ctx rfl, guarded_scoped ctx rfl,
    guarded_scoped ctx rfl, guarded_scoped ctx rfl, ?_, guarded_scoped ctx rfl, ?_⟩
  · exact guarded_pipelineSubpath ctx method path
  · exact guarded_traceSubpath ctx method path
  · exact guarded_logSubpath ctx path
  · exact guarded_resumeSubpath ctx method path

end Guarded

/-! ### The whole route -/

section Route
variable (ops : KeyOps) (now : ℕ)

def route (config : AuthConfig) (request : Request) : Reply :=
  if request.method = .options then .preflight
  else if "/api/v1".toList.isPrefixOf request.path = false then .serveStatic request.path
  else if request.limited then .tooManyRequests "Rate limit exceeded"
  else
    match authenticate ops now config request.path request.headers with
    | .error cause => .unauthorized ("E1001: Authentication failed: " ++ cause)
    | .ok ctx =>
      dispatch ctx request.method ((request.path.dropPrefix? "/api/v1".toList).getD request.path)

/-- A handler is called in a context that authentication gave, and past the check of its scope. -/
theorem route_handler {config : AuthConfig} {request : Request} {handler : Handler}
    (h : route ops now config request = .handler handler) :
    ∃ ctx, authenticate ops now config request.path request.headers = .ok ctx ∧
      ∀ scope, handler.scope = some scope → ctx.hasScope scope = true := by
  unfold route at h
  split at h
  · cases h
  split at h
  · cases h
  split at h
  · cases h
  cases hauth : authenticate ops now config request.path request.headers with
  | error cause =>
    rw [hauth] at h
    cases h
  | ok ctx =>
    rw [hauth] at h
    exact ⟨ctx, rfl, guarded_dispatch ctx _ _ handler h⟩

/-- While authentication is on, a handler with access to pipelines, triggers, traces, logs or suspensions is
called only off the exempt paths and for a key that identifies an entry with the scope named for it, or
`admin`; the three overviews, for which no scope is named, on an exempt path or for a key that identifies
an entry. -/
theorem handler_call_authorised (config : AuthConfig) (henabled : config.enabled = true)
    (request : Request) (handler : Handler) (hresources : handler.resources ≠ [])
    (hroute : route ops now config request = .handler handler) :
    (handler.overview = false →
        config.isPathExempt request.path = false ∧
          ∃ scope entry, handler.scope = some scope ∧ config.Identifies ops now request.headers entry ∧
            (AuthScope.admin ∈ entry.scopes ∨ scope ∈ entry.scopes)) ∧
      (handler.overview = true →
        config.isPathExempt request.path = true ∨
          ∃ entry, config.Identifies ops now request.headers entry) := by
  obtain ⟨ctx, hauth, hchecked⟩ := route_handler ops now hroute
  rcases authenticate_ok ops now henabled hauth with ⟨hexempt, rfl⟩ | ⟨hexempt, entry, hentry, rfl⟩
  · refine ⟨fun hoverview => ?_, fun _ => Or.inl hexempt⟩
    -- nobody is anonymous past the check of a scope
    obtain ⟨scope, hscope⟩ := handler.scope_of_resources hresources hoverview
    have hhas := hchecked scope hscope
    rw [AuthContext.anonymous_hasScope] at hhas
    cases hhas
  · refine ⟨fun hoverview => ⟨hexempt, ?_⟩, fun _ => Or.inr ⟨entry, hentry⟩⟩
    obtain ⟨scope, hscope⟩ := handler.scope_of_resources hresources hoverview
    exact ⟨scope, entry, hscope, hentry, (AuthContext.hasScope_iff _ _).mp (hchecked scope hscope)⟩

end Route

/-! ### With and without a key -/

def readerKeys : ApiKeyConfig := ⟨"X-API-Key", [⟨"reader", "k", {.pipelineRead}, none⟩]⟩

def openStatus : AuthConfig := { AuthConfig.new.withExemptPath "/status".toList with
  enabled := true, apiKey := some readerKeys }

def readerRequest : Request :=
  ⟨.get, "/api/v1/pipelines".toList, fun name => if name = "X-API-Key" then some "k" else none, false⟩

def statusRequest : Request := ⟨.get, "/api/v1/status".toList, fun _ => none, false⟩

theorem reader_lists_pipelines :
    openStatus.isPathExempt readerRequest.path = false ∧
      ∃ scope entry, Handler.pipelinesList.scope = some scope ∧
        openStatus.Identifies ⟨id, id⟩ 0 readerRequest.headers entry ∧
          (AuthScope.admin ∈ entry.scopes ∨ scope ∈ entry.scopes) :=
  (handler_call_authorised ⟨id, id⟩ 0 openStatus rfl readerRequest .pipelinesList (by decide)
    (by decide)).1 rfl

/-- On an exempt path, without any header, the ids of the pipelines and the counts of the traces are read. -/
theorem status_without_key :
    openStatus.enabled = true ∧ (∀ name, statusRequest.headers name = none) ∧
      route ⟨id, id⟩ 0 openStatus statusRequest = .handler .getStatus ∧
      Resource.pipelines ∈ Handler.getStatus.resources ∧ Resource.traces ∈ Handler.getStatus.resources ∧
      ¬ ∃ entry, openStatus.Identifies ⟨id, id⟩ 0 statusRequest.headers entry := by
  refine ⟨rfl, fun _ => rfl, by decide, by decide, by decide, ?_⟩
  rintro ⟨entry, apiKey, key, -, hheader, -⟩
  cases hheader

end Xerv.Api
