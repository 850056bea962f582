import Xerv.Api.Router
import Xerv.Core.Types

/-!
# The client and the router (`xerv-client/src/`)

What each method of the client asks for, and where the router of the server leads its path. Bodies are left out.
-/

namespace Xerv.Api
open Xerv.Lib

/-- The arguments of `query_logs`. -/
structure LogQuery where
  level : Option (List Char)
  traceId : Option TraceId
  pipelineId : Option String
  contains : Option String
  limit : Option ℕ

inductive ClientCall where
  | deployPipeline | validatePipeline | listPipelines
  | validatePipelineForDeploy (pipelineId : Path)
  | getPipeline (pipelineId : Path)
  | deletePipeline (pipelineId : Path)
  | startPipeline (pipelineId : Path)
  | pausePipeline (pipelineId : Path)
  | resumePipeline (pipelineId : Path)
  | drainPipeline (pipelineId : Path)
  | stopPipeline (pipelineId : Path)
  | listTraces
  | listTracesByPipeline (pipelineId : Path)
  | getTrace (traceId : TraceId)
  | listTriggers (pipelineId : Path)
  | fireTrigger (pipelineId triggerId : Path)
  | pauseTrigger (pipelineId triggerId : Path)
  | resumeTrigger (pipelineId triggerId : Path)
  | queryLogs (query : LogQuery)
  | getRecentLogs (limit : ℕ)
  | getTraceLogs (traceId : TraceId)
  | getLogsByLevel (level : Path) (limit : Option ℕ)
  | getLogStats | clearLogs

def decimal (n : ℕ) : List Char := padded 10 1 n

section Paths
variable (encode : String → List Char)

/-- `query_params` of `query_logs`. -/
def LogQuery.params (query : LogQuery) : List (List Char) :=
  (query.level.map fun level => "level=".toList ++ level).toList ++
    (query.traceId.map fun traceId => "trace_id=".toList ++ traceId.uuid).toList ++
    (query.pipelineId.map fun pipelineId => "pipeline_id=".toList ++ encode pipelineId).toList ++
    (query.contains.map fun contains => "contains=".toList ++ encode contains).toList ++
    (query.limit.map fun limit => "limit=".toList ++ decimal limit).toList

namespace ClientCall

def method : ClientCall → Method
  | deployPipeline | validatePipeline | validatePipelineForDeploy _ | startPipeline _ | pausePipeline _
  | resumePipeline _ | drainPipeline _ | stopPipeline _ | fireTrigger _ _ | pauseTrigger _ _
  | resumeTrigger _ _ => .post
  | deletePipeline _ | clearLogs => .delete
  | listPipelines | getPipeline _ | listTraces | listTracesByPipeline _ | getTrace _ | listTriggers _
  | queryLogs _ | getRecentLogs _ | getTraceLogs _ | getLogsByLevel _ _ | getLogStats => .get

/-- The path that a method hands to `get`, `post`, `post_raw` or `delete`, up to a question mark. -/
def path : ClientCall → Path
  | deployPipeline | listPipelines => "pipelines".toList
  | validatePipeline => "pipelines/validate".toList
  | validatePipelineForDeploy pipelineId => "pipelines/".toList ++ pipelineId ++ "/deploy/validate".toList
  | getPipeline pipelineId | deletePipeline pipelineId => "pipelines/".toList ++ pipelineId
  | startPipeline pipelineId => "pipelines/".toList ++ pipelineId ++ "/start".toList
  | pausePipeline pipelineId => "pipelines/".toList ++ pipelineId ++ "/pause".toList
  | resumePipeline pipelineId => "pipelines/".toList ++ pipelineId ++ "/resume".toList
  | drainPipeline pipelineId => "pipelines/".toList ++ pipelineId ++ "/drain".toList
  | stopPipeline pipelineId => "pipelines/".toList ++ pipelineId ++ "/stop".toList
  | listTraces => "traces".toList
  | listTracesByPipeline pipelineId => "pipelines/".toList ++ pipelineId ++ "/traces".toList
  | getTrace traceId => "traces/".toList ++ traceId.uuid
  | listTriggers pipelineId => "pipelines/".toList ++ pipelineId ++ "/triggers".toList
  | fireTrigger pipelineId triggerId =>
    "pipelines/".toList ++ pipelineId ++ "/triggers/".toList ++ triggerId ++ "/fire".toList
  | pauseTrigger pipelineId triggerId =>
    "pipelines/".toList ++ pipelineId ++ "/triggers/".toList ++ triggerId ++ "/pause".toList
  | resumeTrigger pipelineId triggerId =>
    "pipelines/".toList ++ pipelineId ++ "/triggers/".toList ++ triggerId ++ "/resume".toList
  | queryLogs _ | clearLogs => "logs".toList
  | getRecentLogs _ => "logs/recent".toList
  | getTraceLogs traceId => "logs/by-trace/".toList ++ traceId.uuid
  | getLogsByLevel level _ => "logs/by-level/".toList ++ level
  | getLogStats => "logs/stats".toList

def query : ClientCall → Option (List Char)
  | queryLogs query => if query.params encode = [] then none else some (['&'].intercalate (query.params encode))
  | getRecentLogs limit => some ("limit=".toList ++ decimal limit)
  | getLogsByLevel _ limit => limit.map fun limit => "limit=".toList ++ decimal limit
  | _ => none

def handler : ClientCall → Handler
  | deployPipeline => .pipelinesCreate
  | validatePipeline => .pipelinesValidate
  | listPipelines => .pipelinesList
  | validatePipelineForDeploy pipelineId => .pipelinesValidateDeploy pipelineId
  | getPipeline pipelineId => .pipelinesGet pipelineId
  | deletePipeline pipelineId => .pipelinesDelete pipelineId
  | startPipeline pipelineId => .pipelinesStart pipelineId
  | pausePipeline pipelineId => .pipelinesPause pipelineId
  | resumePipeline pipelineId => .pipelinesResume pipelineId
  | drainPipeline pipelineId => .pipelinesDrain pipelineId
  | stopPipeline pipelineId => .pipelinesStop pipelineId
  | listTraces => .tracesList
  | listTracesByPipeline pipelineId => .tracesListByPipeline pipelineId
  | getTrace traceId => .tracesGet traceId.uuid
  | listTriggers pipelineId => .triggersList pipelineId
  | fireTrigger pipelineId triggerId => .triggersFire pipelineId triggerId
  | pauseTrigger pipelineId triggerId => .triggersPause pipelineId triggerId
  | resumeTrigger pipelineId triggerId => .triggersResume pipelineId triggerId
  | queryLogs _ => .logsQuery
  | getRecentLogs _ => .logsRecent
  | getTraceLogs traceId => .logsByTrace traceId.uuid
  | getLogsByLevel level _ => .logsByLevel level
  | getLogStats => .logsStats
  | clearLogs => .logsClear

end ClientCall

end Paths

/-! ### Where a path leads -/

theorem uuid_chars (traceId : TraceId) : ∀ c ∈ traceId.uuid, c.isAlphanum = true ∨ c = '-' := by
  have hhex (bytes : Bytes) : ∀ c ∈ hexText bytes, c.isAlphanum = true ∨ c = '-' := by
    intro c hc
    obtain ⟨b, -, hb⟩ := List.mem_flatMap.mp hc
    rcases mem_padded 16 2 b.toNat (by omega) c hb with rfl | ⟨d, hd, rfl⟩
    · exact .inl (by decide)
    · left
      interval_cases d <;> decide
  intro c hc
  simp only [TraceId.uuid, List.mem_append, List.mem_singleton] at hc
  rcases hc with (((((((h | h) | h) | h) | h) | h) | h) | h) | h
  · exact hhex _ c h
  · exact .inr h
  · exact hhex _ c h
  · exact .inr h
  · exact hhex _ c h
  · exact .inr h
  · exact hhex _ c h
  · exact .inr h
  · exact hhex _ c h

/-- A text that stands for one segment of a path. -/
def IdText (id : Path) : Prop := id ≠ [] ∧ '/' ∉ id

theorem uuid_idText (traceId : TraceId) : IdText traceId.uuid := by
  refine ⟨by simp [TraceId.uuid], fun hmem => ?_⟩
  rcases uuid_chars traceId _ hmem with h | h <;> simp at h

theorem splitId_segment {id : Path} (h : '/' ∉ id) : splitId id = (id, none) := by
  simp [splitId, splitOnce, h]

theorem splitId_cons {id : Path} (h : '/' ∉ id) (rest : Path) : splitId (id ++ '/' :: rest) = (id, some rest) := by
  have hall : ∀ c ∈ id, (c != '/') = true := fun c hc => by
    have hne : c ≠ '/' := fun he => h (he ▸ hc)
    simpa using hne
  have htake : (id ++ '/' :: rest).takeWhile (· != '/') = id := by
    rw [List.takeWhile_append_of_pos hall]
    simp
  have hdrop : (id ++ '/' :: rest).dropWhile (· != '/') = '/' :: rest := by
    rw [List.dropWhile_append_of_pos hall]
    simp
  simp [splitId, splitOnce, htake, hdrop]

theorem slash_notMem_splitId (path : Path) : '/' ∉ (splitId path).1 := by
  unfold splitId splitOnce
  by_cases h : '/' ∈ path
  · simp only [h, if_true]
    intro hmem
    have htake := List.mem_takeWhile_imp hmem
    simp at htake
  · rw [if_neg h]
    exact h

theorem afterPrefix_append (pre : String) (rest : Path) : afterPrefix (pre.toList ++ rest) pre = rest := by
  have hdrop : (pre.toList ++ rest).dropPrefix? pre.toList = some rest :=
    List.dropPrefix?_eq_some_iff.mpr ⟨pre.toList, rfl, beq_self_eq_true _⟩
  rw [afterPrefix, hdrop, Option.getD_some]

section Dispatch
variable (ctx : AuthContext)

theorem dispatch_pipelines (method : Method) (rest : Path) (h : rest ≠ "validate".toList ∨ method ≠ .post) :
    dispatch ctx method ("/pipelines/".toList ++ rest) =
      routePipelineSubpath ctx method ("/pipelines/".toList ++ rest) := by
  simp [dispatch, firstArm]
  intro hmethod hrest
  rcases h with h | h
  · exact absurd hrest h
  · exact absurd hmethod h

theorem dispatch_action (method : Method) (id action : Path) :
    dispatch ctx method ('/' :: ("pipelines/".toList ++ id ++ '/' :: action)) =
      routePipelineSubpath ctx method ("/pipelines/".toList ++ (id ++ '/' :: action)) := by
  have hpath : '/' :: ("pipelines/".toList ++ id ++ '/' :: action) =
      "/pipelines/".toList ++ (id ++ '/' :: action) := by simp
  rw [hpath]
  refine dispatch_pipelines ctx method _ (.inl fun he => ?_)
  have hslash : '/' ∈ "validate".toList := he ▸ by simp
  simp at hslash

def ClientCall.scope (call : ClientCall) : AuthScope := call.handler.scope.getD .admin

/-- The ids in the path stand for one segment each; the level is any text. -/
def ClientCall.Addresses : ClientCall → Prop
  | .validatePipelineForDeploy id | .getPipeline id | .deletePipeline id | .startPipeline id | .pausePipeline id
  | .resumePipeline id | .drainPipeline id | .stopPipeline id | .listTracesByPipeline id
  | .listTriggers id => IdText id
  | .fireTrigger id triggerId | .pauseTrigger id triggerId | .resumeTrigger id triggerId =>
    IdText id ∧ IdText triggerId
  | .getLogsByLevel level _ => level ≠ []
  | _ => True

theorem triggerSubpath_action (method : Method) (id : Path) {triggerId : Path} (h : IdText triggerId)
    (action : Path) :
    routeTriggerSubpath ctx method id ("triggers".toList ++ '/' :: (triggerId ++ '/' :: action)) =
      firstArm .notFound [
        (method = .post ∧ action = "fire".toList,
          requireScope ctx .traceWrite (.handler (.triggersFire id triggerId))),
        (method = .post ∧ action = "pause".toList,
          requireScope ctx .pipelineWrite (.handler (.triggersPause id triggerId))),
        (method = .post ∧ action = "resume".toList,
          requireScope ctx .pipelineWrite (.handler (.triggersResume id triggerId)))] := by
  have hdrop : ('/' :: (triggerId ++ '/' :: action)).dropPrefix? ['/'] = some (triggerId ++ '/' :: action) :=
    List.dropPrefix?_eq_some_iff.mpr ⟨['/'], rfl, beq_self_eq_true _⟩
  have hmore : ¬('/' :: (triggerId ++ '/' :: action) = [] ∨ '/' :: (triggerId ++ '/' :: action) = ['/']) := by
    simp
  unfold routeTriggerSubpath
  rw [afterPrefix_append]
  dsimp only
  rw [if_neg hmore, hdrop, Option.getD_some, splitId_cons h.2]
  dsimp only
  rw [if_neg h.1]
  simp only [Option.some.injEq]

theorem triggerSubpath_list (id : Path) : routeTriggerSubpath ctx .get id "triggers".toList =
    requireScope ctx .pipelineRead (.handler (.triggersList id)) := by
  have hnone : afterPrefix "triggers".toList "triggers" = [] := by
    have happend := afterPrefix_append "triggers" []
    rwa [List.append_nil] at happend
  unfold routeTriggerSubpath
  rw [hnone]
  simp

theorem dispatch_trigger (method : Method) {id triggerId : Path} (hid : IdText id) (htrigger : IdText triggerId)
    (action : Path) :
    dispatch ctx method ('/' :: ("pipelines/".toList ++ id ++ "/triggers/".toList ++ triggerId ++ '/' :: action)) =
      firstArm .notFound [
        (method = .post ∧ action = "fire".toList,
          requireScope ctx .traceWrite (.handler (.triggersFire id triggerId))),
        (method = .post ∧ action = "pause".toList,
          requireScope ctx .pipelineWrite (.handler (.triggersPause id triggerId))),
        (method = .post ∧ action = "resume".toList,
          requireScope ctx .pipelineWrite (.handler (.triggersResume id triggerId)))] := by
  have hpath : '/' :: ("pipelines/".toList ++ id ++ "/triggers/".toList ++ triggerId ++ '/' :: action) =
      '/' :: ("pipelines/".toList ++ id ++ '/' :: ("triggers".toList ++ '/' :: (triggerId ++ '/' :: action))) := by
    simp
  rw [hpath, dispatch_action, routePipelineSubpath, afterPrefix_append, splitId_cons hid.2]
  dsimp only
  rw [if_neg hid.1, ← triggerSubpath_action ctx method id htrigger action]
  simp [firstArm]

/-- The call comes to the check of its scope, and behind it to its handler. -/
def Reaches (call : ClientCall) : Prop :=
  dispatch ctx call.method ('/' :: call.path) = requireScope ctx call.scope (.handler call.handler)

theorem getPipeline_reaches {id : Path} (h : IdText id) : Reaches ctx (.getPipeline id) := by
  refine (dispatch_pipelines ctx .get id (.inr (by decide))).trans ?_
  rw [routePipelineSubpath, afterPrefix_append, splitId_segment h.2]
  simp [firstArm, h.1, ClientCall.scope, ClientCall.handler, Handler.scope]

theorem deletePipeline_reaches {id : Path} (h : IdText id) : Reaches ctx (.deletePipeline id) := by
  refine (dispatch_pipelines ctx .delete id (.inr (by decide))).trans ?_
  rw [routePipelineSubpath, afterPrefix_append, splitId_segment h.2]
  simp [firstArm, h.1, ClientCall.scope, ClientCall.handler, Handler.scope]

theorem validatePipelineForDeploy_reaches {id : Path} (h : IdText id) :
    Reaches ctx (.validatePipelineForDeploy id) := by
  refine (dispatch_action ctx .post id "deploy/validate".toList).trans ?_
  rw [routePipelineSubpath, afterPrefix_append, splitId_cons h.2]
  simp [firstArm, h.1, ClientCall.scope, ClientCall.handler, Handler.scope]

theorem startPipeline_reaches {id : Path} (h : IdText id) : Reaches ctx (.startPipeline id) := by
  refine (dispatch_action ctx .post id "start".toList).trans ?_
  rw [routePipelineSubpath, afterPrefix_append, splitId_cons h.2]
  simp [firstArm, h.1, ClientCall.scope, ClientCall.handler, Handler.scope]

theorem pausePipeline_reaches {id : Path} (h : IdText id) : Reaches ctx (.pausePipeline id) := by
  refine (dispatch_action ctx .post id "pause".toList).trans ?_
  rw [routePipelineSubpath, afterPrefix_append, splitId_cons h.2]
  simp [firstArm, h.1, ClientCall.scope, ClientCall.handler, Handler.scope]

theorem resumePipeline_reaches {id : Path} (h : IdText id) : Reaches ctx (.resumePipeline id) := by
  refine (dispatch_action ctx .post id "resume".toList).trans ?_
  rw [routePipelineSubpath, afterPrefix_append, splitId_cons h.2]
  simp [firstArm, h.1, ClientCall.scope, ClientCall.handler, Handler.scope]

theorem drainPipeline_reaches {id : Path} (h : IdText id) : Reaches ctx (.drainPipeline id) := by
  refine (dispatch_action ctx .post id "drain".toList).trans ?_
  rw [routePipelineSubpath, afterPrefix_append, splitId_cons h.2]
  simp [firstArm, h.1, ClientCall.scope, ClientCall.handler, Handler.scope]

theorem stopPipeline_reaches {id : Path} (h : IdText id) : Reaches ctx (.stopPipeline id) := by
  refine (dispatch_action ctx .post id "stop".toList).trans ?_
  rw [routePipelineSubpath, afterPrefix_append, splitId_cons h.2]
  simp [firstArm, h.1, ClientCall.scope, ClientCall.handler, Handler.scope]

theorem listTracesByPipeline_reaches {id : Path} (h : IdText id) : Reaches ctx (.listTracesByPipeline id) := by
  refine (dispatch_action ctx .get id "traces".toList).trans ?_
  rw [routePipelineSubpath, afterPrefix_append, splitId_cons h.2]
  simp [firstArm, h.1, ClientCall.scope, ClientCall.handler, Handler.scope]

theorem listTriggers_reaches {id : Path} (h : IdText id) : Reaches ctx (.listTriggers id) := by
  refine (dispatch_action ctx .get id "triggers".toList).trans ?_
  rw [routePipelineSubpath, afterPrefix_append, splitId_cons h.2]
  dsimp only
  rw [if_neg h.1, Option.getD_some, triggerSubpath_list]
  simp [firstArm, ClientCall.scope, ClientCall.handler, Handler.scope]

theorem getTrace_reaches (traceId : TraceId) : Reaches ctx (.getTrace traceId) := by
  obtain ⟨hne, hslash⟩ := uuid_idText traceId
  have hroute : dispatch ctx .get ("/traces/".toList ++ traceId.uuid) =
      routeTraceSubpath ctx .get ("/traces/".toList ++ traceId.uuid) := by
    simp [dispatch, firstArm]
  have hpath : '/' :: ("traces/".toList ++ traceId.uuid) = "/traces/".toList ++ traceId.uuid := by simp
  change dispatch ctx .get ('/' :: ("traces/".toList ++ traceId.uuid)) = _
  rw [hpath]
  refine hroute.trans ?_
  rw [routeTraceSubpath, afterPrefix_append, splitId_segment hslash]
  simp [firstArm, hne, ClientCall.scope, ClientCall.handler, Handler.scope]

theorem dispatch_logs (method : Method) (rest : Path) (h : '/' ∈ rest) :
    dispatch ctx method ("/logs/".toList ++ rest) = routeLogSubpath ctx ("/logs/".toList ++ rest) := by
  have hrecent : rest ≠ "recent".toList := fun he => by simp [he] at h
  have hstats : rest ≠ "stats".toList := fun he => by simp [he] at h
  simp at hrecent hstats
  simp [dispatch, firstArm, hrecent, hstats]

theorem getTraceLogs_reaches (traceId : TraceId) : Reaches ctx (.getTraceLogs traceId) := by
  obtain ⟨hne, -⟩ := uuid_idText traceId
  have hpath : '/' :: ("logs/by-trace/".toList ++ traceId.uuid) =
      "/logs/".toList ++ ("by-trace/".toList ++ traceId.uuid) := by simp
  change dispatch ctx .get ('/' :: ("logs/by-trace/".toList ++ traceId.uuid)) = _
  rw [hpath]
  refine (dispatch_logs ctx .get _ (by simp)).trans ?_
  have hsome : ¬"by-trace/".toList ++ traceId.uuid = [] := by simp
  rw [routeLogSubpath, afterPrefix_append, if_neg hsome, afterPrefix_append]
  simp [firstArm, hne, ClientCall.scope, ClientCall.handler, Handler.scope]

theorem getLogsByLevel_reaches {level : Path} (h : level ≠ []) (limit : Option ℕ) :
    Reaches ctx (.getLogsByLevel level limit) := by
  have hpath : '/' :: ("logs/by-level/".toList ++ level) = "/logs/".toList ++ ("by-level/".toList ++ level) := by
    simp
  have htrace : afterPrefix ("by-level/".toList ++ level) "by-trace/" = [] := by
    simp [afterPrefix, List.dropPrefix?]
  change dispatch ctx .get ('/' :: ("logs/by-level/".toList ++ level)) = _
  rw [hpath]
  refine (dispatch_logs ctx .get _ (by simp)).trans ?_
  have hsome : ¬"by-level/".toList ++ level = [] := by simp
  rw [routeLogSubpath, afterPrefix_append, if_neg hsome, htrace, afterPrefix_append]
  simp [firstArm, h, ClientCall.scope, ClientCall.handler, Handler.scope]

theorem call_reaches (call : ClientCall) (h : call.Addresses) : Reaches ctx call := by
  cases call with
  | deployPipeline | validatePipeline | listPipelines | listTraces | queryLogs _ | getRecentLogs _ | getLogStats
  | clearLogs => rfl
  | getPipeline id => exact getPipeline_reaches ctx h
  | deletePipeline id => exact deletePipeline_reaches ctx h
  | validatePipelineForDeploy id => exact validatePipelineForDeploy_reaches ctx h
  | startPipeline id => exact startPipeline_reaches ctx h
  | pausePipeline id => exact pausePipeline_reaches ctx h
  | resumePipeline id => exact resumePipeline_reaches ctx h
  | drainPipeline id => exact drainPipeline_reaches ctx h
  | stopPipeline id => exact stopPipeline_reaches ctx h
  | listTracesByPipeline id => exact listTracesByPipeline_reaches ctx h
  | listTriggers id => exact listTriggers_reaches ctx h
  | fireTrigger id triggerId => exact dispatch_trigger ctx .post h.1 h.2 "fire".toList
  | pauseTrigger id triggerId => exact dispatch_trigger ctx .post h.1 h.2 "pause".toList
  | resumeTrigger id triggerId => exact dispatch_trigger ctx .post h.1 h.2 "resume".toList
  | getTrace traceId => exact getTrace_reaches ctx traceId
  | getTraceLogs traceId => exact getTraceLogs_reaches ctx traceId
  | getLogsByLevel level limit => exact getLogsByLevel_reaches ctx h limit

/-- The ids that a handler is called with, save those of the log handlers, stand for one segment each. -/
def Handler.Addressed : Handler → Prop
  | .pipelinesGet id | .pipelinesUpdate id | .pipelinesDelete id | .pipelinesStart id | .pipelinesValidateDeploy id
  | .pipelinesPause id | .pipelinesResume id | .pipelinesDrain id | .pipelinesStop id | .pipelinesMetrics id
  | .triggersList id | .tracesListByPipeline id | .resumeListByPipeline id => IdText id
  | .triggersFire id triggerId | .triggersPause id triggerId | .triggersResume id triggerId =>
    IdText id ∧ IdText triggerId
  | .logsByLevel level => level ≠ []
  | _ => True

def Reply.Addressed (reply : Reply) : Prop := ∀ handler, reply = .handler handler → handler.Addressed

theorem firstArm_of_guards {P : Reply → Prop} {otherwise : Reply} {arms : List (Bool × Reply)}
    (hotherwise : P otherwise) (harms : ∀ arm ∈ arms, arm.1 = true → P arm.2) : P (firstArm otherwise arms) := by
  induction arms with
  | nil => exact hotherwise
  | cons arm arms ih =>
    obtain ⟨harm, hrest⟩ := List.forall_mem_cons.mp harms
    rw [firstArm]
    split
    · rename_i hguard
      exact harm hguard
    · exact ih hrest

theorem addressed_other {reply : Reply} (h : ∀ handler, reply ≠ .handler handler) : reply.Addressed :=
  fun handler hreply => absurd hreply (h handler)

theorem addressed_scoped {scope : AuthScope} {handler : Handler} (h : handler.Addressed) :
    (requireScope ctx scope (.handler handler)).Addressed := by
  intro called hcall
  unfold requireScope at hcall
  split at hcall
  · cases hcall
    exact h
  · cases hcall

theorem addressed_free {handler : Handler} (h : handler.Addressed) : (Reply.handler handler).Addressed := by
  intro called hcall
  cases hcall
  exact h

theorem addressed_triggerSubpath (method : Method) {id : Path} (hid : IdText id) (subpath : Path) :
    (routeTriggerSubpath ctx method id subpath).Addressed := by
  unfold routeTriggerSubpath
  dsimp only
  split
  · split
    · exact addressed_scoped ctx hid
    · exact addressed_other nofun
  · split
    · exact addressed_other nofun
    · rename_i hne
      have htrigger := And.intro hne (slash_notMem_splitId
        (((afterPrefix subpath "triggers").dropPrefix? ['/']).getD (afterPrefix subpath "triggers")))
      refine firstArm_of_all (addressed_other nofun) ?_
      simp only [List.forall_mem_cons, List.not_mem_nil, false_imp_iff, implies_true, and_true]
      exact ⟨addressed_scoped ctx ⟨hid, htrigger⟩, addressed_scoped ctx ⟨hid, htrigger⟩,
        addressed_scoped ctx ⟨hid, htrigger⟩⟩

theorem addressed_pipelineSubpath (method : Method) (path : Path) :
    (routePipelineSubpath ctx method path).Addressed := by
  unfold routePipelineSubpath
  dsimp only
  split
  · exact addressed_other nofun
  · rename_i hne
    have hid : IdText (splitId (afterPrefix path "/pipelines/")).1 := ⟨hne, slash_notMem_splitId _⟩
    refine firstArm_of_all (addressed_other nofun) ?_
    simp only [List.forall_mem_cons, List.not_mem_nil, false_imp_iff, implies_true, and_true]
    exact ⟨addressed_scoped ctx hid, addressed_scoped ctx hid, addressed_scoped ctx hid, addressed_scoped ctx hid,
      addressed_scoped ctx hid, addressed_scoped ctx hid, addressed_scoped ctx hid, addressed_scoped ctx hid,
      addressed_scoped ctx hid, addressed_scoped ctx hid, addressed_scoped ctx hid, addressed_scoped ctx hid,
      addressed_triggerSubpath ctx method hid _⟩

theorem addressed_traceSubpath (method : Method) (path : Path) : (routeTraceSubpath ctx method path).Addressed := by
  unfold routeTraceSubpath
  dsimp only
  split
  · exact addressed_other nofun
  · refine firstArm_of_all (addressed_other nofun) ?_
    simp only [List.forall_mem_cons, List.not_mem_nil, false_imp_iff, implies_true, and_true]
    exact ⟨addressed_scoped ctx trivial, addressed_scoped ctx trivial, addressed_scoped ctx trivial,
      addressed_scoped ctx trivial, addressed_scoped ctx trivial, addressed_scoped ctx trivial⟩

theorem addressed_logSubpath (path : Path) : (routeLogSubpath ctx path).Addressed := by
  unfold routeLogSubpath
  dsimp only
  split
  · exact addressed_other nofun
  · unfold requireScope
    split
    · refine firstArm_of_guards (addressed_other nofun) ?_
      simp only [List.forall_mem_cons, List.not_mem_nil, false_imp_iff, implies_true, and_true]
      exact ⟨fun _ => addressed_free trivial,
        fun hguard => addressed_free (show _ ≠ [] from of_decide_eq_true hguard)⟩
    · exact addressed_other nofun

theorem addressed_resumeSubpath (method : Method) (path : Path) :
    (routeResumeSubpath ctx method path).Addressed := by
  unfold routeResumeSubpath
  dsimp only
  split
  · exact addressed_other nofun
  · refine firstArm_of_all (addressed_other nofun) ?_
    simp only [List.forall_mem_cons, List.not_mem_nil, false_imp_iff, implies_true, and_true]
    exact ⟨addressed_scoped ctx trivial, addressed_scoped ctx trivial⟩

theorem addressed_dispatch (method : Method) (path : Path) : (dispatch ctx method path).Addressed := by
  refine firstArm_of_all (addressed_other nofun) ?_
  simp only [List.forall_mem_cons, List.not_mem_nil, false_imp_iff, implies_true, and_true]
  exact ⟨addressed_free trivial, addressed_free trivial, addressed_free trivial, addressed_free trivial,
    addressed_free trivial, addressed_scoped ctx trivial, addressed_scoped ctx trivial, addressed_scoped ctx trivial,
    addressed_pipelineSubpath ctx method path, addressed_scoped ctx trivial, addressed_scoped ctx trivial,
    addressed_traceSubpath ctx method path, addressed_scoped ctx trivial, addressed_scoped ctx trivial,
    addressed_scoped ctx trivial, addressed_scoped ctx trivial, addressed_logSubpath ctx path,
    addressed_scoped ctx trivial, addressed_resumeSubpath ctx method path⟩

theorem addresses_iff (call : ClientCall) : call.handler.Addressed ↔ call.Addresses := by
  cases call <;> exact Iff.rfl

end Dispatch

end Xerv.Api
