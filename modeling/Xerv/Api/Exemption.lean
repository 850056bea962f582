import Xerv.Api.Router

/-!
# Requests on a path that becomes exempt

An exempt path is exempt from authentication, not from the scopes: its context is anonymous and has none. So
a further exempt path lets through what names no scope, and takes from whoever had a key the handlers
that name one.
-/

namespace Xerv.Api

def Handler.calledBy (handler : Handler) (ctx : AuthContext) : Reply :=
  match handler.scope with
  | none => .handler handler
  | some scope => requireScope ctx scope (.handler handler)

/-- Where one reply calls a handler, the other is its call by `ctx`. -/
def Reply.Carries (ctx : AuthContext) (reply reply' : Reply) : Prop :=
  ∀ handler, reply = .handler handler → reply' = handler.calledBy ctx

section Carries
variable {ctx ctx' : AuthContext}

theorem carries_same {reply : Reply} (h : ∀ handler, reply = .handler handler → handler.scope = none) :
    reply.Carries ctx' reply := by
  intro handler hcall
  unfold Handler.calledBy
  rw [h handler hcall]
  exact hcall

theorem carries_free {handler : Handler} (h : handler.scope = none) :
    (Reply.handler handler).Carries ctx' (.handler handler) :=
  carries_same fun called hcall => by
    cases hcall
    exact h

theorem carries_notFound : Reply.notFound.Carries ctx' .notFound :=
  carries_same fun handler hcall => by cases hcall

theorem carries_methodNotAllowed (allowed : List String) :
    (Reply.methodNotAllowed allowed).Carries ctx' (.methodNotAllowed allowed) :=
  carries_same fun handler hcall => by cases hcall

theorem carries_requireScope {required : AuthScope} {reply : Reply}
    (h : ∀ handler, reply = .handler handler → handler.scope = some required) :
    (requireScope ctx required reply).Carries ctx' (requireScope ctx' required reply) := by
  intro handler hcall
  unfold requireScope at hcall
  split_ifs at hcall
  · unfold Handler.calledBy
    rw [h handler hcall, hcall]

theorem carries_scoped {handler : Handler} {required : AuthScope} (h : handler.scope = some required) :
    (requireScope ctx required (.handler handler)).Carries ctx' (requireScope ctx' required (.handler handler)) :=
  carries_requireScope fun called hcall => by
    cases hcall
    exact h

theorem carries_firstArm {otherwise otherwise' : Reply} {arms arms' : List (Bool × Reply)}
    (hotherwise : otherwise.Carries ctx' otherwise')
    (harms : List.Forall₂ (fun arm arm' => arm.1 = arm'.1 ∧ arm.2.Carries ctx' arm'.2) arms arms') :
    (firstArm otherwise arms).Carries ctx' (firstArm otherwise' arms') := by
  induction harms with
  | nil => exact hotherwise
  | cons harm _ ih =>
    obtain ⟨hguard, hreply⟩ := harm
    rw [firstArm, firstArm, ← hguard]
    split_ifs
    · exact hreply
    · exact ih

section Routers
variable (ctx ctx')

theorem carries_triggerSubpath (method : Method) (pipelineId subpath : Path) :
    (routeTriggerSubpath ctx method pipelineId subpath).Carries ctx'
      (routeTriggerSubpath ctx' method pipelineId subpath) := by
  unfold routeTriggerSubpath
  dsimp only
  split_ifs
  · exact carries_scoped rfl
  · exact carries_methodNotAllowed _
  · exact carries_notFound
  · refine carries_firstArm carries_notFound ?_
    refine .cons ⟨rfl, carries_scoped rfl⟩ (.cons ⟨rfl, carries_scoped rfl⟩ (.cons ⟨rfl, carries_scoped rfl⟩ .nil))

theorem carries_pipelineSubpath (method : Method) (path : Path) :
    (routePipelineSubpath ctx method path).Carries ctx' (routePipelineSubpath ctx' method path) := by
  unfold routePipelineSubpath
  dsimp only
  split_ifs
  · exact carries_notFound
  · refine carries_firstArm carries_notFound ?_
    simp only [List.forall₂_cons, List.forall₂_nil_left_iff, true_and, and_true]
    refine ⟨carries_scoped rfl, carries_scoped rfl, carries_scoped rfl, carries_scoped rfl, carries_scoped rfl,
      carries_scoped rfl, carries_scoped rfl, carries_scoped rfl, carries_scoped rfl, carries_scoped rfl,
      carries_scoped rfl, carries_scoped rfl, ?_⟩
    exact carries_triggerSubpath ctx ctx' method _ _

theorem carries_traceSubpath (method : Method) (path : Path) :
    (routeTraceSubpath ctx method path).Carries ctx' (routeTraceSubpath ctx' method path) := by
  unfold routeTraceSubpath
  dsimp only
  split_ifs
  · exact carries_notFound
  · refine carries_firstArm (carries_methodNotAllowed _) ?_
    simp only [List.forall₂_cons, List.forall₂_nil_left_iff, true_and, and_true]
    exact ⟨carries_scoped rfl, carries_scoped rfl, carries_scoped rfl, carries_scoped rfl, carries_scoped rfl,
      carries_scoped rfl⟩

theorem carries_logSubpath (path : Path) :
    (routeLogSubpath ctx path).Carries ctx' (routeLogSubpath ctx' path) := by
  unfold routeLogSubpath
  dsimp only
  split_ifs
  · exact carries_notFound
  · exact carries_requireScope fun handler hcall => logHandlers_scope _ hcall

theorem carries_resumeSubpath (method : Method) (path : Path) :
    (routeResumeSubpath ctx method path).Carries ctx' (routeResumeSubpath ctx' method path) := by
  unfold routeResumeSubpath
  dsimp only
  split_ifs
  · exact carries_notFound
  · refine carries_firstArm (carries_methodNotAllowed _) ?_
    exact .cons ⟨rfl, carries_scoped rfl⟩ (.cons ⟨rfl, carries_scoped rfl⟩ .nil)

/-- A handler that one context reaches is called by the other, or refused there for its scope. -/
theorem carries_dispatch (method : Method) (path : Path) :
    (dispatch ctx method path).Carries ctx' (dispatch ctx' method path) := by
  refine carries_firstArm carries_notFound ?_
  simp only [List.forall₂_cons, List.forall₂_nil_left_iff, true_and, and_true]
  refine ⟨carries_free rfl, carries_free rfl, carries_free rfl, carries_free rfl, carries_free rfl,
    carries_scoped rfl, carries_scoped rfl, carries_scoped rfl, ?_, carries_scoped rfl, carries_scoped rfl, ?_,
    carries_scoped rfl, carries_scoped rfl, carries_scoped rfl, carries_scoped rfl, ?_, carries_scoped rfl, ?_⟩
  · exact carries_pipelineSubpath ctx ctx' method path
  · exact carries_traceSubpath ctx ctx' method path
  · exact carries_logSubpath ctx ctx' path
  · exact carries_resumeSubpath ctx ctx' method path

end Routers
end Carries

section Exempt
variable (ops : KeyOps) (now : ℕ)

theorem isPathExempt_withExemptPath (config : AuthConfig) (e path : Path) :
    config.isPathExempt path = true → (config.withExemptPath e).isPathExempt path = true := by
  unfold AuthConfig.isPathExempt AuthConfig.withExemptPath
  dsimp only
  rw [List.any_append, Bool.or_eq_true]
  exact Or.inl

/-- Authentication is on, and the path is exempt by `e` only. -/
def AuthConfig.NewlyExempt (config : AuthConfig) (e path : Path) : Prop :=
  config.enabled = true ∧ config.isPathExempt path = false ∧ (config.withExemptPath e).isPathExempt path = true

/-- A further exempt path changes the context of a request only where it exempts the path of the request. -/
theorem authenticate_withExemptPath (config : AuthConfig) (e path : Path) (headers : String → Option String) :
    (config.NewlyExempt e path ∧ authenticate ops now (config.withExemptPath e) path headers = .ok .anonymous) ∨
      (¬ config.NewlyExempt e path ∧ authenticate ops now (config.withExemptPath e) path headers =
        authenticate ops now config path headers) := by
  have hkept := isPathExempt_withExemptPath config e path
  unfold AuthConfig.NewlyExempt authenticate
  have henabled : (config.withExemptPath e).enabled = config.enabled := rfl
  have hkeys : (config.withExemptPath e).apiKey = config.apiKey := rfl
  rw [henabled, hkeys]
  by_cases hon : config.enabled = true
  · have hoff : ¬ config.enabled = false := by
      rw [hon]
      exact Bool.noConfusion
    rw [if_neg hoff, if_neg hoff]
    cases hold : config.isPathExempt path with
    | true =>
      rw [hkept hold]
      exact .inr ⟨fun h => Bool.noConfusion h.2.1, rfl⟩
    | false =>
      cases hnew : (config.withExemptPath e).isPathExempt path with
      | true => exact .inl ⟨⟨hon, rfl, rfl⟩, rfl⟩
      | false => exact .inr ⟨fun h => Bool.noConfusion h.2.2, rfl⟩
  · have hoff : config.enabled = false := Bool.eq_false_iff.mpr hon
    rw [if_pos hoff, if_pos hoff]
    exact .inr ⟨fun h => hon h.1, rfl⟩

theorem route_reaches {config : AuthConfig} {request : Request} {handler : Handler}
    (h : route ops now config request = .handler handler) :
    let path := (request.path.dropPrefix? "/api/v1".toList).getD request.path
    ∃ ctx, authenticate ops now config request.path request.headers = .ok ctx ∧
      dispatch ctx request.method path = .handler handler ∧
        ∀ config' ctx', authenticate ops now config' request.path request.headers = .ok ctx' →
          route ops now config' request = dispatch ctx' request.method path := by
  intro path
  unfold route at h ⊢
  split_ifs at h with hoptions hstatic hlimited
  cases hauth : authenticate ops now config request.path request.headers with
  | error cause =>
    rw [hauth] at h
    cases h
  | ok ctx =>
    rw [hauth] at h
    refine ⟨ctx, rfl, h, fun config' ctx' hauth' => ?_⟩
    rw [if_neg hoptions, if_neg hstatic, if_neg hlimited, hauth']

/-- For every configuration, every request that it lets through to a handler and every path `e`: with `e`
exempt as well the request is let through to the same handler, save where authentication is on, only `e` exempts
the path and a scope is named for the handler; there it is refused for the scope. -/
theorem exemption_effect (config : AuthConfig) (request : Request) (handler : Handler) (e : Path)
    (hroute : route ops now config request = .handler handler) :
    (¬ (config.NewlyExempt e request.path ∧ handler.scope ≠ none) →
        route ops now (config.withExemptPath e) request = .handler handler) ∧
      (config.NewlyExempt e request.path → ∀ scope, handler.scope = some scope →
        route ops now (config.withExemptPath e) request =
          .forbidden ("Missing required scope: " ++ scope.asStr)) := by
  obtain ⟨ctx, hauth, hcall, hdispatch⟩ := route_reaches ops now hroute
  rcases authenticate_withExemptPath ops now config e request.path request.headers with ⟨hnew, hanon⟩ | ⟨hnot, hsame⟩
  · have hcarried := (hdispatch _ _ hanon).trans (carries_dispatch ctx .anonymous _ _ handler hcall)
    rw [hcarried]
    unfold Handler.calledBy
    refine ⟨fun h => ?_, fun _ scope hscope => ?_⟩
    · have hfree : handler.scope = none := by
        by_contra hscope
        exact h ⟨hnew, hscope⟩
      rw [hfree]
    · rw [hscope]
      unfold requireScope
      dsimp only
      rw [AuthContext.anonymous_hasScope]
      rfl
  · have hroute' := (hdispatch _ _ (hsame.trans hauth)).trans hcall
    exact ⟨fun _ => hroute', fun hnew => absurd hnew hnot⟩

def closedStatus : AuthConfig := { AuthConfig.new with enabled := true, apiKey := some readerKeys }

def readerStatusRequest : Request := { readerRequest with path := "/api/v1/status".toList }

/-- The reader's key opens the overview of the server, and once its path is exempt it still does. -/
theorem status_stays_open :
    closedStatus.NewlyExempt "/status".toList readerStatusRequest.path ∧
      route ⟨id, id⟩ 0 (closedStatus.withExemptPath "/status".toList) readerStatusRequest = .handler .getStatus := by
  refine ⟨⟨rfl, by decide, by decide⟩, (exemption_effect ⟨id, id⟩ 0 closedStatus readerStatusRequest .getStatus "/status".toList
    (by decide)).1 fun h => h.2 rfl⟩

/-- The reader's key opens the list of pipelines until the path of the list is exempt. -/
theorem exempt_list_closes :
    route ⟨id, id⟩ 0 openStatus readerRequest = .handler .pipelinesList ∧
      route ⟨id, id⟩ 0 (openStatus.withExemptPath "/pipelines".toList) readerRequest =
        .forbidden "Missing required scope: pipeline:read" := by
  decide

end Exempt

end Xerv.Api
