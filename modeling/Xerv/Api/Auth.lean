import Mathlib.Data.Finset.Basic
import Mathlib.Data.List.DropRight

/-!
# Authentication of requests (`auth/`)

`authenticate` answers on the full path of a request and its headers: a context with every scope while
authentication is off, one without any scope on an exempt path, else the scopes of the first entry that
the key in the configured header hashes to. The hash of a key and `str::to_lowercase` are parameters
(`KeyOps`); nothing is assumed of them. The time is what the clock answers, in whole seconds.
-/

namespace Xerv.Api

abbrev Path := List Char

/-! ### Scopes (`auth/context.rs`) -/

inductive AuthScope where
  | pipelineRead | pipelineWrite | traceRead | traceWrite | traceResume | admin
  deriving DecidableEq

namespace AuthScope

def all : Finset AuthScope :=
  {pipelineRead, pipelineWrite, traceRead, traceWrite, traceResume, admin}

def asStr : AuthScope → String
  | pipelineRead => "pipeline:read"
  | pipelineWrite => "pipeline:write"
  | traceRead => "trace:read"
  | traceWrite => "trace:write"
  | traceResume => "trace:resume"
  | admin => "admin"

end AuthScope

structure AuthContext where
  identity : String
  scopes : Finset AuthScope

namespace AuthContext

def anonymous : AuthContext := ⟨"anonymous", ∅⟩

def hasScope (ctx : AuthContext) (scope : AuthScope) : Bool :=
  decide (AuthScope.admin ∈ ctx.scopes) || decide (scope ∈ ctx.scopes)

theorem hasScope_iff (ctx : AuthContext) (scope : AuthScope) :
    ctx.hasScope scope = true ↔ AuthScope.admin ∈ ctx.scopes ∨ scope ∈ ctx.scopes := by
  simp [hasScope]

theorem anonymous_hasScope (scope : AuthScope) : anonymous.hasScope scope = false := by
  simp [hasScope, anonymous]

end AuthContext

/-! ### The configuration (`auth/config.rs`) -/

structure ApiKeyEntry where
  identity : String
  keyHash : String
  scopes : Finset AuthScope
  expiresAt : Option ℕ

def ApiKeyEntry.isExpired (entry : ApiKeyEntry) (now : ℕ) : Bool :=
  entry.expiresAt.any fun expiresAt => decide (now ≥ expiresAt)

structure ApiKeyConfig where
  headerName : String
  keys : List ApiKeyEntry

structure AuthConfig where
  enabled : Bool
  apiKey : Option ApiKeyConfig
  exemptPaths : List Path

namespace AuthConfig

def new : AuthConfig := ⟨false, none, ["/health".toList]⟩

def withExemptPath (config : AuthConfig) (path : Path) : AuthConfig :=
  { config with exemptPaths := config.exemptPaths ++ [path] }

/-- `str::trim_end_matches('/')` -/
def trimEnd (path : Path) : Path := path.rdropWhile (· == '/')

def isPathExempt (config : AuthConfig) (path : Path) : Bool :=
  let path := trimEnd ((path.dropPrefix? "/api/v1".toList).getD path)
  config.exemptPaths.any fun exempt =>
    let exempt := trimEnd exempt
    path == exempt || (exempt ++ ['/']).isPrefixOf path

end AuthConfig

/-! ### Keys (`auth/api_key.rs`, `auth/middleware.rs`) -/

structure KeyOps where
  fromPlaintext : String → String
  toLowercase : String → String

section Keys
variable (ops : KeyOps) (now : ℕ)

def ApiKeyEntry.hashes (entry : ApiKeyEntry) (key : String) : Bool :=
  ops.toLowercase entry.keyHash == ops.fromPlaintext key

/-- The loop over the configured entries stops at the first one with this hash, expired or not. -/
def validateFrom (key : String) : List ApiKeyEntry → Option AuthContext
  | [] => none
  | entry :: entries =>
    if entry.hashes ops key then
      if entry.isExpired now then none else some ⟨entry.identity, entry.scopes⟩
    else validateFrom key entries

def ApiKeyConfig.validate (config : ApiKeyConfig) (key : String) : Option AuthContext :=
  validateFrom ops now key config.keys

def authenticate (config : AuthConfig) (path : Path) (headers : String → Option String) :
    Except String AuthContext :=
  if config.enabled = false then .ok ⟨"anonymous", AuthScope.all⟩
  else if config.isPathExempt path then .ok .anonymous
  else
    match config.apiKey with
    | none => .error "Missing authentication credentials"
    | some apiKey =>
      match headers apiKey.headerName with
      | none => .error "Missing authentication credentials"
      | some key =>
        match apiKey.validate ops now key with
        | none => .error "Invalid API key"
        | some ctx => .ok ctx

/-- The request carries, in the configured header, a key for which `entry` is the first one configured,
and `entry` has not expired. -/
def AuthConfig.Identifies (config : AuthConfig) (headers : String → Option String)
    (entry : ApiKeyEntry) : Prop :=
  ∃ apiKey key, config.apiKey = some apiKey ∧ headers apiKey.headerName = some key ∧
    apiKey.keys.find? (fun e => e.hashes ops key) = some entry ∧ entry.isExpired now = false

theorem validateFrom_some {key : String} {entries : List ApiKeyEntry} {ctx : AuthContext}
    (h : validateFrom ops now key entries = some ctx) :
    ∃ entry, entries.find? (fun e => e.hashes ops key) = some entry ∧ entry.isExpired now = false ∧
      ctx = ⟨entry.identity, entry.scopes⟩ := by
  induction entries with
  | nil => cases h
  | cons entry entries ih =>
    rw [validateFrom] at h
    by_cases hhash : entry.hashes ops key = true
    · rw [if_pos hhash] at h
      by_cases hexpired : entry.isExpired now = true
      · rw [if_pos hexpired] at h
        cases h
      · rw [if_neg hexpired] at h
        cases h
        refine ⟨entry, List.find?_cons_of_pos hhash, ?_, rfl⟩
        simpa using hexpired
    · rw [if_neg hhash] at h
      obtain ⟨found, hfound, hrest⟩ := ih h
      refine ⟨found, ?_, hrest⟩
      exact (List.find?_cons_of_neg (p := fun e : ApiKeyEntry => e.hashes ops key) hhash).trans hfound

theorem authenticate_ok {config : AuthConfig} {path : Path} {headers : String → Option String}
    {ctx : AuthContext} (henabled : config.enabled = true)
    (h : authenticate ops now config path headers = .ok ctx) :
    (config.isPathExempt path = true ∧ ctx = .anonymous) ∨
      (config.isPathExempt path = false ∧
        ∃ entry, config.Identifies ops now headers entry ∧ ctx = ⟨entry.identity, entry.scopes⟩) := by
  unfold authenticate at h
  rw [if_neg (by simp [henabled])] at h
  by_cases hexempt : config.isPathExempt path = true
  · rw [if_pos hexempt] at h
    cases h
    exact Or.inl ⟨hexempt, rfl⟩
  · rw [if_neg hexempt] at h
    refine Or.inr ⟨by simpa using hexempt, ?_⟩
    cases hconfig : config.apiKey with
    | none =>
      rw [hconfig] at h
      cases h
    | some apiKey =>
      rw [hconfig] at h
      cases hheader : headers apiKey.headerName with
      | none =>
        simp only [hheader] at h
        cases h
      | some key =>
        simp only [hheader] at h
        cases hvalid : apiKey.validate ops now key with
        | none =>
          simp only [hvalid] at h
          cases h
        | some found =>
          simp only [hvalid] at h
          cases h
          obtain ⟨entry, hentry, hexpired, hctx⟩ := validateFrom_some ops now hvalid
          exact ⟨entry, ⟨apiKey, key, hconfig, hheader, hentry, hexpired⟩, hctx⟩

end Keys

end Xerv.Api
