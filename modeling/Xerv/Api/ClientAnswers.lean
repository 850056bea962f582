import Xerv.Api.Traces
import Xerv.Cluster.State
import Xerv.Logging.Pages
import Xerv.Schema.RegistryJson

/-!
# Answers to the client (`xerv-client/src/`, `xerv-executor/src/api/handlers/`)

The bodies that the handlers answer with, and what the structures of the client read of them: a field without
`Option` or a default must be there, and other fields are passed over. Times and UUIDs are parameters. The answer of
`get_pipeline` is YAML, and is left out.
-/

namespace Xerv.Api
open Xerv.Lib Xerv.Logging
open Cluster (PipelineId PipelineState)

/-- `str::to_lowercase`, of the ASCII texts here. -/
def lowercase (s : String) : String := String.ofList (s.toList.map Char.toLower)

def optionalText (text : Option String) : Json := (text.map .string).getD .null

/-! ### Bodies of the server -/

section Server
variable (elapsedMs : TraceRecord → ℕ)

/-- `format!("{:?}", state)` -/
def debugState : PipelineState → String
  | .initializing => "Initializing"
  | .running => "Running"
  | .paused => "Paused"
  | .draining => "Draining"
  | .stopped => "Stopped"
  | .error => "Error"

/-- `pipelines::list` -/
def pipelinesBody (pipelines : List (PipelineId × PipelineState)) : Json :=
  .object [("pipelines", .array (pipelines.map fun (id, state) =>
      .object [("pipeline_id", .string id.text), ("name", .string id.name),
        ("version", .string (decimalText id.version.toNat)), ("status", .string (lowercase (debugState state))),
        ("trigger_count", .ofNat 0), ("node_count", .ofNat 0)])),
    ("count", .ofNat pipelines.length)]

/-- The answer of `pipelines::create`. -/
def deployedBody (id : PipelineId) (name version : String) : Json :=
  .object [("pipeline_id", .string id.text), ("name", .string name), ("version", .string version),
    ("status", .string "deployed")]

def TraceStatus.asStr : TraceStatus → String
  | .running => "running"
  | .completed => "completed"
  | .failed => "failed"
  | .suspended => "suspended"
  | .canceled => "canceled"

def traceBody (record : TraceRecord) : Json :=
  .object [("trace_id", .string (String.ofList record.traceId.uuid)), ("pipeline_id", .string record.pipelineId),
    ("status", .string record.status.asStr), ("elapsed_ms", .ofNat (elapsedMs record)),
    ("error", optionalText record.error)]

/-- `traces::list` without a filter: the last hundred, the latest first. -/
def tracesBody (history : TraceHistory) : Json :=
  let traces := (history.records.reverse.take 100).map (traceBody elapsedMs)
  .object [("traces", .array traces), ("count", .ofNat traces.length)]

def TraceHistory.byPipeline (history : TraceHistory) (pipelineId : String) : List TraceRecord :=
  history.records.filter fun record => record.pipelineId = pipelineId

/-- `traces::list_by_pipeline` -/
def tracesByPipelineBody (history : TraceHistory) (pipelineId : String) : Json :=
  let traces := ((history.byPipeline pipelineId).take 100).map fun record =>
    .object [("trace_id", .string (String.ofList record.traceId.uuid)), ("status", .string record.status.asStr),
      ("elapsed_ms", .ofNat (elapsedMs record)), ("error", optionalText record.error)]
  .object [("pipeline_id", .string pipelineId), ("traces", .array traces), ("count", .ofNat traces.length)]

/-- What `triggers::list` says of a trigger. -/
structure ListedTrigger where
  id : String
  debugType : String
  running : Bool
  listeners : ℕ

/-- `triggers::list` -/
def triggersBody (pipelineId : String) (triggers : List ListedTrigger) : Json :=
  .object [("pipeline_id", .string pipelineId), ("triggers", .array (triggers.map fun trigger =>
      .object [("id", .string trigger.id), ("type", .string (lowercase trigger.debugType)),
        ("running", .bool trigger.running), ("listeners", .ofNat trigger.listeners)])),
    ("count", .ofNat triggers.length)]

/-- The answer of `triggers::fire`. -/
def firedBody (traceId : TraceId) : Json :=
  .object [("trace_id", .string (String.ofList traceId.uuid)), ("status", .string "triggered")]

/-- `ApiError::into_response` -/
def errorBody (code message : String) (status : ℕ) : Json :=
  .object [("error", .object [("code", .string code), ("message", .string message), ("status", .ofNat status)])]

end Server

/-! ### What the client reads -/

inductive PipelineStatus where
  | deployed | running | paused | draining | stopped
  deriving DecidableEq

def parsePipelineStatus (status : String) : PipelineStatus :=
  match lowercase status with
  | "deployed" => .deployed
  | "running" => .running
  | "paused" => .paused
  | "draining" => .draining
  | "stopped" => .stopped
  | _ => .deployed

structure PipelineInfo where
  pipelineId : String
  name : String
  version : String
  status : PipelineStatus
  triggerCount : ℕ
  nodeCount : ℕ
  deriving DecidableEq

/-- An `Option` without a value or with `null` is `None`. -/
def readOptional {α : Type} (v : Json) (key : String) (read : Json → Option α) : Option (Option α) :=
  match v.get key with
  | none => some none
  | some .null => some none
  | some value => (read value).map some

section Reading
variable {D : Type} (parseUuid : String → Option TraceId) (parseTime : String → Option D)

def readTraceId (v : Json) : Option TraceId := v.asStr.bind parseUuid

def readPipelineItem (v : Json) : Option PipelineInfo := do
  let pipelineId ← v.field "pipeline_id" Json.asStr
  let name ← v.field "name" Json.asStr
  let version ← v.field "version" Json.asStr
  let status ← v.field "status" Json.asStr
  let triggerCount ← v.field "trigger_count" (Json.readNat UInt64.size)
  let nodeCount ← v.field "node_count" (Json.readNat UInt64.size)
  return ⟨pipelineId, name, version, parsePipelineStatus status, triggerCount, nodeCount⟩

/-- `ListResponse` -/
def readPipelines (body : Json) : Option (List PipelineInfo) := body.field "pipelines" (Json.readArray readPipelineItem)

/-- `DeployResponse`, of which `deploy_pipeline` makes a `PipelineInfo`. -/
def readDeployed (body : Json) : Option PipelineInfo := do
  let pipelineId ← body.field "pipeline_id" Json.asStr
  let status ← body.field "status" Json.asStr
  return ⟨pipelineId, "", "", parsePipelineStatus status, 0, 0⟩

structure TraceListItem where
  traceId : TraceId
  pipelineId : String
  status : String
  startedAt : String
  completedAt : Option String

def readTraceItem (v : Json) : Option TraceListItem := do
  let traceId ← v.field "trace_id" (readTraceId parseUuid)
  let pipelineId ← v.field "pipeline_id" Json.asStr
  let status ← v.field "status" Json.asStr
  let startedAt ← v.field "started_at" Json.asStr
  let completedAt ← readOptional v "completed_at" Json.asStr
  return ⟨traceId, pipelineId, status, startedAt, completedAt⟩

/-- `ListTracesResponse` -/
def readTraces (body : Json) : Option (List TraceListItem) :=
  body.field "traces" (Json.readArray (readTraceItem parseUuid))

/-- `GetTraceResponse` -/
def readTrace (body : Json) : Option (TraceListItem × ℕ × Option String) := do
  let item ← readTraceItem parseUuid body
  let nodesExecuted ← body.field "nodes_executed" (Json.readNat UInt64.size)
  let error ← readOptional body "error" Json.asStr
  return (item, nodesExecuted, error)

structure TriggerListItem where
  id : String
  triggerType : String
  enabled : Bool

def readTriggerItem (v : Json) : Option TriggerListItem := do
  let id ← v.field "id" Json.asStr
  let triggerType ← v.field "trigger_type" Json.asStr
  let enabled ← v.field "enabled" Json.readBool
  return ⟨id, triggerType, enabled⟩

/-- `ListTriggersResponse` -/
def readTriggers (body : Json) : Option (List TriggerListItem) := body.field "triggers" (Json.readArray readTriggerItem)

/-- `FireTriggerResponse` -/
def readFired (body : Json) : Option (TraceId × String × String) := do
  let traceId ← body.field "trace_id" (readTraceId parseUuid)
  let pipelineId ← body.field "pipeline_id" Json.asStr
  let triggerId ← body.field "trigger_id" Json.asStr
  return (traceId, pipelineId, triggerId)

structure LogEntry (D : Type) where
  id : ℕ
  timestamp : D
  level : String
  category : String
  message : String
  traceId : Option TraceId
  nodeId : Option ℕ
  pipelineId : Option String
  fields : List (String × Json)

/-- The entry of an event, with what the client makes of its time. -/
def LogEntry.ofEvent (time : UInt64 → D) (event : LogEvent) : LogEntry D :=
  ⟨event.id.toNat, time event.timestampNs, event.level.asStr, event.category.asStr, event.message, event.traceId,
    event.nodeId.map (·.toNat), event.pipelineId, event.fields⟩

def readFields (v : Json) : Option (List (String × Json)) :=
  match v.get "fields" with
  | none => some []
  | some (.object fields) => some fields
  | some _ => none

def readLogEntry (v : Json) : Option (LogEntry D) := do
  let id ← v.field "id" (Json.readNat UInt64.size)
  let timestamp ← v.field "timestamp" fun time => time.asStr.bind parseTime
  let level ← v.field "level" Json.asStr
  let category ← v.field "category" Json.asStr
  let message ← v.field "message" Json.asStr
  let traceId ← readOptional v "trace_id" (readTraceId parseUuid)
  let nodeId ← readOptional v "node_id" (Json.readNat UInt32.size)
  let pipelineId ← readOptional v "pipeline_id" Json.asStr
  let fields ← readFields v
  return ⟨id, timestamp, level, category, message, traceId, nodeId, pipelineId, fields⟩

/-- `LogsResponse` -/
def readLogs (body : Json) : Option (List (LogEntry D)) :=
  body.field "logs" (Json.readArray (readLogEntry parseUuid parseTime))

/-- The message of the error that `handle_response` makes of a JSON body. -/
def errorMessage (render : Json → String) (body : Json) : String :=
  (((body.get "error").bind Json.asStr).or ((body.get "message").bind Json.asStr)).getD (render body)

end Reading

/-! ### What comes over -/

/-- The client has no status for a pipeline that starts or has failed. -/
def shownStatus : PipelineState → PipelineStatus
  | .initializing | .error => .deployed
  | .running => .running
  | .paused => .paused
  | .draining => .draining
  | .stopped => .stopped

def PipelineInfo.listed (pipeline : PipelineId × PipelineState) : PipelineInfo :=
  ⟨pipeline.1.text, pipeline.1.name, decimalText pipeline.1.version.toNat, shownStatus pipeline.2, 0, 0⟩

theorem parsePipelineStatus_state (state : PipelineState) :
    parsePipelineStatus (lowercase (debugState state)) = shownStatus state := by
  cases state <;> decide

theorem mapM_map_of_mem {α β : Type} {read : Json → Option β} {write : α → Json} {value : α → β}
    (xs : List α) (h : ∀ x ∈ xs, read (write x) = some (value x)) :
    (xs.map write).mapM read = some (xs.map value) := by
  induction xs with
  | nil => rfl
  | cons x xs ih =>
    have hrest := ih fun y hy => h y (List.mem_cons_of_mem x hy)
    rw [List.map_cons, List.mapM_cons, h x List.mem_cons_self, hrest]
    rfl

theorem mapM_map_none {α β : Type} {read : Json → Option β} {write : α → Json}
    (h : ∀ x, read (write x) = none) (xs : List α) :
    (xs.map write).mapM read = if xs = [] then some [] else none := by
  cases xs with
  | nil => rfl
  | cons x xs =>
    rw [List.map_cons, List.mapM_cons, h x]
    rfl

theorem readPipelines_body (pipelines : List (PipelineId × PipelineState)) :
    readPipelines (pipelinesBody pipelines) = some (pipelines.map .listed) := by
  have hzero : Json.readNat UInt64.size (.ofNat 0) = some 0 := Json.readNat_ofNat (by decide)
  have hitem (pipeline : PipelineId × PipelineState) : readPipelineItem (.object [
      ("pipeline_id", .string pipeline.1.text), ("name", .string pipeline.1.name),
      ("version", .string (decimalText pipeline.1.version.toNat)),
      ("status", .string (lowercase (debugState pipeline.2))), ("trigger_count", .ofNat 0),
      ("node_count", .ofNat 0)]) = some (.listed pipeline) := by
    simp [readPipelineItem, Json.field, Json.get, Json.asStr, hzero, parsePipelineStatus_state, PipelineInfo.listed]
  have hitems := mapM_map_of_mem pipelines fun pipeline _ => hitem pipeline
  simpa [readPipelines, pipelinesBody, Json.field, Json.get, Json.readArray] using hitems

theorem find?_optional {α : Type} (value : Option α) (name key : String) (toJson : α → Json) :
    ((value.map fun v => (name, toJson v)).toList.find? fun f => f.1 = key) =
      if name = key then value.map fun v => (name, toJson v) else none := by
  cases value with
  | none => simp
  | some v => by_cases h : name = key <;> simp [h]

/-- The field of an entry: one of the five that are always there, or one of those that may be missing. -/
theorem formatLogEntry_get (ops : QueryOps) (event : LogEvent) (key : String) :
    (formatLogEntry ops event).get key =
      ((Json.object [("id", .ofNat event.id.toNat), ("timestamp", .string (ops.timestampIso event.timestampNs)),
          ("level", .string event.level.asStr), ("category", .string event.category.asStr),
          ("message", .string event.message)]).get key).or
        ((if "trace_id" = key then event.traceId.map fun traceId => .string (String.ofList traceId.uuid) else none).or
          ((if "node_id" = key then event.nodeId.map fun nodeId => .ofNat nodeId.toNat else none).or
            ((if "pipeline_id" = key then event.pipelineId.map .string else none).or
              (if "fields" = key ∧ event.fields ≠ [] then some (.object event.fields) else none)))) := by
  have hfields : ((if event.fields.isEmpty then [] else [("fields", Json.object event.fields)]).find? fun f =>
      f.1 = key).map Prod.snd = if "fields" = key ∧ event.fields ≠ [] then some (.object event.fields) else none := by
    by_cases hempty : event.fields = []
    · simp [hempty]
    · by_cases hkey : "fields" = key <;> simp [hempty, hkey]
  have hmap (c : Prop) [Decidable c] (found : Option (String × Json)) :
      (if c then found else none).map Prod.snd = if c then found.map Prod.snd else none := by
    split <;> rfl
  unfold formatLogEntry Json.get
  dsimp only
  rw [List.append_assoc, List.append_assoc, List.append_assoc, List.find?_append, List.find?_append,
    List.find?_append, List.find?_append, find?_optional, find?_optional, find?_optional, Option.map_or, Option.map_or,
    Option.map_or, Option.map_or, hfields, hmap, hmap, hmap, Option.map_map, Option.map_map, Option.map_map]
  rfl

theorem readLogEntry_format {D : Type} (parseUuid : String → Option TraceId) (parseTime : String → Option D)
    (ops : QueryOps) (time : UInt64 → D) (event : LogEvent)
    (htime : parseTime (ops.timestampIso event.timestampNs) = some (time event.timestampNs))
    (huuid : ∀ traceId ∈ event.traceId, parseUuid (String.ofList traceId.uuid) = some traceId) :
    readLogEntry parseUuid parseTime (formatLogEntry ops event) = some (.ofEvent time event) := by
  have hid : Json.readNat UInt64.size (.ofNat event.id.toNat) = some event.id.toNat :=
    Json.readNat_ofNat event.id.toNat_lt
  have htraceId : readOptional (formatLogEntry ops event) "trace_id" (readTraceId parseUuid) = some event.traceId := by
    have hget : (formatLogEntry ops event).get "trace_id" =
        event.traceId.map fun traceId => .string (String.ofList traceId.uuid) := by
      rw [formatLogEntry_get]
      simp [Json.get]
    rw [readOptional, hget]
    cases htrace : event.traceId with
    | none => rfl
    | some traceId => simp [readTraceId, Json.asStr, huuid traceId htrace]
  have hnodeId : readOptional (formatLogEntry ops event) "node_id" (Json.readNat UInt32.size) =
      some (event.nodeId.map (·.toNat)) := by
    have hget : (formatLogEntry ops event).get "node_id" = event.nodeId.map fun nodeId => .ofNat nodeId.toNat := by
      rw [formatLogEntry_get]
      simp [Json.get]
    rw [readOptional, hget]
    cases event.nodeId with
    | none => rfl
    | some nodeId =>
      have hread : Json.readNat UInt32.size (.ofNat nodeId.toNat) = some nodeId.toNat :=
        Json.readNat_ofNat nodeId.toNat_lt
      simpa [Json.ofNat] using hread
  have hpipelineId : readOptional (formatLogEntry ops event) "pipeline_id" Json.asStr = some event.pipelineId := by
    have hget : (formatLogEntry ops event).get "pipeline_id" = event.pipelineId.map .string := by
      rw [formatLogEntry_get]
      simp [Json.get]
    rw [readOptional, hget]
    cases event.pipelineId <;> rfl
  have hfields : readFields (formatLogEntry ops event) = some event.fields := by
    have hget : (formatLogEntry ops event).get "fields" =
        if event.fields ≠ [] then some (.object event.fields) else none := by
      rw [formatLogEntry_get]
      simp [Json.get]
    rw [readFields, hget]
    cases event.fields <;> rfl
  have hfound (key : String) (value : Json) (h : (Json.object [("id", .ofNat event.id.toNat),
      ("timestamp", .string (ops.timestampIso event.timestampNs)), ("level", .string event.level.asStr),
      ("category", .string event.category.asStr), ("message", .string event.message)]).get key = some value) :
      (formatLogEntry ops event).get key = some value := by
    rw [formatLogEntry_get, h, Option.some_or]
  simp [readLogEntry, Json.field, hfound "id" _ rfl, hfound "timestamp" _ rfl, hfound "level" _ rfl,
    hfound "category" _ rfl, hfound "message" _ rfl, hid, htime, Json.asStr, htraceId, hnodeId, hpipelineId, hfields,
    LogEntry.ofEvent]

section Traces
variable (parseUuid : String → Option TraceId) (elapsedMs : TraceRecord → ℕ)

/-- The server never says when a trace was started. -/
theorem readTraceItem_body (record : TraceRecord) : readTraceItem parseUuid (traceBody elapsedMs record) = none := by
  cases huuid : parseUuid (String.ofList record.traceId.uuid) <;>
    simp [readTraceItem, traceBody, Json.field, Json.get, Json.asStr, readTraceId, huuid]

theorem readTraces_body (history : TraceHistory) :
    readTraces parseUuid (tracesBody elapsedMs history) = if history.records = [] then some [] else none := by
  have hitems := mapM_map_none (readTraceItem_body parseUuid elapsedMs) (history.records.reverse.take 100)
  simpa [readTraces, tracesBody, Json.field, Json.get, Json.readArray] using hitems

theorem readTraces_pipeline (history : TraceHistory) (pipelineId : String) :
    readTraces parseUuid (tracesByPipelineBody elapsedMs history pipelineId) =
      if history.byPipeline pipelineId = [] then some [] else none := by
  have hitem (record : TraceRecord) : readTraceItem parseUuid (.object [
      ("trace_id", .string (String.ofList record.traceId.uuid)), ("status", .string record.status.asStr),
      ("elapsed_ms", .ofNat (elapsedMs record)), ("error", optionalText record.error)]) = none := by
    cases huuid : parseUuid (String.ofList record.traceId.uuid) <;>
      simp [readTraceItem, Json.field, Json.get, Json.asStr, readTraceId, huuid]
  have hitems := mapM_map_none hitem ((history.byPipeline pipelineId).take 100)
  simpa [readTraces, tracesByPipelineBody, Json.field, Json.get, Json.readArray] using hitems

theorem readTriggers_body (pipelineId : String) (triggers : List ListedTrigger) :
    readTriggers (triggersBody pipelineId triggers) = if triggers = [] then some [] else none := by
  have hitem (trigger : ListedTrigger) : readTriggerItem (.object [("id", .string trigger.id),
      ("type", .string (lowercase trigger.debugType)), ("running", .bool trigger.running),
      ("listeners", .ofNat trigger.listeners)]) = none := by
    simp [readTriggerItem, Json.field, Json.get, Json.asStr]
  have hitems := mapM_map_none hitem triggers
  simpa [readTriggers, triggersBody, Json.field, Json.get, Json.readArray] using hitems

theorem readFired_body (traceId : TraceId) : readFired parseUuid (firedBody traceId) = none := by
  cases huuid : parseUuid (String.ofList traceId.uuid) <;>
    simp [readFired, firedBody, Json.field, Json.get, Json.asStr, readTraceId, huuid]

/-- The client reads back every list of pipelines, a pipeline that starts or has failed shown as deployed, and the
answer to every deployment. It reads a list of traces or of triggers only when it is empty, no single trace and no
answer to a fired trigger, and the message of an error answer is its whole body. -/
theorem client_reads_answers (render : Json → String) :
    (∀ pipelines, readPipelines (pipelinesBody pipelines) = some (pipelines.map .listed)) ∧
      (∀ id name version,
        readDeployed (deployedBody id name version) = some ⟨id.text, "", "", .deployed, 0, 0⟩) ∧
      (∀ history, (readTraces parseUuid (tracesBody elapsedMs history)).isSome ↔ history.records = []) ∧
      (∀ history pipelineId, (readTraces parseUuid (tracesByPipelineBody elapsedMs history pipelineId)).isSome ↔
        history.byPipeline pipelineId = []) ∧
      (∀ record, readTrace parseUuid (traceBody elapsedMs record) = none) ∧
      (∀ pipelineId triggers, (readTriggers (triggersBody pipelineId triggers)).isSome ↔ triggers = []) ∧
      (∀ traceId, readFired parseUuid (firedBody traceId) = none) ∧
      ∀ code message status,
        errorMessage render (errorBody code message status) = render (errorBody code message status) := by
  refine ⟨readPipelines_body, fun id name version => ?_, fun history => ?_, fun history pipelineId => ?_,
    fun record => ?_, fun pipelineId triggers => ?_, readFired_body parseUuid, fun code message status => ?_⟩
  · have hdeployed : parsePipelineStatus "deployed" = .deployed := by decide
    simp [readDeployed, deployedBody, Json.field, Json.get, Json.asStr, hdeployed]
  · rw [readTraces_body]
    by_cases h : history.records = [] <;> simp [h]
  · rw [readTraces_pipeline]
    by_cases h : history.byPipeline pipelineId = [] <;> simp [h]
  · simp [readTrace, readTraceItem_body]
  · rw [readTriggers_body]
    by_cases h : triggers = [] <;> simp [h]
  · simp [errorMessage, errorBody, Json.get, Json.asStr]

end Traces

end Xerv.Api
