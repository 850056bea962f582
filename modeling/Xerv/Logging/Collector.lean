import Xerv.Core.Json
import Xerv.Core.Types
import Xerv.Schema.TypeInfo

/-!
# Log events, their filter and the buffer of the collector (`xerv-core/src/logging`)

`str::to_lowercase` is a parameter. A subscriber is called between the id and the insertion of an event and
has no part in either, so subscribers are left out.
-/

namespace Xerv.Logging

/-! ### Events (`event.rs`) -/

inductive LogLevel where
  | trace
  | debug
  | info
  | warn
  | error
  deriving DecidableEq

namespace LogLevel

/-- The derived order is that of the variants. -/
def severity : LogLevel → ℕ
  | trace => 0
  | debug => 1
  | info => 2
  | warn => 3
  | error => 4

def parse (toLowercase : String → String) (s : String) : Option LogLevel :=
  match toLowercase s with
  | "trace" => some trace
  | "debug" => some debug
  | "info" => some info
  | "warn" | "warning" => some warn
  | "error" => some error
  | _ => none

def asStr : LogLevel → String
  | trace => "trace"
  | debug => "debug"
  | info => "info"
  | warn => "warn"
  | error => "error"

end LogLevel

inductive LogCategory where
  | trace
  | node
  | trigger
  | pipeline
  | schema
  | system
  | custom
  deriving DecidableEq

def LogCategory.asStr : LogCategory → String
  | trace => "trace"
  | node => "node"
  | trigger => "trigger"
  | pipeline => "pipeline"
  | schema => "schema"
  | system => "system"
  | custom => "custom"

structure LogEvent where
  id : UInt64
  timestampNs : UInt64
  level : LogLevel
  category : LogCategory
  traceId : Option TraceId
  nodeId : Option NodeId
  pipelineId : Option String
  message : String
  fields : List (String × Json)
  deriving DecidableEq

/-- The collector assigns the id. -/
def LogEvent.new (timestampNs : UInt64) (level : LogLevel) (category : LogCategory) (message : String) : LogEvent :=
  ⟨0, timestampNs, level, category, none, none, none, message, []⟩

def startEvent : LogEvent := .new 0 .info .system "start"

/-! ### The filter (`filter.rs`) -/

structure LogFilter where
  minLevel : Option LogLevel
  maxLevel : Option LogLevel
  -- empty: all of them
  categories : List LogCategory
  traceId : Option TraceId
  nodeId : Option NodeId
  pipelineId : Option String
  messageContains : Option String
  startTimeNs : Option UInt64
  endTimeNs : Option UInt64
  limit : Option ℕ
  offset : Option ℕ
  deriving DecidableEq

namespace LogFilter

def new : LogFilter := ⟨none, none, [], none, none, none, none, none, none, none, none⟩

/-- `matches`: the check of a field is passed where the filter does not set it. -/
def matchesEvent (toLowercase : String → String) (filter : LogFilter) (event : LogEvent) : Bool :=
  filter.minLevel.all (fun min => min.severity ≤ event.level.severity) &&
  filter.maxLevel.all (fun max => event.level.severity ≤ max.severity) &&
  (filter.categories.isEmpty || filter.categories.contains event.category) &&
  filter.traceId.all (fun traceId => event.traceId = some traceId) &&
  filter.nodeId.all (fun nodeId => event.nodeId = some nodeId) &&
  filter.pipelineId.all (fun pipelineId => event.pipelineId = some pipelineId) &&
  filter.messageContains.all (fun pattern =>
    (toLowercase pattern).toList <:+: (toLowercase event.message).toList) &&
  filter.startTimeNs.all (fun start => start ≤ event.timestampNs) &&
  filter.endTimeNs.all (fun stop => event.timestampNs ≤ stop)

def paginate (filter : LogFilter) (events : List LogEvent) : List LogEvent :=
  (events.drop (filter.offset.getD 0)).take (filter.limit.getD (UInt64.size - 1))

def describeLevel (filter : LogFilter) : List String :=
  match filter.minLevel, filter.maxLevel with
  | some min, some max =>
    if min = max then ["level=" ++ min.asStr] else ["level=" ++ min.asStr ++ "-" ++ max.asStr]
  | some min, none => ["level>=" ++ min.asStr]
  | none, some max => ["level<=" ++ max.asStr]
  | none, none => []

def describe (filter : LogFilter) : String :=
  let parts := filter.describeLevel ++
    (if filter.categories.isEmpty then []
      else ["category=" ++ ",".intercalate (filter.categories.map LogCategory.asStr)]) ++
    (filter.traceId.map fun traceId => "trace=" ++ traceId.text).toList ++
    (filter.nodeId.map fun nodeId => "node=" ++ decimalText nodeId.toNat).toList ++
    (filter.pipelineId.map fun pipelineId => "pipeline=" ++ pipelineId).toList ++
    (filter.messageContains.map fun pattern => "contains=\"" ++ pattern ++ "\"").toList
  if parts.isEmpty then "all events" else ", ".intercalate parts

theorem matchesEvent_page (toLowercase : String → String) (filter : LogFilter) (limit offset : Option ℕ) :
    matchesEvent toLowercase { filter with limit := limit, offset := offset } = matchesEvent toLowercase filter := rfl

end LogFilter

/-! ### The collector (`collector.rs`) -/

structure BufferedCollector where
  buffer : List LogEvent
  capacity : ℕ
  nextId : UInt64
  filter : Option LogFilter
  -- a buffer of no capacity still holds one event
  bounded : buffer.length ≤ max capacity 1

namespace BufferedCollector

def new (capacity : ℕ) (filter : Option LogFilter) : BufferedCollector := ⟨[], capacity, 1, filter, Nat.zero_le _⟩

/-- The first half of `collect`: the event with its id, or `none` where the filter drops it. -/
def assignId (toLowercase : String → String) (c : BufferedCollector) (event : LogEvent) :
    Option (LogEvent × BufferedCollector) :=
  if c.filter.all (fun filter => filter.matchesEvent toLowercase event) then
    some ({ event with id := c.nextId }, { c with nextId := c.nextId + 1 })
  else none

def evicted (c : BufferedCollector) : ℕ := if c.capacity ≤ c.buffer.length then min 1 c.buffer.length else 0

theorem insert_bounded (c : BufferedCollector) (event : LogEvent) :
    ((if c.capacity ≤ c.buffer.length then c.buffer.tail else c.buffer) ++ [event]).length ≤ max c.capacity 1 := by
  have hbounded := c.bounded
  rw [List.length_append, List.length_singleton]
  by_cases hfull : c.capacity ≤ c.buffer.length
  · rw [if_pos hfull, List.length_tail]
    omega
  · rw [if_neg hfull]
    omega

/-- The second half of `collect`. -/
def insert (c : BufferedCollector) (event : LogEvent) : BufferedCollector :=
  { c with
    buffer := (if c.capacity ≤ c.buffer.length then c.buffer.tail else c.buffer) ++ [event]
    bounded := c.insert_bounded event }

def query (toLowercase : String → String) (c : BufferedCollector) (filter : LogFilter) : List LogEvent :=
  c.buffer.filter (filter.matchesEvent toLowercase)

def since (c : BufferedCollector) (afterId : UInt64) : List LogEvent := c.buffer.filter fun e => afterId < e.id

def clear (c : BufferedCollector) : BufferedCollector := { c with buffer := [], bounded := Nat.zero_le _ }

theorem insert_buffer (c : BufferedCollector) (event : LogEvent) :
    (c.insert event).buffer = c.buffer.drop c.evicted ++ [event] := by
  have htail : (if c.capacity ≤ c.buffer.length then c.buffer.tail else c.buffer) = c.buffer.drop c.evicted := by
    unfold evicted
    by_cases hfull : c.capacity ≤ c.buffer.length
    · rw [if_pos hfull, if_pos hfull]
      cases c.buffer with
      | nil => rfl
      | cons first rest =>
        rw [List.length_cons, Nat.min_eq_left (by omega), List.tail_cons, List.drop_one, List.tail_cons]
    · rw [if_neg hfull, if_neg hfull, List.drop_zero]
  exact congrArg (· ++ [event]) htail

theorem evicted_le (c : BufferedCollector) : c.evicted ≤ c.buffer.length := by
  unfold evicted
  split <;> omega

end BufferedCollector

end Xerv.Logging
