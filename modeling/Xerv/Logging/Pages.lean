import Xerv.Logging.Collector
import Xerv.Schema.RegistryJson
import Xerv.Schema.Version

/-!
# Pages of the log (`xerv-executor/src/api/handlers/logs.rs`)

`GET /api/v1/logs` reads a filter from the query string, with a limit and an offset, and hands it to the
collector. Decoding of a query value, UUIDs and the form of a timestamp are parameters.
-/

namespace Xerv.Logging
open Xerv.Lib

structure QueryOps where
  toLowercase : String → String
  -- `urlencoding::decode`: `none` where the bytes are no UTF-8
  decode : String → Option String
  -- `uuid::Uuid::parse_str`
  parseUuid : String → Option TraceId
  timestampIso : UInt64 → String

/-! ### Events and pages -/

def parseCategory (toLowercase : String → String) (s : String) : Option LogCategory :=
  match toLowercase s with
  | "trace" => some .trace
  | "node" => some .node
  | "trigger" => some .trigger
  | "pipeline" => some .pipeline
  | "schema" => some .schema
  | "system" => some .system
  | "custom" => some .custom
  | _ => none

section Query
variable (ops : QueryOps)

/-- One pair of the query string. A later pair replaces an earlier one, save that categories add up. -/
def readPair (filter : LogFilter) (pair : List Char) : LogFilter :=
  if pair = [] then filter
  else match splitAtText ['='] pair with
    | none => filter
    | some (key, value) =>
      let value := (ops.decode (String.ofList value)).getD ""
      match String.ofList key with
      | "level" => { filter with minLevel := (LogLevel.parse ops.toLowercase value).or filter.minLevel }
      | "category" =>
        { filter with categories := filter.categories ++ (parseCategory ops.toLowercase value).toList }
      | "trace_id" => { filter with traceId := (ops.parseUuid value).or filter.traceId }
      | "node_id" =>
        { filter with nodeId := ((parseBelow UInt32.size value.toList).map UInt32.ofNat).or filter.nodeId }
      | "pipeline_id" => { filter with pipelineId := some value }
      | "contains" => { filter with messageContains := some value }
      | "limit" => { filter with limit := ((parseBelow UInt64.size value.toList).map (min · 1000)).or filter.limit }
      | "offset" => { filter with offset := (parseBelow UInt64.size value.toList).or filter.offset }
      | _ => filter

def parseLogFilter (queryString : List Char) : LogFilter := (queryString.splitOn '&').foldl (readPair ops) .new

def formatLogEntry (event : LogEvent) : Json :=
  .object ([("id", .ofNat event.id.toNat), ("timestamp", .string (ops.timestampIso event.timestampNs)),
      ("level", .string event.level.asStr), ("category", .string event.category.asStr),
      ("message", .string event.message)] ++
    (event.traceId.map fun traceId => ("trace_id", Json.string (String.ofList traceId.uuid))).toList ++
    (event.nodeId.map fun nodeId => ("node_id", Json.ofNat nodeId.toNat)).toList ++
    (event.pipelineId.map fun pipelineId => ("pipeline_id", Json.string pipelineId)).toList ++
    if event.fields.isEmpty then [] else [("fields", .object event.fields)])

/-- The filter with a limit of its own where the query names none. -/
def effectiveFilter (queryString : List Char) : LogFilter :=
  let filter := parseLogFilter ops queryString
  { filter with limit := filter.limit.or (some 100) }

/-- `query`: the body of the answer. -/
def queryLogs (collector : BufferedCollector) (queryString : List Char) : Json :=
  let filter := effectiveFilter ops queryString
  let logEntries := (collector.query ops.toLowercase filter).map (formatLogEntry ops)
  .object [("logs", .array logEntries), ("count", .ofNat logEntries.length), ("filter", .string filter.describe)]

end Query

/-! ### The pages of a filter -/

def page (events : List LogEvent) (limit offset : ℕ) : List LogEvent := (events.drop offset).take limit

def limitPair (limit : ℕ) : List Char := "limit".toList ++ '=' :: padded 10 1 limit

def offsetPair (offset : ℕ) : List Char := "offset".toList ++ '=' :: padded 10 1 offset

def pageQuery (queryString : List Char) (limit offset : ℕ) : List Char :=
  queryString ++ '&' :: (limitPair limit ++ '&' :: offsetPair offset)

def logsOf (body : Json) : List Json :=
  match body.get "logs" with
  | some (.array entries) => entries
  | _ => []

theorem notMem_padded {c : Char} (hc : c.isDigit = false) (n : ℕ) : c ∉ padded 10 1 n := by
  have h := Schema.SchemaVersion.notMem_decimalText hc n
  rwa [decimalText, String.toList_ofList] at h

theorem notMem_limitPair (limit : ℕ) : '&' ∉ limitPair limit := by
  unfold limitPair
  rw [List.mem_append, List.mem_cons, not_or, not_or]
  exact ⟨by decide, by decide, notMem_padded rfl limit⟩

theorem notMem_offsetPair (offset : ℕ) : '&' ∉ offsetPair offset := by
  unfold offsetPair
  rw [List.mem_append, List.mem_cons, not_or, not_or]
  exact ⟨by decide, by decide, notMem_padded rfl offset⟩

section Pages
variable (ops : QueryOps)

theorem readPair_limit (filter : LogFilter) (value : List Char) :
    readPair ops filter ("limit".toList ++ '=' :: value) =
      { filter with
        limit := ((parseBelow UInt64.size ((ops.decode (String.ofList value)).getD "").toList).map (min · 1000)).or
          filter.limit } := by
  have hsplit : splitAtText ['='] ("limit".toList ++ '=' :: value) = some ("limit".toList, value) :=
    splitAtText_char (by decide)
  rw [readPair, if_neg (List.append_ne_nil_of_right_ne_nil _ (List.cons_ne_nil _ _)), hsplit]
  rfl

theorem readPair_offset (filter : LogFilter) (value : List Char) :
    readPair ops filter ("offset".toList ++ '=' :: value) =
      { filter with
        offset := (parseBelow UInt64.size ((ops.decode (String.ofList value)).getD "").toList).or filter.offset } := by
  have hsplit : splitAtText ['='] ("offset".toList ++ '=' :: value) = some ("offset".toList, value) :=
    splitAtText_char (by decide)
  rw [readPair, if_neg (List.append_ne_nil_of_right_ne_nil _ (List.cons_ne_nil _ _)), hsplit]
  rfl

theorem parseLogFilter_pageQuery (queryString : List Char) (limit offset : ℕ) :
    parseLogFilter ops (pageQuery queryString limit offset) =
      readPair ops (readPair ops (parseLogFilter ops queryString) (limitPair limit)) (offsetPair offset) := by
  unfold parseLogFilter pageQuery
  rw [List.splitOn_append_cons_self, List.splitOn_append_cons_self, List.splitOn_eq_singleton (notMem_limitPair limit),
    List.splitOn_eq_singleton (notMem_offsetPair offset), List.foldl_append]
  rfl

theorem paginate_pageQuery (queryString : List Char) (events : List LogEvent) {limit offset : ℕ}
    (hdecode : ∀ n, ops.decode (decimalText n) = some (decimalText n)) (hlimit : limit ≤ 1000)
    (hoffset : offset < UInt64.size) :
    (effectiveFilter ops (pageQuery queryString limit offset)).paginate events = page events limit offset := by
  have hnumber : ∀ n < UInt64.size,
      parseBelow UInt64.size ((ops.decode (String.ofList (padded 10 1 n))).getD "").toList = some n := by
    intro n hn
    have hparse := parseUnsigned_padded 10 1 n (by omega) (by omega) (by omega)
    have hvalue := hdecode n
    rw [decimalText] at hvalue
    rw [hvalue, Option.getD_some, String.toList_ofList, parseBelow, hparse, Option.filter_some,
      if_pos (decide_eq_true hn)]
  have hsmall : limit < UInt64.size := Nat.lt_of_le_of_lt hlimit (by decide)
  unfold effectiveFilter
  rw [parseLogFilter_pageQuery]
  unfold limitPair offsetPair
  rw [readPair_offset, readPair_limit, hnumber limit hsmall,
    hnumber offset hoffset]
  unfold LogFilter.paginate page
  dsimp only [Option.map_some, Option.some_or, Option.getD_some]
  rw [Nat.min_eq_left hlimit]

theorem logsOf_pageQuery (collector : BufferedCollector) (queryString : List Char) (limit offset : ℕ) :
    logsOf (queryLogs ops collector (pageQuery queryString limit offset)) =
      (collector.query ops.toLowercase (parseLogFilter ops queryString)).map (formatLogEntry ops) := by
  have hmatches : (effectiveFilter ops (pageQuery queryString limit offset)).matchesEvent ops.toLowercase =
      (parseLogFilter ops queryString).matchesEvent ops.toLowercase := by
    unfold effectiveFilter
    rw [parseLogFilter_pageQuery]
    unfold limitPair offsetPair
    rw [readPair_offset, readPair_limit]
    exact LogFilter.matchesEvent_page _ _ _ _
  change (collector.query ops.toLowercase (effectiveFilter ops (pageQuery queryString limit offset))).map _ = _
  unfold BufferedCollector.query
  rw [hmatches]

end Pages

theorem length_page (events : List LogEvent) (limit offset : ℕ) :
    (page events limit offset).length = min limit (events.length - offset) := by
  rw [page, List.length_take, List.length_drop]

theorem all_eq_page_iff {β : Type} (f : LogEvent → β) (events : List LogEvent) (limit offset : ℕ) :
    events.map f = (page events limit offset).map f ↔ events = [] ∨ (offset = 0 ∧ events.length ≤ limit) := by
  constructor
  · intro h
    have hlength := congrArg List.length h
    rw [List.length_map, List.length_map, length_page] at hlength
    rw [← List.length_eq_zero_iff]
    omega
  · rintro (rfl | ⟨rfl, hfits⟩)
    · rw [page, List.drop_nil, List.take_nil]
    · rw [page, List.drop_zero, List.take_of_length_le hfits]

/-- For every content of the buffer, every query string and every limit: the page at an offset is the one asked for
if and only if no event matches, or the page is the first and holds all that match; and the pages at the multiples of
the limit hold each matching event once, no more of them than the limit, if and only if no event matches. -/
theorem log_pages_iff (ops : QueryOps) (collector : BufferedCollector) (queryString : List Char) (limit : ℕ) :
    let matching := collector.query ops.toLowercase (parseLogFilter ops queryString)
    let logs := fun offset => logsOf (queryLogs ops collector (pageQuery queryString limit offset))
    (∀ offset, logs offset = (page matching limit offset).map (formatLogEntry ops) ↔
        matching = [] ∨ (offset = 0 ∧ matching.length ≤ limit)) ∧
      ((∀ count, matching.length ≤ count * limit →
          ((List.range count).flatMap fun k => logs (k * limit)).Perm (matching.map (formatLogEntry ops))) ∧
        (∀ k, (logs (k * limit)).length ≤ limit) ↔ matching = []) := by
  intro matching logs
  have hlogs : ∀ offset, logs offset = matching.map (formatLogEntry ops) :=
    logsOf_pageQuery ops collector queryString limit
  refine ⟨fun offset => ?_, ?_, fun hnone => ⟨fun count _ => ?_, fun k => ?_⟩⟩
  · rw [hlogs]
    exact all_eq_page_iff _ matching limit offset
  · rintro ⟨hpages, hlength⟩
    have hfits := hlength 0
    rw [hlogs, List.length_map] at hfits
    -- the second page repeats the first
    have htwice := (hpages 2 (by omega)).length_eq
    rw [List.range_succ, List.range_one, List.flatMap_append, List.flatMap_singleton, List.flatMap_singleton, hlogs,
      hlogs, List.length_append, List.length_map] at htwice
    exact List.length_eq_zero_iff.mp (by omega)
  · simp [hlogs, hnone]
  · simp [hlogs, hnone]

def plainOps : QueryOps := ⟨id, some, fun _ => none, fun _ => ""⟩

def threeEvents : BufferedCollector :=
  (((BufferedCollector.new 10 none).insert startEvent).insert startEvent).insert startEvent

theorem limit_not_applied :
    logsOf (queryLogs plainOps threeEvents (pageQuery [] 1 0)) ≠
      (page (threeEvents.query plainOps.toLowercase (parseLogFilter plainOps [])) 1 0).map
        (formatLogEntry plainOps) := by
  intro h
  have hlength := congrArg List.length h
  rw [logsOf_pageQuery, List.length_map, List.length_map, length_page] at hlength
  revert hlength
  decide

end Xerv.Logging
