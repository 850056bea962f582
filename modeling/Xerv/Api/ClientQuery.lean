import Xerv.Api.Client
import Xerv.Api.ClientAnswers
import Xerv.Lib.PercentText

/-!
# Log queries of the client (`xerv-client/src/logs.rs`)

The arguments of a query travel as text: the client writes them into a query string, and the server reads a filter
or a limit out of it. The events that this filter picks travel back as JSON. Percent-encoding is a parameter of both
sides.
-/

namespace Xerv.Api
open Xerv.Lib Xerv.Logging

/-- `urlencoding`: what it puts out is unreserved, and it reads its own texts and plain ones. -/
structure UrlCoding where
  encode : String → List Char
  decode : String → Option String
  encode_chars : ∀ s, ∀ c ∈ encode s, unreserved c = true ∨ c = '%'
  decode_encode : ∀ s, decode (String.ofList (encode s)) = some s
  decode_plain : ∀ cs : List Char, (∀ c ∈ cs, unreserved c = true) →
    decode (String.ofList cs) = some (String.ofList cs)

def percentCoding : UrlCoding where
  encode := percentEncode
  decode := percentDecode
  encode_chars _ _ h := mem_percentEncode h
  decode_encode := percentDecode_percentEncode
  decode_plain := percentDecode_unreserved

/-- `parse_limit` takes the first pair with this key. -/
def parseLimit (queryString : List Char) : Option ℕ :=
  ((queryString.splitOn '&').filterMap (splitAtText ['='])).find? (fun pair => pair.1 = "limit".toList)
    |>.bind fun pair => parseBelow UInt64.size pair.2

/-- The filter that the arguments of `query_logs` stand for. -/
def LogQuery.filter (toLowercase : String → String) (query : LogQuery) : LogFilter :=
  { LogFilter.new with
    minLevel := query.level.bind fun level => LogLevel.parse toLowercase (String.ofList level)
    traceId := query.traceId
    pipelineId := query.pipelineId
    messageContains := query.contains
    limit := query.limit.map (min · 1000) }

/-- What the arguments of `query_logs` say of an event: the least level, where the text names one, the trace, the
pipeline, and a text that occurs in the message in letters of any case. A limit says nothing. -/
def LogQuery.asksFor (toLowercase : String → String) (query : LogQuery) (event : LogEvent) : Bool :=
  (query.level.bind fun level => LogLevel.parse toLowercase (String.ofList level)).all
    (fun least => least.severity ≤ event.level.severity) &&
  query.traceId.all (fun traceId => event.traceId = some traceId) &&
  query.pipelineId.all (fun pipelineId => event.pipelineId = some pipelineId) &&
  query.contains.all fun text => (toLowercase text).toList <:+: (toLowercase event.message).toList

theorem filter_matchesEvent (toLowercase : String → String) (query : LogQuery) (event : LogEvent) :
    (query.filter toLowercase).matchesEvent toLowercase event = query.asksFor toLowercase event := by
  simp [LogQuery.filter, LogFilter.new, LogFilter.matchesEvent, LogQuery.asksFor]

/-! ### What the server reads -/

section Pairs
variable (ops : QueryOps) (filter : LogFilter) (value : List Char)

theorem splitAtText_pair {key : List Char} (h : '=' ∉ key) :
    splitAtText ['='] (key ++ '=' :: value) = some (key, value) := splitAtText_char h

theorem readPair_level : readPair ops filter ("level=".toList ++ value) =
    { filter with minLevel :=
        (LogLevel.parse ops.toLowercase ((ops.decode (String.ofList value)).getD "")).or filter.minLevel } := by
  have hpair : "level=".toList ++ value = "level".toList ++ '=' :: value := by simp
  rw [hpair, readPair, if_neg (by simp), splitAtText_pair value (by decide)]
  rfl

theorem readPair_traceId : readPair ops filter ("trace_id=".toList ++ value) =
    { filter with traceId := (ops.parseUuid ((ops.decode (String.ofList value)).getD "")).or filter.traceId } := by
  have hpair : "trace_id=".toList ++ value = "trace_id".toList ++ '=' :: value := by simp
  rw [hpair, readPair, if_neg (by simp), splitAtText_pair value (by decide)]
  rfl

theorem readPair_pipelineId : readPair ops filter ("pipeline_id=".toList ++ value) =
    { filter with pipelineId := some ((ops.decode (String.ofList value)).getD "") } := by
  have hpair : "pipeline_id=".toList ++ value = "pipeline_id".toList ++ '=' :: value := by simp
  rw [hpair, readPair, if_neg (by simp), splitAtText_pair value (by decide)]
  rfl

theorem readPair_contains : readPair ops filter ("contains=".toList ++ value) =
    { filter with messageContains := some ((ops.decode (String.ofList value)).getD "") } := by
  have hpair : "contains=".toList ++ value = "contains".toList ++ '=' :: value := by simp
  rw [hpair, readPair, if_neg (by simp), splitAtText_pair value (by decide)]
  rfl

end Pairs

section RoundTrip
variable (coding : UrlCoding) (ops : QueryOps)

theorem parseBelow_decimal {n : ℕ} (h : n < UInt64.size) : parseBelow UInt64.size (decimal n) = some n := by
  have hparse := parseUnsigned_padded 10 1 n (by omega) (by omega) (by omega)
  rw [parseBelow, decimal, hparse, Option.filter_some, if_pos (decide_eq_true h)]

theorem pair_chars {key value : List Char} (hkey : '&' ∉ key)
    (hvalue : ∀ c ∈ value, unreserved c = true ∨ c = '%') : '&' ∉ key ++ value := by
  intro hmem
  rcases List.mem_append.mp hmem with h | h
  · exact hkey h
  · rcases hvalue _ h with h | h <;> simp [unreserved] at h

theorem decimal_unreserved (n : ℕ) : ∀ c ∈ decimal n, unreserved c = true := by
  intro c hc
  rcases mem_padded 10 1 n (by omega) c hc with rfl | ⟨d, hd, rfl⟩
  · decide
  · interval_cases d <;> decide

theorem uuid_unreserved (traceId : TraceId) : ∀ c ∈ traceId.uuid, unreserved c = true := by
  intro c hc
  rcases uuid_chars traceId c hc with h | rfl
  · simp [unreserved, h]
  · decide

theorem params_chars (query : LogQuery) (hlevel : ∀ level ∈ query.level, ∀ c ∈ level, unreserved c = true) :
    ∀ param ∈ query.params coding.encode, '&' ∉ param := by
  have hplain {value : List Char} (h : ∀ c ∈ value, unreserved c = true) :
      ∀ c ∈ value, unreserved c = true ∨ c = '%' := fun c hc => .inl (h c hc)
  intro param hparam
  simp only [LogQuery.params, List.mem_append, Option.mem_toList, Option.map_eq_some_iff] at hparam
  rcases hparam with (((⟨level, h, rfl⟩ | ⟨traceId, -, rfl⟩) | ⟨id, -, rfl⟩) | ⟨text, -, rfl⟩) | ⟨n, -, rfl⟩
  · exact pair_chars (by decide) (hplain (hlevel level h))
  · exact pair_chars (by decide) (hplain (uuid_unreserved traceId))
  · exact pair_chars (by decide) (coding.encode_chars id)
  · exact pair_chars (by decide) (coding.encode_chars text)
  · exact pair_chars (by decide) (hplain (decimal_unreserved n))

variable {ops} (hdecode : ops.decode = coding.decode)

include hdecode in
theorem read_level (filter : LogFilter) (level : Option (List Char))
    (hlevel : ∀ text ∈ level, ∀ c ∈ text, unreserved c = true) :
    ((level.map fun level => "level=".toList ++ level).toList).foldl (readPair ops) filter =
      { filter with
        minLevel :=
          (level.bind fun text => LogLevel.parse ops.toLowercase (String.ofList text)).or filter.minLevel } := by
  cases level with
  | none => rfl
  | some text =>
    rw [Option.map_some, Option.toList_some, List.foldl_cons, List.foldl_nil, readPair_level, hdecode,
      coding.decode_plain text (hlevel text rfl)]
    rfl

include hdecode in
theorem read_traceId (filter : LogFilter) (traceId : Option TraceId)
    (huuid : ∀ t ∈ traceId, ops.parseUuid (String.ofList t.uuid) = some t) :
    ((traceId.map fun traceId => "trace_id=".toList ++ traceId.uuid).toList).foldl (readPair ops) filter =
      { filter with traceId := traceId.or filter.traceId } := by
  cases traceId with
  | none => rfl
  | some t =>
    rw [Option.map_some, Option.toList_some, List.foldl_cons, List.foldl_nil, readPair_traceId, hdecode,
      coding.decode_plain t.uuid (uuid_unreserved t), Option.getD_some, huuid t rfl]

include hdecode in
theorem read_pipelineId (filter : LogFilter) (pipelineId : Option String) :
    ((pipelineId.map fun pipelineId => "pipeline_id=".toList ++ coding.encode pipelineId).toList).foldl
        (readPair ops) filter =
      { filter with pipelineId := pipelineId.or filter.pipelineId } := by
  cases pipelineId with
  | none => rfl
  | some id =>
    rw [Option.map_some, Option.toList_some, List.foldl_cons, List.foldl_nil, readPair_pipelineId, hdecode,
      coding.decode_encode]
    rfl

include hdecode in
theorem read_contains (filter : LogFilter) (contains : Option String) :
    ((contains.map fun contains => "contains=".toList ++ coding.encode contains).toList).foldl (readPair ops) filter =
      { filter with messageContains := contains.or filter.messageContains } := by
  cases contains with
  | none => rfl
  | some text =>
    rw [Option.map_some, Option.toList_some, List.foldl_cons, List.foldl_nil, readPair_contains, hdecode,
      coding.decode_encode]
    rfl

include hdecode in
theorem read_limit (filter : LogFilter) (limit : Option ℕ) (hlimit : ∀ n ∈ limit, n < UInt64.size) :
    ((limit.map fun limit => "limit=".toList ++ decimal limit).toList).foldl (readPair ops) filter =
      { filter with limit := (limit.map (min · 1000)).or filter.limit } := by
  cases limit with
  | none => rfl
  | some n =>
    have hpair : "limit=".toList ++ decimal n = "limit".toList ++ '=' :: decimal n := by simp
    rw [Option.map_some, Option.toList_some, List.foldl_cons, List.foldl_nil, hpair, readPair_limit, hdecode,
      coding.decode_plain _ (decimal_unreserved n), Option.getD_some, String.toList_ofList,
      parseBelow_decimal (hlimit n rfl)]

theorem query_round_trip (query : LogQuery) (hdecode : ops.decode = coding.decode)
    (hlevel : ∀ level ∈ query.level, ∀ c ∈ level, unreserved c = true)
    (huuid : ∀ traceId ∈ query.traceId, ops.parseUuid (String.ofList traceId.uuid) = some traceId)
    (hlimit : ∀ limit ∈ query.limit, limit < UInt64.size) :
    parseLogFilter ops (((ClientCall.queryLogs query).query coding.encode).getD []) =
      query.filter ops.toLowercase := by
  have hparams : parseLogFilter ops (((ClientCall.queryLogs query).query coding.encode).getD []) =
      (query.params coding.encode).foldl (readPair ops) .new := by
    change parseLogFilter ops ((if query.params coding.encode = [] then none
      else some (['&'].intercalate (query.params coding.encode))).getD []) = _
    unfold parseLogFilter
    split
    · rename_i hnone
      rw [hnone]
      rfl
    · rename_i hsome
      rw [Option.getD_some, List.splitOn_intercalate '&' (params_chars coding query hlevel) hsome]
  rw [hparams, LogQuery.params, List.foldl_append, List.foldl_append, List.foldl_append, List.foldl_append,
    read_level coding hdecode _ _ hlevel, read_traceId coding hdecode _ _ huuid,
    read_pipelineId coding hdecode, read_contains coding hdecode, read_limit coding hdecode _ _ hlimit]
  simp [LogQuery.filter, LogFilter.new]

theorem parseLimit_pair {limit : ℕ} (hlimit : limit < UInt64.size) :
    parseLimit ("limit=".toList ++ decimal limit) = some limit := by
  have hpair : "limit=".toList ++ decimal limit = "limit".toList ++ '=' :: decimal limit := by simp
  have hsingle : '&' ∉ "limit=".toList ++ decimal limit :=
    pair_chars (by decide) fun c hc => .inl (decimal_unreserved limit c hc)
  unfold parseLimit
  rw [List.splitOn_eq_singleton hsingle, hpair, List.filterMap_cons, splitAtText_pair (decimal limit) (by decide)]
  dsimp only
  rw [List.find?_cons_of_pos (by exact decide_eq_true rfl), Option.bind_some]
  exact parseBelow_decimal hlimit

/-- `query_logs` returns the entries of all the events in the buffer that its arguments ask for, in their order,
whatever the pipeline id and the text are (the limit is read, and no event is left out for it); and the limits of
`get_recent_logs` and `get_logs_by_level` are read by the server as they were given. -/
theorem client_log_query {D : Type} (query : LogQuery) (collector : BufferedCollector) (parseTime : String → Option D)
    (time : UInt64 → D) (hdecode : ops.decode = coding.decode)
    (hlevel : ∀ level ∈ query.level, ∀ c ∈ level, unreserved c = true)
    (huuid : ∀ traceId, (traceId ∈ query.traceId ∨ ∃ event ∈ collector.buffer, traceId ∈ event.traceId) →
      ops.parseUuid (String.ofList traceId.uuid) = some traceId)
    (htime : ∀ event ∈ collector.buffer, parseTime (ops.timestampIso event.timestampNs) = some (time event.timestampNs))
    (hlimit : ∀ limit ∈ query.limit, limit < UInt64.size) :
    readLogs ops.parseUuid parseTime
        (Logging.queryLogs ops collector (((ClientCall.queryLogs query).query coding.encode).getD [])) =
        some ((collector.buffer.filter (query.asksFor ops.toLowercase)).map (.ofEvent time)) ∧
      ∀ (level : Path) (limit : ℕ), limit < UInt64.size →
        parseLimit (((ClientCall.getRecentLogs limit).query coding.encode).getD []) = some limit ∧
          parseLimit (((ClientCall.getLogsByLevel level (some limit)).query coding.encode).getD []) = some limit := by
  refine ⟨?_, fun level limit hlt => ⟨parseLimit_pair hlt, parseLimit_pair hlt⟩⟩
  have hfilter := query_round_trip coding query hdecode hlevel (fun traceId h => huuid traceId (.inl h)) hlimit
  have hmatches : (query.filter ops.toLowercase).matchesEvent ops.toLowercase = query.asksFor ops.toLowercase :=
    funext (filter_matchesEvent ops.toLowercase query)
  have hentry : ∀ event ∈ collector.buffer.filter (query.asksFor ops.toLowercase),
      readLogEntry ops.parseUuid parseTime (formatLogEntry ops event) = some (.ofEvent time event) := by
    intro event hevent
    have hbuffer : event ∈ collector.buffer := (List.mem_filter.mp hevent).1
    exact readLogEntry_format ops.parseUuid parseTime ops time event (htime event hbuffer)
      fun traceId h => huuid traceId (.inr ⟨event, hbuffer, h⟩)
  have hentries := mapM_map_of_mem _ hentry
  have hquery : collector.query ops.toLowercase (effectiveFilter ops
      (((ClientCall.queryLogs query).query coding.encode).getD [])) =
        collector.buffer.filter (query.asksFor ops.toLowercase) := by
    rw [← hmatches, ← hfilter]
    -- the limit that the handler adds is not looked at
    rfl
  simpa [readLogs, Logging.queryLogs, Json.field, Json.get, Json.readArray, hquery] using hentries

end RoundTrip

def separatorQuery : LogQuery :=
  ⟨some "error".toList, some sampleTrace, some "a&b=c", some "50% done", some 5000⟩

def percentOps : QueryOps :=
  ⟨id, percentDecode, fun s => if s = String.ofList sampleTrace.uuid then some sampleTrace else none, fun _ => ""⟩

def separatorEvent : LogEvent :=
  { LogEvent.new 7 .error .pipeline "50% done" with traceId := some sampleTrace, pipelineId := some "a&b=c" }

def separatorLog : BufferedCollector := ((BufferedCollector.new 10 none).insert startEvent).insert separatorEvent

theorem separators_found :
    readLogs percentOps.parseUuid (some ·)
      (Logging.queryLogs percentOps separatorLog (((ClientCall.queryLogs separatorQuery).query
        percentCoding.encode).getD [])) =
      some ((separatorLog.buffer.filter (separatorQuery.asksFor id)).map (.ofEvent fun _ => "")) := by
  refine (client_log_query percentCoding separatorQuery separatorLog (some ·) (fun _ => "") rfl ?_ ?_ ?_ ?_).1
  · intro level hlevel
    cases hlevel
    exact List.all_eq_true.mp (by decide : "error".toList.all unreserved = true)
  · rintro traceId (htrace | ⟨event, hevent, htrace⟩)
    · cases htrace
      simp [percentOps]
    · have hids : separatorLog.buffer.all fun event =>
          event.traceId = none ∨ event.traceId = some sampleTrace := by decide
      have hid := of_decide_eq_true (List.all_eq_true.mp hids event hevent)
      rcases hid with hnone | hsome
      · rw [hnone] at htrace
        cases htrace
      · rw [hsome] at htrace
        cases htrace
        simp [percentOps]
  · intro event _
    rfl
  · intro limit hlimit
    cases hlimit
    decide

end Xerv.Api
