import PostgresOtel.Context.Traceparent
import PostgresOtel.Lib.Printf

/-!
# Spans as JSON

The object that `otel_emit_span_as_log_line` writes to the server log, and the one that the demo
exporter's `format_span_json` writes to its file.  Both are put together piece by piece, from pieces
of their own, numbers of `printf` and texts of core.
-/

set_option autoImplicit false

namespace PostgresOtel

/-! ## The source -/

/-- Core's `escape_json` and `timestamptz_to_str`. -/
structure CoreText where
  escapeJson : CString → CString
  timestamptzToStr : TimestampTz → CString

/-- What core promises: `escape_json` appends a JSON string that decodes to its argument, and a
timestamp has no quotes, backslashes or control characters. -/
structure CoreText.Documented (core : CoreText) : Prop where
  escapeJson : ∀ s, Json.PrintsString (core.escapeJson s) s
  timestamptzToStr : ∀ t, ∀ c ∈ core.timestamptzToStr t, Json.plain c = true

def otelTraceIdToHex (id : OtelTraceId) : CString :=
  otelBytesToHex (toBytes otelTraceIdBytes id.toNat)

def otelSpanIdToHex (id : OtelSpanId) : CString := otelBytesToHex (toBytes otelSpanIdBytes id.toNat)

def otelSpanIdIsValid (id : OtelSpanId) : Bool := id != 0

/-- The numbers of the enumerators. -/
def OtelSpanKind.code : OtelSpanKind → ℕ
  | .internal => 0
  | .server => 1
  | .client => 2
  | .producer => 3
  | .consumer => 4

def OtelSpanStatus.code : OtelSpanStatus → ℕ
  | .unset => 0
  | .ok => 1
  | .error => 2

/-- A loop that appends a piece for each element, and a comma before it if `i > 0`. -/
def appendEach {α : Type} (f : α → CString) : Bool → List α → CString
  | _, [] => []
  | later, a :: rest => (if later then cstr "," else []) ++ f a ++ appendEach f true rest

variable (core : CoreText)

/-- The `switch` of `append_json_attrs`. -/
def jsonAttrValue : OtelAttrValue → CString
  | .string (some s) => core.escapeJson s
  | .string none => cstr "null"
  | .int i => Printf.signedDecimal i
  | .double d => Printf.general17 d
  | .bool b => if b then cstr "true" else cstr "false"

def jsonAttr (a : OtelAttribute) : CString :=
  core.escapeJson a.key ++ cstr ":" ++ jsonAttrValue core a.v

/-- `append_json_attrs`. -/
def appendJsonAttrs (attrs : List OtelAttribute) : CString :=
  cstr "\x7b" ++ appendEach (jsonAttr core) false attrs ++ cstr "\x7d"

def jsonEvent (e : OtelSpanEvent) : CString :=
  cstr "\x7b\"name\":" ++ core.escapeJson e.name ++ cstr ",\"time\":\"" ++
    core.timestamptzToStr e.time ++ cstr "\",\"attributes\":" ++ appendJsonAttrs core e.attrs ++
    cstr "\x7d"

def jsonLink (link : OtelSpanContext) : CString :=
  cstr "\x7b\"trace_id\":\"" ++ otelTraceIdToHex link.traceId ++ cstr "\",\"span_id\":\"" ++
    otelSpanIdToHex link.spanId ++ cstr "\"\x7d"

/-- A member that is written only if it is there. -/
def appendIf (label : String) (s : Option CString) : CString :=
  match s with
  | some s => cstr label ++ core.escapeJson s
  | none => []

/-- The object that `otel_emit_span_as_log_line` builds. -/
def otelSpanLogObject (span : OtelSpan) : CString :=
  cstr "\x7b\"trace_id\":\"" ++ otelTraceIdToHex span.traceId ++
    cstr "\",\"span_id\":\"" ++ otelSpanIdToHex span.spanId ++
    cstr "\",\"parent_span_id\":\"" ++
    (if otelSpanIdIsValid span.parentSpanId then otelSpanIdToHex span.parentSpanId else []) ++
    cstr "\",\"trace_flags\":\"" ++ otelBytesToHex (toBytes 1 span.traceFlags.toNat) ++
    cstr "\",\"name\":" ++ core.escapeJson span.name ++
    cstr ",\"kind\":" ++ cstrNat span.kind.code ++ cstr ",\"status\":" ++ cstrNat span.status.code ++
    appendIf core ",\"status_description\":" span.statusDescription ++
    appendIf core ",\"scope\":" (span.scope.bind OtelInstrumentationScope.name) ++
    cstr ",\"start_time\":\"" ++ core.timestamptzToStr span.startTime ++ cstr "\"" ++
    cstr ",\"end_time\":\"" ++ core.timestamptzToStr span.endTime ++ cstr "\"" ++
    cstr ",\"attributes\":" ++ appendJsonAttrs core span.attrs ++
    cstr ",\"events\":[" ++ appendEach (jsonEvent core) false span.events ++
    cstr "],\"links\":[" ++ appendEach jsonLink false span.links ++
    cstr "],\"dropped_attributes\":" ++ cstrNat span.droppedAttrs ++
    cstr ",\"dropped_events\":" ++ cstrNat span.droppedEvents ++
    cstr ",\"dropped_links\":" ++ cstrNat span.droppedLinks ++ cstr "\x7d"

/-- `OTEL_SC_DB_QUERY_TEXT`. -/
def otelScDbQueryText : CString := cstr "db.query.text"

/-- The first loop of `format_span_json`. -/
def dbStmt : List OtelAttribute → Option CString
  | [] => none
  | a :: rest =>
    match a.v with
    | .string s => if a.key = otelScDbQueryText then s else dbStmt rest
    | _ => dbStmt rest

/-- The scope in `format_span_json`. -/
def jsonScope (scope : OtelInstrumentationScope) : CString :=
  cstr ",\"scope\":\x7b" ++ cstr "\"name\":" ++ core.escapeJson (scope.name.getD []) ++
    appendIf core ",\"version\":" scope.version ++
    appendIf core ",\"schema_url\":" scope.schemaUrl ++ cstr "\x7d"

/-- `format_span_json`. -/
def formatSpanJson (span : OtelSpan) : CString :=
  cstr "\x7b" ++ cstr "\"trace_id\":" ++ core.escapeJson (otelTraceIdToHex span.traceId) ++
    cstr ",\"span_id\":" ++ core.escapeJson (otelSpanIdToHex span.spanId) ++
    cstr ",\"parent_span_id\":" ++ core.escapeJson (otelSpanIdToHex span.parentSpanId) ++
    cstr ",\"name\":" ++ core.escapeJson span.name ++
    cstr ",\"status\":" ++ cstrNat span.status.code ++
    cstr ",\"start_time\":" ++ Printf.signedDecimal span.startTime ++
    cstr ",\"end_time\":" ++ Printf.signedDecimal span.endTime ++
    appendIf core ",\"db_statement\":" (dbStmt span.attrs) ++
    (span.scope.map (jsonScope core)).getD [] ++ cstr "\x7d"

/-! ## Pieces as members -/

theorem appendEach_true {α : Type} (f : α → CString) (l : List α) :
    appendEach f true l = Json.afterCommas (l.map f) := by
  induction l with
  | nil => rfl
  | cons a l ih =>
    rw [appendEach, ih]
    rfl

theorem appendEach_false {α : Type} (f : α → CString) (l : List α) :
    appendEach f false l = Json.separated (l.map f) := by
  cases l with
  | nil => rfl
  | cons a l =>
    rw [appendEach, appendEach_true]
    rfl

/-- A member with a fixed key. -/
def jsonMember (key : String) (v : CString) : CString × CString := (Json.quoted (cstr key), v)

theorem appendJsonAttrs_eq (attrs : List OtelAttribute) : appendJsonAttrs core attrs =
    Json.objectText (attrs.map fun a => (core.escapeJson a.key, jsonAttrValue core a.v)) := by
  have hattr : jsonAttr core =
      Json.memberText ∘ fun a => (core.escapeJson a.key, jsonAttrValue core a.v) := by
    funext a
    unfold jsonAttr
    rw [List.append_assoc]
    rfl
  unfold appendJsonAttrs Json.objectText
  rw [appendEach_false, List.map_map, hattr]
  rfl

theorem jsonEvent_eq (e : OtelSpanEvent) : jsonEvent core e =
    Json.objectText [jsonMember "name" (core.escapeJson e.name),
      jsonMember "time" (Json.quoted (core.timestamptzToStr e.time)),
      jsonMember "attributes" (appendJsonAttrs core e.attrs)] := by
  unfold jsonEvent
  simp [cstr, Json.objectText, Json.separated, Json.afterCommas, Json.memberText, jsonMember,
    Json.quoted]

theorem jsonLink_eq (link : OtelSpanContext) : jsonLink link =
    Json.objectText [jsonMember "trace_id" (Json.quoted (otelTraceIdToHex link.traceId)),
      jsonMember "span_id" (Json.quoted (otelSpanIdToHex link.spanId))] := by
  unfold jsonLink
  simp [cstr, Json.objectText, Json.separated, Json.afterCommas, Json.memberText, jsonMember,
    Json.quoted]

/-- A member that is there only if its string is. -/
def memberIf (key : String) (s : Option CString) : List (CString × CString) :=
  (s.map fun s => jsonMember key (core.escapeJson s)).toList

/-- The parent's id, or nothing. -/
def parentText (span : OtelSpan) : CString :=
  if otelSpanIdIsValid span.parentSpanId then otelSpanIdToHex span.parentSpanId else []

def logMembers (span : OtelSpan) : List (CString × CString) :=
  [jsonMember "trace_id" (Json.quoted (otelTraceIdToHex span.traceId)),
    jsonMember "span_id" (Json.quoted (otelSpanIdToHex span.spanId)),
    jsonMember "parent_span_id" (Json.quoted (parentText span)),
    jsonMember "trace_flags" (Json.quoted (otelBytesToHex (toBytes 1 span.traceFlags.toNat))),
    jsonMember "name" (core.escapeJson span.name),
    jsonMember "kind" (cstrNat span.kind.code),
    jsonMember "status" (cstrNat span.status.code)] ++
  (memberIf core "status_description" span.statusDescription ++
  (memberIf core "scope" (span.scope.bind OtelInstrumentationScope.name) ++
  [jsonMember "start_time" (Json.quoted (core.timestamptzToStr span.startTime)),
    jsonMember "end_time" (Json.quoted (core.timestamptzToStr span.endTime)),
    jsonMember "attributes" (appendJsonAttrs core span.attrs),
    jsonMember "events" (Json.arrayText (span.events.map (jsonEvent core))),
    jsonMember "links" (Json.arrayText (span.links.map jsonLink)),
    jsonMember "dropped_attributes" (cstrNat span.droppedAttrs),
    jsonMember "dropped_events" (cstrNat span.droppedEvents),
    jsonMember "dropped_links" (cstrNat span.droppedLinks)]))

set_option maxRecDepth 4096 in
theorem otelSpanLogObject_eq (span : OtelSpan) :
    otelSpanLogObject core span = Json.objectText (logMembers core span) := by
  unfold otelSpanLogObject logMembers memberIf appendIf parentText
  rw [appendEach_false, appendEach_false]
  cases span.statusDescription <;> cases span.scope.bind OtelInstrumentationScope.name <;>
    simp [cstr, Json.objectText, Json.arrayText, Json.separated, Json.afterCommas, Json.memberText,
      jsonMember, Json.quoted]

def scopeMembers (scope : OtelInstrumentationScope) : List (CString × CString) :=
  jsonMember "name" (core.escapeJson (scope.name.getD [])) ::
    (memberIf core "version" scope.version ++ memberIf core "schema_url" scope.schemaUrl)

theorem jsonScope_eq (scope : OtelInstrumentationScope) : jsonScope core scope =
    0x2C :: Json.memberText (jsonMember "scope" (Json.objectText (scopeMembers core scope))) := by
  unfold jsonScope scopeMembers memberIf appendIf
  cases scope.version <;> cases scope.schemaUrl <;>
    simp [cstr, Json.objectText, Json.separated, Json.afterCommas, Json.memberText, jsonMember,
      Json.quoted]

def demoMembers (span : OtelSpan) : List (CString × CString) :=
  [jsonMember "trace_id" (core.escapeJson (otelTraceIdToHex span.traceId)),
    jsonMember "span_id" (core.escapeJson (otelSpanIdToHex span.spanId)),
    jsonMember "parent_span_id" (core.escapeJson (otelSpanIdToHex span.parentSpanId)),
    jsonMember "name" (core.escapeJson span.name),
    jsonMember "status" (cstrNat span.status.code),
    jsonMember "start_time" (Printf.signedDecimal span.startTime),
    jsonMember "end_time" (Printf.signedDecimal span.endTime)] ++
  (memberIf core "db_statement" (dbStmt span.attrs) ++
  (span.scope.map fun scope =>
    jsonMember "scope" (Json.objectText (scopeMembers core scope))).toList)

theorem formatSpanJson_eq (span : OtelSpan) :
    formatSpanJson core span = Json.objectText (demoMembers core span) := by
  unfold formatSpanJson demoMembers memberIf appendIf
  cases dbStmt span.attrs <;> cases span.scope <;>
    simp [cstr, Json.objectText, Json.separated, Json.afterCommas, Json.memberText, jsonMember,
      Json.quoted, jsonScope_eq]

end PostgresOtel
