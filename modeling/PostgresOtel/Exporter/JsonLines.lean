import PostgresOtel.Exporter.SpanJson

/-!
# Spans as JSON texts

The object in the server log is a JSON text exactly if no attribute of the span or of its events is a
double that is not finite; then it says what the span is.  The demo exporter's object always is one.
-/

set_option autoImplicit false

namespace PostgresOtel

variable (core : CoreText)

/-! ## The values of the pieces -/

/-- A finite double, or a value of another type. -/
def OtelAttrValue.isFinite : OtelAttrValue → Bool
  | .double d => Printf.isFinite d
  | _ => true

/-- No double on the span or on its events is infinite or not a number. -/
structure OtelSpan.Finite (span : OtelSpan) : Prop where
  attrs : ∀ a ∈ span.attrs, a.v.isFinite = true
  events : ∀ e ∈ span.events, ∀ a ∈ e.attrs, a.v.isFinite = true

instance (span : OtelSpan) : Decidable span.Finite :=
  decidable_of_iff ((∀ a ∈ span.attrs, a.v.isFinite = true) ∧
    ∀ e ∈ span.events, ∀ a ∈ e.attrs, a.v.isFinite = true) ⟨fun h => ⟨h.1, h.2⟩, fun h => ⟨h.1, h.2⟩⟩

def attrValue : OtelAttrValue → Json.Value
  | .string (some s) => .str s
  | .string none => .null
  | .int i => .num (Printf.signedDecimal i)
  | .double d => .num (Printf.general17 d)
  | .bool b => .bool b

def attrMembers (attrs : List OtelAttribute) : List (CString × Json.Value) :=
  attrs.map fun a => (a.key, attrValue a.v)

def eventValue (e : OtelSpanEvent) : Json.Value :=
  .obj [(cstr "name", .str e.name), (cstr "time", .str (core.timestamptzToStr e.time)),
    (cstr "attributes", .obj (attrMembers e.attrs))]

def linkValue (link : OtelSpanContext) : Json.Value :=
  .obj [(cstr "trace_id", .str (otelTraceIdToHex link.traceId)),
    (cstr "span_id", .str (otelSpanIdToHex link.spanId))]

def valueIf (key : String) (s : Option CString) : List (CString × Json.Value) :=
  (s.map fun s => (cstr key, Json.Value.str s)).toList

def logValues (span : OtelSpan) : List (CString × Json.Value) :=
  [(cstr "trace_id", .str (otelTraceIdToHex span.traceId)),
    (cstr "span_id", .str (otelSpanIdToHex span.spanId)),
    (cstr "parent_span_id", .str (parentText span)),
    (cstr "trace_flags", .str (otelBytesToHex (toBytes 1 span.traceFlags.toNat))),
    (cstr "name", .str span.name),
    (cstr "kind", .num (cstrNat span.kind.code)),
    (cstr "status", .num (cstrNat span.status.code))] ++
  (valueIf "status_description" span.statusDescription ++
  (valueIf "scope" (span.scope.bind OtelInstrumentationScope.name) ++
  [(cstr "start_time", .str (core.timestamptzToStr span.startTime)),
    (cstr "end_time", .str (core.timestamptzToStr span.endTime)),
    (cstr "attributes", .obj (attrMembers span.attrs)),
    (cstr "events", .arr (span.events.map (eventValue core))),
    (cstr "links", .arr (span.links.map linkValue)),
    (cstr "dropped_attributes", .num (cstrNat span.droppedAttrs)),
    (cstr "dropped_events", .num (cstrNat span.droppedEvents)),
    (cstr "dropped_links", .num (cstrNat span.droppedLinks))]))

theorem plain_hexChar (b : UInt8) :
    Json.plain (hexChar (b >>> 4)) = true ∧ Json.plain (hexChar (b &&& 0x0f)) = true := by
  have all : ∀ v : BitVec 8, Json.plain (hexChar (UInt8.ofBitVec v >>> 4)) = true ∧
      Json.plain (hexChar (UInt8.ofBitVec v &&& 0x0f)) = true := by decide +kernel
  exact all b.toBitVec

theorem plain_otelBytesToHex (bytes : List UInt8) : ∀ c ∈ otelBytesToHex bytes, Json.plain c = true := by
  intro c hc
  obtain ⟨b, -, hc⟩ := List.mem_flatMap.1 hc
  obtain ⟨hhi, hlo⟩ := plain_hexChar b
  rcases List.mem_cons.1 hc with rfl | hc
  · exact hhi
  · rwa [List.mem_singleton.1 hc]

theorem prints_hex (bytes : List UInt8) :
    Json.Prints (Json.quoted (otelBytesToHex bytes)) (.str (otelBytesToHex bytes)) :=
  (Json.printsString_quoted (plain_otelBytesToHex bytes)).prints

theorem prints_parentText (span : OtelSpan) :
    Json.Prints (Json.quoted (parentText span)) (.str (parentText span)) := by
  unfold parentText
  split_ifs
  · exact prints_hex _
  · exact (Json.printsString_quoted fun _ h => by cases h).prints

theorem prints_cstrNat (n : ℕ) : Json.Prints (cstrNat n) (.num (cstrNat n)) := by
  have heq : cstrNat n = Printf.decimal n := by
    unfold cstrNat cstr Printf.decimal
    rw [← Nat.toList_repr]
    rfl
  rw [heq]
  exact Json.prints_num (Printf.number_decimal n)

section Documented

variable {core} (hc : core.Documented) {p : Prop}

/-- A fixed key is a string as it stands. -/
theorem pieceMember {key : String} {t : CString} {v : Json.Value}
    (hkey : (cstr key).all Json.plain = true) (h : Json.Piece p t v) :
    Json.PieceMember p (jsonMember key t) (cstr key, v) :=
  ⟨Json.printsString_quoted (List.all_eq_true.1 hkey), h⟩

include hc

theorem prints_timestamp (t : TimestampTz) :
    Json.Prints (Json.quoted (core.timestamptzToStr t)) (.str (core.timestamptzToStr t)) :=
  (Json.printsString_quoted (hc.timestamptzToStr t)).prints

theorem pieces_memberIf (key : String) (hkey : (cstr key).all Json.plain = true)
    (s : Option CString) :
    List.Forall₂ (Json.PieceMember p) (memberIf core key s) (valueIf key s) := by
  cases s with
  | none => exact .nil
  | some s => exact .cons (pieceMember hkey (hc.escapeJson s).prints.piece) .nil

theorem piece_jsonAttrValue {v : OtelAttrValue} (h : p → v.isFinite = true) :
    Json.Piece p (jsonAttrValue core v) (attrValue v) := by
  cases v with
  | string s =>
    cases s with
    | none => exact (Json.prints_literal none).piece
    | some s => exact (hc.escapeJson s).prints.piece
  | int i => exact (Json.prints_num (Printf.number_signedDecimal i)).piece
  | double d =>
    refine ⟨?_, fun hp => Json.prints_num (Printf.number_general17 (h hp))⟩
    cases hd : Printf.isFinite d with
    | true => exact (Json.prints_num (Printf.number_general17 hd)).balanced
    | false => exact (Printf.word_general17 hd).1
  | bool b =>
    cases b with
    | true => exact (Json.prints_literal (some true)).piece
    | false => exact (Json.prints_literal (some false)).piece

theorem pieces_attrs {attrs : List OtelAttribute} (h : p → ∀ a ∈ attrs, a.v.isFinite = true) :
    List.Forall₂ (Json.PieceMember p)
      (attrs.map fun a => (core.escapeJson a.key, jsonAttrValue core a.v)) (attrMembers attrs) := by
  unfold attrMembers
  rw [List.forall₂_map_left_iff, List.forall₂_map_right_iff, List.forall₂_same]
  exact fun a ha => ⟨hc.escapeJson a.key, piece_jsonAttrValue hc fun hp => h hp a ha⟩

theorem piece_appendJsonAttrs {attrs : List OtelAttribute}
    (h : p → ∀ a ∈ attrs, a.v.isFinite = true) :
    Json.Piece p (appendJsonAttrs core attrs) (.obj (attrMembers attrs)) := by
  rw [appendJsonAttrs_eq]
  exact Json.piece_object (pieces_attrs hc h)

theorem pieces_event {e : OtelSpanEvent} (h : p → ∀ a ∈ e.attrs, a.v.isFinite = true) :
    Json.Piece p (jsonEvent core e) (eventValue core e) := by
  rw [jsonEvent_eq]
  refine Json.piece_object (.cons ?_ (.cons ?_ (.cons ?_ .nil)))
  · exact pieceMember (by decide) (hc.escapeJson e.name).prints.piece
  · exact pieceMember (by decide) (prints_timestamp hc e.time).piece
  · exact pieceMember (by decide) (piece_appendJsonAttrs hc h)

omit hc in
theorem piece_link (link : OtelSpanContext) : Json.Piece p (jsonLink link) (linkValue link) := by
  rw [jsonLink_eq]
  refine Json.piece_object (.cons ?_ (.cons ?_ .nil))
  · exact pieceMember (by decide) (prints_hex _).piece
  · exact pieceMember (by decide) (prints_hex _).piece

/-! ## The two objects -/

theorem pieces_log {span : OtelSpan} (h : p → span.Finite) :
    List.Forall₂ (Json.PieceMember p) (logMembers core span) (logValues core span) := by
  have hattrs : p → ∀ a ∈ span.attrs, a.v.isFinite = true := fun hp => (h hp).attrs
  have hevents : List.Forall₂ (Json.Piece p) (span.events.map (jsonEvent core))
      (span.events.map (eventValue core)) := by
    rw [List.forall₂_map_left_iff, List.forall₂_map_right_iff, List.forall₂_same]
    exact fun e he => pieces_event hc fun hp => (h hp).events e he
  have hlinks : List.Forall₂ (Json.Piece p) (span.links.map jsonLink) (span.links.map linkValue) := by
    rw [List.forall₂_map_left_iff, List.forall₂_map_right_iff, List.forall₂_same]
    exact fun link _ => piece_link link
  have hnat (key : String) (hkey : (cstr key).all Json.plain = true) (n : ℕ) :
      Json.PieceMember p (jsonMember key (cstrNat n)) (cstr key, .num (cstrNat n)) :=
    pieceMember hkey (prints_cstrNat n).piece
  have hhex (key : String) (hkey : (cstr key).all Json.plain = true) (bytes : List UInt8) :
      Json.PieceMember p (jsonMember key (Json.quoted (otelBytesToHex bytes)))
        (cstr key, .str (otelBytesToHex bytes)) :=
    pieceMember hkey (prints_hex bytes).piece
  have htime (key : String) (hkey : (cstr key).all Json.plain = true) (t : TimestampTz) :
      Json.PieceMember p (jsonMember key (Json.quoted (core.timestamptzToStr t)))
        (cstr key, .str (core.timestamptzToStr t)) :=
    pieceMember hkey (prints_timestamp hc t).piece
  unfold logMembers logValues
  refine List.rel_append ?_ (List.rel_append ?_ (List.rel_append ?_ ?_))
  · refine .cons (hhex _ (by decide) _) (.cons (hhex _ (by decide) _) (.cons ?_ ?_))
    · exact pieceMember (by decide) (prints_parentText span).piece
    refine .cons (hhex _ (by decide) _) (.cons ?_ ?_)
    · exact pieceMember (by decide) (hc.escapeJson span.name).prints.piece
    exact .cons (hnat _ (by decide) _) (.cons (hnat _ (by decide) _) .nil)
  · exact pieces_memberIf hc _ (by decide) _
  · exact pieces_memberIf hc _ (by decide) _
  · refine .cons (htime _ (by decide) _) (.cons (htime _ (by decide) _) (.cons ?_ ?_))
    · exact pieceMember (by decide) (piece_appendJsonAttrs hc hattrs)
    refine .cons (pieceMember (by decide) (Json.piece_array hevents)) (.cons ?_ ?_)
    · exact pieceMember (by decide) (Json.piece_array hlinks)
    refine .cons (hnat _ (by decide) _) (.cons (hnat _ (by decide) _) ?_)
    exact .cons (hnat _ (by decide) _) .nil

theorem piece_otelSpanLogObject {span : OtelSpan} (h : p → span.Finite) :
    Json.Piece p (otelSpanLogObject core span) (.obj (logValues core span)) := by
  rw [otelSpanLogObject_eq]
  exact Json.piece_object (pieces_log hc h)

/-! ### Texts that are not JSON -/

/-- The bytes outside of strings in the value of an attribute are among those of the list. -/
theorem occurs_attr {attrs : List OtelAttribute} {a : OtelAttribute} (ha : a ∈ attrs) :
    Json.Occurs (jsonAttrValue core a.v) (appendJsonAttrs core attrs) := by
  rw [appendJsonAttrs_eq]
  refine Json.occurs_objectText (m := (core.escapeJson a.key, jsonAttrValue core a.v)) ?_
    (List.mem_map_of_mem ha)
  exact Json.forall_balancedMember (pieces_attrs hc fun h : False => h.elim)

theorem occurs_eventAttrs (e : OtelSpanEvent) :
    Json.Occurs (appendJsonAttrs core e.attrs) (jsonEvent core e) := by
  rw [jsonEvent_eq]
  refine Json.occurs_objectText (m := jsonMember "attributes" (appendJsonAttrs core e.attrs)) ?_
    (by simp)
  have h := (pieces_event hc (e := e) fun h : False => h.elim).balanced
  refine List.forall_mem_cons.2 ⟨?_, List.forall_mem_cons.2 ⟨?_, List.forall_mem_singleton.2 ?_⟩⟩
  · exact ⟨(Json.printsString_quoted (s := cstr "name") (List.all_eq_true.1 (by decide))).balanced,
      (hc.escapeJson e.name).balanced⟩
  · exact ⟨(Json.printsString_quoted (s := cstr "time") (List.all_eq_true.1 (by decide))).balanced,
      (prints_timestamp hc e.time).balanced⟩
  · exact ⟨(Json.printsString_quoted (s := cstr "attributes") (List.all_eq_true.1 (by decide))).balanced,
      (piece_appendJsonAttrs hc fun h : False => h.elim).balanced⟩

theorem occurs_log {span : OtelSpan} {m : CString × CString} (hm : m ∈ logMembers core span) :
    Json.Occurs m.2 (otelSpanLogObject core span) := by
  rw [otelSpanLogObject_eq]
  exact Json.occurs_objectText (Json.forall_balancedMember (pieces_log hc fun h : False => h.elim)) hm

omit hc in
/-- A double that is not finite leaves a byte outside of strings that JSON does not have there. -/
theorem isFinite_of_occurs {b : CString} {v : Json.Value} (hb : Json.IsText b v) {x : OtelAttrValue}
    (hx : Json.Occurs (jsonAttrValue core x) b) : x.isFinite = true := by
  cases x with
  | double d =>
    cases hd : Printf.isFinite d with
    | true => exact hd
    | false =>
      obtain ⟨-, c, hc, hbad⟩ := Printf.word_general17 hd
      have hbare := hb.bareByte c (hx.mem_bare hc)
      rw [hbad] at hbare
      cases hbare
  | string | int | bool => rfl

/-- If the server log gets a JSON text, the span has only finite doubles. -/
theorem finite_of_isText {span : OtelSpan} {v : Json.Value}
    (h : Json.IsText (otelSpanLogObject core span) v) : span.Finite where
  attrs a ha := by
    refine isFinite_of_occurs h ((occurs_attr hc ha).trans ?_)
    exact occurs_log hc (m := jsonMember "attributes" (appendJsonAttrs core span.attrs))
      (by simp [logMembers])
  events e he a ha := by
    have hbalanced : ∀ t ∈ span.events.map (jsonEvent core), Json.Balanced t := by
      refine List.forall_mem_map.2 fun e _ => ?_
      exact (pieces_event hc (e := e) fun h : False => h.elim).balanced
    refine isFinite_of_occurs h ((occurs_attr hc ha).trans ((occurs_eventAttrs hc e).trans ?_))
    refine (Json.occurs_arrayText hbalanced (List.mem_map_of_mem he)).trans ?_
    exact occurs_log hc (m := jsonMember "events" (Json.arrayText (span.events.map (jsonEvent core))))
      (by simp [logMembers])

/-! ### The demo exporter -/

/-- `format_span_json` writes no double, and a JSON text always. -/
theorem isText_formatSpanJson (span : OtelSpan) : ∃ v, Json.IsText (formatSpanJson core span) v := by
  have hstr (key : String) (hkey : (cstr key).all Json.plain = true) (s : CString) :
      Json.PieceMember True (jsonMember key (core.escapeJson s)) (cstr key, .str s) :=
    pieceMember hkey (hc.escapeJson s).prints.piece
  have hnum (key : String) (hkey : (cstr key).all Json.plain = true) (i : ℤ) :
      Json.PieceMember True (jsonMember key (Printf.signedDecimal i))
        (cstr key, .num (Printf.signedDecimal i)) :=
    pieceMember hkey (Json.prints_num (Printf.number_signedDecimal i)).piece
  have hscope (scope : OtelInstrumentationScope) : ∃ v,
      Json.Piece True (Json.objectText (scopeMembers core scope)) v := by
    have hversions := List.rel_append (pieces_memberIf hc (p := True) "version" (by decide) scope.version)
      (pieces_memberIf hc "schema_url" (by decide) scope.schemaUrl)
    exact ⟨_, Json.piece_object (.cons (hstr "name" (by decide) (scope.name.getD [])) hversions)⟩
  have htail : ∃ l, List.Forall₂ (Json.PieceMember True)
      (span.scope.map fun scope =>
        jsonMember "scope" (Json.objectText (scopeMembers core scope))).toList l := by
    cases span.scope with
    | none => exact ⟨[], .nil⟩
    | some scope =>
      obtain ⟨v, hv⟩ := hscope scope
      exact ⟨[(cstr "scope", v)], .cons (pieceMember (by decide) hv) .nil⟩
  obtain ⟨l, hl⟩ := htail
  have hstatus : Json.PieceMember True (jsonMember "status" (cstrNat span.status.code))
      (cstr "status", .num (cstrNat span.status.code)) :=
    pieceMember (by decide) (prints_cstrNat _).piece
  have hfixed := List.Forall₂.cons (hstr "trace_id" (by decide) (otelTraceIdToHex span.traceId))
    (.cons (hstr "span_id" (by decide) (otelSpanIdToHex span.spanId))
    (.cons (hstr "parent_span_id" (by decide) (otelSpanIdToHex span.parentSpanId))
    (.cons (hstr "name" (by decide) span.name) (.cons hstatus
    (.cons (hnum "start_time" (by decide) span.startTime)
    (.cons (hnum "end_time" (by decide) span.endTime) .nil))))))
  have hmembers := List.rel_append hfixed
    (List.rel_append (pieces_memberIf hc "db_statement" (by decide) (dbStmt span.attrs)) hl)
  rw [formatSpanJson_eq]
  exact ⟨_, ((Json.piece_object hmembers).prints trivial).isText⟩

/-! ## Well-formed objects -/

end Documented

/-- What the object in the server log says about the events, the links and the attributes. -/
structure SaysSpan (span : OtelSpan) (v : Json.Value) : Prop where
  attributes : v.get (cstr "attributes") = some (.obj (attrMembers span.attrs))
  events : v.get (cstr "events") = some (.arr (span.events.map (eventValue core)))
  links : v.get (cstr "links") = some (.arr (span.links.map linkValue))

theorem saysSpan_logValues (span : OtelSpan) : SaysSpan core span (.obj (logValues core span)) := by
  unfold logValues valueIf
  cases span.statusDescription <;> cases span.scope.bind OtelInstrumentationScope.name <;>
    exact ⟨rfl, rfl, rfl⟩

/-- Both objects are JSON texts, and the one in the server log says what the span is, exactly if no
attribute of the span or of an event is a double that is infinite or not a number. -/
theorem exported_json_iff (hc : core.Documented) (span : OtelSpan) :
    ((∃ v, Json.IsText (otelSpanLogObject core span) v ∧ SaysSpan core span v) ∧
      ∃ v, Json.IsText (formatSpanJson core span) v) ↔ span.Finite := by
  constructor
  · rintro ⟨⟨v, hv, -⟩, -⟩
    exact finite_of_isText hc hv
  · intro h
    have hlog := (piece_otelSpanLogObject hc fun _ : True => h).prints trivial
    exact ⟨⟨_, hlog.isText, saysSpan_logValues core span⟩, isText_formatSpanJson hc span⟩

/-! ## Core's texts -/

/-- What core's `escape_json` appends for a byte. -/
def escapeJsonByte (c : UInt8) : CString :=
  if c = 0x08 then cstr "\\b"
  else if c = 0x0C then cstr "\\f"
  else if c = 0x0A then cstr "\\n"
  else if c = 0x0D then cstr "\\r"
  else if c = 0x09 then cstr "\\t"
  else if c = 0x22 ∨ c = 0x5C then [0x5C, c]
  else if c < 0x20 then cstr "\\u00" ++ otelBytesToHex [c]
  else [c]

def escapeJson (s : CString) : CString := 0x22 :: (s.flatMap escapeJsonByte ++ [0x22])

/-- The bytes that do not stand for themselves in a string. -/
def escapedBytes : List UInt8 := [0x22, 0x5C] ++ (List.range 0x20).map UInt8.ofNat

theorem charStep_escaped : ∀ c ∈ escapedBytes, ∀ t,
    Json.charStep (escapeJsonByte c ++ t) = some ([c], t) := by
  unfold escapedBytes
  simp only [List.range, List.range.loop, List.map_cons, List.map_nil, List.cons_append,
    List.nil_append, List.forall_mem_cons]
  repeat' apply And.intro
  all_goals first | exact fun _ => rfl | exact fun _ h => absurd h List.not_mem_nil

theorem charStep_escapeJsonByte (c : UInt8) (t : CString) :
    Json.charStep (escapeJsonByte c ++ t) = some ([c], t) := by
  have hall : ∀ v : BitVec 8, UInt8.ofBitVec v ∈ escapedBytes ∨
      (escapeJsonByte (UInt8.ofBitVec v) = [UInt8.ofBitVec v] ∧
        Json.plain (UInt8.ofBitVec v) = true) := by decide +kernel
  rcases hall c.toBitVec with hesc | ⟨hself, hplain⟩
  · exact charStep_escaped c hesc t
  · have hne : c ≠ 0x5C := by
      rintro rfl
      cases hplain
    have hself : escapeJsonByte c = [c] := hself
    have hplain : Json.plain c = true := hplain
    simp [hself, Json.charStep, hne, hplain]

theorem printsString_escapeJson (s : CString) : Json.PrintsString (escapeJson s) s := by
  refine ⟨_, rfl, fun a => ?_⟩
  induction s with
  | nil => exact .close rfl
  | cons c s ih =>
    have hstep := charStep_escapeJsonByte c (s.flatMap escapeJsonByte ++ [0x22] ++ a)
    rw [← List.append_assoc, ← List.append_assoc] at hstep
    exact .char hstep ih

/-- Core's texts of a span with no times set, in the time zone UTC. -/
def coreTexts : CoreText where
  escapeJson := PostgresOtel.escapeJson
  timestamptzToStr _ := cstr "2000-01-01 00:00:00+00"

theorem coreTexts_documented : coreTexts.Documented where
  escapeJson := printsString_escapeJson
  timestamptzToStr _ :=
    List.all_eq_true.1 (show (cstr "2000-01-01 00:00:00+00").all Json.plain = true by decide)

/-- A span with an attribute, an event and a link. -/
def spanWith (v : OtelAttrValue) : OtelSpan :=
  { name := cstr "say \"hi\"", attrs := [⟨cstr "ratio", v⟩],
    events := [⟨cstr "e", 0, [⟨cstr "note", .string (some [0x0A])⟩]⟩],
    links := [{ traceId := 1, spanId := 2 }] }

/-- The double 0.5. -/
theorem exported_json_iff_half :
    (∃ v, Json.IsText (otelSpanLogObject coreTexts (spanWith (.double 0x3FE0000000000000#64))) v ∧
      SaysSpan coreTexts (spanWith (.double 0x3FE0000000000000#64)) v) ∧
    ∃ v, Json.IsText (formatSpanJson coreTexts (spanWith (.double 0x3FE0000000000000#64))) v :=
  (exported_json_iff coreTexts coreTexts_documented _).2 (by decide)

/-- An infinite double makes the object in the server log something else than JSON. -/
theorem infinity_is_not_json : ¬ ∀ core : CoreText, core.Documented → ∀ span : OtelSpan,
    ∃ v, Json.IsText (otelSpanLogObject core span) v := by
  intro hclaim
  obtain ⟨v, hv⟩ := hclaim coreTexts coreTexts_documented (spanWith (.double 0x7FF0000000000000#64))
  have hfinite := finite_of_isText coreTexts_documented hv
  revert hfinite
  decide

end PostgresOtel
