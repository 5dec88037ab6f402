import PostgresOtel.Exporter.JsonLines
import PostgresOtel.Lib.JsonLine
import PostgresOtel.Lib.Machine

/-!
# The file of the demo exporter

`otel_demo_exporter.c` as a machine of its static variables and the files it appends to, with the
setting that names the file changing between spans, files that cannot be opened, and memory that runs
out.  What a backend has put into a file is one line for each span it was given while the setting named
that file, in their order.
-/

set_option autoImplicit false

namespace PostgresOtel

/-! ## The source -/

/-- The static variables of the exporter, what it has appended to the file of each path, and the spans
it has handed on. -/
structure DemoExporterSt where
  outputFile : Option CString := some []
  outfp : Option CString := none
  openedPath : Option CString := none
  files : CString → CString := fun _ => []
  handedOn : List OtelSpan := []

/-- What an emission meets: whether `fopen` and `strdup` succeed, whether the line can be put together,
and how many of its bytes get into the file, if not all. -/
structure FileEnv where
  opens : Bool := true
  copies : Bool := true
  formats : Bool := true
  room : Option ℕ := none
  deriving DecidableEq

/-- `format_span_json` and a newline. -/
def spanLine (core : CoreText) (span : OtelSpan) : CString := formatSpanJson core span ++ [0x0A]

namespace DemoExporterSt

variable (core : CoreText) (env : FileEnv) (d : DemoExporterSt)

/-- The open file is the one the setting names. -/
def upToDate : Bool := d.outfp.isSome && (d.openedPath.isSome && d.openedPath == d.outputFile)

/-- `fclose`, if a file is open that is not up to date. -/
def closeStale : DemoExporterSt :=
  if d.outfp.isSome then { d with outfp := none, openedPath := none } else d

/-- `ensure_output_open`. -/
def ensureOutputOpen : Bool × DemoExporterSt :=
  if d.upToDate then
    (true, d)
  else
    match d.closeStale.outputFile with
    | none | some [] => (false, d.closeStale)
    | some path =>
      if env.opens then
        (true, { d.closeStale with
                 outfp := some path
                 openedPath := if env.copies then some path else none })
      else (false, d.closeStale)

/-- `fwrite` and `fflush`. -/
def append (line : CString) : DemoExporterSt :=
  match d.outfp with
  | some path => { d with files := Function.update d.files path (d.files path ++ line) }
  | none => d

/-- The body of `otel_demo_exporter_emit`'s `PG_TRY`. -/
def write (span : OtelSpan) : DemoExporterSt :=
  let (isOpen, d) := d.ensureOutputOpen env
  if isOpen && env.formats then
    d.append ((spanLine core span).take (env.room.getD (spanLine core span).length))
  else d

/-- `otel_demo_exporter_emit`. -/
def otelDemoExporterEmit (span : OtelSpan) : DemoExporterSt :=
  let d := d.write core env span
  { d with handedOn := d.handedOn ++ [span] }

/-- `close_output`. -/
def closeOutput : DemoExporterSt := { d with outfp := none }

end DemoExporterSt

inductive DemoAct
  | emit (env : FileEnv) (span : OtelSpan)
  /-- `otel_demo_exporter.output_file` changes. -/
  | assignOutputFile (newval : Option CString)
  | procExit

def DemoExporterSt.next (core : CoreText) (d : DemoExporterSt) : DemoAct → DemoExporterSt
  | .emit env span => d.otelDemoExporterEmit core env span
  | .assignOutputFile newval => { d with outputFile := newval }
  | .procExit => d.closeOutput

/-- A span the exporter was given: the setting then, and whether a file could have been opened. -/
structure Given where
  outputFile : Option CString
  opens : Bool
  span : OtelSpan

/-- The exporter, with the spans it was given. -/
def demoExporter (core : CoreText) : Machine (DemoExporterSt × List Given) DemoAct where
  init := ({}, [])
  enabled _ _ := True
  next p a :=
    (p.1.next core a,
      match a with
      | .emit env span => p.2 ++ [⟨p.1.outputFile, env.opens, span⟩]
      | _ => p.2)

/-- The spans given while the setting was `path`. -/
def givenFor (path : CString) (given : List Given) : List Given :=
  given.filter fun g => decide (g.outputFile = some path)

/-! ## The lines -/

section Lines

variable {core : CoreText} (hc : core.Documented)

def scopeValues (scope : OtelInstrumentationScope) : List (CString × Json.Value) :=
  (cstr "name", .str (scope.name.getD [])) ::
    (valueIf "version" scope.version ++ valueIf "schema_url" scope.schemaUrl)

/-- The members of the object in the file. -/
def demoValues (span : OtelSpan) : List (CString × Json.Value) :=
  [(cstr "trace_id", .str (otelTraceIdToHex span.traceId)),
    (cstr "span_id", .str (otelSpanIdToHex span.spanId)),
    (cstr "parent_span_id", .str (otelSpanIdToHex span.parentSpanId)),
    (cstr "name", .str span.name),
    (cstr "status", .num (cstrNat span.status.code)),
    (cstr "start_time", .num (Printf.signedDecimal span.startTime)),
    (cstr "end_time", .num (Printf.signedDecimal span.endTime))] ++
  (valueIf "db_statement" (dbStmt span.attrs) ++
  (span.scope.map fun scope => (cstr "scope", Json.Value.obj (scopeValues scope))).toList)

/-- A member and its text, which is on one line. -/
structure LineMember (m : CString × CString) (x : CString × Json.Value) : Prop where
  prints : Json.PrintsMember m x
  key : Json.OneLine m.1
  value : Json.OneLine m.2

theorem LineMember.of {key : String} {t : CString} {v : Json.Value}
    (hkey : (cstr key).all Json.plain = true) (h : Json.Prints t v) (hline : Json.OneLine t) :
    LineMember (jsonMember key t) (cstr key, v) :=
  have hstring := Json.printsString_quoted (List.all_eq_true.1 hkey)
  ⟨⟨hstring, h⟩, hstring.oneLine, hline⟩

theorem prints_lineMembers {ms : List (CString × CString)} {l : List (CString × Json.Value)}
    (h : List.Forall₂ LineMember ms l) :
    Json.Prints (Json.objectText ms) (.obj l) ∧ Json.OneLine (Json.objectText ms) := by
  refine ⟨Json.prints_object (h.imp fun _ _ hm => hm.prints), Json.oneLine_objectText fun m hm => ?_⟩
  induction h with
  | nil => cases hm
  | cons hfirst _ ih =>
    rcases List.mem_cons.1 hm with rfl | hm
    · exact ⟨hfirst.key, hfirst.value⟩
    · exact ih hm

theorem cstrNat_eq (n : ℕ) : cstrNat n = Printf.decimal n := by
  unfold cstrNat cstr Printf.decimal
  rw [← Nat.toList_repr]
  rfl

include hc

theorem lineMember_string {key : String} (hkey : (cstr key).all Json.plain = true) (s : CString) :
    LineMember (jsonMember key (core.escapeJson s)) (cstr key, .str s) :=
  .of hkey (hc.escapeJson s).prints (hc.escapeJson s).oneLine

theorem lineMembers_if {key : String} (hkey : (cstr key).all Json.plain = true) (s : Option CString) :
    List.Forall₂ LineMember (memberIf core key s) (valueIf key s) := by
  cases s with
  | none => exact .nil
  | some s => exact .cons (lineMember_string hc hkey s) .nil

/-- The line of a span is a JSON text with its ids, and nothing else. -/
theorem prints_formatSpanJson (span : OtelSpan) :
    Json.Prints (formatSpanJson core span) (.obj (demoValues span)) ∧
      Json.OneLine (formatSpanJson core span) := by
  have hnum {key : String} (hkey : (cstr key).all Json.plain = true) {t : CString} (ht : Json.Number t) :
      LineMember (jsonMember key t) (cstr key, .num t) := .of hkey (Json.prints_num ht) (Json.oneLine_number ht)
  have hstatus : Json.Number (cstrNat span.status.code) := cstrNat_eq _ ▸ Printf.number_decimal _
  have hscope (scope : OtelInstrumentationScope) : List.Forall₂ LineMember
      (scopeMembers core scope) (scopeValues scope) :=
    .cons (lineMember_string hc (by decide) _)
      (List.rel_append (lineMembers_if hc (by decide) scope.version)
        (lineMembers_if hc (by decide) scope.schemaUrl))
  have hlast : List.Forall₂ LineMember
      (span.scope.map fun scope => jsonMember "scope" (Json.objectText (scopeMembers core scope))).toList
      (span.scope.map fun scope => (cstr "scope", Json.Value.obj (scopeValues scope))).toList := by
    cases span.scope with
    | none => exact .nil
    | some scope =>
      obtain ⟨hprints, hline⟩ := prints_lineMembers (hscope scope)
      exact .cons (.of (by decide) hprints hline) .nil
  rw [formatSpanJson_eq]
  refine prints_lineMembers (List.rel_append ?_
    (List.rel_append (lineMembers_if hc (by decide) (dbStmt span.attrs)) hlast))
  refine .cons (lineMember_string hc (by decide) _) (.cons (lineMember_string hc (by decide) _)
    (.cons (lineMember_string hc (by decide) _) (.cons (lineMember_string hc (by decide) _)
    (.cons (hnum (by decide) hstatus) (.cons (hnum (by decide) (Printf.number_signedDecimal _)) ?_)))))
  exact .cons (hnum (by decide) (Printf.number_signedDecimal _)) .nil

end Lines

/-! ## The open file -/

namespace DemoExporterSt

/-- The open file has a name, which is the one that is remembered, if it could be. -/
def Tracks (d : DemoExporterSt) : Prop :=
  ∀ path, d.outfp = some path → path ≠ [] ∧ (d.openedPath = none ∨ d.openedPath = some path)

variable {core : CoreText} {env : FileEnv} {d : DemoExporterSt} {path : CString}

theorem closeStale_same (d : DemoExporterSt) : d.closeStale.outputFile = d.outputFile ∧
    d.closeStale.outfp = none ∧ d.closeStale.files = d.files ∧ d.closeStale.handedOn = d.handedOn := by
  unfold closeStale
  cases hopen : d.outfp with
  | none => exact ⟨rfl, hopen, rfl, rfl⟩
  | some path => exact ⟨rfl, rfl, rfl, rfl⟩

/-- What `ensure_output_open` comes to. -/
theorem ensureOutputOpen_cases (env : FileEnv) (h : d.Tracks) :
    (∃ d', d.ensureOutputOpen env = (false, d') ∧ d'.outfp = none ∧ d'.files = d.files ∧
      d'.handedOn = d.handedOn ∧ ∀ path, d.outputFile = some path → path ≠ [] → env.opens = false) ∨
    ∃ path d', d.ensureOutputOpen env = (true, d') ∧ d.outputFile = some path ∧ d'.outfp = some path ∧
      d'.Tracks ∧ d'.files = d.files ∧ d'.handedOn = d.handedOn := by
  unfold ensureOutputOpen
  by_cases hcurrent : d.upToDate = true
  · rw [if_pos hcurrent]
    unfold upToDate at hcurrent
    rw [Bool.and_eq_true, Bool.and_eq_true, beq_iff_eq] at hcurrent
    obtain ⟨hopen, hknown, hsame⟩ := hcurrent
    obtain ⟨path, hpath⟩ := Option.isSome_iff_exists.1 hopen
    have hopened : d.openedPath = some path := by
      refine (h path hpath).2.resolve_left fun hnone => ?_
      rw [hnone] at hknown
      cases hknown
    exact .inr ⟨path, d, rfl, hsame.symm.trans hopened, hpath, h, rfl, rfl⟩
  · rw [if_neg hcurrent]
    obtain ⟨hfile, hclosed, hfiles, hhanded⟩ := d.closeStale_same
    rw [hfile]
    match hpath : d.outputFile with
    | none => exact .inl ⟨_, rfl, hclosed, hfiles, hhanded, nofun⟩
    | some [] =>
      refine .inl ⟨_, rfl, hclosed, hfiles, hhanded, fun path heq hne => ?_⟩
      exact absurd (Option.some.inj heq).symm hne
    | some (c :: cs) =>
      cases hopens : env.opens with
      | false => exact .inl ⟨_, rfl, hclosed, hfiles, hhanded, fun _ _ _ => rfl⟩
      | true =>
        refine .inr ⟨c :: cs, _, rfl, rfl, rfl, fun path heq => ?_, hfiles, hhanded⟩
        obtain rfl := Option.some.inj heq
        refine ⟨List.cons_ne_nil _ _, ?_⟩
        change (if env.copies then some (c :: cs) else none) = none ∨ _
        cases env.copies <;> simp

end DemoExporterSt

/-! ## Runs -/

/-- The line is put together, and all of it gets into the file. -/
def DemoAct.Complete : DemoAct → Prop
  | .emit env _ => env.formats = true ∧ env.room = none
  | _ => True

/-- The file of a path has the lines of spans given for it, in their order, and of all of them for
which a file could have been opened. -/
structure FileHas (core : CoreText) (d : DemoExporterSt) (given : List Given) (path : CString)
    (kept : List Given) : Prop where
  opened : ((givenFor path given).filter Given.opens).Sublist kept
  given : kept.Sublist (givenFor path given)
  lines : d.files path = kept.flatMap fun g => spanLine core g.span

/-- The exporter and the spans it was given. -/
structure DemoInv (core : CoreText) (d : DemoExporterSt) (given : List Given) : Prop where
  tracks : d.Tracks
  unnamed : d.files [] = []
  files : ∀ path, path ≠ [] → ∃ kept, FileHas core d given path kept
  handedOn : d.handedOn = given.map Given.span

section Runs

variable {core : CoreText} {d d' : DemoExporterSt} {given : List Given} {g : Given} {path : CString}

theorem givenFor_concat_self (given : List Given) (h : g.outputFile = some path) :
    givenFor path (given ++ [g]) = givenFor path given ++ [g] := by
  rw [givenFor, List.filter_append, List.filter_singleton, h]
  simp [givenFor]

theorem givenFor_concat_of_ne (given : List Given) (h : g.outputFile ≠ some path) :
    givenFor path (given ++ [g]) = givenFor path given := by
  rw [givenFor, List.filter_append, List.filter_singleton]
  simp [givenFor, h]

/-- A span that is given for another file, or that no file could be opened for. -/
theorem FileHas.skip {kept : List Given} (h : FileHas core d given path kept)
    (hfiles : d'.files path = d.files path) (hg : g.outputFile = some path → g.opens = false) :
    FileHas core d' (given ++ [g]) path kept := by
  by_cases hpath : g.outputFile = some path
  · have hopens : [g].filter Given.opens = [] := by simp [hg hpath]
    have hconcat := givenFor_concat_self given hpath
    refine ⟨?_, ?_, hfiles.trans h.lines⟩
    · rw [hconcat, List.filter_append, hopens, List.append_nil]
      exact h.opened
    · rw [hconcat]
      exact h.given.trans (List.sublist_append_left _ _)
  · have hsame := givenFor_concat_of_ne given hpath
    exact ⟨hsame ▸ h.opened, hsame ▸ h.given, hfiles.trans h.lines⟩

/-- A span whose line is appended. -/
theorem FileHas.append {kept : List Given} (h : FileHas core d given path kept)
    (hg : g.outputFile = some path) (hfiles : d'.files path = d.files path ++ spanLine core g.span) :
    FileHas core d' (given ++ [g]) path (kept ++ [g]) := by
  have hconcat := givenFor_concat_self given hg
  refine ⟨?_, ?_, ?_⟩
  · rw [hconcat, List.filter_append]
    exact h.opened.append (List.filter_sublist)
  · rw [hconcat]
    exact h.given.append (List.Sublist.refl _)
  · rw [hfiles, h.lines, List.flatMap_append, List.flatMap_singleton]

theorem DemoInv.emit (h : DemoInv core d given) {env : FileEnv} (hformats : env.formats = true)
    (hroom : env.room = none) (span : OtelSpan) :
    DemoInv core (d.otelDemoExporterEmit core env span)
      (given ++ [⟨d.outputFile, env.opens, span⟩]) := by
  unfold DemoExporterSt.otelDemoExporterEmit DemoExporterSt.write
  rcases DemoExporterSt.ensureOutputOpen_cases env h.tracks with
    ⟨d', heq, hclosed, hfiles, hhanded, hopens⟩ | ⟨file, d', heq, hfile, hopen, htracks, hfiles, hhanded⟩
  · rw [heq]
    refine ⟨fun path hpath => ?_, ?_, fun path hne => ?_, ?_⟩
    · rw [show d'.outfp = some path from hpath] at hclosed
      cases hclosed
    · exact (congrFun hfiles []).trans h.unnamed
    · obtain ⟨kept, hkept⟩ := h.files path hne
      exact ⟨kept, hkept.skip (congrFun hfiles path) fun hg => hopens path hg hne⟩
    · change d'.handedOn ++ [span] = _
      rw [hhanded, h.handedOn, List.map_append, List.map_singleton]
  · have hne : file ≠ [] := (htracks file hopen).1
    have hwritten : (d'.append (spanLine core span)).files =
        Function.update d.files file (d.files file ++ spanLine core span) := by
      rw [DemoExporterSt.append, hopen, ← hfiles]
    have hkeeps : (d'.append (spanLine core span)).handedOn = d.handedOn ∧
        (d'.append (spanLine core span)).Tracks := by
      rw [DemoExporterSt.append, hopen]
      exact ⟨hhanded, fun path hpath => htracks path (hopen.trans hpath)⟩
    rw [heq]
    simp only [hformats, hroom, Bool.and_self, if_true, Option.getD_none, List.take_length]
    refine ⟨hkeeps.2, ?_, fun path hpath => ?_, ?_⟩
    · change (d'.append (spanLine core span)).files [] = []
      rw [hwritten, Function.update_of_ne (Ne.symm hne), h.unnamed]
    · obtain ⟨kept, hkept⟩ := h.files path hpath
      by_cases hsame : path = file
      · subst hsame
        refine ⟨_, hkept.append hfile ?_⟩
        change (d'.append (spanLine core span)).files path = _
        rw [hwritten, Function.update_self]
      · refine ⟨kept, hkept.skip ?_ fun hg => ?_⟩
        · change (d'.append (spanLine core span)).files path = _
          rw [hwritten, Function.update_of_ne hsame]
        · exact absurd (Option.some.inj (hg.symm.trans hfile)) hsame
    · change (d'.append (spanLine core span)).handedOn ++ [span] = _
      rw [hkeeps.1, h.handedOn, List.map_append, List.map_singleton]

theorem reachable_demoInv {p : DemoExporterSt × List Given}
    (h : (demoExporter core).ReachBy (fun _ a => a.Complete) p) : DemoInv core p.1 p.2 := by
  refine Machine.ReachBy.invariant (I := fun p => DemoInv core p.1 p.2) ?_ (fun p a hI _ ha => ?_) h
  · exact ⟨nofun, rfl, fun path _ => ⟨[], List.nil_sublist _, List.nil_sublist _, rfl⟩, rfl⟩
  · cases a with
    | emit env span => exact hI.emit ha.1 ha.2 span
    | assignOutputFile newval =>
      refine ⟨hI.tracks, hI.unnamed, fun path hne => ?_, hI.handedOn⟩
      obtain ⟨kept, hkept⟩ := hI.files path hne
      exact ⟨kept, hkept.opened, hkept.given, hkept.lines⟩
    | procExit =>
      refine ⟨nofun, hI.unnamed, fun path hne => ?_, hI.handedOn⟩
      obtain ⟨kept, hkept⟩ := hI.files path hne
      exact ⟨kept, hkept.opened, hkept.given, hkept.lines⟩

/-- The file of a path is a faithful record.  Whatever changes of the setting and failures to open a
file a run had, as long as what was written got into the files as a whole: every span is handed on to
the next exporter; the file of a path has a line for each of the spans given while the setting was that
path, in their order, none of them twice, and of all for which a file could be opened; it splits into
these lines again, and each is a JSON object with the ids and the name of its span. -/
theorem demo_file_records (hc : core.Documented) {p : DemoExporterSt × List Given}
    (h : (demoExporter core).ReachBy (fun _ a => a.Complete) p) :
    p.1.handedOn = p.2.map Given.span ∧ p.1.files [] = [] ∧
      ∀ path, path ≠ [] → ∃ kept, FileHas core p.1 p.2 path kept ∧
        Json.splitLines (p.1.files path) = (kept.map fun g => formatSpanJson core g.span, []) ∧
        ∀ g ∈ kept, Json.IsText (formatSpanJson core g.span) (.obj (demoValues g.span)) := by
  have hinv := reachable_demoInv h
  refine ⟨hinv.handedOn, hinv.unnamed, fun path hne => ?_⟩
  obtain ⟨kept, hkept⟩ := hinv.files path hne
  refine ⟨kept, hkept, ?_, fun g _ => (prints_formatSpanJson hc g.span).1.isText⟩
  have hlines : p.1.files path =
      (kept.map fun g => formatSpanJson core g.span).flatMap fun t => t ++ [0x0A] := by
    rw [hkept.lines, List.flatMap_map]
    rfl
  rw [hlines]
  exact Json.splitLines_texts (List.forall_mem_map.2 fun g _ => (prints_formatSpanJson hc g.span).2)

/-- A span goes to one file; the next file cannot be opened for the second span, but for the third. -/
def twoFiles : List DemoAct :=
  [.assignOutputFile (some (cstr "first")), .emit {} (spanWith (.int 1)),
    .assignOutputFile (some (cstr "second")), .emit { opens := false } (spanWith (.int 2)),
    .emit {} (spanWith (.int 3)), .procExit]

def twoFilesState : DemoExporterSt × List Given :=
  twoFiles.foldl (demoExporter coreTexts).next (demoExporter coreTexts).init

theorem reachable_twoFilesState :
    (demoExporter coreTexts).ReachBy (fun _ a => a.Complete) twoFilesState :=
  Machine.ReachBy.run .init ⟨trivial, trivial, trivial, ⟨rfl, rfl⟩, trivial, trivial, trivial,
    ⟨rfl, rfl⟩, trivial, ⟨rfl, rfl⟩, trivial, trivial, trivial⟩

theorem demo_file_records_twoFiles :
    twoFilesState.1.handedOn = [spanWith (.int 1), spanWith (.int 2), spanWith (.int 3)] ∧
    twoFilesState.1.files (cstr "second") = spanLine coreTexts (spanWith (.int 3)) ∧
    ∃ kept, FileHas coreTexts twoFilesState.1 twoFilesState.2 (cstr "second") kept ∧
      Json.splitLines (twoFilesState.1.files (cstr "second")) =
        (kept.map fun g => formatSpanJson coreTexts g.span, []) := by
  obtain ⟨hhanded, -, hfiles⟩ := demo_file_records coreTexts_documented reachable_twoFilesState
  refine ⟨hhanded, by decide +kernel, ?_⟩
  obtain ⟨kept, hkept, hsplit, -⟩ := hfiles (cstr "second") (by decide)
  exact ⟨kept, hkept, hsplit⟩

end Runs

end PostgresOtel
