import Mathlib.Data.List.Nodup
import PostgresOtel.Producer.Sampler

/-!
# Registering emit hooks

`otel_exporter_register_when_ready` of `otel_exporter.h` and the functions of `otel_api.c` that
register what it queued.  The last hook registered is called first and calls the one it was given as
its previous hook.

The pending list, which is linked through the requests, is a list from its head.
-/

set_option autoImplicit false

namespace PostgresOtel

/-! ## The tables -/

/-- `OTEL_MAKE_VERSION`. -/
def otelMakeVersion (major minor : ℕ) : ℕ := major <<< 16 ||| minor % 2 ^ 16

/-- `OTEL_API_MAJOR`. -/
def otelApiMajor (version : ℕ) : ℕ := version >>> 16

/-- The part of a table that its users check. -/
structure OtelApiTable where
  version : ℕ
  structSize : ℕ

/-- `otel_api_table_ok`. -/
def otelApiTableOk (table : OtelApiTable) (wantMajor wantSize : ℕ) : Bool :=
  decide (otelApiMajor table.version = wantMajor) && decide (wantSize ≤ table.structSize)

/-- `OTEL_ROOT_API_MAJOR`. -/
def otelRootApiMajor : ℕ := 3

/-- `OTEL_EXPORTER_API_MAJOR`. -/
def otelExporterApiMajor : ℕ := 1

/-- `sizeof(OtelApi)`. -/
def sizeofOtelApi : ℕ := 32

/-- `sizeof(OtelExporterApi)`. -/
def sizeofOtelExporterApi : ℕ := 24

/-- `OtelApi`, with the exporter table it leads to. -/
structure OtelApi extends OtelApiTable where
  exporter : OtelApiTable

/-- `otel_api_root`. -/
def otelApiRoot : OtelApi where
  version := otelMakeVersion otelRootApiMajor 0
  structSize := sizeofOtelApi
  exporter := ⟨otelMakeVersion otelExporterApiMajor 0, sizeofOtelExporterApi⟩

/-! ## The hooks -/

/-- An `otel_span_emit_hook_type` that is not null. -/
abbrev OtelSpanEmitHook := ℕ

/-- `OtelPendingRegistration`; `emitPrevOut` is the variable the previous hook is saved in. -/
structure OtelPendingRegistration where
  emitHook : Option OtelSpanEmitHook
  emitPrevOut : Option ℕ
  deriving DecidableEq

/-- What `otel_update_recording_possible` reads besides the hook. -/
structure RecordingSettings where
  emitSpansToLog : Bool
  samplerMode : OtelApiSampler

/-- The two rendezvous variables, `otel_span_emit_hook`, the variables of the exporters and
`otel_recording_possible_flag`. -/
structure RegistrationSt where
  rendezvous : Option OtelApi := none
  pending : List OtelPendingRegistration := []
  emitHook : Option OtelSpanEmitHook := none
  saved : ℕ → Option OtelSpanEmitHook := fun _ => none
  recordingPossible : Bool := false

namespace RegistrationSt

variable (settings : RecordingSettings) (s : RegistrationSt)

/-- `otel_update_recording_possible`. -/
def otelUpdateRecordingPossible : RegistrationSt :=
  { s with
    recordingPossible := (s.emitHook.isSome || settings.emitSpansToLog) &&
      decide (settings.samplerMode ≠ .alwaysOff) }

/-- `api_register_emit_hook`. -/
def apiRegisterEmitHook (newHook : OtelSpanEmitHook) (prevOut : Option ℕ) : RegistrationSt :=
  let saved := prevOut.elim s.saved fun out => Function.update s.saved out s.emitHook
  { s with saved := saved, emitHook := some newHook }.otelUpdateRecordingPossible settings

/-- The registration of a request, if it has a hook. -/
def registerRequest (req : OtelPendingRegistration) : RegistrationSt :=
  req.emitHook.elim s fun hook => s.apiRegisterEmitHook settings hook req.emitPrevOut

/-- `otel_exporter_register_when_ready`. -/
def otelExporterRegisterWhenReady (req : OtelPendingRegistration) : RegistrationSt :=
  match s.rendezvous with
  | some api =>
    if otelApiTableOk api.toOtelApiTable otelRootApiMajor sizeofOtelApi &&
        otelApiTableOk api.exporter otelExporterApiMajor sizeofOtelExporterApi then
      s.registerRequest settings req
    else
      s
  | none => { s with pending := req :: s.pending }

/-- `otel_api_publish_rendezvous`. -/
def otelApiPublishRendezvous : RegistrationSt :=
  s.pending.foldl (registerRequest settings) { s with rendezvous := some otelApiRoot, pending := [] }

end RegistrationSt

open RegistrationSt

/-- Some exporters register, `otel_api` is loaded, and the others register. -/
def registerAround (settings : RecordingSettings) (early late : List OtelPendingRegistration) :
    RegistrationSt :=
  let queued := early.foldl (otelExporterRegisterWhenReady settings) {}
  late.foldl (otelExporterRegisterWhenReady settings) (queued.otelApiPublishRendezvous settings)

/-! ## The chain -/

/-- Calling `head` calls the hooks of these requests, each of which has saved the next one. -/
def ChainFrom (saved : ℕ → Option OtelSpanEmitHook) :
    Option OtelSpanEmitHook → List OtelPendingRegistration → Prop
  | head, [] => head = none
  | head, req :: rest => head.isSome = true ∧ req.emitHook = head ∧
      ∃ out, req.emitPrevOut = some out ∧ ChainFrom saved (saved out) rest

/-- The emit chain, from the outermost hook. -/
def RegistrationSt.Emits (s : RegistrationSt) (chain : List OtelPendingRegistration) : Prop :=
  ChainFrom s.saved s.emitHook chain

/-- The requests that have a hook. -/
def exporters (reqs : List OtelPendingRegistration) : List OtelPendingRegistration :=
  reqs.filter fun req => req.emitHook.isSome

/-- Every hook is registered by one request and has a variable of its own for the previous hook. -/
structure DistinctHooks (reqs : List OtelPendingRegistration) : Prop where
  hooks : ((exporters reqs).map OtelPendingRegistration.emitHook).Nodup
  outs : ((exporters reqs).map OtelPendingRegistration.emitPrevOut).Nodup
  saves : ∀ req ∈ exporters reqs, req.emitPrevOut.isSome = true

/-- Every hook is in the chain exactly once, and the chain is the one of `otel_api` loaded first. -/
def RegistersInOrder (settings : RecordingSettings) (early late : List OtelPendingRegistration) :
    Prop :=
  ∃ chain, (registerAround settings early late).Emits chain ∧
    chain.Perm (exporters (early ++ late)) ∧
    (registerAround settings [] (early ++ late)).Emits chain

/-! ## What a registration does -/

section Registering

variable {settings : RecordingSettings} {s : RegistrationSt}

/-- A chain is the same while the variables of its hooks are. -/
theorem ChainFrom.congr {saved saved' : ℕ → Option OtelSpanEmitHook}
    {chain : List OtelPendingRegistration} (hsaved : ∀ req ∈ chain, ∀ out,
      req.emitPrevOut = some out → saved' out = saved out) {head : Option OtelSpanEmitHook}
    (h : ChainFrom saved head chain) : ChainFrom saved' head chain := by
  induction chain generalizing head with
  | nil => exact h
  | cons req rest ih =>
    obtain ⟨hhead, hreq, out, hout, hrest⟩ := h
    refine ⟨hhead, hreq, out, hout, ?_⟩
    rw [hsaved req (by simp) out hout]
    exact ih (fun r hr => hsaved r (by simp [hr])) hrest

/-- A request whose variable is no other hook's goes on the outside of the chain. -/
theorem emits_registerRequest {chain : List OtelPendingRegistration} {req : OtelPendingRegistration}
    (h : s.Emits chain) (hhook : req.emitHook.isSome = true) (hout : req.emitPrevOut.isSome = true)
    (hnew : req.emitPrevOut ∉ chain.map OtelPendingRegistration.emitPrevOut) :
    (s.registerRequest settings req).Emits (req :: chain) := by
  obtain ⟨hook, hhook⟩ := Option.isSome_iff_exists.1 hhook
  obtain ⟨out, hout⟩ := Option.isSome_iff_exists.1 hout
  simp only [registerRequest, apiRegisterEmitHook, otelUpdateRecordingPossible, Emits, hhook, hout,
    Option.elim_some]
  refine ⟨by simp, hhook, out, hout, ?_⟩
  rw [Function.update_self]
  apply ChainFrom.congr _ h
  intro r hr out' hout'
  apply Function.update_of_ne
  rintro rfl
  exact hnew (List.mem_map.2 ⟨r, hr, hout'.trans hout.symm⟩)

/-- A request without a hook does nothing. -/
theorem registerRequest_none {req : OtelPendingRegistration} (h : req.emitHook.isSome ≠ true) :
    s.registerRequest settings req = s := by
  simp [registerRequest, Option.not_isSome_iff_eq_none.1 h]

/-- Requests registered one after another. -/
theorem emits_registerRequests (reqs : List OtelPendingRegistration)
    {chain : List OtelPendingRegistration} (h : s.Emits chain)
    (hsaves : ∀ req ∈ exporters reqs, req.emitPrevOut.isSome = true)
    (houts : ((exporters reqs ++ chain).map OtelPendingRegistration.emitPrevOut).Nodup) :
    (reqs.foldl (registerRequest settings) s).Emits ((exporters reqs).reverse ++ chain) := by
  induction reqs generalizing s chain with
  | nil => exact h
  | cons req rest ih =>
    by_cases hhook : req.emitHook.isSome = true
    · have hcons : exporters (req :: rest) = req :: exporters rest := List.filter_cons_of_pos hhook
      rw [hcons] at hsaves houts ⊢
      have hnot := (List.nodup_cons.1 houts).1
      rw [List.reverse_cons, List.append_assoc]
      apply ih
      · apply emits_registerRequest h hhook (hsaves req (by simp))
        intro hm
        exact hnot (by simpa using Or.inr (by simpa using hm))
      · exact fun r hr => hsaves r (by simp [hr])
      · exact (List.perm_middle.map _).nodup_iff.2 houts
    · have hskip : exporters (req :: rest) = exporters rest := List.filter_cons_of_neg hhook
      rw [hskip] at hsaves houts ⊢
      rw [List.foldl_cons, registerRequest_none hhook]
      exact ih h hsaves houts

theorem registerRequest_rendezvous (req : OtelPendingRegistration) :
    (s.registerRequest settings req).rendezvous = s.rendezvous := by
  unfold registerRequest
  cases req.emitHook <;> simp [apiRegisterEmitHook, otelUpdateRecordingPossible]

/-- Without `otel_api` requests are queued, the last at the head. -/
theorem registers_queued (reqs : List OtelPendingRegistration) (h : s.rendezvous = none) :
    reqs.foldl (otelExporterRegisterWhenReady settings) s =
      { s with pending := reqs.reverse ++ s.pending } := by
  induction reqs generalizing s with
  | nil => rfl
  | cons req rest ih =>
    have hone : s.otelExporterRegisterWhenReady settings req =
        { s with pending := req :: s.pending } := by
      simp [otelExporterRegisterWhenReady, h]
    rw [List.foldl_cons, hone, ih (by exact h)]
    simp

/-- The tables of `otel_api` pass the checks of an exporter built with it. -/
theorem registers_now (reqs : List OtelPendingRegistration)
    (h : s.rendezvous = some otelApiRoot) :
    reqs.foldl (otelExporterRegisterWhenReady settings) s =
      reqs.foldl (registerRequest settings) s := by
  induction reqs generalizing s with
  | nil => rfl
  | cons req rest ih =>
    have hok : (otelApiTableOk otelApiRoot.toOtelApiTable otelRootApiMajor sizeofOtelApi &&
        otelApiTableOk otelApiRoot.exporter otelExporterApiMajor sizeofOtelExporterApi) = true := by
      decide
    have hone : s.otelExporterRegisterWhenReady settings req = s.registerRequest settings req := by
      simp [otelExporterRegisterWhenReady, h, hok]
    rw [List.foldl_cons, List.foldl_cons, hone]
    exact ih ((registerRequest_rendezvous req).trans h)

theorem registerRequests_rendezvous (reqs : List OtelPendingRegistration) :
    (reqs.foldl (registerRequest settings) s).rendezvous = s.rendezvous := by
  induction reqs generalizing s with
  | nil => rfl
  | cons req rest ih => exact ih.trans (registerRequest_rendezvous req)

end Registering

/-! ## The order of the chain -/

section Order

variable {early late reqs : List OtelPendingRegistration}

theorem exporters_append (reqs reqs' : List OtelPendingRegistration) :
    exporters (reqs ++ reqs') = exporters reqs ++ exporters reqs' := List.filter_append _ _

theorem exporters_reverse (reqs : List OtelPendingRegistration) :
    exporters reqs.reverse = (exporters reqs).reverse := List.filter_reverse

/-- Loading `otel_api` registers what was queued, the last first. -/
theorem publish_queued (settings : RecordingSettings) (early : List OtelPendingRegistration) :
    (early.foldl (otelExporterRegisterWhenReady settings) {}).otelApiPublishRendezvous settings =
      early.reverse.foldl (registerRequest settings) { rendezvous := some otelApiRoot } := by
  rw [registers_queued early rfl]
  simp [otelApiPublishRendezvous]

/-- Every hook is in the chain once and has saved the next one: first those that registered with
`otel_api`, from the last, and then those that were queued, from the first. -/
theorem emits_registerAround (settings : RecordingSettings) (early late : List OtelPendingRegistration)
    (h : DistinctHooks (early ++ late)) :
    (registerAround settings early late).Emits ((exporters late).reverse ++ exporters early) := by
  have hsaves := h.saves
  have houts := h.outs
  rw [exporters_append] at hsaves houts
  have hdrained : (early.reverse.foldl (registerRequest settings)
      { rendezvous := some otelApiRoot }).Emits (exporters early) := by
    have hnone : ({ rendezvous := some otelApiRoot } : RegistrationSt).Emits [] := rfl
    have hdrain := @emits_registerRequests settings _ early.reverse [] hnone
    simp only [exporters_reverse, List.reverse_reverse, List.append_nil, List.mem_reverse,
      List.map_reverse, List.nodup_reverse] at hdrain
    apply hdrain
    · exact fun req hreq => hsaves req (List.mem_append_left _ hreq)
    · rw [List.map_append] at houts
      exact (List.nodup_append.1 houts).1
  simp only [registerAround]
  rw [publish_queued, registers_now _ (registerRequests_rendezvous _)]
  apply emits_registerRequests late hdrained
  · exact fun req hreq => hsaves req (List.mem_append_right _ hreq)
  · exact (List.perm_append_comm.map _).nodup_iff.2 houts

/-- A state has one chain of hooks that are registered once. -/
theorem emits_unique {saved : ℕ → Option OtelSpanEmitHook} {head : Option OtelSpanEmitHook}
    {chain chain' : List OtelPendingRegistration}
    (hinj : ∀ r ∈ chain, ∀ r' ∈ chain', r.emitHook = r'.emitHook → r = r')
    (h : ChainFrom saved head chain) (h' : ChainFrom saved head chain') : chain = chain' := by
  induction chain generalizing head chain' with
  | nil =>
    cases chain' with
    | nil => rfl
    | cons r' rest' =>
      obtain ⟨hsome, -⟩ := h'
      simp [show head = none from h] at hsome
  | cons r rest ih =>
    obtain ⟨hsome, hr, out, hout, hrest⟩ := h
    cases chain' with
    | nil => simp [show head = none from h'] at hsome
    | cons r' rest' =>
      obtain ⟨-, hr', out', hout', hrest'⟩ := h'
      obtain rfl : r = r' := hinj r (by simp) r' (by simp) (hr.trans hr'.symm)
      obtain rfl : out = out' := Option.some.inj (hout.symm.trans hout')
      rw [ih (fun x hx y hy => hinj x (by simp [hx]) y (by simp [hy])) hrest hrest']

/-- A list that reads the same from both ends has no two different elements. -/
theorem length_le_one_of_reverse {α : Type} {l : List α} (hnd : l.Nodup) (h : l = l.reverse) :
    l.length ≤ 1 := by
  by_contra hlen
  have hfirst : l[0] = l[l.length - 1] := by
    conv_lhs => rw [List.getElem_of_eq h, List.getElem_reverse]
    simp
  have heq := (hnd.getElem_inj_iff).1 hfirst
  omega

/-- The hooks are called in the order of `otel_api` loaded first exactly if at most one of them was
queued. -/
theorem registersInOrder_iff (settings : RecordingSettings)
    (h : DistinctHooks (early ++ late)) :
    RegistersInOrder settings early late ↔ (exporters early).length ≤ 1 := by
  have hchain := emits_registerAround settings early late h
  have hfirst : (registerAround settings [] (early ++ late)).Emits
      (exporters (early ++ late)).reverse := by
    simpa [exporters] using emits_registerAround settings [] (early ++ late) h
  have hmem : ∀ r ∈ exporters (early ++ late), ∀ r' ∈ exporters (early ++ late),
      r.emitHook = r'.emitHook → r = r' := fun r hr r' hr' => List.inj_on_of_nodup_map h.hooks hr hr'
  have hperm : ((exporters late).reverse ++ exporters early).Perm (exporters (early ++ late)) := by
    rw [exporters_append]
    exact ((exporters late).reverse_perm.append_right _).trans List.perm_append_comm
  constructor
  · rintro ⟨chain, hemits, hall, hemits'⟩
    have hthis : chain = (exporters late).reverse ++ exporters early := by
      apply emits_unique _ hemits hchain
      exact fun r hr r' hr' => hmem r (hall.mem_iff.1 hr) r' (hperm.mem_iff.1 hr')
    have hthat : chain = (exporters (early ++ late)).reverse := by
      apply emits_unique _ hemits' hfirst
      exact fun r hr r' hr' => hmem r (hall.mem_iff.1 hr) r' (List.mem_reverse.1 hr')
    have hsame : exporters early = (exporters early).reverse := by
      rw [hthis, exporters_append, List.reverse_append] at hthat
      exact List.append_cancel_left hthat
    apply length_le_one_of_reverse _ hsame
    have hnd := List.Nodup.of_map _ h.hooks
    rw [exporters_append] at hnd
    exact (List.nodup_append.1 hnd).1
  · intro hlen
    refine ⟨_, hchain, hperm, ?_⟩
    have hsame : (exporters early).reverse = exporters early := by
      cases hearly : exporters early with
      | nil => rfl
      | cons r rest =>
        rw [hearly, List.length_cons] at hlen
        rw [List.length_eq_zero_iff.1 (by omega : rest.length = 0)]
        rfl
    rwa [exporters_append, List.reverse_append, hsame] at hfirst

end Order

/-! ## Two exporters -/

def exporterA : OtelPendingRegistration := ⟨some 1, some 1⟩

def exporterB : OtelPendingRegistration := ⟨some 2, some 2⟩

theorem distinct_exporters : DistinctHooks [exporterA, exporterB] := ⟨by decide, by decide, by decide⟩

theorem registersInOrder_iff_oneQueued :
    RegistersInOrder ⟨false, .alwaysOn⟩ [exporterA] [exporterB] :=
  (registersInOrder_iff ⟨false, .alwaysOn⟩ distinct_exporters).2 (by decide)

/-- Two exporters that are queued end up the other way round: the first is outermost. -/
theorem queued_hooks_reversed :
    (registerAround ⟨false, .alwaysOn⟩ [exporterA, exporterB] []).Emits [exporterA, exporterB] ∧
      (registerAround ⟨false, .alwaysOn⟩ [] [exporterA, exporterB]).Emits [exporterB, exporterA] ∧
      ¬ RegistersInOrder ⟨false, .alwaysOn⟩ [exporterA, exporterB] [] := by
  have hqueued : (registerAround ⟨false, .alwaysOn⟩ [exporterA, exporterB] []).Emits
      [exporterA, exporterB] := ⟨rfl, rfl, 1, rfl, rfl, rfl, 2, rfl, rfl⟩
  have hdirect : (registerAround ⟨false, .alwaysOn⟩ [] [exporterA, exporterB]).Emits
      [exporterB, exporterA] := ⟨rfl, rfl, 2, rfl, rfl, rfl, 1, rfl, rfl⟩
  refine ⟨hqueued, hdirect, ?_⟩
  rintro ⟨chain, hemits, hall, hemits'⟩
  have hinj : ∀ r ∈ exporters [exporterA, exporterB], ∀ r' ∈ exporters [exporterA, exporterB],
      r.emitHook = r'.emitHook → r = r' := by decide
  have hthis : chain = [exporterA, exporterB] := by
    apply emits_unique _ hemits hqueued
    exact fun r hr r' hr' => hinj r (hall.mem_iff.1 hr) r' (by revert r'; decide)
  have hthat : chain = [exporterB, exporterA] := by
    apply emits_unique _ hemits' hdirect
    exact fun r hr r' hr' => hinj r (hall.mem_iff.1 hr) r' (by revert r'; decide)
  exact absurd (hthis.symm.trans hthat) (by decide)

end PostgresOtel
