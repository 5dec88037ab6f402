import Mathlib.Algebra.Notation.Defs
import Mathlib.Data.Int.Notation
import PostgresOtel.Lib.Printf
import PostgresOtel.Lib.TopList
import PostgresOtel.Trace.PlanwalkArray

/-!
# What a query spent its time on

`otel_planpath.c`: one collector that reads the finished nodes of a query in the end walk and folds
what it finds onto the statement's span, the three slowest nodes among it.

Doubles are any linearly ordered type with the operations the code uses on them, so no NaN is among
them.  The name of a node is a pointer: to a literal, or for a kind that is not listed to the one
buffer that every such name is printed into.
-/

set_option autoImplicit false

namespace PostgresOtel

/-! ## Plan nodes at their end -/

/-- What `tuplesort_get_stats` and a worker's record say of a sort. -/
structure TuplesortInstrumentation where
  inProgress : Bool := false
  onDisk : Bool
  spaceUsed : ℤ

structure HashInstrumentation where
  nbatch : ℤ := 0
  spacePeak : ℤ := 0

structure AggregateInstrumentation where
  memPeak : ℤ
  batchesUsed : ℤ
  diskUsed : ℤ

/-- What `tuplestore_get_stats` says. -/
structure TuplestoreStats where
  onDisk : Bool
  maxSpace : ℤ

/-- The kinds that `nodetag_name` lists and that the collector reads no fields of. -/
inductive PlainPlanState
  | seqScan | indexScan | indexOnlyScan | bitmapIndexScan | tidScan | tidRangeScan | subqueryScan
  | functionScan | tableFuncScan | valuesScan | cteScan | namedTuplestoreScan | workTableScan
  | foreignScan | customScan | nestLoop | mergeJoin | hashJoin | memoize | incrementalSort | group
  | unique | setOp | lockRows | limit | append | mergeAppend | recursiveUnion | bitmapAnd | bitmapOr
  | result | projectSet | modifyTable
  deriving DecidableEq

/-- The kind of a node with the fields of its struct that the collector reads.  A kind that is not
listed is its tag. -/
inductive PlanpathKind
  | plain (kind : PlainPlanState)
  | sort (done : Option TuplesortInstrumentation) (workers : List TuplesortInstrumentation)
  | hash (hinstrument : Option HashInstrumentation) (workers : List HashInstrumentation)
  | agg (hashed : Bool) (batchesUsed diskUsed : ℤ) (workers : List AggregateInstrumentation)
  | material (tuplestore : Option TuplestoreStats)
  | windowAgg (buffer : Option TuplestoreStats)
  | gather (numWorkers launched : ℤ)
  | gatherMerge (numWorkers launched : ℤ)
  | bitmapHeapScan (lossyPages : ℤ)
  | unlisted (tag : BitVec 32)

structure BufferUsage where
  sharedBlksRead : ℤ := 0
  sharedBlksHit : ℤ := 0
  sharedBlksDirtied : ℤ := 0

/-- `OtelNodeInstr`, the times in milliseconds. -/
structure OtelNodeInstr (D : Type) where
  nloops : D
  ntuples : D
  startupMs : D
  totalMs : D
  bufusage : BufferUsage := {}

/-- What the collector reads of a `PlanState`. -/
structure PlanpathNode (D : Type) where
  kind : PlanpathKind
  planRows : D
  instrument : Option (OtelNodeInstr D) := none

/-! ## Names of nodes -/

namespace PlainPlanState

def name : PlainPlanState → CString
  | seqScan => cstr "SeqScan"
  | indexScan => cstr "IndexScan"
  | indexOnlyScan => cstr "IndexOnlyScan"
  | bitmapIndexScan => cstr "BitmapIndexScan"
  | tidScan => cstr "TidScan"
  | tidRangeScan => cstr "TidRangeScan"
  | subqueryScan => cstr "SubqueryScan"
  | functionScan => cstr "FunctionScan"
  | tableFuncScan => cstr "TableFuncScan"
  | valuesScan => cstr "ValuesScan"
  | cteScan => cstr "CteScan"
  | namedTuplestoreScan => cstr "NamedTuplestoreScan"
  | workTableScan => cstr "WorkTableScan"
  | foreignScan => cstr "ForeignScan"
  | customScan => cstr "CustomScan"
  | nestLoop => cstr "NestLoop"
  | mergeJoin => cstr "MergeJoin"
  | hashJoin => cstr "HashJoin"
  | memoize => cstr "Memoize"
  | incrementalSort => cstr "IncrementalSort"
  | group => cstr "Group"
  | unique => cstr "Unique"
  | setOp => cstr "SetOp"
  | lockRows => cstr "LockRows"
  | limit => cstr "Limit"
  | append => cstr "Append"
  | mergeAppend => cstr "MergeAppend"
  | recursiveUnion => cstr "RecursiveUnion"
  | bitmapAnd => cstr "BitmapAnd"
  | bitmapOr => cstr "BitmapOr"
  | result => cstr "Result"
  | projectSet => cstr "ProjectSet"
  | modifyTable => cstr "ModifyTable"

end PlainPlanState

/-- A `const char *` that `nodetag_name` returns: to a literal or to its static buffer. -/
inductive NodetagName
  | literal (s : CString)
  | buf
  deriving DecidableEq

/-- `"Node%u"`. -/
def nodeNumberName (tag : BitVec 32) : CString := cstr "Node" ++ Printf.decimal tag.toNat

/-- `nodetag_name`: the name and what is in the buffer then. -/
def nodetagName (kind : PlanpathKind) (buf : CString) : NodetagName × CString :=
  match kind with
  | .plain kind => (.literal kind.name, buf)
  | .sort _ _ => (.literal (cstr "Sort"), buf)
  | .hash _ _ => (.literal (cstr "Hash"), buf)
  | .agg _ _ _ _ => (.literal (cstr "Agg"), buf)
  | .material _ => (.literal (cstr "Material"), buf)
  | .windowAgg _ => (.literal (cstr "WindowAgg"), buf)
  | .gather _ _ => (.literal (cstr "Gather"), buf)
  | .gatherMerge _ _ => (.literal (cstr "GatherMerge"), buf)
  | .bitmapHeapScan _ => (.literal (cstr "BitmapHeapScan"), buf)
  | .unlisted tag => (.buf, nodeNumberName tag)

/-! ## The accumulator -/

section Accum

variable {D : Type}

/-- `N_SLOWEST`. -/
def nSlowest : ℕ := 3

structure SlowNode (D : Type) where
  totalMs : D
  tag : Option NodetagName
  deriving DecidableEq

/-- `accum`, the buffer of `nodetag_name`, and what the collector sent to the statement's span. -/
structure PlanpathSt (D : Type) where
  anySpill : Bool
  spillKb : ℤ
  haveShortfall : Bool
  shortfallPlanned : ℤ
  shortfallLaunched : ℤ
  worstRatio : D
  worstNodeTag : Option NodetagName
  bitmapLossyPages : ℤ
  buffersRead : ℤ
  buffersHit : ℤ
  buffersDirtied : ℤ
  nodeCount : ℕ
  slowest : List (SlowNode D)
  buf : CString
  attrs : List (CString × OtelAttrValue)
  events : List (CString × List OtelAttribute)

/-- `BYTES_TO_KB`. -/
def bytesToKb (b : ℤ) : ℤ := (b + 1023) / 1024

namespace PlanpathSt

variable (s : PlanpathSt D)

/-- Notes a spill. -/
def spill (kb : ℤ) : PlanpathSt D := { s with anySpill := true, spillKb := s.spillKb + kb }

/-- Notes the first gather that got fewer workers than planned. -/
def shortfall (planned launched : ℤ) : PlanpathSt D :=
  if !s.haveShortfall && decide (launched < planned) then
    { s with haveShortfall := true, shortfallPlanned := planned, shortfallLaunched := launched }
  else s

/-- The sort of this process, if it is done, and those of the workers. -/
def sortEnd (done : Option TuplesortInstrumentation) (workers : List TuplesortInstrumentation) :
    PlanpathSt D :=
  workers.foldl (fun s si => if !si.inProgress && si.onDisk then s.spill si.spaceUsed else s)
    (done.elim s fun stats => if stats.onDisk then s.spill stats.spaceUsed else s)

/-- The largest hash table of all participants. -/
def hashEnd (hinstrument : Option HashInstrumentation) (workers : List HashInstrumentation) :
    PlanpathSt D :=
  let hinstr := workers.foldl
    (fun h w => { nbatch := max h.nbatch w.nbatch, spacePeak := max h.spacePeak w.spacePeak })
    (hinstrument.getD {})
  if 1 < hinstr.nbatch then s.spill (bytesToKb hinstr.spacePeak) else s

def aggEnd (hashed : Bool) (batchesUsed diskUsed : ℤ) (workers : List AggregateInstrumentation) :
    PlanpathSt D :=
  if hashed then
    workers.foldl
      (fun s si => if si.memPeak ≠ 0 ∧ 1 < si.batchesUsed then s.spill si.diskUsed else s)
      (if 1 < batchesUsed then s.spill diskUsed else s)
  else s

def tuplestoreEnd (store : Option TuplestoreStats) : PlanpathSt D :=
  store.elim s fun stats => if stats.onDisk then s.spill (bytesToKb stats.maxSpace) else s

/-- The switch of `planpath_node_end`. -/
def kindEnd : PlanpathKind → PlanpathSt D
  | .sort done workers => s.sortEnd done workers
  | .hash hinstrument workers => s.hashEnd hinstrument workers
  | .agg hashed batchesUsed diskUsed workers => s.aggEnd hashed batchesUsed diskUsed workers
  | .material tuplestore => s.tuplestoreEnd tuplestore
  | .windowAgg buffer => s.tuplestoreEnd buffer
  | .gather numWorkers launched => s.shortfall numWorkers launched
  | .gatherMerge numWorkers launched => s.shortfall numWorkers launched
  | .bitmapHeapScan lossyPages => { s with bitmapLossyPages := s.bitmapLossyPages + lossyPages }
  | .plain _ => s
  | .unlisted _ => s

/-- What a pointer to a name points to. -/
def nameAt : NodetagName → CString
  | .literal name => name
  | .buf => s.buf

/-- The slots up to the first without a node. -/
def slowestNodes : List (D × CString) :=
  (s.slowest.takeWhile fun e => e.tag.isSome).filterMap fun e =>
    e.tag.map fun tag => (e.totalMs, s.nameAt tag)

end PlanpathSt

/-- The settings, whether the statement's span records, what core's `InstrEndLoop` makes of an
instrumentation, and how doubles are passed on and printed with `%.0f`. -/
structure PlanpathEnv (D : Type) where
  tracePlanNodeStats : Bool
  tracePlanNodeEvents : Bool
  recording : Bool
  instrEndLoop : OtelNodeInstr D → OtelNodeInstr D
  bits : D → BitVec 64
  whole : D → CString

/-- `planpath_enabled`. -/
def planpathEnabled (env : PlanpathEnv D) : Bool := env.tracePlanNodeStats || env.tracePlanNodeEvents

/-- `"tag:ms,tag:ms,tag:ms"`. -/
def slowestNodesText (env : PlanpathEnv D) (nodes : List (D × CString)) : CString :=
  (cstr ",").intercalate (nodes.map fun e => e.2 ++ cstr ":" ++ env.whole e.1)

variable [LinearOrder D] [Zero D] [One D] [Div D] [NatCast D] (env : PlanpathEnv D)

/-- A slot without a node. -/
def noSlowNode : SlowNode D := { totalMs := 0, tag := none }

/-- `maybe_insert_slowest`. -/
def maybeInsertSlowest (tag : NodetagName) (totalMs : D) (s : PlanpathSt D) : PlanpathSt D :=
  { s with slowest := TopList.insertSlot SlowNode.totalMs noSlowNode ⟨totalMs, some tag⟩ s.slowest }

/-- `planpath_end_walk_begin`. -/
def planpathEndWalkBegin (s : PlanpathSt D) : PlanpathSt D :=
  { s with
    anySpill := false, spillKb := 0
    haveShortfall := false, shortfallPlanned := 0, shortfallLaunched := 0
    worstRatio := 0, worstNodeTag := none
    bitmapLossyPages := 0
    buffersRead := 0, buffersHit := 0, buffersDirtied := 0
    nodeCount := 0
    slowest := List.replicate nSlowest noSlowNode }

/-- The larger of planned and actual rows over the smaller, neither taken as less than one. -/
def misestimateRatio (planRows actualRows : D) : D :=
  let planRows := if planRows < 1 then 1 else planRows
  let actualRows := if actualRows < 1 then 1 else actualRows
  if actualRows < planRows then planRows / actualRows else actualRows / planRows

/-- The event of a node. -/
def planNodeEvent (ni : OtelNodeInstr D) (name : CString) : CString × List OtelAttribute :=
  (cstr "pg.plan.node",
    [⟨cstr "pg.plan.node.type", .string (some name)⟩,
      ⟨cstr "pg.plan.node.actual_startup_ms", .double (env.bits (ni.startupMs / ni.nloops))⟩,
      ⟨cstr "pg.plan.node.actual_total_ms", .double (env.bits (ni.totalMs / ni.nloops))⟩,
      ⟨cstr "pg.plan.node.rows", .double (env.bits (ni.ntuples / ni.nloops))⟩,
      ⟨cstr "pg.plan.node.loops", .double (env.bits ni.nloops)⟩,
      ⟨cstr "pg.plan.node.buffers_read", .int ni.bufusage.sharedBlksRead⟩,
      ⟨cstr "pg.plan.node.buffers_hit", .int ni.bufusage.sharedBlksHit⟩,
      ⟨cstr "pg.plan.node.buffers_dirtied", .int ni.bufusage.sharedBlksDirtied⟩])

/-- What `planpath_node_end` does about the instrumentation of a node that ran. -/
def planpathInstrEnd (tagName : NodetagName) (planRows : D) (ni : OtelNodeInstr D)
    (s : PlanpathSt D) : PlanpathSt D :=
  let s := { s with
    buffersRead := s.buffersRead + ni.bufusage.sharedBlksRead
    buffersHit := s.buffersHit + ni.bufusage.sharedBlksHit
    buffersDirtied := s.buffersDirtied + ni.bufusage.sharedBlksDirtied }
  let s := maybeInsertSlowest tagName (ni.totalMs / ni.nloops) s
  let ratio := misestimateRatio planRows (ni.ntuples / ni.nloops)
  let s := if s.worstRatio < ratio then
      { s with worstRatio := ratio, worstNodeTag := some tagName }
    else s
  if env.tracePlanNodeEvents && env.recording then
    { s with events := s.events ++ [planNodeEvent env ni (s.nameAt tagName)] }
  else s

/-- `planpath_node_end`. -/
def planpathNodeEnd (ps : PlanpathNode D) (s : PlanpathSt D) : PlanpathSt D :=
  let (tagName, buf) := nodetagName ps.kind s.buf
  let s := { s with buf, nodeCount := s.nodeCount + 1 }.kindEnd ps.kind
  match ps.instrument with
  | none => s
  | some ni =>
    let ni := env.instrEndLoop ni
    if 0 < ni.nloops then planpathInstrEnd env tagName ps.planRows ni s else s

/-- The attributes that `planpath_end_walk_end` sets. -/
def planpathAttrs (s : PlanpathSt D) : List (CString × OtelAttrValue) :=
  List.flatten [
    if s.anySpill then
      [(cstr "pg.exec.spilled", .bool true), (cstr "pg.exec.spill_kb", .int s.spillKb)]
    else [],
    if s.haveShortfall then
      [(cstr "pg.parallel.workers_planned", .int s.shortfallPlanned),
        (cstr "pg.parallel.workers_launched", .int s.shortfallLaunched)]
    else [],
    if ((10 : ℕ) : D) < s.worstRatio then
      [(cstr "pg.exec.misestimate", .bool true),
        (cstr "pg.exec.misestimate_ratio", .double (env.bits s.worstRatio)),
        (cstr "pg.exec.misestimate_node", .string (s.worstNodeTag.map s.nameAt))]
    else [],
    if 0 < s.bitmapLossyPages then
      [(cstr "pg.exec.bitmap_lossy_pages", .int s.bitmapLossyPages)]
    else [],
    if 0 < s.buffersRead then [(cstr "pg.exec.buffers_read", .int s.buffersRead)] else [],
    if 0 < s.buffersHit then [(cstr "pg.exec.buffers_hit", .int s.buffersHit)] else [],
    if 0 < s.buffersDirtied then [(cstr "pg.exec.buffers_dirtied", .int s.buffersDirtied)] else [],
    [(cstr "pg.exec.node_count", .int s.nodeCount)],
    if s.slowestNodes = [] then []
    else [(cstr "pg.exec.slowest_nodes", .string (some (slowestNodesText env s.slowestNodes)))]]

/-- `planpath_end_walk_end`. -/
def planpathEndWalkEnd (s : PlanpathSt D) : PlanpathSt D :=
  if env.recording then { s with attrs := s.attrs ++ planpathAttrs env s } else s

/-- `planpath_collector`. -/
def planpathCollector : StateCollector (PlanpathNode D) (PlanpathSt D) where
  enabled := planpathEnabled env
  nodeEnd := some fun ps _ => planpathNodeEnd env ps
  endWalkBegin := some fun _ => planpathEndWalkBegin
  endWalkEnd := some fun _ => planpathEndWalkEnd env

end Accum

/-! ## What a node does to the slots and the buffer -/

section Ranking

variable {D : Type}

/-- The tag of a kind that is not listed. -/
def PlanpathKind.unlistedTag : PlanpathKind → Option (BitVec 32)
  | unlisted tag => some tag
  | _ => none

/-- The pointer that `nodetag_name` returns for a kind. -/
def PlanpathKind.pointer (kind : PlanpathKind) : NodetagName := (nodetagName kind []).1

/-- The name of a kind: what the pointer points to when it is returned. -/
def PlanpathKind.name (kind : PlanpathKind) : CString :=
  match kind.pointer with
  | .literal name => name
  | .buf => (nodetagName kind []).2

theorem nodetagName_eq (kind : PlanpathKind) (buf : CString) :
    nodetagName kind buf = (kind.pointer, kind.unlistedTag.elim buf nodeNumberName) := by
  cases kind <;> rfl

/-- Kinds that are not listed can be told by their names. -/
theorem nodeNumberName_inj {tag tag' : BitVec 32} (h : nodeNumberName tag = nodeNumberName tag') :
    tag = tag' :=
  BitVec.eq_of_toNat_eq (Printf.decimal_inj (List.append_cancel_left h))

/-- Two states with the same slots and the same buffer. -/
def SameNames (s s' : PlanpathSt D) : Prop := s'.slowest = s.slowest ∧ s'.buf = s.buf

theorem sameNames_foldl {β : Type} {f : PlanpathSt D → β → PlanpathSt D}
    (hf : ∀ s x, SameNames s (f s x)) (l : List β) (s : PlanpathSt D) :
    SameNames s (l.foldl f s) := by
  induction l generalizing s with
  | nil => exact ⟨rfl, rfl⟩
  | cons x l ih => exact ⟨(ih (f s x)).1.trans (hf s x).1, (ih (f s x)).2.trans (hf s x).2⟩

theorem sameNames_ite {p : Prop} [Decidable p] {s s₁ s₂ : PlanpathSt D} (h₁ : SameNames s s₁)
    (h₂ : SameNames s s₂) : SameNames s (if p then s₁ else s₂) := by
  split_ifs
  · exact h₁
  · exact h₂

theorem SameNames.refl (s : PlanpathSt D) : SameNames s s := ⟨rfl, rfl⟩

theorem SameNames.trans {s₁ s₂ s₃ : PlanpathSt D} (h : SameNames s₁ s₂) (h' : SameNames s₂ s₃) :
    SameNames s₁ s₃ := ⟨h'.1.trans h.1, h'.2.trans h.2⟩

theorem sameNames_spill (s : PlanpathSt D) (kb : ℤ) : SameNames s (s.spill kb) := ⟨rfl, rfl⟩

theorem sameNames_sortEnd (s : PlanpathSt D) (done : Option TuplesortInstrumentation)
    (workers : List TuplesortInstrumentation) : SameNames s (s.sortEnd done workers) := by
  unfold PlanpathSt.sortEnd
  refine SameNames.trans ?_ (sameNames_foldl (fun s si => ?_) workers _)
  · cases done with
    | none => exact .refl s
    | some stats => exact sameNames_ite (sameNames_spill s _) (.refl s)
  · exact sameNames_ite (sameNames_spill s _) (.refl s)

theorem sameNames_aggEnd (s : PlanpathSt D) (hashed : Bool) (batchesUsed diskUsed : ℤ)
    (workers : List AggregateInstrumentation) :
    SameNames s (s.aggEnd hashed batchesUsed diskUsed workers) := by
  refine sameNames_ite (SameNames.trans ?_ (sameNames_foldl (fun s si => ?_) workers _)) (.refl s)
  · exact sameNames_ite (sameNames_spill s _) (.refl s)
  · exact sameNames_ite (sameNames_spill s _) (.refl s)

theorem sameNames_tuplestoreEnd (s : PlanpathSt D) (store : Option TuplestoreStats) :
    SameNames s (s.tuplestoreEnd store) := by
  cases store with
  | none => exact .refl s
  | some stats => exact sameNames_ite (sameNames_spill s _) (.refl s)

theorem sameNames_shortfall (s : PlanpathSt D) (planned launched : ℤ) :
    SameNames s (s.shortfall planned launched) :=
  sameNames_ite ⟨rfl, rfl⟩ (.refl s)

/-- What is specific to a kind concerns neither. -/
theorem sameNames_kindEnd (s : PlanpathSt D) (kind : PlanpathKind) : SameNames s (s.kindEnd kind) := by
  cases kind with
  | sort done workers => exact sameNames_sortEnd s done workers
  | hash hinstrument workers => exact sameNames_ite (sameNames_spill s _) (.refl s)
  | agg hashed batchesUsed diskUsed workers => exact sameNames_aggEnd s hashed _ _ workers
  | material store | windowAgg store => exact sameNames_tuplestoreEnd s store
  | gather numWorkers launched | gatherMerge numWorkers launched =>
    exact sameNames_shortfall s numWorkers launched
  | bitmapHeapScan _ | plain _ | unlisted _ => exact ⟨rfl, rfl⟩


/-- The names that the pointers in the slots point to at the end. -/
def nameAtEnd (nodes : List (PlanpathNode D)) (buf : CString) (kind : PlanpathKind) : CString :=
  match kind.pointer with
  | .literal name => name
  | .buf => (nodes.filterMap fun n => n.kind.unlistedTag).getLast?.elim buf nodeNumberName

/-- At the end, a pointer gives the name of its kind unless the buffer has been overwritten. -/
theorem nameAtEnd_eq_iff {nodes : List (PlanpathNode D)} {kind : PlanpathKind}
    (h : ∃ n ∈ nodes, n.kind = kind) (buf : CString) :
    nameAtEnd nodes buf kind = kind.name ↔ ∀ tag, kind.unlistedTag = some tag →
      (nodes.filterMap fun n => n.kind.unlistedTag).getLast? = some tag := by
  cases kind with
  | unlisted tag =>
    obtain ⟨n, hn, hkind⟩ := h
    have hmem : tag ∈ nodes.filterMap fun n => n.kind.unlistedTag :=
      List.mem_filterMap.2 ⟨n, hn, by rw [hkind]; rfl⟩
    cases hlast : (nodes.filterMap fun n => n.kind.unlistedTag).getLast? with
    | none =>
      rw [List.getLast?_eq_none_iff.1 hlast] at hmem
      exact absurd hmem List.not_mem_nil
    | some last =>
      have hname : nameAtEnd nodes buf (.unlisted tag) = nodeNumberName last := by
        show (nodes.filterMap fun n => n.kind.unlistedTag).getLast?.elim buf nodeNumberName = _
        rw [hlast]
        rfl
      have hown : PlanpathKind.name (.unlisted tag) = nodeNumberName tag := rfl
      rw [hname, hown]
      constructor
      · intro heq tag' htag'
        obtain rfl : tag = tag' := Option.some.inj htag'
        exact congrArg some (nodeNumberName_inj heq)
      · intro hall
        rw [Option.some.inj (hall tag rfl)]
  | _ =>
    constructor
    · intro _ tag htag
      cases htag
    · intro _
      rfl

variable [LinearOrder D] [Zero D] [One D] [Div D] {env : PlanpathEnv D}

/-- The time of a node that ran, per loop. -/
def PlanpathNode.perLoop (env : PlanpathEnv D) (n : PlanpathNode D) : Option D :=
  (n.instrument.map env.instrEndLoop).bind fun ni =>
    if 0 < ni.nloops then some (ni.totalMs / ni.nloops) else none

/-- The nodes that ran, in the order of the walk, with their times. -/
def ranNodes (env : PlanpathEnv D) (nodes : List (PlanpathNode D)) : List (D × PlanpathKind) :=
  nodes.filterMap fun n => (n.perLoop env).map fun t => (t, n.kind)

/-- The slot of a node. -/
def slotOf (c : D × PlanpathKind) : SlowNode D := { totalMs := c.1, tag := some c.2.pointer }

variable (env) in
theorem sameNames_instrEnd (tagName : NodetagName) (planRows : D) (ni : OtelNodeInstr D)
    (s : PlanpathSt D) : (planpathInstrEnd env tagName planRows ni s).slowest =
        TopList.insertSlot SlowNode.totalMs noSlowNode ⟨ni.totalMs / ni.nloops, some tagName⟩ s.slowest ∧
      (planpathInstrEnd env tagName planRows ni s).buf = s.buf := by
  unfold planpathInstrEnd
  extract_lets s₁ s₂ ratio s₃
  have hevent : SameNames s₂ s₃ := sameNames_ite ⟨rfl, rfl⟩ (.refl s₂)
  split_ifs
  · exact ⟨hevent.1, hevent.2⟩
  · exact ⟨hevent.1, hevent.2⟩

/-- A node that ran is put among the slowest; one that is not listed changes the buffer. -/
theorem planpathNodeEnd_names (n : PlanpathNode D) (s : PlanpathSt D) :
    (planpathNodeEnd env n s).slowest = (n.perLoop env).elim s.slowest (fun t =>
        TopList.insertSlot SlowNode.totalMs noSlowNode (slotOf (t, n.kind)) s.slowest) ∧
      (planpathNodeEnd env n s).buf = n.kind.unlistedTag.elim s.buf nodeNumberName := by
  obtain ⟨hslots₁, hbuf₁⟩ := sameNames_kindEnd
    { s with buf := n.kind.unlistedTag.elim s.buf nodeNumberName, nodeCount := s.nodeCount + 1 } n.kind
  rw [planpathNodeEnd, nodetagName_eq]
  cases hni : n.instrument with
  | none => simpa [PlanpathNode.perLoop, hni] using And.intro hslots₁ hbuf₁
  | some ni =>
    by_cases hran : 0 < (env.instrEndLoop ni).nloops
    · obtain ⟨hslots, hbuf⟩ := sameNames_instrEnd env n.kind.pointer n.planRows
        (env.instrEndLoop ni) ({ s with
          buf := n.kind.unlistedTag.elim s.buf nodeNumberName, nodeCount := s.nodeCount + 1 }.kindEnd
          n.kind)
      simp only [PlanpathNode.perLoop, hni, Option.map_some, Option.bind_some, if_pos hran,
        Option.elim_some, slotOf]
      exact ⟨hslots.trans (by rw [hslots₁]), hbuf.trans hbuf₁⟩
    · simpa [PlanpathNode.perLoop, hni, hran] using And.intro hslots₁ hbuf₁

theorem foldl_nodeEnd_slowest (nodes : List (PlanpathNode D)) (s : PlanpathSt D) :
    (nodes.foldl (fun s n => planpathNodeEnd env n s) s).slowest =
      ((ranNodes env nodes).map slotOf).foldl
        (fun slots e => TopList.insertSlot SlowNode.totalMs noSlowNode e slots) s.slowest := by
  induction nodes generalizing s with
  | nil => rfl
  | cons n nodes ih =>
    rw [List.foldl_cons, ih, (planpathNodeEnd_names n s).1]
    cases hn : n.perLoop env <;> simp [ranNodes, hn]

variable (env) in
/-- The buffer holds the name of the last node that is not listed. -/
theorem foldl_nodeEnd_buf (nodes : List (PlanpathNode D)) (s : PlanpathSt D) :
    (nodes.foldl (fun s n => planpathNodeEnd env n s) s).buf =
      (nodes.filterMap fun n => n.kind.unlistedTag).getLast?.elim s.buf nodeNumberName := by
  induction nodes using List.reverseRecOn with
  | nil => rfl
  | append_singleton nodes n ih =>
    rw [List.foldl_append, List.foldl_cons, List.foldl_nil, (planpathNodeEnd_names n _).2, ih,
      List.filterMap_append]
    cases hn : n.kind.unlistedTag <;> simp [hn]

/-! ## The walk -/

/-- The slowest of the nodes that ran, each with its place among them. -/
def slowestOf (env : PlanpathEnv D) (nodes : List (PlanpathNode D)) :
    List ((D × PlanpathKind) × ℕ) :=
  TopList.topPlaces Prod.fst nSlowest 0 (ranNodes env nodes)

omit [One D] in
theorem kind_of_slowest {nodes : List (PlanpathNode D)} {p : (D × PlanpathKind) × ℕ}
    (hp : p ∈ slowestOf env nodes) : ∃ n ∈ nodes, n.kind = p.1.2 := by
  have hran := ((TopList.isTop_topPlaces nSlowest 0 (ranNodes env nodes)).mem p hp).1
  obtain ⟨n, hn, hkind⟩ := List.mem_filterMap.1 (List.mem_of_getElem? hran)
  obtain ⟨t, -, hpair⟩ := Option.map_eq_some_iff.1 hkind
  exact ⟨n, hn, congrArg Prod.snd hpair⟩

variable (env) in
/-- The slots after the nodes of a query. -/
theorem slowest_slots (nodes : List (PlanpathNode D)) (s : PlanpathSt D) :
    ∃ free, (nodes.foldl (fun s n => planpathNodeEnd env n s) (planpathEndWalkBegin s)).slowest =
      ((slowestOf env nodes).map fun p => slotOf p.1) ++ List.replicate free noSlowNode := by
  have htop : TopList.top SlowNode.totalMs nSlowest 0 ((ranNodes env nodes).map slotOf) =
      (slowestOf env nodes).map fun p => slotOf p.1 := by
    rw [TopList.top_map Prod.fst slotOf (fun _ => rfl), slowestOf, ← TopList.topPlaces_map_fst,
      List.map_map]
    rfl
  have hfold := TopList.foldl_insertSlot SlowNode.totalMs noSlowNode nSlowest
    ((ranNodes env nodes).map slotOf)
  rw [foldl_nodeEnd_slowest, ← htop]
  exact ⟨_, hfold⟩

variable [NatCast D]

/-- The state after the end walk of a query. -/
def planpathEndWalk (env : PlanpathEnv D) (stack : PlanwalkInternalCtx (PlanpathNode D))
    (plan : RoseTree (PlanpathNode D)) (stmtSpan : OtelSpanRef) (s : PlanpathSt D) : PlanpathSt D :=
  ((otelPlanwalkExecutorEnd (planpathCollector env).alone stack (some plan) stmtSpan).run s).2

theorem planpathEndWalk_eq (henabled : planpathEnabled env = true)
    (stack : PlanwalkInternalCtx (PlanpathNode D)) (plan : RoseTree (PlanpathNode D))
    (stmtSpan : OtelSpanRef) (s : PlanpathSt D) :
    planpathEndWalk env stack plan stmtSpan s = planpathEndWalkEnd env
      (plan.labels.foldl (fun s n => planpathNodeEnd env n s) (planpathEndWalkBegin s)) := by
  have hwalk := executorEnd_alone (planpathCollector env) stack plan stmtSpan s henabled
  rw [planpathEndWalk, hwalk, ← planwalkVisits_map_snd, List.foldl_map]
  rfl

omit [Zero D] [One D] [Div D] in
theorem sameNames_endWalkEnd (env : PlanpathEnv D) (s : PlanpathSt D) :
    SameNames s (planpathEndWalkEnd env s) :=
  sameNames_ite ⟨rfl, rfl⟩ (.refl s)

/-- The times of the slowest nodes are right, whatever the names are. -/
theorem slowestNodes_endWalk (henabled : planpathEnabled env = true)
    (stack : PlanwalkInternalCtx (PlanpathNode D)) (plan : RoseTree (PlanpathNode D))
    (stmtSpan : OtelSpanRef) (s : PlanpathSt D) :
    (planpathEndWalk env stack plan stmtSpan s).slowestNodes =
      (slowestOf env plan.labels).map fun p => (p.1.1, nameAtEnd plan.labels s.buf p.1.2) := by
  obtain ⟨free, hslots⟩ := slowest_slots env plan.labels s
  have hbuf := foldl_nodeEnd_buf env plan.labels (planpathEndWalkBegin s)
  obtain ⟨hslots', hbuf'⟩ := sameNames_endWalkEnd env
    (plan.labels.foldl (fun s n => planpathNodeEnd env n s) (planpathEndWalkBegin s))
  rw [planpathEndWalk_eq henabled, PlanpathSt.slowestNodes, hslots', hslots,
    List.takeWhile_append_of_pos]
  · have hfree : (List.replicate free noSlowNode).takeWhile
        (fun e : SlowNode D => e.tag.isSome) = [] := by
      cases free with
      | zero => rfl
      | succ free => simp [List.replicate_succ, noSlowNode]
    rw [hfree, List.append_nil, List.filterMap_map, ← List.filterMap_eq_map]
    refine List.filterMap_congr fun p _ => ?_
    simp only [Function.comp_apply, slotOf, Option.map_some, Option.some.injEq, Prod.mk.injEq,
      true_and]
    unfold nameAtEnd
    cases p.1.2.pointer with
    | literal name => rfl
    | buf => exact hbuf'.trans hbuf
  · intro e he
    obtain ⟨p, -, rfl⟩ := List.mem_map.1 he
    rfl

/-- The list holds the slowest nodes, with their times and the names of their kinds. -/
structure SlowestRanked (env : PlanpathEnv D) (nodes : List (PlanpathNode D))
    (listed : List (D × CString)) : Prop where
  isTop : TopList.IsTop Prod.fst nSlowest 0 (ranNodes env nodes) (slowestOf env nodes)
  listed : listed = (slowestOf env nodes).map fun p => (p.1.1, p.1.2.name)

/-- The ranking is right if and only if every node in it whose kind is not listed is of the same kind
as the last such node of the walk. -/
theorem slowest_ranked_iff (henabled : planpathEnabled env = true)
    (stack : PlanwalkInternalCtx (PlanpathNode D)) (plan : RoseTree (PlanpathNode D))
    (stmtSpan : OtelSpanRef) (s : PlanpathSt D) :
    SlowestRanked env plan.labels (planpathEndWalk env stack plan stmtSpan s).slowestNodes ↔
      ∀ p ∈ slowestOf env plan.labels, ∀ tag, p.1.2.unlistedTag = some tag →
        (plan.labels.filterMap fun n => n.kind.unlistedTag).getLast? = some tag := by
  have hnames : (planpathEndWalk env stack plan stmtSpan s).slowestNodes =
        ((slowestOf env plan.labels).map fun p => (p.1.1, p.1.2.name)) ↔
      ∀ p ∈ slowestOf env plan.labels, nameAtEnd plan.labels s.buf p.1.2 = p.1.2.name := by
    rw [slowestNodes_endWalk henabled, List.map_inj_left]
    simp
  constructor
  · intro h p hp
    exact (nameAtEnd_eq_iff (kind_of_slowest hp) s.buf).1 (hnames.1 h.listed p hp)
  · intro h
    refine ⟨TopList.isTop_topPlaces nSlowest 0 _, hnames.2 fun p hp => ?_⟩
    exact (nameAtEnd_eq_iff (kind_of_slowest hp) s.buf).2 (h p hp)

/-- A plan of a server on which one kind of nodes is not listed: of the executor's nodes that is
`SampleScanState`, whose tag depends on the server. -/
def ServerPlan (sampleScan : BitVec 32) (plan : RoseTree (PlanpathNode D)) : Prop :=
  ∀ n ∈ plan.labels, ∀ tag, n.kind.unlistedTag = some tag → tag = sampleScan

omit [LinearOrder D] [Zero D] [One D] [Div D] [NatCast D] in
/-- Whichever of its nodes was printed last, the buffer holds the name of them all. -/
theorem ServerPlan.getLast?_unlisted {sampleScan tag : BitVec 32} {plan : RoseTree (PlanpathNode D)}
    (h : ServerPlan sampleScan plan) {n : PlanpathNode D} (hn : n ∈ plan.labels)
    (htag : n.kind.unlistedTag = some tag) :
    (plan.labels.filterMap fun n => n.kind.unlistedTag).getLast? = some tag := by
  have hmem : tag ∈ plan.labels.filterMap fun n => n.kind.unlistedTag :=
    List.mem_filterMap.2 ⟨n, hn, htag⟩
  have hne := List.ne_nil_of_mem hmem
  rw [List.getLast?_eq_some_getLast hne, Option.some.injEq, h n hn tag htag]
  obtain ⟨m, hm, hlast⟩ := List.mem_filterMap.1 (List.getLast_mem hne)
  exact h m hm _ hlast

/-- After the end walk of any plan of such a server, the list holds the slowest nodes in their order,
each with its time per loop and the name of its kind, listed or not. -/
theorem slowest_ranked (henabled : planpathEnabled env = true) {sampleScan : BitVec 32}
    (stack : PlanwalkInternalCtx (PlanpathNode D)) (plan : RoseTree (PlanpathNode D))
    (hplan : ServerPlan sampleScan plan) (stmtSpan : OtelSpanRef) (s : PlanpathSt D) :
    SlowestRanked env plan.labels (planpathEndWalk env stack plan stmtSpan s).slowestNodes := by
  apply (slowest_ranked_iff henabled stack plan stmtSpan s).2
  intro p hp tag htag
  obtain ⟨n, hn, hkind⟩ := kind_of_slowest hp
  rw [← hkind] at htag
  exact hplan.getLast?_unlisted hn htag

end Ranking

/-! ## A plan with sample scans -/

/-- A node that ran once for some milliseconds. -/
def ranFor (kind : PlanpathKind) (ms : ℕ) (children : List (RoseTree (PlanpathNode ℕ))) :
    RoseTree (PlanpathNode ℕ) :=
  .node { kind, planRows := 1, instrument := some ⟨1, 1, 0, ms, {}⟩ } children

/-- The settings of a session that keeps node statistics; its loops have ended. -/
def statsOnly : PlanpathEnv ℕ where
  tracePlanNodeStats := true
  tracePlanNodeEvents := false
  recording := true
  instrEndLoop := id
  bits := BitVec.ofNat 64
  whole := Printf.decimal

/-- A state before the walk. -/
def planpathIdle : PlanpathSt ℕ where
  anySpill := false
  spillKb := 0
  haveShortfall := false
  shortfallPlanned := 0
  shortfallLaunched := 0
  worstRatio := 0
  worstNodeTag := none
  bitmapLossyPages := 0
  buffersRead := 0
  buffersHit := 0
  buffersDirtied := 0
  nodeCount := 0
  slowest := []
  buf := []
  attrs := []
  events := []

/-- The context of a walk before it starts. -/
def planwalkStack : PlanwalkInternalCtx (PlanpathNode ℕ) where
  stmtSpan := ⟨0⟩
  nAncestors := 0
  enabledMask := 0
  isEndWalk := false
  ancestors := Vector.replicate _ { kind := .plain .result, planRows := 0 }
  depth := 0

/-- Two sample scans below a join, one of them as slow as the join, and a scan that is faster. -/
def sampledJoin : RoseTree (PlanpathNode ℕ) :=
  ranFor (.plain .limit) 5
    [ranFor (.plain .nestLoop) 9 [ranFor (.unlisted 391) 9 [], ranFor (.unlisted 391) 2 []],
      ranFor (.plain .seqScan) 3 []]

theorem slowest_ranked_sampleScan :
    SlowestRanked statsOnly sampledJoin.labels
      (planpathEndWalk statsOnly planwalkStack sampledJoin ⟨1⟩ planpathIdle).slowestNodes ∧
    (planpathEndWalk statsOnly planwalkStack sampledJoin ⟨1⟩ planpathIdle).slowestNodes =
      [(9, cstr "NestLoop"), (9, cstr "Node391"), (5, cstr "Limit")] := by
  have hplan : ServerPlan 391 sampledJoin := by
    intro n hn tag htag
    have hall : ∀ m ∈ sampledJoin.labels, m.kind.unlistedTag = none ∨ m.kind.unlistedTag = some 391 := by
      simp [sampledJoin, ranFor, PlanpathKind.unlistedTag]
    rcases hall n hn with hnone | hsome
    · rw [hnone] at htag
      cases htag
    · rw [hsome] at htag
      exact (Option.some.inj htag).symm
  exact ⟨slowest_ranked rfl planwalkStack sampledJoin hplan ⟨1⟩ planpathIdle, by decide +kernel⟩

end PostgresOtel
