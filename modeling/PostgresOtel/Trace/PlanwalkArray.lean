import PostgresOtel.Lib.RoseTree
import PostgresOtel.Trace.Planwalk

/-!
# The walk and its array of ancestors

`otel_planwalk.c` as it stands: a registry of at most eight collectors, a mask of those that are
enabled, and a walker that keeps the nodes above the current one in an array of fixed size.  The
array starts as whatever was on the C stack, siblings overwrite each other's entries, and a write
behind its end would be a fault.

The collectors are programs of any monad, so that they may keep state and raise errors,
and a node is whatever they see of a `PlanState`.  `planwalkNode_eq` says what the walk of any subtree
calls and what it leaves in the array, and `plan_walks_cover` what the walks of a query show: each node
once in pre-order, with the path to it.
-/

set_option autoImplicit false

namespace PostgresOtel

/-- What a callback gets of `OtelPlanwalkContext`: the statement's span and the ancestors it may read,
root first. -/
structure OtelPlanwalkContext (α : Type) where
  stmtSpan : OtelSpanRef
  ancestors : List α

/-- Any callback may be `NULL`. -/
structure OtelPlanwalkCollector (α : Type) (m : Type → Type) where
  enabled : m Bool
  nodeBegin : Option (α → OtelPlanwalkContext α → m Unit) := none
  nodeEnd : Option (α → OtelPlanwalkContext α → m Unit) := none
  endWalkBegin : Option (OtelSpanRef → m Unit) := none
  endWalkEnd : Option (OtelSpanRef → m Unit) := none

/-- `OTEL_PLANWALK_MAX_COLLECTORS`. -/
def otelPlanwalkMaxCollectors : ℕ := 8

/-- The registered collectors. -/
structure PlanwalkRegistry (α : Type) (m : Type → Type) where
  collectors : List (OtelPlanwalkCollector α m) := []
  room : collectors.length ≤ otelPlanwalkMaxCollectors := by simp [otelPlanwalkMaxCollectors]

/-- `otel_planwalk_register_collector`. -/
def otelPlanwalkRegisterCollector {α : Type} {m : Type → Type} (r : PlanwalkRegistry α m)
    (c : OtelPlanwalkCollector α m) : Except String (PlanwalkRegistry α m) :=
  if h : otelPlanwalkMaxCollectors ≤ r.collectors.length then
    .error "otel_planwalk: collector registry full (max 8)"
  else .ok { collectors := r.collectors ++ [c], room := by simp; omega }

/-- `COLLECTOR_ENABLED_MASK`. -/
def collectorEnabledMask (i : ℕ) : BitVec 32 := 1#32 <<< i

/-- The state of a walk.  `depth` may exceed the array. -/
structure PlanwalkInternalCtx (α : Type) where
  stmtSpan : OtelSpanRef
  nAncestors : ℕ
  enabledMask : BitVec 32
  isEndWalk : Bool
  ancestors : Vector α otelPlanwalkMaxAncestors
  depth : ℕ

/-- A write behind the end of the array. -/
structure OutOfArray where
  index : ℕ

namespace PlanwalkInternalCtx

variable {α : Type}

/-- `ictx->pub`, whose ancestors point into the array. -/
def pub (ictx : PlanwalkInternalCtx α) : OtelPlanwalkContext α :=
  { stmtSpan := ictx.stmtSpan, ancestors := ictx.ancestors.toList.take ictx.nAncestors }

/-- `ictx->ancestors[ictx->depth] = planstate`. -/
def setAncestor {m : Type → Type} [Monad m] (ictx : PlanwalkInternalCtx α) (ps : α) :
    ExceptT OutOfArray m (PlanwalkInternalCtx α) :=
  if h : ictx.depth < otelPlanwalkMaxAncestors then
    pure { ictx with ancestors := ictx.ancestors.set ictx.depth ps h }
  else throw ⟨ictx.depth⟩

/-- The walker writes the entry only where the array has room for it. -/
def recordAncestor {m : Type → Type} [Monad m] (ictx : PlanwalkInternalCtx α) (ps : α) :
    ExceptT OutOfArray m (PlanwalkInternalCtx α) :=
  if ictx.depth < otelPlanwalkMaxAncestors then ictx.setAncestor ps else pure ictx

end PlanwalkInternalCtx

section Walker

variable {α : Type} {m : Type → Type} [Monad m]

/-- Calls a callback unless it is `NULL`. -/
def callUnlessNull {β : Type} (callback : Option (β → m Unit)) (x : β) : m Unit :=
  match callback with
  | some f => f x
  | none => pure ()

/-- The call for a node in one walk or the other. -/
def OtelPlanwalkCollector.visit (c : OtelPlanwalkCollector α m) (isEndWalk : Bool)
    (ctx : OtelPlanwalkContext α) (ps : α) : m Unit :=
  if isEndWalk then callUnlessNull (c.nodeEnd.map fun f => (f · ctx)) ps
  else callUnlessNull (c.nodeBegin.map fun f => (f · ctx)) ps

/-- `build_enabled_mask` from collector `i` on. -/
def buildEnabledMask (mask : BitVec 32) (i : ℕ) : List (OtelPlanwalkCollector α m) → m (BitVec 32)
  | [] => pure mask
  | c :: cs => do
    if ← c.enabled then buildEnabledMask (mask ||| collectorEnabledMask i) (i + 1) cs
    else buildEnabledMask mask (i + 1) cs

/-- A loop over the collectors of the mask, from collector `i` on. -/
def forEnabled (mask : BitVec 32) (call : OtelPlanwalkCollector α m → m Unit) (i : ℕ) :
    List (OtelPlanwalkCollector α m) → m Unit
  | [] => pure ()
  | c :: cs => do
    if mask &&& collectorEnabledMask i ≠ 0 then call c
    forEnabled mask call (i + 1) cs

mutual

/-- `otel_planwalk_walker` at a node. -/
def planwalkNode (cs : List (OtelPlanwalkCollector α m)) :
    RoseTree α → PlanwalkInternalCtx α → ExceptT OutOfArray m (Bool × PlanwalkInternalCtx α)
  | .node ps children, ictx => do
    let ictx := { ictx with nAncestors := min ictx.depth otelPlanwalkMaxAncestors }
    ExceptT.lift (forEnabled ictx.enabledMask (fun c => c.visit ictx.isEndWalk ictx.pub ps) 0 cs)
    let ictx ← ictx.recordAncestor ps
    let (result, ictx) ← planstateTreeWalker cs children { ictx with depth := ictx.depth + 1 }
    pure (result, { ictx with depth := ictx.depth - 1 })

/-- `planstate_tree_walker`: once for each child, until one returns true. -/
def planstateTreeWalker (cs : List (OtelPlanwalkCollector α m)) :
    List (RoseTree α) → PlanwalkInternalCtx α →
      ExceptT OutOfArray m (Bool × PlanwalkInternalCtx α)
  | [], ictx => pure (false, ictx)
  | child :: children, ictx => do
    let (stop, ictx) ← planwalkNode cs child ictx
    if stop then pure (true, ictx) else planstateTreeWalker cs children ictx

end

/-- `otel_planwalk_walker`. -/
def otelPlanwalkWalker (cs : List (OtelPlanwalkCollector α m)) (planstate : Option (RoseTree α))
    (ictx : PlanwalkInternalCtx α) : ExceptT OutOfArray m (Bool × PlanwalkInternalCtx α) :=
  match planstate with
  | none => pure (false, ictx)
  | some ps => planwalkNode cs ps ictx

/-- `otel_planwalk_executor_start`; `stack` is what the context starts as. -/
def otelPlanwalkExecutorStart (r : PlanwalkRegistry α m) (stack : PlanwalkInternalCtx α)
    (planstate : Option (RoseTree α)) (stmtSpan : OtelSpanRef) : ExceptT OutOfArray m Unit :=
  match planstate with
  | none => pure ()
  | some ps => do
    let mask ← ExceptT.lift (buildEnabledMask 0 0 r.collectors)
    if mask = 0 then
      return
    let ictx := { stack with stmtSpan, enabledMask := mask, isEndWalk := false, depth := 0 }
    let _ ← otelPlanwalkWalker r.collectors ps ictx

/-- `otel_planwalk_executor_end`. -/
def otelPlanwalkExecutorEnd (r : PlanwalkRegistry α m) (stack : PlanwalkInternalCtx α)
    (planstate : Option (RoseTree α)) (stmtSpan : OtelSpanRef) : ExceptT OutOfArray m Unit :=
  match planstate with
  | none => pure ()
  | some ps => do
    let mask ← ExceptT.lift (buildEnabledMask 0 0 r.collectors)
    if mask = 0 then
      return
    let ictx := { stack with stmtSpan, enabledMask := mask, isEndWalk := true, depth := 0 }
    ExceptT.lift (forEnabled mask (fun c => callUnlessNull c.endWalkBegin stmtSpan) 0 r.collectors)
    let _ ← otelPlanwalkWalker r.collectors ps ictx
    ExceptT.lift (forEnabled mask (fun c => callUnlessNull c.endWalkEnd stmtSpan) 0 r.collectors)

end Walker

/-! ## The mask -/

section Mask

variable {α : Type} {m : Type → Type} [Monad m] {cs : List (OtelPlanwalkCollector α m)} {mask : BitVec 32}
  {flags : List Bool} {i : ℕ}

/-- The mask of the answers that the collectors gave, from collector `i` on. -/
def maskFrom (i : ℕ) : List Bool → BitVec 32
  | [] => 0
  | flag :: flags => (if flag then collectorEnabledMask i else 0) ||| maskFrom (i + 1) flags

/-- The collectors that answered that they are enabled. -/
def enabledOnes (cs : List (OtelPlanwalkCollector α m)) (flags : List Bool) :
    List (OtelPlanwalkCollector α m) :=
  ((cs.zip flags).filter Prod.snd).map Prod.fst

theorem and_collectorEnabledMask (hi : i < 32) :
    mask &&& collectorEnabledMask i ≠ 0 ↔ mask.getLsbD i = true := by
  have htwo : BitVec.twoPow 32 i ≠ 0#32 := by
    intro h
    have hbit := congrArg (BitVec.getLsbD · i) h
    simp [hi] at hbit
  rw [collectorEnabledMask, ← BitVec.twoPow_eq, BitVec.and_twoPow]
  split_ifs with hbit
  · simp [hbit, htwo]
  · simp [hbit]

theorem getLsbD_maskFrom {j : ℕ} (hj : j < 32) :
    (maskFrom i flags).getLsbD j = (decide (i ≤ j) && flags.getD (j - i) false) := by
  induction flags generalizing i with
  | nil => simp [maskFrom]
  | cons flag flags ih =>
    have hhere : (if flag then collectorEnabledMask i else 0).getLsbD j =
        (flag && decide (i = j)) := by
      cases flag <;> simp [collectorEnabledMask, ← BitVec.twoPow_eq, BitVec.getLsbD_twoPow]
      omega
    rw [maskFrom, BitVec.getLsbD_or, hhere, ih]
    rcases Nat.lt_trichotomy i j with hlt | rfl | hgt
    · obtain ⟨k, rfl⟩ := Nat.exists_eq_add_of_lt hlt
      have hsub : i + k + 1 - i = k + 1 := by omega
      have hsub' : i + k + 1 - (i + 1) = k := by omega
      have h₁ : i ≤ i + k + 1 := by omega
      have h₂ : i + 1 ≤ i + k + 1 := by omega
      have h₃ : i ≠ i + k + 1 := by omega
      rw [decide_eq_true h₁, decide_eq_true h₂, decide_eq_false h₃, hsub, hsub']
      simp
    · simp
    · have h₁ : ¬ i ≤ j := by omega
      have h₂ : ¬ i + 1 ≤ j := by omega
      have h₃ : i ≠ j := by omega
      simp [h₁, h₂, h₃]

theorem buildEnabledMask_eq [LawfulMonad m] :
    buildEnabledMask mask i cs =
      cs.mapM OtelPlanwalkCollector.enabled >>= fun flags => pure (mask ||| maskFrom i flags) := by
  induction cs generalizing mask i with
  | nil => simp [buildEnabledMask, maskFrom]
  | cons c cs ih =>
    simp only [buildEnabledMask, ih, List.mapM_cons, bind_assoc, pure_bind]
    refine bind_congr fun flag => ?_
    cases flag <;> simp [maskFrom, BitVec.or_assoc]

theorem buildEnabledMask_zero [LawfulMonad m] :
    buildEnabledMask 0 0 cs =
      cs.mapM OtelPlanwalkCollector.enabled >>= fun flags => pure (maskFrom 0 flags) := by
  simp [buildEnabledMask_eq]

/-- A loop over the mask is a loop over the collectors that are enabled. -/
theorem forEnabled_eq (call : OtelPlanwalkCollector α m → m Unit) (hroom : i + cs.length ≤ 32)
    (hmask : ∀ j < cs.length, mask.getLsbD (i + j) = flags.getD j false) [LawfulMonad m] :
    forEnabled mask call i cs = (enabledOnes cs flags).forM call := by
  induction cs generalizing i flags with
  | nil => simp [forEnabled, enabledOnes]
  | cons c cs ih =>
    have hlen : (c :: cs).length = cs.length + 1 := rfl
    have hrest : forEnabled mask call (i + 1) cs = (enabledOnes cs flags.tail).forM call := by
      apply ih
      · omega
      · intro j hj
        have := hmask (j + 1) (by omega)
        rw [Nat.add_right_comm, Nat.add_assoc, this]
        cases flags <;> simp
    have hhere := hmask 0 (by omega)
    rw [forEnabled, hrest]
    cases flags with
    | nil =>
      have hoff : ¬ mask &&& collectorEnabledMask i ≠ 0 := by
        rw [and_collectorEnabledMask (by omega)]
        simpa using hhere
      simp only [if_neg hoff]
      simp [enabledOnes]
    | cons flag flags =>
      have hon : mask &&& collectorEnabledMask i ≠ 0 ↔ flag = true := by
        rw [and_collectorEnabledMask (by omega)]
        simpa using congrArg (· = true) hhere
      cases flag
      · have hoff : ¬ mask &&& collectorEnabledMask i ≠ 0 :=
          fun h => Bool.false_ne_true (hon.1 h)
        simp only [if_neg hoff]
        simp [enabledOnes]
      · simp only [if_pos (hon.2 rfl)]
        simp [enabledOnes]

theorem forEnabled_maskFrom [LawfulMonad m] (r : PlanwalkRegistry α m) (flags : List Bool)
    (call : OtelPlanwalkCollector α m → m Unit) :
    forEnabled (maskFrom 0 flags) call 0 r.collectors =
      (enabledOnes r.collectors flags).forM call := by
  have hroom : r.collectors.length ≤ 8 := r.room
  apply forEnabled_eq
  · omega
  · intro j hj
    rw [getLsbD_maskFrom (by omega)]
    simp

end Mask

/-! ## The walk of a subtree -/

section Walk

/-- The context of a walk that stands below a path: the array holds the part of it nearest the root. -/
structure AtPath {α : Type} (path : List α) (ictx : PlanwalkInternalCtx α) : Prop where
  depth : ictx.depth = path.length
  array : ictx.ancestors.toList.take path.length = path.take otelPlanwalkMaxAncestors

/-- The parts of the context that a walk leaves alone. -/
structure SameWalk {α : Type} (ictx ictx' : PlanwalkInternalCtx α) : Prop where
  stmtSpan : ictx'.stmtSpan = ictx.stmtSpan
  enabledMask : ictx'.enabledMask = ictx.enabledMask
  isEndWalk : ictx'.isEndWalk = ictx.isEndWalk

variable {α : Type} {path : List α} {ictx ictx' ictx'' : PlanwalkInternalCtx α}

theorem SameWalk.trans (h : SameWalk ictx ictx') (h' : SameWalk ictx' ictx'') :
    SameWalk ictx ictx'' where
  stmtSpan := h'.stmtSpan.trans h.stmtSpan
  enabledMask := h'.enabledMask.trans h.enabledMask
  isEndWalk := h'.isEndWalk.trans h.isEndWalk

namespace AtPath

/-- The collectors are shown the array as far as it is filled. -/
theorem pub (h : AtPath path ictx) :
    { ictx with nAncestors := min ictx.depth otelPlanwalkMaxAncestors }.pub =
      ⟨ictx.stmtSpan, path.take otelPlanwalkMaxAncestors⟩ := by
  have hlen : ictx.ancestors.toList.length = otelPlanwalkMaxAncestors := Vector.length_toList
  simp only [PlanwalkInternalCtx.pub, OtelPlanwalkContext.mk.injEq, true_and]
  rw [h.depth, ← h.array, List.take_eq_take_iff, hlen]
  omega

theorem withCount (h : AtPath path ictx) (n : ℕ) : AtPath path { ictx with nAncestors := n } where
  depth := h.depth
  array := h.array

/-- Below a node within the capacity. -/
theorem push_lt (h : AtPath path ictx) (ps : α)
    (hlt : ictx.depth < otelPlanwalkMaxAncestors) :
    AtPath (path ++ [ps])
      { ictx with ancestors := ictx.ancestors.set ictx.depth ps hlt, depth := ictx.depth + 1 } where
  depth := by simp [h.depth]
  array := by
    have hpath : path.take otelPlanwalkMaxAncestors = path := by
      apply List.take_of_length_le
      have := h.depth
      omega
    have hlt' : path.length < ictx.ancestors.toList.length := by
      rw [Vector.length_toList, ← h.depth]
      exact hlt
    have harray := h.array
    rw [hpath] at harray
    rw [List.length_append, List.length_singleton, Vector.toList_set, h.depth,
      List.take_succ_eq_append_getElem (by simpa using hlt'), List.take_set_of_le (le_refl _), harray,
      List.take_of_length_le (by simp; have := h.depth; omega)]
    simp

/-- Below a node beyond the capacity. -/
theorem push_ge (h : AtPath path ictx) (ps : α)
    (hge : otelPlanwalkMaxAncestors ≤ ictx.depth) :
    AtPath (path ++ [ps]) { ictx with depth := ictx.depth + 1 } where
  depth := by simp [h.depth]
  array := by
    have hlen : ictx.ancestors.toList.length = otelPlanwalkMaxAncestors := Vector.length_toList
    have hdepth := h.depth
    rw [List.length_append, List.length_singleton, List.take_append_of_le_length (by omega), ← h.array,
      List.take_eq_take_iff, hlen]
    omega

/-- The entry of a node is written inside the array, or not at all. -/
theorem recordAncestor (m : Type → Type) [Monad m] (h : AtPath path ictx) (ps : α) :
    ∃ below : PlanwalkInternalCtx α, AtPath (path ++ [ps]) { below with depth := below.depth + 1 } ∧
      SameWalk ictx below ∧
      ictx.recordAncestor ps = (pure below : ExceptT OutOfArray m (PlanwalkInternalCtx α)) := by
  by_cases hlt : ictx.depth < otelPlanwalkMaxAncestors
  · refine ⟨{ ictx with ancestors := ictx.ancestors.set ictx.depth ps hlt }, h.push_lt ps hlt,
      ⟨rfl, rfl, rfl⟩, ?_⟩
    simp [PlanwalkInternalCtx.recordAncestor, PlanwalkInternalCtx.setAncestor, hlt]
  · refine ⟨ictx, h.push_ge ps (by omega), ⟨rfl, rfl, rfl⟩, ?_⟩
    simp [PlanwalkInternalCtx.recordAncestor, hlt]

/-- Back from the children of a node. -/
theorem pop {ps : α} (h : AtPath (path ++ [ps]) ictx) :
    AtPath path { ictx with depth := ictx.depth - 1 } where
  depth := by simp [h.depth]
  array := by
    have harray := congrArg (List.take path.length) h.array
    have hmin : min path.length (path ++ [ps]).length = path.length := by simp
    rw [List.take_take, hmin, List.take_take, min_comm, ← List.take_take, List.take_left] at harray
    exact harray

end AtPath

variable {m : Type → Type} [Monad m] (cs : List (OtelPlanwalkCollector α m))

/-- The nodes of a walk, each with the ancestors it is shown with. -/
def shownTrails {α : Type} (trails : List (List α × α)) : List (List α × α) :=
  trails.map fun v => (v.1.take otelPlanwalkMaxAncestors, v.2)

/-- The calls about a node that is shown with its ancestors. -/
def showNode (ictx : PlanwalkInternalCtx α) (v : List α × α) : m Unit :=
  forEnabled ictx.enabledMask (fun c => c.visit ictx.isEndWalk ⟨ictx.stmtSpan, v.1⟩ v.2) 0 cs

theorem SameWalk.showNode (h : SameWalk ictx ictx') : showNode cs ictx' = showNode cs ictx := by
  funext v
  simp only [PostgresOtel.showNode, h.stmtSpan, h.enabledMask, h.isEndWalk]

variable [LawfulMonad m]

theorem lift_pure {ε β : Type} (x : β) : (ExceptT.lift (pure x : m β) : ExceptT ε m β) = pure x := by
  apply ExceptT.ext
  simp

theorem lift_bind {ε β γ : Type} (x : m β) (f : β → m γ) :
    (ExceptT.lift (x >>= f) : ExceptT ε m γ) = ExceptT.lift x >>= fun a => ExceptT.lift (f a) := by
  apply ExceptT.ext
  simp

theorem lift_bind_lift {ε β : Type} (x y : m Unit) (k : ExceptT ε m β) :
    (ExceptT.lift x >>= fun _ => ExceptT.lift y >>= fun _ => k) =
      ExceptT.lift (x >>= fun _ => y) >>= fun _ => k := by
  apply ExceptT.ext
  simp

mutual

/-- The walk of a subtree calls the collectors for its nodes, writes inside the array only, and
leaves the depth and the path to the subtree as they were. -/
theorem planwalkNode_eq (t : RoseTree α) {path : List α} {ictx : PlanwalkInternalCtx α}
    (h : AtPath path ictx) :
    ∃ ictx', AtPath path ictx' ∧ SameWalk ictx ictx' ∧ planwalkNode cs t ictx =
      ExceptT.lift ((shownTrails (t.trails path)).forM (showNode cs ictx)) >>= fun _ =>
        pure (false, ictx') := by
  cases t with
  | node ps children =>
    obtain ⟨below, hbelow, hsame, hwrite⟩ :=
      (h.withCount (min ictx.depth otelPlanwalkMaxAncestors)).recordAncestor m ps
    obtain ⟨last, hlast, hsame', hwalk⟩ := planstateTreeWalker_eq children hbelow
    refine ⟨{ last with depth := last.depth - 1 }, hlast.pop, ?_, ?_⟩
    · exact ⟨hsame'.stmtSpan.trans hsame.stmtSpan, hsame'.enabledMask.trans hsame.enabledMask,
        hsame'.isEndWalk.trans hsame.isEndWalk⟩
    · have hshow : showNode cs { below with depth := below.depth + 1 } = showNode cs ictx :=
        SameWalk.showNode cs ⟨hsame.stmtSpan, hsame.enabledMask, hsame.isEndWalk⟩
      rw [hshow] at hwalk
      simp only [planwalkNode, h.pub, hwrite, hwalk, RoseTree.trails, bind_assoc, pure_bind]
      rw [lift_bind_lift]
      simp [showNode, shownTrails]

theorem planstateTreeWalker_eq (children : List (RoseTree α)) {path : List α}
    {ictx : PlanwalkInternalCtx α} (h : AtPath path ictx) :
    ∃ ictx', AtPath path ictx' ∧ SameWalk ictx ictx' ∧ planstateTreeWalker cs children ictx =
      ExceptT.lift ((shownTrails (RoseTree.trailsOf path children)).forM (showNode cs ictx)) >>=
        fun _ => pure (false, ictx') := by
  cases children with
  | nil =>
    refine ⟨ictx, h, ⟨rfl, rfl, rfl⟩, ?_⟩
    apply ExceptT.ext
    simp [planstateTreeWalker, RoseTree.trailsOf, shownTrails]
  | cons child children =>
    obtain ⟨mid, hmid, hsame, hwalk⟩ := planwalkNode_eq child h
    obtain ⟨last, hlast, hsame', hrest⟩ := planstateTreeWalker_eq children hmid
    refine ⟨last, hlast, hsame.trans hsame', ?_⟩
    rw [hsame.showNode] at hrest
    simp only [planstateTreeWalker, hwalk, hrest, RoseTree.trailsOf, bind_assoc, pure_bind,
      Bool.false_eq_true, if_false]
    rw [lift_bind_lift]
    simp [shownTrails]

end

end Walk

/-! ## The walks of a query -/

section Query

variable {α : Type}

/-- What the walks of a plan show. -/
def planwalkVisits (plan : RoseTree α) : List (List α × α) := shownTrails (plan.trails [])

theorem planwalkVisits_map_snd (plan : RoseTree α) :
    (planwalkVisits plan).map Prod.snd = plan.labels := by
  rw [← RoseTree.trails_map_snd [] plan]
  simp [planwalkVisits, shownTrails, Function.comp_def]

/-- The nodes at the positions of the plan, in pre-order, with the path to each. -/
theorem planwalkVisits_positions (plan : RoseTree α) :
    (planwalkVisits plan).map (fun v => (v.1, some v.2)) = plan.positions.map fun p =>
      ((plan.above p).take otelPlanwalkMaxAncestors, plan.labelAt p) := by
  have htrails := congrArg
    (List.map fun v => (v.1.take otelPlanwalkMaxAncestors, v.2)) (plan.trails_positions [])
  simpa [planwalkVisits, shownTrails, Function.comp_def] using htrails

variable {m : Type → Type} [Monad m]

/-- What the walks of a query do: both show the nodes of the plan to every collector that is enabled,
one node after the other.  A node is shown with the path to it, as far as the array holds it.  No
subtree moves the depth or writes behind the array, which would be an error of its own. -/
structure WalksCover (r : PlanwalkRegistry α m) (stack : PlanwalkInternalCtx α) (plan : RoseTree α)
    (stmtSpan : OtelSpanRef) : Prop where
  shown : (planwalkVisits plan).map (fun v => (v.1, some v.2)) = plan.positions.map fun p =>
    ((plan.above p).take otelPlanwalkMaxAncestors, plan.labelAt p)
  every : ∀ p, p ∈ plan.positions ↔ (plan.labelAt p).isSome
  preorder : plan.positions.Pairwise (· < ·)
  beginWalk : otelPlanwalkExecutorStart r stack (some plan) stmtSpan =
    ExceptT.lift (r.collectors.mapM OtelPlanwalkCollector.enabled >>= fun flags =>
      (planwalkVisits plan).forM fun v => (enabledOnes r.collectors flags).forM fun c =>
        c.visit false ⟨stmtSpan, v.1⟩ v.2)
  endWalk : otelPlanwalkExecutorEnd r stack (some plan) stmtSpan =
    ExceptT.lift (r.collectors.mapM OtelPlanwalkCollector.enabled >>= fun flags => do
      (enabledOnes r.collectors flags).forM fun c => callUnlessNull c.endWalkBegin stmtSpan
      (planwalkVisits plan).forM fun v => (enabledOnes r.collectors flags).forM fun c =>
        c.visit true ⟨stmtSpan, v.1⟩ v.2
      (enabledOnes r.collectors flags).forM fun c => callUnlessNull c.endWalkEnd stmtSpan)
  subtree : ∀ (t : RoseTree α) (path : List α) (ictx : PlanwalkInternalCtx α),
    AtPath path ictx → ∃ ictx', AtPath path ictx' ∧ SameWalk ictx ictx' ∧
      otelPlanwalkWalker r.collectors (some t) ictx =
        ExceptT.lift ((shownTrails (t.trails path)).forM (showNode r.collectors ictx)) >>= fun _ =>
          pure (false, ictx')

omit [Monad m] in
/-- Where no collector is enabled there is nothing to call. -/
theorem enabledOnes_of_mask_eq_zero (r : PlanwalkRegistry α m) {flags : List Bool}
    (h : maskFrom 0 flags = 0) : enabledOnes r.collectors flags = [] := by
  have hroom : r.collectors.length ≤ 8 := r.room
  have hoff : ∀ j < 32, flags.getD j false = false := by
    intro j hj
    have hbit : (maskFrom 0 flags).getLsbD j = (decide (0 ≤ j) && flags.getD (j - 0) false) :=
      getLsbD_maskFrom hj
    simpa [h] using hbit.symm
  simp only [enabledOnes, List.map_eq_nil_iff, List.filter_eq_nil_iff]
  intro x hx
  obtain ⟨j, hj, rfl⟩ := List.mem_iff_getElem.1 hx
  have hlen : j < r.collectors.length ∧ j < flags.length := by simpa using hj
  have := hoff j (by omega)
  simpa [hlen.2] using this

variable [LawfulMonad m]

theorem forM_pure_unit {β : Type} (l : List β) : (l.forM fun _ => (pure () : m Unit)) = pure () := by
  induction l with
  | nil => rfl
  | cons a l ih => simpa using ih

/-- The walk of a whole plan. -/
theorem otelPlanwalkWalker_root (r : PlanwalkRegistry α m) (flags : List Bool)
    (stack : PlanwalkInternalCtx α) (plan : RoseTree α) (stmtSpan : OtelSpanRef) (isEndWalk : Bool)
    (k : ExceptT OutOfArray m Unit) :
    (otelPlanwalkWalker r.collectors (some plan)
        { stack with stmtSpan, enabledMask := maskFrom 0 flags, isEndWalk, depth := 0 } >>=
      fun _ => k) =
    ExceptT.lift ((planwalkVisits plan).forM fun v => (enabledOnes r.collectors flags).forM fun c =>
      c.visit isEndWalk ⟨stmtSpan, v.1⟩ v.2) >>= fun _ => k := by
  have hroot : AtPath []
      { stack with stmtSpan, enabledMask := maskFrom 0 flags, isEndWalk, depth := 0 } :=
    ⟨rfl, by simp⟩
  obtain ⟨ictx', -, -, hwalk⟩ := planwalkNode_eq r.collectors plan hroot
  have hshow : showNode r.collectors
      { stack with stmtSpan, enabledMask := maskFrom 0 flags, isEndWalk, depth := 0 } =
      fun v => (enabledOnes r.collectors flags).forM fun c =>
        c.visit isEndWalk ⟨stmtSpan, v.1⟩ v.2 := by
    funext v
    exact forEnabled_maskFrom r flags _
  rw [hshow] at hwalk
  simp only [otelPlanwalkWalker, hwalk, planwalkVisits, bind_assoc, pure_bind]

theorem otelPlanwalkExecutorStart_eq (r : PlanwalkRegistry α m) (stack : PlanwalkInternalCtx α)
    (plan : RoseTree α) (stmtSpan : OtelSpanRef) :
    otelPlanwalkExecutorStart r stack (some plan) stmtSpan =
      ExceptT.lift (r.collectors.mapM OtelPlanwalkCollector.enabled >>= fun flags =>
        (planwalkVisits plan).forM fun v => (enabledOnes r.collectors flags).forM fun c =>
          c.visit false ⟨stmtSpan, v.1⟩ v.2) := by
  simp only [otelPlanwalkExecutorStart, buildEnabledMask_zero, lift_bind, bind_assoc]
  refine bind_congr fun flags => ?_
  rw [lift_pure, pure_bind]
  split_ifs with hmask
  · rw [enabledOnes_of_mask_eq_zero r hmask]
    simp [forM_pure_unit]
  · rw [otelPlanwalkWalker_root]
    simp

theorem otelPlanwalkExecutorEnd_eq (r : PlanwalkRegistry α m) (stack : PlanwalkInternalCtx α)
    (plan : RoseTree α) (stmtSpan : OtelSpanRef) :
    otelPlanwalkExecutorEnd r stack (some plan) stmtSpan =
      ExceptT.lift (r.collectors.mapM OtelPlanwalkCollector.enabled >>= fun flags => do
        (enabledOnes r.collectors flags).forM fun c => callUnlessNull c.endWalkBegin stmtSpan
        (planwalkVisits plan).forM fun v => (enabledOnes r.collectors flags).forM fun c =>
          c.visit true ⟨stmtSpan, v.1⟩ v.2
        (enabledOnes r.collectors flags).forM fun c => callUnlessNull c.endWalkEnd stmtSpan) := by
  simp only [otelPlanwalkExecutorEnd, buildEnabledMask_zero, lift_bind, bind_assoc]
  refine bind_congr fun flags => ?_
  rw [lift_pure, pure_bind]
  split_ifs with hmask
  · rw [enabledOnes_of_mask_eq_zero r hmask]
    simp [forM_pure_unit]
  · rw [otelPlanwalkWalker_root, forEnabled_maskFrom, forEnabled_maskFrom]

end Query

/-! ## One collector that keeps a state -/

section StateCollector

variable {α σ : Type}

/-- A collector whose callbacks change a state of its own. -/
structure StateCollector (α σ : Type) where
  enabled : Bool := true
  nodeBegin : Option (α → OtelPlanwalkContext α → σ → σ) := none
  nodeEnd : Option (α → OtelPlanwalkContext α → σ → σ) := none
  endWalkBegin : Option (OtelSpanRef → σ → σ) := none
  endWalkEnd : Option (OtelSpanRef → σ → σ) := none

def StateCollector.collector (c : StateCollector α σ) : OtelPlanwalkCollector α (StateM σ) where
  enabled := pure c.enabled
  nodeBegin := c.nodeBegin.map fun f ps ctx => modify (f ps ctx)
  nodeEnd := c.nodeEnd.map fun f ps ctx => modify (f ps ctx)
  endWalkBegin := c.endWalkBegin.map fun f stmtSpan => modify (f stmtSpan)
  endWalkEnd := c.endWalkEnd.map fun f stmtSpan => modify (f stmtSpan)

/-- The collector by itself. -/
def StateCollector.alone (c : StateCollector α σ) : PlanwalkRegistry α (StateM σ) where
  collectors := [c.collector]

theorem forM_modify {β : Type} (f : β → σ → σ) (l : List β) (s : σ) :
    (l.forM fun a => (modify (f a) : StateM σ PUnit)) s = ((), l.foldl (fun s a => f a s) s) := by
  induction l generalizing s with
  | nil => rfl
  | cons a l ih => exact ih (f a s)

/-- A callback that is `NULL` changes nothing. -/
theorem callUnlessNull_modify {β : Type} (callback : Option (β → σ → σ)) (x : β) :
    callUnlessNull (callback.map fun f y => (modify (f y) : StateM σ Unit)) x =
      modify ((callback.getD fun _ => id) x) := by
  cases callback with
  | none => rfl
  | some f => rfl

theorem StateCollector.flags {c : StateCollector α σ} (h : c.enabled = true) :
    c.alone.collectors.mapM OtelPlanwalkCollector.enabled = pure [true] := by
  simp [alone, collector, h]

theorem StateCollector.enabledOnes {c : StateCollector α σ} :
    enabledOnes c.alone.collectors [true] = [c.collector] := by
  simp [alone, PostgresOtel.enabledOnes]

variable (c : StateCollector α σ) (stack : PlanwalkInternalCtx α) (plan : RoseTree α)
  (stmtSpan : OtelSpanRef) (s : σ)

/-- The begin walk is a fold over what it shows. -/
theorem executorStart_alone (h : c.enabled = true) :
    (otelPlanwalkExecutorStart c.alone stack (some plan) stmtSpan).run s =
      (.ok (), (planwalkVisits plan).foldl
        (fun s v => (c.nodeBegin.getD fun _ _ => id) v.2 ⟨stmtSpan, v.1⟩ s) s) := by
  have hone : ∀ v : List α × α,
      [c.collector].forM (fun c => c.visit false ⟨stmtSpan, v.1⟩ v.2) =
        modify ((c.nodeBegin.getD fun _ _ => id) v.2 ⟨stmtSpan, v.1⟩) := by
    intro v
    cases hbegin : c.nodeBegin <;>
      simp [OtelPlanwalkCollector.visit, StateCollector.collector, callUnlessNull, hbegin]
  have hwalk := forM_modify
    (fun v => (c.nodeBegin.getD fun _ _ => id) v.2 ⟨stmtSpan, v.1⟩) (planwalkVisits plan) s
  rw [otelPlanwalkExecutorStart_eq, StateCollector.flags h, pure_bind, StateCollector.enabledOnes,
    funext hone, ExceptT.run_lift]
  exact congrArg (fun x : Unit × σ => (Except.ok x.1, x.2)) hwalk

/-- So is the end walk, between the calls that frame it. -/
theorem executorEnd_alone (h : c.enabled = true) :
    (otelPlanwalkExecutorEnd c.alone stack (some plan) stmtSpan).run s =
      (.ok (), (c.endWalkEnd.getD fun _ => id) stmtSpan ((planwalkVisits plan).foldl
        (fun s v => (c.nodeEnd.getD fun _ _ => id) v.2 ⟨stmtSpan, v.1⟩ s)
        ((c.endWalkBegin.getD fun _ => id) stmtSpan s))) := by
  have hone : ∀ v : List α × α,
      [c.collector].forM (fun c => c.visit true ⟨stmtSpan, v.1⟩ v.2) =
        modify ((c.nodeEnd.getD fun _ _ => id) v.2 ⟨stmtSpan, v.1⟩) := by
    intro v
    cases hend : c.nodeEnd <;>
      simp [OtelPlanwalkCollector.visit, StateCollector.collector, callUnlessNull, hend]
  have hbegin : [c.collector].forM (fun c => callUnlessNull c.endWalkBegin stmtSpan) =
      modify ((c.endWalkBegin.getD fun _ => id) stmtSpan) := by
    simp [StateCollector.collector, callUnlessNull_modify]
  have hend : [c.collector].forM (fun c => callUnlessNull c.endWalkEnd stmtSpan) =
      modify ((c.endWalkEnd.getD fun _ => id) stmtSpan) := by
    simp [StateCollector.collector, callUnlessNull_modify]
  have hwalk := forM_modify (fun v => (c.nodeEnd.getD fun _ _ => id) v.2 ⟨stmtSpan, v.1⟩)
    (planwalkVisits plan) ((c.endWalkBegin.getD fun _ => id) stmtSpan s)
  rw [otelPlanwalkExecutorEnd_eq, StateCollector.flags h, pure_bind, StateCollector.enabledOnes,
    funext hone, hbegin, hend, ExceptT.run_lift]
  exact congrArg
    (fun x : Unit × σ => (Except.ok x.1, (c.endWalkEnd.getD fun _ => id) stmtSpan x.2)) hwalk

end StateCollector

/-! ## Trees of `PlanState`s -/

namespace PlanState

mutual

/-- The nodes of a plan as a tree. -/
def tree : PlanState → RoseTree PlanStateInfo
  | .node info children => .node info (treesOf children)

def treesOf : List PlanState → List (RoseTree PlanStateInfo)
  | [] => []
  | child :: children => child.tree :: treesOf children

end

mutual

theorem visits_eq_trails (path : List PlanStateInfo) (plan : PlanState) :
    plan.visits path = shownTrails (plan.tree.trails path) := by
  cases plan with
  | node info children =>
    rw [visits, tree, RoseTree.trails, visitsOfChildren_eq_trails]
    simp [shownTrails]

theorem visitsOfChildren_eq_trails (path : List PlanStateInfo) (children : List PlanState) :
    visitsOfChildren path children = shownTrails (RoseTree.trailsOf path (treesOf children)) := by
  cases children with
  | nil => simp [visitsOfChildren, treesOf, RoseTree.trailsOf, shownTrails]
  | cons child children =>
    rw [visitsOfChildren, treesOf, RoseTree.trailsOf, visits_eq_trails, visitsOfChildren_eq_trails]
    simp [shownTrails]

end

/-- The walk over the array does to the state of a collector what `PlanState.walk` says. -/
theorem executorStart_eq_walk {σ : Type} (visit : List PlanStateInfo → PlanStateInfo → σ → σ)
    (stack : PlanwalkInternalCtx PlanStateInfo) (plan : PlanState) (stmtSpan : OtelSpanRef) (s : σ) :
    (otelPlanwalkExecutorStart
      (StateCollector.alone { nodeBegin := some fun info ctx => visit ctx.ancestors info }) stack
      (some plan.tree) stmtSpan).run s = (.ok (), plan.walk visit [] s) := by
  rw [executorStart_alone _ _ _ _ _ rfl, walk_eq_foldl, visits_eq_trails]
  rfl

end PlanState

/-- The walks of every query cover its plan. -/
theorem plan_walks_cover {α : Type} {m : Type → Type} [Monad m] [LawfulMonad m]
    (r : PlanwalkRegistry α m) (stack : PlanwalkInternalCtx α) (plan : RoseTree α)
    (stmtSpan : OtelSpanRef) : WalksCover r stack plan stmtSpan where
  shown := planwalkVisits_positions plan
  every _ := RoseTree.mem_positions
  preorder := RoseTree.pairwise_positions _
  beginWalk := otelPlanwalkExecutorStart_eq r stack plan stmtSpan
  endWalk := otelPlanwalkExecutorEnd_eq r stack plan stmtSpan
  subtree t _ _ h := planwalkNode_eq r.collectors t h

/-- A gather over a sort and a function scan, its only collector a list of what it was shown. -/
theorem plan_walks_cover_gather :
    WalksCover
      (StateCollector.alone
        { nodeBegin := some fun ps ctx (seen : List (List PlanNodeTag × PlanNodeTag)) =>
            seen ++ [(ctx.ancestors, ps)] })
      { stmtSpan := ⟨0⟩, nAncestors := 7, enabledMask := 0, isEndWalk := true,
        ancestors := Vector.replicate _ .other, depth := 5 }
      (.node .gatherState [.node .sortState [], .node .functionScanState []]) ⟨1⟩ :=
  plan_walks_cover _ _ _ _

end PostgresOtel
