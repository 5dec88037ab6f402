import Mathlib.Data.Rat.Defs
import Mathlib.Algebra.Order.Ring.Rat
import PostgresOtel.Context.Traceparent
import PostgresOtel.Lib.RoseTree
import PostgresOtel.Producer.Types

/-!
# The shape of a plan

`otel_planshape.c`: a walk of the plan trees of a statement that hashes the tags of the nodes and the
types of the joins, counts the nodes and looks for two structural risks.

A plan is built as core builds it: each kind of node has the child plans of its own struct.  The walk
knows those of five kinds.  The child plans of a custom scan are not among them, so
`planshape_covers_iff` finds a statement covered if and only if it has none.
-/

set_option autoImplicit false

namespace PostgresOtel

/-! ## Plans -/

inductive JoinType
  | inner | left | full | right | semi | anti | rightSemi | rightAnti | uniqueOuter | uniqueInner
  deriving DecidableEq

inductive JoinPlan
  | nestLoop | mergeJoin | hashJoin
  deriving DecidableEq

/-- The kinds of plan nodes with no more children than `lefttree` and `righttree`, joins apart. -/
inductive PlainPlan
  | result | projectSet | modifyTable | recursiveUnion | seqScan | sampleScan | indexScan
  | indexOnlyScan | bitmapIndexScan | bitmapHeapScan | tidScan | tidRangeScan | functionScan
  | valuesScan | tableFuncScan | cteScan | namedTuplestoreScan | workTableScan | foreignScan
  | material | memoize | sort | incrementalSort | group | agg | windowAgg | unique | gather
  | gatherMerge | hash | setOp | lockRows | limit
  deriving DecidableEq

/-- The node tags of plans. -/
inductive PlanTag
  | plain (kind : PlainPlan)
  | join (kind : JoinPlan)
  | append | mergeAppend | bitmapAnd | bitmapOr | subqueryScan | customScan
  deriving DecidableEq

/-- What the planner guessed of a node. -/
structure PlanEstimates where
  startupCost : ℚ := 0
  totalCost : ℚ := 0
  planRows : ℚ := 0

mutual

/-- A plan node: the `Plan` that its struct begins with, and the rest. -/
inductive Plan
  | node (estimates : PlanEstimates) (lefttree righttree : Option Plan) (rest : PlanRest)

/-- The fields of the structs that embed `Plan`, with the child plans that some of them have. -/
inductive PlanRest
  | plain (kind : PlainPlan)
  | join (kind : JoinPlan) (jointype : JoinType)
  | append (appendplans : List Plan)
  | mergeAppend (mergeplans : List Plan)
  | bitmapAnd (bitmapplans : List Plan)
  | bitmapOr (bitmapplans : List Plan)
  | subqueryScan (subplan : Option Plan)
  | customScan (customPlans : List Plan)

end

namespace Plan

def planRows : Plan → ℚ
  | node estimates _ _ _ => estimates.planRows

def righttree : Plan → Option Plan
  | node _ _ righttree _ => righttree

def rest : Plan → PlanRest
  | node _ _ _ rest => rest

@[simp] theorem rest_node (estimates : PlanEstimates) (lefttree righttree : Option Plan)
    (rest : PlanRest) : (node estimates lefttree righttree rest).rest = rest := rfl

end Plan

def PlanRest.tag : PlanRest → PlanTag
  | plain kind => .plain kind
  | join kind _ => .join kind
  | append _ => .append
  | mergeAppend _ => .mergeAppend
  | bitmapAnd _ => .bitmapAnd
  | bitmapOr _ => .bitmapOr
  | subqueryScan _ => .subqueryScan
  | customScan _ => .customScan

/-- The plan trees of a statement.  Those of the init plans and sub plans may be `NULL`. -/
structure PlannedStmt where
  planTree : Option Plan
  subplans : List (Option Plan)

/-! ## The walk -/

/-- What the walk takes from core: the numbers of tags and join types, and `hash_combine`. -/
structure PlanshapeCore where
  nodeTag : PlanTag → BitVec 32
  joinType : JoinType → BitVec 32
  hashCombine : BitVec 32 → BitVec 32 → BitVec 32

structure PlanShapeCtx where
  digest : BitVec 32 := 0
  nodeCount : ℕ := 0
  riskSeqscanLarge : Bool := false
  riskNestloopHighInner : Bool := false
  deriving DecidableEq

/-- `OTEL_PLANSHAPE_SEQSCAN_LARGE_ROWS`. -/
def otelPlanshapeSeqscanLargeRows : ℚ := 100000

/-- `OTEL_PLANSHAPE_NESTLOOP_INNER_ROWS`. -/
def otelPlanshapeNestloopInnerRows : ℚ := 10000

namespace PlanshapeCore

variable (core : PlanshapeCore)

/-- `planshape_node_token`. -/
def planshapeNodeToken (rest : PlanRest) : BitVec 32 :=
  match rest with
  | .join kind jointype => core.hashCombine (core.nodeTag (.join kind)) (core.joinType jointype)
  | rest => core.nodeTag rest.tag

/-- What `planshape_walk` does about a node, before it goes on to the child plans. -/
def planshapeVisit (plan : Plan) (ctx : PlanShapeCtx) : PlanShapeCtx :=
  { digest := core.hashCombine ctx.digest (core.planshapeNodeToken plan.rest)
    nodeCount := ctx.nodeCount + 1
    riskSeqscanLarge := ctx.riskSeqscanLarge ||
      decide (plan.rest.tag = .plain .seqScan ∧ otelPlanshapeSeqscanLargeRows < plan.planRows)
    riskNestloopHighInner := ctx.riskNestloopHighInner ||
      (decide (plan.rest.tag = .join .nestLoop) && plan.righttree.any fun inner =>
        decide (otelPlanshapeNestloopInnerRows < inner.planRows)) }

end PlanshapeCore

section Walk

variable {σ : Type} (visit : Plan → σ → σ)

mutual

/-- `planshape_walk` at a node. -/
def planshapeNode : Plan → σ → σ
  | .node estimates lefttree righttree rest, s =>
    planshapeRest rest (planshapeWalk righttree (planshapeWalk lefttree
      (visit (.node estimates lefttree righttree rest) s)))

/-- `planshape_walk`. -/
def planshapeWalk : Option Plan → σ → σ
  | none, s => s
  | some plan, s => planshapeNode plan s

/-- `planshape_walk_list`. -/
def planshapeWalkList : List Plan → σ → σ
  | [], s => s
  | plan :: plans, s => planshapeWalkList plans (planshapeNode plan s)

/-- The switch over the kinds with child plans of their own. -/
def planshapeRest : PlanRest → σ → σ
  | .append plans, s => planshapeWalkList plans s
  | .mergeAppend plans, s => planshapeWalkList plans s
  | .bitmapAnd plans, s => planshapeWalkList plans s
  | .bitmapOr plans, s => planshapeWalkList plans s
  | .subqueryScan subplan, s => planshapeWalk subplan s
  | .customScan _, s => s
  | .plain _, s => s
  | .join _ _, s => s

end

/-- The walks of `otel_planshape_executor_start`. -/
def planshapeStmt (pstmt : PlannedStmt) (s : σ) : σ :=
  pstmt.subplans.foldl (fun s plan => planshapeWalk visit plan s)
    (planshapeWalk visit pstmt.planTree s)

end Walk

/-- The plan nodes the walk visits, in order. -/
def PlannedStmt.visited (pstmt : PlannedStmt) : List Plan :=
  planshapeStmt (fun plan seen => seen ++ [plan]) pstmt []

def planShapeHashKey : CString := cstr "pg.plan.shape_hash"

def planNodeCountKey : CString := cstr "pg.plan.node_count"

def planRisksKey : CString := cstr "pg.plan.risks"

/-- `%08x`. -/
def hex8 (x : BitVec 32) : CString := otelBytesToHex (toBytes 4 x.toNat)

/-- The text of the risks. -/
def planRisksText (ctx : PlanShapeCtx) : CString :=
  (if ctx.riskSeqscanLarge then cstr "seqscan_large" else []) ++
    if ctx.riskNestloopHighInner then
      (if ctx.riskSeqscanLarge then cstr "," else []) ++ cstr "nestloop_high_inner"
    else []

/-- The attributes that `otel_planshape_executor_start` sets on the statement's span. -/
def otelPlanshapeExecutorStart (core : PlanshapeCore) (otelTracePlanShape : Bool)
    (pstmt : Option PlannedStmt) (recording : Bool) : List (CString × OtelAttrValue) :=
  match pstmt with
  | none => []
  | some pstmt =>
    if otelTracePlanShape && recording then
      let ctx := planshapeStmt core.planshapeVisit pstmt {}
      [(planShapeHashKey, .string (some (hex8 ctx.digest))),
        (planNodeCountKey, .int ctx.nodeCount)] ++
        if ctx.riskSeqscanLarge || ctx.riskNestloopHighInner then
          [(planRisksKey, .string (some (planRisksText ctx)))]
        else []
    else []

/-! ## What the walk reaches -/

mutual

/-- The nodes the walk of a plan visits. -/
def reachedNode : Plan → List Plan
  | .node estimates lefttree righttree rest =>
    .node estimates lefttree righttree rest ::
      (reached lefttree ++ reached righttree ++ reachedRest rest)

def reached : Option Plan → List Plan
  | none => []
  | some plan => reachedNode plan

def reachedList : List Plan → List Plan
  | [] => []
  | plan :: plans => reachedNode plan ++ reachedList plans

def reachedRest : PlanRest → List Plan
  | .append plans => reachedList plans
  | .mergeAppend plans => reachedList plans
  | .bitmapAnd plans => reachedList plans
  | .bitmapOr plans => reachedList plans
  | .subqueryScan subplan => reached subplan
  | .customScan _ => []
  | .plain _ => []
  | .join _ _ => []

end

section Fold

variable {σ : Type} (visit : Plan → σ → σ)

mutual

theorem planshapeNode_eq_foldl (plan : Plan) (s : σ) :
    planshapeNode visit plan s = (reachedNode plan).foldl (fun s p => visit p s) s := by
  cases plan with
  | node estimates lefttree righttree rest =>
    rw [planshapeNode, reachedNode, List.foldl_cons, List.foldl_append, List.foldl_append,
      planshapeWalk_eq_foldl lefttree, planshapeWalk_eq_foldl righttree,
      planshapeRest_eq_foldl rest]

theorem planshapeWalk_eq_foldl (plan : Option Plan) (s : σ) :
    planshapeWalk visit plan s = (reached plan).foldl (fun s p => visit p s) s := by
  cases plan with
  | none => simp [planshapeWalk, reached]
  | some plan => rw [planshapeWalk, reached, planshapeNode_eq_foldl plan]

theorem planshapeWalkList_eq_foldl (plans : List Plan) (s : σ) :
    planshapeWalkList visit plans s = (reachedList plans).foldl (fun s p => visit p s) s := by
  cases plans with
  | nil => simp [planshapeWalkList, reachedList]
  | cons plan plans =>
    rw [planshapeWalkList, reachedList, List.foldl_append, planshapeNode_eq_foldl plan,
      planshapeWalkList_eq_foldl plans]

theorem planshapeRest_eq_foldl (rest : PlanRest) (s : σ) :
    planshapeRest visit rest s = (reachedRest rest).foldl (fun s p => visit p s) s := by
  cases rest with
  | append plans | mergeAppend plans | bitmapAnd plans | bitmapOr plans =>
    rw [planshapeRest, reachedRest, planshapeWalkList_eq_foldl plans]
  | subqueryScan subplan => rw [planshapeRest, reachedRest, planshapeWalk_eq_foldl subplan]
  | customScan _ | plain _ | join _ _ => simp [planshapeRest, reachedRest]

end

theorem foldl_planshapeWalk (plans : List (Option Plan)) (s : σ) :
    plans.foldl (fun s plan => planshapeWalk visit plan s) s =
      (plans.flatMap reached).foldl (fun s p => visit p s) s := by
  induction plans generalizing s with
  | nil => rfl
  | cons plan plans ih =>
    rw [List.foldl_cons, List.flatMap_cons, List.foldl_append, planshapeWalk_eq_foldl, ih]

theorem foldl_record (plans seen : List Plan) :
    plans.foldl (fun seen plan => seen ++ [plan]) seen = seen ++ plans := by
  induction plans generalizing seen with
  | nil => simp
  | cons plan plans ih => simp [ih]

theorem PlannedStmt.visited_eq (pstmt : PlannedStmt) :
    pstmt.visited = reached pstmt.planTree ++ pstmt.subplans.flatMap reached := by
  rw [visited, planshapeStmt, foldl_planshapeWalk, planshapeWalk_eq_foldl, foldl_record,
    foldl_record, List.nil_append]

/-- The walk of a statement goes over the nodes it visits. -/
theorem planshapeStmt_eq_foldl (pstmt : PlannedStmt) (s : σ) :
    planshapeStmt visit pstmt s = pstmt.visited.foldl (fun s p => visit p s) s := by
  rw [pstmt.visited_eq, planshapeStmt, foldl_planshapeWalk, planshapeWalk_eq_foldl,
    List.foldl_append]

end Fold

/-- The digest of a sequence of tokens. -/
def digestOf (core : PlanshapeCore) (tokens : List (BitVec 32)) : BitVec 32 :=
  tokens.foldl core.hashCombine 0

/-- What the walk hashes and counts is what it visits. -/
theorem planshapeVisit_foldl (core : PlanshapeCore) (plans : List Plan) (ctx : PlanShapeCtx) :
    (plans.foldl (fun ctx p => core.planshapeVisit p ctx) ctx).digest =
        (plans.map fun p => core.planshapeNodeToken p.rest).foldl core.hashCombine ctx.digest ∧
      (plans.foldl (fun ctx p => core.planshapeVisit p ctx) ctx).nodeCount =
        ctx.nodeCount + plans.length := by
  induction plans generalizing ctx with
  | nil => simp
  | cons plan plans ih =>
    obtain ⟨hdigest, hcount⟩ := ih (core.planshapeVisit plan ctx)
    rw [List.foldl_cons, List.map_cons, List.foldl_cons, hdigest, hcount, List.length_cons]
    constructor
    · rfl
    · simp only [PlanshapeCore.planshapeVisit]
      omega

/-! ## All nodes of a statement -/

/-- The child plans of a custom scan. -/
def PlanRest.customPlans : PlanRest → List Plan
  | customScan plans => plans
  | _ => []

mutual

/-- A plan with all its children. -/
def Plan.tree : Plan → RoseTree Plan
  | .node estimates lefttree righttree rest =>
    .node (.node estimates lefttree righttree rest)
      (treesOf lefttree ++ treesOf righttree ++ treesOfRest rest)

def treesOf : Option Plan → List (RoseTree Plan)
  | none => []
  | some plan => [plan.tree]

def treesOfList : List Plan → List (RoseTree Plan)
  | [] => []
  | plan :: plans => plan.tree :: treesOfList plans

def treesOfRest : PlanRest → List (RoseTree Plan)
  | .append plans => treesOfList plans
  | .mergeAppend plans => treesOfList plans
  | .bitmapAnd plans => treesOfList plans
  | .bitmapOr plans => treesOfList plans
  | .subqueryScan subplan => treesOf subplan
  | .customScan plans => treesOfList plans
  | .plain _ => []
  | .join _ _ => []

end

/-- The plan nodes of a statement, tree by tree in pre-order. -/
def PlannedStmt.nodes (pstmt : PlannedStmt) : List Plan :=
  (treesOf pstmt.planTree ++ pstmt.subplans.flatMap treesOf).flatMap RoseTree.labels

/-- What a walk reaches of some nodes: all of them, unless a custom scan among them has child plans. -/
structure Reaches (some all : List Plan) : Prop where
  sublist : some.Sublist all
  all_iff : some = all ↔ ∀ plan ∈ all, plan.rest.customPlans = []

namespace Reaches

variable {xs ys all all' : List Plan}

theorem nil : Reaches [] [] where
  sublist := List.Sublist.refl _
  all_iff := by simp

theorem append (h : Reaches xs all) (h' : Reaches ys all') : Reaches (xs ++ ys) (all ++ all') where
  sublist := h.sublist.append h'.sublist
  all_iff := by
    have hboth : xs ++ ys = all ++ all' ↔ xs = all ∧ ys = all' := by
      constructor
      · intro heq
        have hlen := congrArg List.length heq
        have h₁ := h.sublist.length_le
        have h₂ := h'.sublist.length_le
        simp only [List.length_append] at hlen
        exact List.append_inj heq (by omega)
      · rintro ⟨rfl, rfl⟩
        rfl
    rw [hboth, h.all_iff, h'.all_iff, List.forall_mem_append]

/-- A node whose children are walked. -/
theorem cons {plan : Plan} (h : Reaches xs all) (hplan : plan.rest.customPlans = []) :
    Reaches (plan :: xs) (plan :: all) where
  sublist := h.sublist.cons_cons plan
  all_iff := by simp [h.all_iff, hplan]

/-- A node with children that are not walked. -/
theorem skip {plan : Plan} (h : Reaches xs all) (hplan : plan.rest.customPlans ≠ [])
    (hall' : all' ≠ []) : Reaches (plan :: xs) (plan :: (all ++ all')) where
  sublist := (h.sublist.trans (List.sublist_append_left all all')).cons_cons plan
  all_iff := by
    have hpos := List.length_pos_iff.2 hall'
    have hle := h.sublist.length_le
    constructor
    · intro heq
      have hlen := congrArg List.length heq
      simp only [List.length_cons, List.length_append] at hlen
      omega
    · intro hnone
      exact absurd (hnone plan List.mem_cons_self) hplan

end Reaches

/-- Only a custom scan has child plans that the walk leaves out. -/
theorem reachedRest_eq_nil {rest : PlanRest} (h : rest.customPlans ≠ []) : reachedRest rest = [] := by
  cases rest <;> simp_all [PlanRest.customPlans, reachedRest]

theorem labels_ne_nil {plans : List Plan} (h : plans ≠ []) :
    (treesOfList plans).flatMap RoseTree.labels ≠ [] := by
  cases plans with
  | nil => exact absurd rfl h
  | cons plan plans =>
    cases plan
    simp [treesOfList, Plan.tree]

mutual

theorem reaches_node (plan : Plan) : Reaches (reachedNode plan) plan.tree.labels := by
  cases plan with
  | node estimates lefttree righttree rest =>
    have hsides := (reaches lefttree).append (reaches righttree)
    rw [reachedNode, Plan.tree, RoseTree.labels_node, List.flatMap_append, List.flatMap_append]
    by_cases hcustom : rest.customPlans = []
    · exact (hsides.append (reaches_rest rest hcustom)).cons hcustom
    · rw [reachedRest_eq_nil hcustom, List.append_nil]
      refine hsides.skip hcustom ?_
      cases rest with
      | customScan plans => exact labels_ne_nil hcustom
      | _ => simp [PlanRest.customPlans] at hcustom

theorem reaches (plan : Option Plan) :
    Reaches (reached plan) ((treesOf plan).flatMap RoseTree.labels) := by
  cases plan with
  | none => simpa [reached, treesOf] using Reaches.nil
  | some plan => simpa [reached, treesOf] using reaches_node plan

theorem reaches_list (plans : List Plan) :
    Reaches (reachedList plans) ((treesOfList plans).flatMap RoseTree.labels) := by
  cases plans with
  | nil => simpa [reachedList, treesOfList] using Reaches.nil
  | cons plan plans =>
    simpa [reachedList, treesOfList] using (reaches_node plan).append (reaches_list plans)

theorem reaches_rest (rest : PlanRest) (h : rest.customPlans = []) :
    Reaches (reachedRest rest) ((treesOfRest rest).flatMap RoseTree.labels) := by
  cases rest with
  | append plans | mergeAppend plans | bitmapAnd plans | bitmapOr plans => exact reaches_list plans
  | subqueryScan subplan => exact reaches subplan
  | customScan plans =>
    obtain rfl : plans = [] := h
    simpa [reachedRest, treesOfRest, treesOfList] using Reaches.nil
  | plain _ | join _ _ => simpa [reachedRest, treesOfRest] using Reaches.nil

end

theorem reaches_subplans (plans : List (Option Plan)) :
    Reaches (plans.flatMap reached) ((plans.flatMap treesOf).flatMap RoseTree.labels) := by
  induction plans with
  | nil => exact .nil
  | cons plan plans ih => simpa using (reaches plan).append ih

theorem PlannedStmt.reaches_nodes (pstmt : PlannedStmt) : Reaches pstmt.visited pstmt.nodes := by
  rw [pstmt.visited_eq, nodes, List.flatMap_append]
  exact (reaches pstmt.planTree).append (reaches_subplans pstmt.subplans)

/-! ## Shapes -/

mutual

/-- A plan without its estimates. -/
def Plan.shape : Plan → Plan
  | .node _ lefttree righttree rest => .node {} (shapeOf lefttree) (shapeOf righttree) rest.shape

def shapeOf : Option Plan → Option Plan
  | none => none
  | some plan => some plan.shape

def shapesOf : List Plan → List Plan
  | [] => []
  | plan :: plans => plan.shape :: shapesOf plans

def PlanRest.shape : PlanRest → PlanRest
  | .append plans => .append (shapesOf plans)
  | .mergeAppend plans => .mergeAppend (shapesOf plans)
  | .bitmapAnd plans => .bitmapAnd (shapesOf plans)
  | .bitmapOr plans => .bitmapOr (shapesOf plans)
  | .subqueryScan subplan => .subqueryScan (shapeOf subplan)
  | .customScan plans => .customScan (shapesOf plans)
  | .plain kind => .plain kind
  | .join kind jointype => .join kind jointype

end

def PlannedStmt.shape (pstmt : PlannedStmt) : PlannedStmt :=
  { planTree := shapeOf pstmt.planTree, subplans := pstmt.subplans.map shapeOf }

section Tokens

variable (core : PlanshapeCore)

theorem planshapeNodeToken_shape (rest : PlanRest) :
    core.planshapeNodeToken rest.shape = core.planshapeNodeToken rest := by
  cases rest <;> simp [PlanRest.shape, PlanshapeCore.planshapeNodeToken, PlanRest.tag]

/-- The tokens of the nodes. -/
def tokensOf (plans : List Plan) : List (BitVec 32) :=
  plans.map fun plan => core.planshapeNodeToken plan.rest

mutual

theorem tokens_node_shape (plan : Plan) :
    tokensOf core (reachedNode plan.shape) = tokensOf core (reachedNode plan) := by
  cases plan with
  | node estimates lefttree righttree rest =>
    have hleft := tokens_shape lefttree
    have hright := tokens_shape righttree
    have hrest := tokens_rest_shape rest
    simp only [tokensOf] at hleft hright hrest
    simp [tokensOf, Plan.shape, reachedNode, planshapeNodeToken_shape, hleft, hright,
      hrest]

theorem tokens_shape (plan : Option Plan) :
    tokensOf core (reached (shapeOf plan)) = tokensOf core (reached plan) := by
  cases plan with
  | none => rw [shapeOf]
  | some plan => simpa [shapeOf, reached] using tokens_node_shape plan

theorem tokens_list_shape (plans : List Plan) :
    tokensOf core (reachedList (shapesOf plans)) = tokensOf core (reachedList plans) := by
  cases plans with
  | nil => rw [shapesOf]
  | cons plan plans =>
    have hplan := tokens_node_shape plan
    have hplans := tokens_list_shape plans
    simp only [tokensOf] at hplan hplans
    simp [tokensOf, shapesOf, reachedList, hplan, hplans]

theorem tokens_rest_shape (rest : PlanRest) :
    tokensOf core (reachedRest rest.shape) = tokensOf core (reachedRest rest) := by
  cases rest with
  | append plans | mergeAppend plans | bitmapAnd plans | bitmapOr plans =>
    simpa [PlanRest.shape, reachedRest] using tokens_list_shape plans
  | subqueryScan subplan => simpa [PlanRest.shape, reachedRest] using tokens_shape subplan
  | customScan _ | plain _ | join _ _ => simp [PlanRest.shape, reachedRest]

end

theorem tokens_subplans_shape (plans : List (Option Plan)) :
    tokensOf core ((plans.map shapeOf).flatMap reached) = tokensOf core (plans.flatMap reached) := by
  induction plans with
  | nil => rfl
  | cons plan plans ih =>
    have hplan := tokens_shape core plan
    simp only [tokensOf] at hplan ih
    simp [tokensOf, hplan, ih]

/-- Estimates leave no trace in what is hashed. -/
theorem tokens_visited_shape (pstmt : PlannedStmt) :
    tokensOf core pstmt.shape.visited = tokensOf core pstmt.visited := by
  have htree := tokens_shape core pstmt.planTree
  have hsubplans := tokens_subplans_shape core pstmt.subplans
  simp only [tokensOf] at htree hsubplans
  rw [PlannedStmt.visited_eq, PlannedStmt.visited_eq]
  simp [tokensOf, PlannedStmt.shape, htree, hsubplans]

end Tokens

/-! ## Coverage -/

section Coverage

variable {core : PlanshapeCore}

/-- The statement's plan nodes are visited once each, and counted and hashed as visited; the same shape
with other estimates has the same hash. -/
structure PlanshapeCovers (core : PlanshapeCore) (pstmt : PlannedStmt) : Prop where
  visited : pstmt.visited = pstmt.nodes
  reported : ∃ risks, otelPlanshapeExecutorStart core true (some pstmt) true =
      (planShapeHashKey, .string (some (hex8 (digestOf core (tokensOf core pstmt.nodes))))) ::
        (planNodeCountKey, .int pstmt.nodes.length) :: risks ∧
      ∀ a ∈ risks, a.1 = planRisksKey
  shape : ∀ pstmt' : PlannedStmt, pstmt'.shape = pstmt.shape →
    (otelPlanshapeExecutorStart core true (some pstmt') true).head? =
      (otelPlanshapeExecutorStart core true (some pstmt) true).head?

/-- What is reported of a statement is the digest and the number of the nodes visited. -/
theorem otelPlanshapeExecutorStart_eq (core : PlanshapeCore) (pstmt : PlannedStmt) :
    ∃ risks, otelPlanshapeExecutorStart core true (some pstmt) true =
      (planShapeHashKey, .string (some (hex8 (digestOf core (tokensOf core pstmt.visited))))) ::
        (planNodeCountKey, .int pstmt.visited.length) :: risks ∧
      ∀ a ∈ risks, a.1 = planRisksKey := by
  obtain ⟨hdigest, hcount⟩ := planshapeVisit_foldl core pstmt.visited {}
  simp only [otelPlanshapeExecutorStart, Bool.and_self, if_true, planshapeStmt_eq_foldl, hdigest,
    hcount, Nat.zero_add]
  refine ⟨_, rfl, ?_⟩
  split_ifs <;> simp

/-- The walk covers a statement if and only if no custom scan of it has child plans. -/
theorem planshape_covers_iff (core : PlanshapeCore) (pstmt : PlannedStmt) :
    PlanshapeCovers core pstmt ↔ ∀ plan ∈ pstmt.nodes, plan.rest.customPlans = [] := by
  constructor
  · intro h
    exact pstmt.reaches_nodes.all_iff.1 h.visited
  · intro hnone
    have hvisited := pstmt.reaches_nodes.all_iff.2 hnone
    constructor
    · exact hvisited
    · rw [← hvisited]
      exact otelPlanshapeExecutorStart_eq core pstmt
    · intro pstmt' hshape
      obtain ⟨risks, hattrs, -⟩ := otelPlanshapeExecutorStart_eq core pstmt
      obtain ⟨risks', hattrs', -⟩ := otelPlanshapeExecutorStart_eq core pstmt'
      rw [hattrs, hattrs', ← tokens_visited_shape core pstmt, ← tokens_visited_shape core pstmt',
        hshape]
      rfl

/-- A server that numbers the tags in their order, with core's `hash_combine`. -/
def numberedCore : PlanshapeCore where
  nodeTag tag :=
    match tag with
    | .plain kind => BitVec.ofNat 32 (1 + kind.ctorIdx)
    | .join kind => BitVec.ofNat 32 (101 + kind.ctorIdx)
    | .append => 201
    | .mergeAppend => 202
    | .bitmapAnd => 203
    | .bitmapOr => 204
    | .subqueryScan => 205
    | .customScan => 206
  joinType jointype := BitVec.ofNat 32 jointype.ctorIdx
  hashCombine a b := a ^^^ (b + 0x9e3779b9#32 + (a <<< 6) + (a >>> 2))

/-- A custom scan over a scan of a table or of an index. -/
def customScanOver (kind : PlainPlan) : PlannedStmt :=
  { planTree := some (.node {} none none (.customScan [.node {} none none (.plain kind)]))
    subplans := [] }

/-- The child of a custom scan is neither counted nor hashed: plans that differ in it have one hash. -/
theorem custom_child_left_out :
    ¬ PlanshapeCovers numberedCore (customScanOver .seqScan) ∧
      (customScanOver .seqScan).visited.length = 1 ∧ (customScanOver .seqScan).nodes.length = 2 ∧
      (customScanOver .seqScan).shape ≠ (customScanOver .indexScan).shape ∧
      otelPlanshapeExecutorStart numberedCore true (some (customScanOver .seqScan)) true =
        otelPlanshapeExecutorStart numberedCore true (some (customScanOver .indexScan)) true := by
  have hlen : (customScanOver .seqScan).visited.length = 1 ∧
      (customScanOver .seqScan).nodes.length = 2 := by decide
  refine ⟨?_, hlen.1, hlen.2, ?_, ?_⟩
  · intro h
    have := congrArg List.length h.visited
    omega
  · simp [customScanOver, PlannedStmt.shape, shapeOf, Plan.shape, PlanRest.shape, shapesOf]
  · rfl

end Coverage

end PostgresOtel
