import PostgresOtel.Trace.Core

/-!
# Plan walks

The dispatcher of `otel_planwalk.c` over a tree of `PlanState`s: it shows every node to the
collectors before its children, with the nodes above it, root first, as far as the array of
ancestors holds them.

`PlanState.visits` lists what a walk shows.  A walk is a fold over it (`walk_eq_foldl`), so what the
collectors do is proved node by node.
-/

set_option autoImplicit false

namespace PostgresOtel

/-- What the collectors read of a `PlanState`: `nloops` of its instrumentation, if the executor
allocated one, and for a wrapped sort whether its first call has returned. -/
structure PlanStateInfo extends PlanNode where
  instrument : Option ℕ := none
  firstCallEnded : Bool := false
  deriving DecidableEq

/-- A `PlanState` with its children, as `planstate_tree_walker` visits them. -/
inductive PlanState
  | node (info : PlanStateInfo) (children : List PlanState)

/-- `OTEL_PLANWALK_MAX_ANCESTORS`. -/
def otelPlanwalkMaxAncestors : ℕ := 64

section Walk

variable {σ : Type}

mutual

/-- `otel_planwalk_walker`: `path` is the way from the root, and `visit` what the enabled collectors
do about a node. -/
def PlanState.walk (visit : List PlanStateInfo → PlanStateInfo → σ → σ) (path : List PlanStateInfo) :
    PlanState → σ → σ
  | .node info children, s =>
    walkChildren visit (path ++ [info]) children (visit (path.take otelPlanwalkMaxAncestors) info s)

/-- `planstate_tree_walker`. -/
def PlanState.walkChildren (visit : List PlanStateInfo → PlanStateInfo → σ → σ)
    (path : List PlanStateInfo) : List PlanState → σ → σ
  | [], s => s
  | child :: children, s => walkChildren visit path children (child.walk visit path s)

end

mutual

/-- The nodes in the order of the walk, each with the ancestors it is shown with. -/
def PlanState.visits (path : List PlanStateInfo) : PlanState → List (List PlanStateInfo × PlanStateInfo)
  | .node info children =>
    (path.take otelPlanwalkMaxAncestors, info) :: visitsOfChildren (path ++ [info]) children

def PlanState.visitsOfChildren (path : List PlanStateInfo) :
    List PlanState → List (List PlanStateInfo × PlanStateInfo)
  | [] => []
  | child :: children => child.visits path ++ visitsOfChildren path children

end

/-- The nodes of a plan. -/
def PlanState.infos (plan : PlanState) : List PlanStateInfo := (plan.visits []).map Prod.snd

mutual

/-- A walk is a fold over what it shows. -/
theorem PlanState.walk_eq_foldl (visit : List PlanStateInfo → PlanStateInfo → σ → σ)
    (path : List PlanStateInfo) (plan : PlanState) (s : σ) :
    plan.walk visit path s = (plan.visits path).foldl (fun s v => visit v.1 v.2 s) s := by
  cases plan with
  | node info children =>
    rw [walk, visits, List.foldl_cons]
    exact walkChildren_eq_foldl visit (path ++ [info]) children _

theorem PlanState.walkChildren_eq_foldl (visit : List PlanStateInfo → PlanStateInfo → σ → σ)
    (path : List PlanStateInfo) (children : List PlanState) (s : σ) :
    walkChildren visit path children s =
      (visitsOfChildren path children).foldl (fun s v => visit v.1 v.2 s) s := by
  cases children with
  | nil => rfl
  | cons child children =>
    rw [walkChildren, visitsOfChildren, List.foldl_append, walk_eq_foldl visit path child s]
    exact walkChildren_eq_foldl visit path children _

end

end Walk

end PostgresOtel
