import PostgresOtel.Producer.State

/-!
# Handles, slots and the active stack

The helpers of `otel_producer.c` below its API: drawing identifiers, looking handles up, copying into
a slot's memory context, the active stack, and taking and releasing slots.  A position on the active
stack is counted from its top, so the top is `0`.
-/

set_option autoImplicit false

namespace PostgresOtel

variable (env : Env)

/-! ## Identifiers -/

def getCurrentTimestamp : M TimestampTz := ask env.clock

/-- The time given, or the current one if it is zero. -/
def timeOrNow (time : TimestampTz) : M TimestampTz :=
  if time = 0 then getCurrentTimestamp env else pure time

def seedPrngIfNeeded : M Unit := do
  let s ← get
  if s.prngSeeded then
    return ()
  else
    modify fun s => { s with prngSeeded := true, genCounter := env.seedDraw % otelGenModulus }

/-- The generation after `g`; `0` is left out. -/
def genAfter (g : ℕ) : {g : ℕ // 0 < g} :=
  if h : (g + 1) % otelGenModulus = 0 then ⟨1, Nat.one_pos⟩
  else ⟨(g + 1) % otelGenModulus, Nat.pos_of_ne_zero h⟩

def nextGen : M {g : ℕ // 0 < g} := do
  let s ← get
  modify fun s => { s with genCounter := (genAfter s.genCounter).1 }
  return genAfter s.genCounter

/-- `new_span_id`: draws until the value is not zero. -/
def newSpanId : M OtelSpanId := ask fun n => (env.spanIdDraw n).1

/-- `new_trace_id`: draws until the value is not zero. -/
def newTraceId : M OtelTraceId := ask fun n => (env.traceIdDraw n).1

/-! ## Handles -/

/-- `slot_for_ref`: the slot of a positive handle, or none if it is stale. -/
def slotForRef (s : OtelSpanRef) : M (Option ℕ) := do
  let st ← get
  let idx := refIdx s
  let gen := refGen s
  if idx < st.slotsUsed ∧ (st.slots idx).gen = gen then
    return some idx
  else if idx < st.slotsUsed ∧ (st.slots idx).ownerReleasedGen = gen then
    return none
  else
    modifyCounters fun c => { c with staleHandle := c.staleHandle + 1 }
    return none

/-- `nrec_for_ref`. -/
def nrecForRef (s : OtelSpanRef) : M (Option ℕ) := do
  let st ← get
  let idx := refIdx s
  let gen := refGen s
  if idx < st.nrecsUsed ∧ (st.nrecs idx).gen = gen then
    return some idx
  else if idx < st.nrecsUsed ∧ (st.nrecs idx).ownerReleasedGen = gen then
    return none
  else
    modifyCounters fun c => { c with staleHandle := c.staleHandle + 1 }
    return none

/-! ## Copying into a slot -/

/-- An allocation with `MCXT_ALLOC_NO_OOM`: whether it succeeds. -/
def allocNoOom : M Bool := ask fun n => !env.allocFails n

/-- `slot_strdup`: the copy, if it could be made, and whether it was clipped to `maxlen`. -/
def slotStrdup (idx : ℕ) (str : CString) (maxlen : Option ℕ) : M (Option CString × Bool) := do
  let s ← get
  let clip := match maxlen with
    | some n => decide (n < str.length)
    | none => false
  let len := match maxlen with
    | some n => if n < str.length then env.mbcliplen str n else str.length
    | none => str.length
  if env.maxSpanBytes < (s.slots idx).bytes + len + 1 then
    return (none, clip)
  else
    let ok ← allocNoOom env
    if ok then
      modifySlot idx (OtelSlot.request (len + 1) (len + 1))
      return (some (str.take len), clip)
    else
      return (none, clip)

/-- The arrays of a slot that `slot_grow` grows. -/
inductive SlotArray
  | attrs | events | links
  deriving DecidableEq

/-- `sizeof` of an array's elements, on a 64-bit platform. -/
def SlotArray.elemSize : SlotArray → ℕ
  | .attrs => 24
  | .events => 32
  | .links => 40

def SlotArray.cap (arr : SlotArray) (slot : OtelSlot) : ℕ :=
  match arr with
  | .attrs => slot.attrsCap
  | .events => slot.eventsCap
  | .links => slot.linksCap

/-- Whether the array is still the one inside the slot. -/
def SlotArray.isInline (arr : SlotArray) (slot : OtelSlot) : Bool :=
  match arr with
  | .attrs => decide (slot.attrsCap = otelSlotInlineAttrs)
  | .events => false
  | .links => false

def SlotArray.setCap (arr : SlotArray) (cap : ℕ) (slot : OtelSlot) : OtelSlot :=
  match arr with
  | .attrs => { slot with attrsCap := cap }
  | .events => { slot with eventsCap := cap }
  | .links => { slot with linksCap := cap }

/-- `slot_grow`: make room for `want` elements; false if there is none.  An array on the heap is
enlarged in place; the one inside the slot is left for a new one, of which only what is more is added
to the account. -/
def slotGrow (idx : ℕ) (arr : SlotArray) (want : ℕ) : M Bool := do
  let s ← get
  let slot := s.slots idx
  let cap := arr.cap slot
  let newcap := max (max want (cap * 2)) 4
  let more := (newcap - cap) * arr.elemSize
  let size := if arr.isInline slot then newcap * arr.elemSize else more
  if want ≤ cap then
    return true
  else if env.maxSpanBytes < slot.bytes + more then
    return false
  else
    let ok ← allocNoOom env
    if ok then
      modifySlot idx fun slot => arr.setCap newcap (slot.request size more)
      return true
    else
      return false

/-! ## The active stack -/

/-- `stack_find`: the position of the topmost entry naming `entry`. -/
def stackFind (entry : StackRef) : M (Option ℕ) := do
  let s ← get
  return s.spanStack.findIdx? fun e => e.entry = entry

def stackPush (entry : StackRef) (isActivation : Bool) (nestLevel : ℕ) : M Unit :=
  modify fun s => { s with spanStack := ⟨entry, isActivation, nestLevel⟩ :: s.spanStack }

def stackRemoveAt (pos : ℕ) : M Unit :=
  modify fun s => { s with spanStack := s.spanStack.eraseIdx pos }

/-- Take the entry naming `entry` off the stack, if there is one. -/
def stackRemove (entry : StackRef) : M Unit := do
  let pos ← stackFind entry
  match pos with
  | some pos => stackRemoveAt pos
  | none => pure ()

/-- `span_stack_depth--`. -/
def stackPop : M Unit := modify fun s => { s with spanStack := s.spanStack.tail }

def freeNrec (idx : ℕ) (byOwner : Bool) : M Unit :=
  modify fun s =>
    let n := s.nrecs idx
    { s with
      nrecs := Function.update s.nrecs idx
        { n with
          ownerReleasedGen := if byOwner then n.gen else n.ownerReleasedGen
          gen := 0
          nextFree := s.nrecFreeHead }
      nrecFreeHead := idx }

/-! ## Slot allocation and release -/

/-- `AllocSetContextCreate` of the pool's context. -/
def createPoolContext : M Unit :=
  if env.poolContextRaises then
    raiseError { elevel := elevelError, sqlerrcode := errcodeOutOfMemory }
  else
    modify fun s => { s with poolCxt := true }

/-- `ensure_pool`. -/
def ensurePool : M Bool := do
  let s ← get
  if s.poolReady then
    return true
  else
    runIf (s.poolCxt = false) (createPoolContext env)
    let ok ← allocNoOom env
    modify fun s => { s with nslots := env.maxOpenSpans, poolReady := ok }
    return ok

/-- The first half of `take_slot`: a slot off the free list, or the first one never used. -/
def takeFreeSlot : M (Option ℕ) := do
  let s ← get
  if 0 ≤ s.slotFreeHead then
    let idx := s.slotFreeHead.toNat
    modify fun s => { s with slotFreeHead := (s.slots idx).nextFree }
    return some idx
  else if s.slotsUsed < s.nslots then
    modify fun s =>
      { s with
        slotsUsed := s.slotsUsed + 1
        slots := Function.update s.slots s.slotsUsed {} }
    return some s.slotsUsed
  else
    return none

/-- Put a slot in front of the free list. -/
def pushFreeSlot (idx : ℕ) : M Unit :=
  modify fun s =>
    { s with
      slots := Function.update s.slots idx { s.slots idx with nextFree := s.slotFreeHead }
      slotFreeHead := idx }

/-- `take_slot`: a free slot with a memory context.  Creating the context may raise; the slot is
then put back. -/
def takeSlot : M (Option ℕ) := do
  let taken ← takeFreeSlot
  match taken with
  | none => return none
  | some idx =>
    let s ← get
    if (s.slots idx).cxt then
      return some idx
    else
      pgTry
        (do
          if env.slotContextRaises then
            raiseError { elevel := elevelError, sqlerrcode := errcodeOutOfMemory }
          else
            modifySlot idx fun slot => { slot with cxt := true })
        (do
          pushFreeSlot idx
          throw .error)
      return some idx

/-- `ResourceOwnerForget`: raises if the owner is being released or does not hold the handle. -/
def resourceOwnerForget (owner : ResourceOwner) (ref : OtelSpanRef) : M Unit := do
  let s ← get
  if env.forgetRaises ref ∨ ∀ r ∈ s.owners owner, r.1 ≠ ref then
    raiseError { elevel := elevelError }
  else
    modify fun s =>
      { s with
        owners := Function.update s.owners owner ((s.owners owner).eraseP fun r => r.1 = ref) }

/-- `ResourceOwnerRemember`. -/
def resourceOwnerRemember (owner : ResourceOwner) (ref : OwnedRef) : M Unit :=
  modify fun s => { s with owners := Function.update s.owners owner (ref :: s.owners owner) }

/-- The owner of slot `idx`, if it has one, forgets the span. -/
def forgetSlot (idx : ℕ) (slot : OtelSlot) : M Unit :=
  match slot.owner with
  | none => pure ()
  | some owner => resourceOwnerForget env owner (makeRef slot.gen idx true)

/-- `release_slot`, with the fate its caller gives the span. -/
def releaseSlot (idx : ℕ) (byOwner : Bool) (fate : Fate) : M Unit := do
  let s ← get
  let slot := s.slots idx
  let released := if byOwner then slot.gen else slot.ownerReleasedGen
  runIf (byOwner = false) (forgetSlot env idx slot)
  runIf (slot.session = true)
    (modify fun s => { s with sessionSpansOpen := s.sessionSpansOpen - 1 })
  modify fun s =>
    { s with
      slots := Function.update s.slots idx
        { cxt := slot.cxt, ownerReleasedGen := released, nextFree := s.slotFreeHead }
      slotFreeHead := idx
      fates := s.fates ++ [(slot.serial, fate)] }

end PostgresOtel
