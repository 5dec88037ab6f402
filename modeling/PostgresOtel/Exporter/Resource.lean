import Mathlib.Data.List.DropRight
import Mathlib.Data.List.Find
import PostgresOtel.Context.Sqlcommenter
import PostgresOtel.Lib.Upsert

/-!
# The resource attributes

`otel_resource.c`: the attributes of the process that every signal carries, assembled once from the
settings, the environment and the host, and extended later.  A string stands for what its buffer holds
before the first NUL; the parser writes its NULs only inside the segment that it is at.
-/

set_option autoImplicit false

namespace PostgresOtel

/-! ## Parsing `OTEL_RESOURCE_ATTRIBUTES` -/

/-- `OTEL_RESOURCE_ATTR_CAPACITY`. -/
def otelResourceAttrCapacity : ℕ := 16

/-- `OTEL_RA_ENV_MAX_PAIRS`. -/
def otelRaEnvMaxPairs : ℕ := 32

/-- `isspace` on ASCII. -/
def isAsciiSpace (c : UInt8) : Bool := c = 0x20 ∨ (0x09 ≤ c ∧ c ≤ 0x0d)

/-- `trim_ws`. -/
def trimWs (s : CString) : CString := (s.dropWhile isAsciiSpace).rdropWhile isAsciiSpace

/-- The bytes that `pct_decode_inplace` writes. -/
def pctDecode : CString → CString
  | 0x25 :: hi :: lo :: rest =>
    match percentByte hi lo with
    | some c => c :: pctDecode rest
    | none => 0x25 :: pctDecode (hi :: lo :: rest)
  | c :: rest => c :: pctDecode rest
  | [] => []

/-- `pct_decode_inplace`: the string in the buffer afterwards. -/
def pctDecodeInplace (s : CString) : CString := (pctDecode s).takeWhile (· ≠ 0)

/-- `OtelRaPair`. -/
structure OtelRaPair where
  key : CString
  val : CString
  consumed : Bool := false
  deriving DecidableEq

/-- The pair of a segment; none if the segment has no `=` or no key. -/
def raPair (seg : CString) : Option OtelRaPair :=
  match seg.dropWhile (· ≠ 0x3d) with
  | [] => none
  | _ :: val =>
    let key := trimWs (seg.takeWhile (· ≠ 0x3d))
    if key = [] then none else some { key := key, val := pctDecodeInplace (trimWs val) }

/-- The loop of `parse_otel_resource_attributes`. -/
def parseLoop (maxPairs : ℕ) (pairs : List OtelRaPair) (p : CString) : List OtelRaPair :=
  if _h : p = [] ∨ maxPairs ≤ pairs.length then pairs
  else
    parseLoop maxPairs (pairs ++ (raPair (p.takeWhile (· ≠ 0x2c))).toList) (p.dropWhile (· ≠ 0x2c)).tail
termination_by p.length
decreasing_by
  have hdrop := (List.dropWhile_suffix (· ≠ 0x2c) (l := p)).length_le
  have hpos := List.length_pos_iff.2 (not_or.1 _h).1
  rw [List.length_tail]
  omega

/-- `parse_otel_resource_attributes`. -/
def parseOtelResourceAttributes (raw : Option CString) (maxPairs : ℕ) : List OtelRaPair :=
  match raw with
  | none => []
  | some raw => parseLoop maxPairs [] raw

/-- `consume_ra_pair`, with the pairs as it leaves them. -/
def consumeRaPair (key : CString) : List OtelRaPair → Option CString × List OtelRaPair
  | [] => (none, [])
  | p :: ps =>
    if p.consumed = false ∧ p.key = key ∧ p.val ≠ [] then
      (some p.val, { p with consumed := true } :: ps)
    else
      let rest := consumeRaPair key ps
      (rest.1, p :: rest.2)

/-! ## Assembling the resource -/

/-- `OtelResourceAttribute`: a key and its value. -/
abbrev OtelResourceAttribute := CString × CString

/-- What `otel_resource_init` reads: settings, environment variables, pg_control and the host. -/
structure ResourceEnv where
  otelServiceNameGuc : Option CString := none
  otelServiceInstanceIdGuc : Option CString := none
  envServiceName : Option CString := none
  envServiceInstanceId : Option CString := none
  envResourceAttributes : Option CString := none
  systemIdentifier : ℕ := 0
  /-- What `gethostname` stores, if it succeeds. -/
  hostname : Option CString := none

def nonEmpty (s : Option CString) : Option CString := s.filter (· ≠ [])

/-- A setting, then a variable, then a pair. -/
def resourceValue (guc var : Option CString) (key : CString) (pairs : List OtelRaPair) :
    Option CString × List OtelRaPair :=
  match nonEmpty guc with
  | some value => (some value, pairs)
  | none =>
    match nonEmpty var with
    | some value => (some value, pairs)
    | none => consumeRaPair key pairs

/-- One turn of the loop that pushes the remaining pairs. -/
def pushRaPair (attrs : List OtelResourceAttribute) (p : OtelRaPair) : List OtelResourceAttribute :=
  if p.consumed = true ∨ p.key = [] then attrs
  else if p.key ∈ attrs.map Prod.fst then attrs
  else if otelResourceAttrCapacity ≤ attrs.length then attrs
  else attrs ++ [(p.key, p.val)]

def serviceNameKey : CString := cstr "service.name"

def serviceInstanceIdKey : CString := cstr "service.instance.id"

def hostNameKey : CString := cstr "host.name"

/-- `host.name`: at most 255 bytes of the host's name. -/
def ResourceEnv.hostName (env : ResourceEnv) : CString :=
  match env.hostname with
  | some name => name.take 255
  | none => cstr "localhost"

/-- `otel_resource_init`. -/
def otelResourceInit (env : ResourceEnv) : List OtelResourceAttribute :=
  let pairs := parseOtelResourceAttributes env.envResourceAttributes otelRaEnvMaxPairs
  let serviceName := resourceValue env.otelServiceNameGuc env.envServiceName serviceNameKey pairs
  let instanceId :=
    resourceValue env.otelServiceInstanceIdGuc env.envServiceInstanceId serviceInstanceIdKey
      serviceName.2
  instanceId.2.foldl pushRaPair
    [(serviceNameKey, serviceName.1.getD (cstr "postgres")),
      (serviceInstanceIdKey, instanceId.1.getD (cstrNat env.systemIdentifier)),
      (hostNameKey, env.hostName)]

/-- The `WARNING` about a resource that is full. -/
def capacityExceeded (key : CString) : CString :=
  cstr "otel_resource_attr_add: resource attribute capacity (" ++ cstrNat otelResourceAttrCapacity ++
    cstr ") exceeded; ignoring key \"" ++ key ++ cstr "\""

/-- `otel_resource_attr_add`, with the `WARNING` it reports. -/
def otelResourceAttrAdd (attrs : List OtelResourceAttribute) (key value : Option CString) :
    List OtelResourceAttribute × Option CString :=
  match nonEmpty key with
  | none => (attrs, none)
  | some key =>
    if key ∈ attrs.map Prod.fst then (Upsert.put key (value.getD []) attrs, none)
    else if otelResourceAttrCapacity ≤ attrs.length then (attrs, some (capacityExceeded key))
    else (attrs ++ [(key, value.getD [])], none)

/-! ## The pairs of the environment -/

/-- The well-formed pairs of a string that is split on commas. -/
def wellFormedPairs (raw : CString) : List OtelRaPair := (raw.splitOn 0x2c).filterMap raPair

theorem splitOn_comma (p : CString) :
    p.splitOn 0x2c = p.takeWhile (· ≠ 0x2c) ::
      match p.dropWhile (· ≠ 0x2c) with
      | [] => []
      | _ :: rest => rest.splitOn 0x2c := by
  have hnone : (0x2c : UInt8) ∉ p.takeWhile (· ≠ 0x2c) := fun hmem => by
    simpa using List.mem_takeWhile_imp hmem
  have hsplit := List.takeWhile_append_dropWhile (p := (· ≠ 0x2c)) (l := p)
  cases hrest : p.dropWhile (· ≠ 0x2c) with
  | nil =>
    rw [hrest, List.append_nil] at hsplit
    rw [hsplit] at hnone ⊢
    exact List.splitOn_eq_singleton hnone
  | cons c rest =>
    have hc : c = 0x2c := by
      have hstop := List.head?_dropWhile_not (· ≠ 0x2c) p
      rw [hrest] at hstop
      simpa using hstop
    rw [hrest, hc] at hsplit
    conv_lhs => rw [← hsplit]
    exact List.splitOn_append_cons_self_of_not_mem hnone rest

/-- The loop collects the first well-formed pairs. -/
theorem parseLoop_eq {maxPairs : ℕ} {pairs : List OtelRaPair} {p : CString}
    (h : pairs.length ≤ maxPairs) :
    parseLoop maxPairs pairs p = (pairs ++ wellFormedPairs p).take maxPairs := by
  fun_induction parseLoop maxPairs pairs p with
  | case1 pairs p hstop =>
    rcases hstop with rfl | hfull
    · have hnone : wellFormedPairs [] = [] := rfl
      rw [hnone, List.append_nil, List.take_of_length_le h]
    · rw [List.take_append_of_le_length (by omega), List.take_of_length_le (by omega)]
  | case2 pairs p hgo ih =>
    have hroom : (pairs ++ (raPair (p.takeWhile (· ≠ 0x2c))).toList).length ≤ maxPairs := by
      have hone : (raPair (p.takeWhile (· ≠ 0x2c))).toList.length ≤ 1 := by
        cases raPair (p.takeWhile (· ≠ 0x2c)) <;> simp
      rw [List.length_append]
      omega
    have hpairs : wellFormedPairs p = (raPair (p.takeWhile (· ≠ 0x2c))).toList ++
        wellFormedPairs (p.dropWhile (· ≠ 0x2c)).tail := by
      unfold wellFormedPairs
      rw [splitOn_comma p]
      have htail : (match p.dropWhile (· ≠ 0x2c) with
          | [] => []
          | _ :: rest => rest.splitOn 0x2c).filterMap raPair =
          ((p.dropWhile (· ≠ 0x2c)).tail.splitOn 0x2c).filterMap raPair := by
        cases p.dropWhile (· ≠ 0x2c) <;> rfl
      rw [← htail]
      cases hseg : raPair (p.takeWhile (· ≠ 0x2c)) with
      | none => simp only [List.filterMap_cons_none hseg, Option.toList_none, List.nil_append]
      | some q => simp only [List.filterMap_cons_some hseg, Option.toList_some, List.singleton_append]
    rw [ih hroom, hpairs, List.append_assoc]

/-- The pairs that the process takes from its environment. -/
def envPairs (raw : Option CString) : List OtelRaPair :=
  (wellFormedPairs (raw.getD [])).take otelRaEnvMaxPairs

theorem parseOtelResourceAttributes_eq (raw : Option CString) :
    parseOtelResourceAttributes raw otelRaEnvMaxPairs = envPairs raw := by
  cases raw with
  | none => rfl
  | some raw => exact parseLoop_eq (Nat.zero_le _)

theorem raPair_fresh {seg : CString} {p : OtelRaPair} (h : raPair seg = some p) :
    p.consumed = false ∧ p.key ≠ [] := by
  unfold raPair at h
  split at h
  · cases h
  · dsimp only at h
    split_ifs at h with hkey
    obtain rfl := Option.some.inj h
    exact ⟨rfl, hkey⟩

/-- Nothing has been consumed yet, and every pair has a key. -/
theorem envPairs_fresh {raw : Option CString} {p : OtelRaPair} (h : p ∈ envPairs raw) :
    p.consumed = false ∧ p.key ≠ [] := by
  obtain ⟨seg, -, hseg⟩ := List.mem_filterMap.1 (List.mem_of_mem_take h)
  exact raPair_fresh hseg

/-! ## Consuming a pair -/

/-- Whether `consume_ra_pair` takes the pair. -/
def OtelRaPair.usable (key : CString) (p : OtelRaPair) : Bool :=
  p.consumed = false ∧ p.key = key ∧ p.val ≠ []

theorem consumeRaPair_fst (key : CString) (ps : List OtelRaPair) :
    (consumeRaPair key ps).1 = (ps.find? (OtelRaPair.usable key)).map OtelRaPair.val := by
  induction ps with
  | nil => rfl
  | cons p ps ih =>
    by_cases hp : p.consumed = false ∧ p.key = key ∧ p.val ≠ []
    · simp [consumeRaPair, OtelRaPair.usable, hp]
    · have husable : p.usable key = false := by simpa [OtelRaPair.usable] using hp
      rw [List.find?_cons_of_neg (by simp [husable]), ← ih, consumeRaPair, if_neg hp]

/-- What another key will find is as before. -/
theorem consumeRaPair_find? {key other : CString} (hne : key ≠ other) (ps : List OtelRaPair) :
    (consumeRaPair key ps).2.find? (OtelRaPair.usable other) =
      ps.find? (OtelRaPair.usable other) := by
  induction ps with
  | nil => rfl
  | cons p ps ih =>
    by_cases hp : p.consumed = false ∧ p.key = key ∧ p.val ≠ []
    · have hother : p.key ≠ other := fun h => hne (hp.2.1.symm.trans h)
      have husable : p.usable other = false := by simp [OtelRaPair.usable, hother]
      simp only [consumeRaPair, if_pos hp, List.find?_cons, husable]
      simp [OtelRaPair.usable]
    · rw [consumeRaPair, if_neg hp]
      simp only [List.find?_cons, ih]

/-- Consuming a pair changes nothing for the loop that pushes the rest, once the key has its entry. -/
theorem foldl_pushRaPair_consume {key : CString} (ps : List OtelRaPair)
    {attrs : List OtelResourceAttribute} (h : key ∈ attrs.map Prod.fst) :
    (consumeRaPair key ps).2.foldl pushRaPair attrs = ps.foldl pushRaPair attrs := by
  induction ps generalizing attrs with
  | nil => rfl
  | cons p ps ih =>
    by_cases hp : p.consumed = false ∧ p.key = key ∧ p.val ≠ []
    · have hskip : pushRaPair attrs p = attrs := by simp [pushRaPair, hp.2.1, h]
      have hconsumed : pushRaPair attrs { p with consumed := true } = attrs := by simp [pushRaPair]
      rw [consumeRaPair, if_pos hp, List.foldl_cons, List.foldl_cons, hskip, hconsumed]
    · rw [consumeRaPair, if_neg hp, List.foldl_cons, List.foldl_cons]
      apply ih
      unfold pushRaPair
      split_ifs <;> simp [h]

/-- The value by the documented precedence: the setting, the variable, the first pair that is not
empty, the default. -/
def documentedValue (guc var raw : Option CString) (key default : CString) : CString :=
  (((nonEmpty guc).or (nonEmpty var)).or
    (((envPairs raw).find? fun p => p.key = key ∧ p.val ≠ []).map OtelRaPair.val)).getD default

theorem find?_usable (raw : Option CString) (key : CString) :
    (envPairs raw).find? (OtelRaPair.usable key) =
      (envPairs raw).find? fun p => p.key = key ∧ p.val ≠ [] := by
  apply List.find?_congr
  intro p hp
  simp [OtelRaPair.usable, (envPairs_fresh hp).1]

theorem resourceValue_getD (guc var raw : Option CString) {key default : CString}
    {pairs : List OtelRaPair}
    (h : pairs.find? (OtelRaPair.usable key) = (envPairs raw).find? (OtelRaPair.usable key)) :
    (resourceValue guc var key pairs).1.getD default =
      documentedValue guc var raw key default := by
  unfold resourceValue documentedValue
  cases nonEmpty guc with
  | some value => rfl
  | none =>
    cases nonEmpty var with
    | some value => rfl
    | none => simp only [consumeRaPair_fst, h, find?_usable, Option.none_or]

theorem resourceValue_find? (guc var : Option CString) {key other : CString} (hne : key ≠ other)
    (pairs : List OtelRaPair) :
    (resourceValue guc var key pairs).2.find? (OtelRaPair.usable other) =
      pairs.find? (OtelRaPair.usable other) := by
  unfold resourceValue
  split
  · rfl
  · split
    · rfl
    · exact consumeRaPair_find? hne pairs

theorem foldl_pushRaPair_resourceValue (guc var : Option CString) {key : CString}
    (pairs : List OtelRaPair) {attrs : List OtelResourceAttribute} (h : key ∈ attrs.map Prod.fst) :
    (resourceValue guc var key pairs).2.foldl pushRaPair attrs = pairs.foldl pushRaPair attrs := by
  unfold resourceValue
  split
  · rfl
  · split
    · rfl
    · exact foldl_pushRaPair_consume pairs h

/-! ## Pushing the rest -/

/-- What the loop over `ps` has made of `base`. -/
structure Pushed (base : List OtelResourceAttribute) (ps : List OtelRaPair)
    (attrs : List OtelResourceAttribute) : Prop where
  nodup : (attrs.map Prod.fst).Nodup
  room : attrs.length ≤ otelResourceAttrCapacity
  keeps : base <+: attrs
  /-- A new entry is the first pair with its key. -/
  first : ∀ e ∈ attrs, e ∈ base ∨
    ∃ p, ps.find? (fun p => p.key = e.1) = some p ∧ e.2 = p.val
  /-- No pair is left out while there is room. -/
  all : attrs.length < otelResourceAttrCapacity → ∀ p ∈ ps, p.key ∈ attrs.map Prod.fst

theorem Pushed.step {base attrs : List OtelResourceAttribute} {ps : List OtelRaPair} {p : OtelRaPair}
    (h : Pushed base ps attrs) (hfresh : p.consumed = false ∧ p.key ≠ []) :
    Pushed base (ps ++ [p]) (pushRaPair attrs p) := by
  have hkept : ∀ e ∈ attrs, e ∈ base ∨
      ∃ q, (ps ++ [p]).find? (fun q => q.key = e.1) = some q ∧ e.2 = q.val := by
    intro e he
    refine (h.first e he).imp_right ?_
    rintro ⟨q, hq, hval⟩
    exact ⟨q, by rw [List.find?_append, hq]; rfl, hval⟩
  unfold pushRaPair
  rw [if_neg (by simp [hfresh])]
  split_ifs with hmem hfull
  · -- the key is there already
    apply Pushed.mk h.nodup h.room h.keeps hkept
    intro hroom q hq
    rcases List.mem_append.1 hq with hold | hnew
    · exact h.all hroom q hold
    · rw [List.mem_singleton.1 hnew]
      exact hmem
  · apply Pushed.mk h.nodup h.room h.keeps hkept
    intro hroom
    omega
  · have hnone : ps.find? (fun q => q.key = p.key) = none := by
      rw [List.find?_eq_none]
      intro q hq
      have hkey := h.all (by omega) q hq
      simp only [decide_eq_true_eq]
      exact fun heq => hmem (heq ▸ hkey)
    constructor
    case nodup =>
      rw [List.map_append, List.nodup_append]
      simp only [List.map_cons, List.map_nil, List.mem_singleton]
      exact ⟨h.nodup, by simp, fun k hk k' hk' heq => hmem (by rwa [← hk', ← heq])⟩
    case room =>
      rw [List.length_append, List.length_singleton]
      omega
    case keeps => exact h.keeps.trans (List.prefix_append _ _)
    case first =>
      intro e he
      rcases List.mem_append.1 he with hold | hnew
      · exact hkept e hold
      · obtain rfl := List.mem_singleton.1 hnew
        right
        exact ⟨p, by simp [List.find?_append, hnone], rfl⟩
    case all =>
      intro hroom q hq
      rw [List.length_append, List.length_singleton] at hroom
      rw [List.map_append, List.mem_append]
      rcases List.mem_append.1 hq with hold | hnew
      · exact .inl (h.all (by omega) q hold)
      · right
        simp [List.mem_singleton.1 hnew]

theorem Pushed.run {base attrs : List OtelResourceAttribute} {before ps : List OtelRaPair}
    (h : Pushed base before attrs) (hfresh : ∀ p ∈ ps, p.consumed = false ∧ p.key ≠ []) :
    Pushed base (before ++ ps) (ps.foldl pushRaPair attrs) := by
  induction ps generalizing before attrs with
  | nil => rwa [List.append_nil]
  | cons p ps ih =>
    have hstep := h.step (hfresh p List.mem_cons_self)
    have hrest := ih hstep fun q hq => hfresh q (List.mem_cons_of_mem _ hq)
    rwa [List.append_assoc] at hrest

/-! ## The resource -/

/-- The entries that the process always has. -/
def ResourceEnv.ownEntries (env : ResourceEnv) : List OtelResourceAttribute :=
  [(serviceNameKey, documentedValue env.otelServiceNameGuc env.envServiceName
      env.envResourceAttributes serviceNameKey (cstr "postgres")),
    (serviceInstanceIdKey, documentedValue env.otelServiceInstanceIdGuc env.envServiceInstanceId
      env.envResourceAttributes serviceInstanceIdKey (cstrNat env.systemIdentifier)),
    (hostNameKey, env.hostName)]

theorem otelResourceInit_eq (env : ResourceEnv) :
    otelResourceInit env = (envPairs env.envResourceAttributes).foldl pushRaPair env.ownEntries := by
  unfold otelResourceInit
  simp only [parseOtelResourceAttributes_eq]
  rw [foldl_pushRaPair_resourceValue _ _ _ (by simp), foldl_pushRaPair_resourceValue _ _ _ (by simp),
    resourceValue_getD _ _ _ rfl,
    resourceValue_getD _ _ _ (resourceValue_find? _ _ (by decide) _)]
  rfl

theorem otelResourceInit_pushed (env : ResourceEnv) :
    Pushed env.ownEntries (envPairs env.envResourceAttributes) (otelResourceInit env) := by
  have hkeys : (env.ownEntries.map Prod.fst).Nodup := by
    show [serviceNameKey, serviceInstanceIdKey, hostNameKey].Nodup
    decide
  have hown : Pushed env.ownEntries [] env.ownEntries :=
    { nodup := hkeys
      room := by simp [ResourceEnv.ownEntries, otelResourceAttrCapacity]
      keeps := List.prefix_rfl
      first := fun _ he => .inl he
      all := by simp }
  rw [otelResourceInit_eq]
  exact hown.run fun p hp => envPairs_fresh hp

/-- The resource after calls of `otel_resource_attr_add`. -/
def resourceAfter (env : ResourceEnv) (adds : List (Option CString × Option CString)) :
    List OtelResourceAttribute :=
  adds.foldl (fun attrs add => (otelResourceAttrAdd attrs add.1 add.2).1) (otelResourceInit env)

theorem otelResourceAttrAdd_none {key : Option CString} (h : nonEmpty key = none)
    (attrs : List OtelResourceAttribute) (value : Option CString) :
    otelResourceAttrAdd attrs key value = (attrs, none) := by
  simp only [otelResourceAttrAdd, h]

theorem otelResourceAttrAdd_some {key : CString} (h : key ≠ []) (attrs : List OtelResourceAttribute)
    (value : Option CString) :
    otelResourceAttrAdd attrs (some key) value =
      if key ∈ attrs.map Prod.fst then (Upsert.put key (value.getD []) attrs, none)
      else if otelResourceAttrCapacity ≤ attrs.length then (attrs, some (capacityExceeded key))
      else (attrs ++ [(key, value.getD [])], none) := by
  have hkey : nonEmpty (some key) = some key := by simp [nonEmpty, Option.filter, h]
  simp only [otelResourceAttrAdd, hkey]

/-- What adding cannot break. -/
structure Kept (init : List OtelResourceAttribute) (adds : List (Option CString × Option CString))
    (attrs : List OtelResourceAttribute) : Prop where
  nodup : (attrs.map Prod.fst).Nodup
  room : attrs.length ≤ otelResourceAttrCapacity
  keys : ∀ k ∈ init.map Prod.fst, k ∈ attrs.map Prod.fst
  origin : ∀ e ∈ attrs, e ∈ init ∨ ∃ add ∈ adds, add.1 = some e.1 ∧ e.2 = add.2.getD []

theorem Kept.step {init attrs : List OtelResourceAttribute}
    {adds : List (Option CString × Option CString)} (h : Kept init adds attrs)
    (key value : Option CString) :
    Kept init (adds ++ [(key, value)]) (otelResourceAttrAdd attrs key value).1 := by
  have hold : ∀ e ∈ attrs, e ∈ init ∨
      ∃ add ∈ adds ++ [(key, value)], add.1 = some e.1 ∧ e.2 = add.2.getD [] := by
    intro e he
    refine (h.origin e he).imp_right ?_
    rintro ⟨add, hadd, heq⟩
    exact ⟨add, List.mem_append_left _ hadd, heq⟩
  have hsame : Kept init (adds ++ [(key, value)]) attrs := ⟨h.nodup, h.room, h.keys, hold⟩
  cases hkey : nonEmpty key with
  | none =>
    rw [otelResourceAttrAdd_none hkey]
    exact hsame
  | some key' =>
    obtain ⟨rfl, hne⟩ : key = some key' ∧ key' ≠ [] := by
      have hsome := Option.filter_eq_some_iff.1 hkey
      simpa using hsome
    rw [otelResourceAttrAdd_some hne]
    split_ifs with hmem hfull
    · constructor
      case nodup => exact Upsert.nodup_put h.nodup
      case room =>
        show (Upsert.put key' (value.getD []) attrs).length ≤ _
        rw [Upsert.length_put_of_mem h.nodup hmem]
        exact h.room
      case keys =>
        intro k hk
        exact (Upsert.mem_keys_put _ _ _ _).2 (.inr (h.keys k hk))
      case origin =>
        intro e he
        rcases Upsert.mem_put he with rfl | he
        · exact .inr ⟨(some key', value), by simp, rfl, rfl⟩
        · exact hold e he
    · exact hsame
    · -- a new key with room for it
      constructor
      case nodup =>
        rw [← Upsert.put_of_not_mem hmem]
        exact Upsert.nodup_put h.nodup
      case room =>
        show (attrs ++ [(key', value.getD [])]).length ≤ _
        rw [List.length_append, List.length_singleton]
        omega
      case keys =>
        intro k hk
        simp only [List.map_append, List.mem_append]
        exact .inl (h.keys k hk)
      case origin =>
        intro e he
        rcases List.mem_append.1 he with he | he
        · exact hold e he
        · obtain rfl := List.mem_singleton.1 he
          exact .inr ⟨(some key', value), by simp, rfl, rfl⟩

theorem Kept.run {init attrs : List OtelResourceAttribute}
    {before adds : List (Option CString × Option CString)} (h : Kept init before attrs) :
    Kept init (before ++ adds)
      (adds.foldl (fun attrs add => (otelResourceAttrAdd attrs add.1 add.2).1) attrs) := by
  induction adds generalizing before attrs with
  | nil => rwa [List.append_nil]
  | cons add adds ih =>
    have hrest := ih (h.step add.1 add.2)
    rwa [List.append_assoc] at hrest

theorem resourceAfter_kept (env : ResourceEnv) (adds : List (Option CString × Option CString)) :
    Kept (otelResourceInit env) adds (resourceAfter env adds) := by
  have hinit := otelResourceInit_pushed env
  have hkept : Kept (otelResourceInit env) [] (otelResourceInit env) :=
    ⟨hinit.nodup, hinit.room, fun _ hk => hk, fun _ he => .inl he⟩
  exact hkept.run

/-- The first entry with a key of the process's own is its own. -/
theorem lookup_ownEntries (env : ResourceEnv) :
    (otelResourceInit env).take 3 = env.ownEntries := by
  obtain ⟨rest, hrest⟩ := (otelResourceInit_pushed env).keeps
  rw [← hrest]
  rfl

/-- The resource after any adds: its keys are distinct and at most 16; the process's own three entries
come first, by the documented precedence, and keep their keys; any other entry of the environment is the
first of the first 32 well-formed pairs with its key; and an add replaces the value of a key in place,
appends a key that is new, not empty and has room, and changes nothing otherwise. -/
theorem resource_assembly (env : ResourceEnv) (adds : List (Option CString × Option CString)) :
    ((resourceAfter env adds).map Prod.fst).Nodup ∧
      (resourceAfter env adds).length ≤ otelResourceAttrCapacity ∧
      (otelResourceInit env).take 3 = env.ownEntries ∧
      (∀ k ∈ [serviceNameKey, serviceInstanceIdKey, hostNameKey],
        k ∈ (resourceAfter env adds).map Prod.fst) ∧
      (∀ e ∈ otelResourceInit env, e ∈ env.ownEntries ∨
        ∃ p, (envPairs env.envResourceAttributes).find? (fun p => p.key = e.1) = some p ∧
          e.2 = p.val) ∧
      (∀ e ∈ resourceAfter env adds, e ∈ otelResourceInit env ∨
        ∃ add ∈ adds, add.1 = some e.1 ∧ e.2 = add.2.getD []) ∧
      ∀ key value, otelResourceAttrAdd (resourceAfter env adds) key value =
        match nonEmpty key with
        | none => (resourceAfter env adds, none)
        | some key =>
          if key ∈ (resourceAfter env adds).map Prod.fst then
            ((resourceAfter env adds).map fun e =>
              if e.1 == key then (e.1, value.getD []) else e, none)
          else if (resourceAfter env adds).length < otelResourceAttrCapacity then
            (resourceAfter env adds ++ [(key, value.getD [])], none)
          else (resourceAfter env adds, some (capacityExceeded key)) := by
  have hkept := resourceAfter_kept env adds
  have hinit := otelResourceInit_pushed env
  refine ⟨hkept.nodup, hkept.room, lookup_ownEntries env, ?_, hinit.first, hkept.origin, ?_⟩
  · intro k hk
    exact hkept.keys k ((hinit.keeps.map Prod.fst).subset hk)
  · intro key value
    unfold otelResourceAttrAdd
    cases nonEmpty key with
    | none => rfl
    | some key =>
      dsimp only
      by_cases hmem : key ∈ (resourceAfter env adds).map Prod.fst
      · rw [if_pos hmem, if_pos hmem, Upsert.put_of_mem hkept.nodup hmem]
      · rw [if_neg hmem, if_neg hmem]
        by_cases hroom : (resourceAfter env adds).length < otelResourceAttrCapacity
        · rw [if_neg (by omega), if_pos hroom]
        · rw [if_pos (by omega), if_neg hroom]

/-- The variable names the host, and has a value with a percent-encoded NUL. -/
def pairsEnv : ResourceEnv := { envResourceAttributes := some (cstr "host.name=other,k=a%00b") }

/-- A key that is empty is new, and there is room for it, but nothing is added.  The pair of `host.name`
does not count, and the value with the NUL ends there. -/
theorem empty_key_is_ignored :
    let attrs := otelResourceInit pairsEnv
    (([] : CString) ∉ attrs.map Prod.fst ∧ attrs.length < otelResourceAttrCapacity ∧
      (otelResourceAttrAdd attrs (some []) (some (cstr "v"))).1 = attrs) ∧
    ((envPairs pairsEnv.envResourceAttributes).map OtelRaPair.key = [hostNameKey, cstr "k"] ∧
      attrs.lookup hostNameKey = some (cstr "localhost") ∧ attrs.lookup (cstr "k") = some (cstr "a")) := by
  intro attrs
  decide +kernel

end PostgresOtel
