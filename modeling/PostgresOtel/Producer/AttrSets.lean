import PostgresOtel.Lib.Upsert
import PostgresOtel.Producer.SpanChanges

/-!
# Setting attributes

What `slot_attr` and the setters over it do to the attributes of a span when any copy or growth may
be refused.  A set that goes through puts its value; a refused one leaves the attributes alone and
counts a dropped one, but for the case where `set_str_internal` cannot copy a new value for a key that
is there already and takes the last attribute off instead.
-/

set_option autoImplicit false

namespace PostgresOtel

open Exec

/-- An attribute as a key with a value. -/
def OtelAttribute.entry (a : OtelAttribute) : CString × OtelAttrValue := (a.key, a.v)

/-- The attributes of a span as keys with values. -/
def OtelSlot.entries (slot : OtelSlot) : List (CString × OtelAttrValue) :=
  slot.attrs.map OtelAttribute.entry

/-- The span has an attribute `key`. -/
def OtelSlot.Holds (slot : OtelSlot) (key : CString) : Prop := key ∈ slot.attrs.map OtelAttribute.key

instance (slot : OtelSlot) (key : CString) : Decidable (slot.Holds key) :=
  inferInstanceAs (Decidable (_ ∈ _))

theorem keys_entries (slot : OtelSlot) :
    slot.entries.map Prod.fst = slot.attrs.map OtelAttribute.key := by
  simp [OtelSlot.entries, Function.comp_def, OtelAttribute.entry]

theorem not_holds_of_findIdx {slot : OtelSlot} {key : CString}
    (h : slot.attrs.findIdx? (fun a => a.key = key) = none) : ¬ slot.Holds key := by
  rw [List.findIdx?_eq_none_iff] at h
  unfold OtelSlot.Holds
  rw [List.mem_map]
  rintro ⟨a, ha, hkey⟩
  simpa [hkey] using h a ha

theorem holds_of_findIdx {slot : OtelSlot} {key : CString} {k : ℕ}
    (h : slot.attrs.findIdx? (fun a => a.key = key) = some k) : slot.Holds key := by
  by_contra hnot
  have hnone : slot.attrs.findIdx? (fun a => a.key = key) = none := by
    rw [List.findIdx?_eq_none_iff]
    intro a ha
    have hne : a.key ≠ key := fun hkey => hnot (List.mem_map.2 ⟨a, ha, hkey⟩)
    simp [hne]
  rw [hnone] at h
  cases h

/-- Setting the value at the place a key is found at. -/
theorem entries_modify {attrs : List OtelAttribute} {key : CString} {v : OtelAttrValue} {k : ℕ}
    (h : attrs.findIdx? (fun a => a.key = key) = some k) :
    (attrs.modify k fun a => { a with v := v }).map OtelAttribute.entry =
      Upsert.put key v (attrs.map OtelAttribute.entry) := by
  induction attrs generalizing k with
  | nil => cases h
  | cons a rest ih =>
    rw [List.findIdx?_cons] at h
    by_cases hkey : a.key = key
    · rw [if_pos (by simpa using hkey)] at h
      obtain rfl := Option.some.inj h
      simp [Upsert.put, OtelAttribute.entry, hkey]
    · rw [if_neg (by simpa using hkey)] at h
      obtain ⟨j, hj, rfl⟩ := Option.map_eq_some_iff.1 h
      rw [List.modify_succ_cons, List.map_cons, List.map_cons, ih hj]
      simp [Upsert.put, OtelAttribute.entry, hkey]

/-- Setting the value of an entry that has just been appended. -/
theorem entries_modify_append {attrs : List OtelAttribute} {key : CString} {v w : OtelAttrValue}
    (h : key ∉ attrs.map OtelAttribute.key) :
    ((attrs ++ [(⟨key, w⟩ : OtelAttribute)]).modify attrs.length fun a => { a with v := v }).map OtelAttribute.entry =
      Upsert.put key v (attrs.map OtelAttribute.entry) := by
  have hkeys : key ∉ (attrs.map OtelAttribute.entry).map Prod.fst := by
    simpa [Function.comp_def, OtelAttribute.entry] using h
  rw [List.modify_eq_take_cons_drop (by simp), Upsert.put_of_not_mem hkeys]
  simp [OtelAttribute.entry]

section Setters

variable (env : Env) {i : ℕ} {extra : Prop}

/-- A new attribute makes the array leave the slot, and gets the room for that. -/
def Env.Spills (slot : OtelSlot) (tick : ℕ) (key : CString) : Prop :=
  ¬ slot.Holds key ∧ slot.attrsCap = otelSlotInlineAttrs ∧
    slot.attrsCap < slot.attrs.length + 1 ∧
    ¬ env.Refuses slot tick (SlotArray.attrs.growth slot (slot.attrs.length + 1))

instance (slot : OtelSlot) (tick : ℕ) (key : CString) : Decidable (env.Spills slot tick key) :=
  inferInstanceAs (Decidable (_ ∧ _ ∧ _ ∧ _))

/-- The allocator never fails. -/
def Env.Grants : Prop := ∀ n, env.allocFails n = false

/-- What a new attribute `key` adds to the account before it has a value. -/
def OtelSlot.keyCost (slot : OtelSlot) (key : CString) : ℕ :=
  if slot.Holds key then 0
  else
    (if slot.attrs.length + 1 ≤ slot.attrsCap then 0
      else SlotArray.attrs.growth slot (slot.attrs.length + 1)) + (key.length + 1)

theorem keyCost_of_not_holds {slot : OtelSlot} {key : CString} (h : ¬ slot.Holds key) :
    slot.keyCost key = (if slot.attrs.length + 1 ≤ slot.attrsCap then 0
      else SlotArray.attrs.growth slot (slot.attrs.length + 1)) + (key.length + 1) := if_neg h

def OtelSpan.dropAttr (span : OtelSpan) : OtelSpan :=
  { span with droppedAttrs := span.droppedAttrs + 1 }

def OtelApiCounters.dropAttr (c : OtelApiCounters) : OtelApiCounters :=
  { c with attrDropped := c.attrDropped + 1 }

/-- One more value has been cut short, if `cut`. -/
def OtelApiCounters.truncate (c : OtelApiCounters) (cut : Bool) : OtelApiCounters :=
  if cut then { c with attrTruncated := c.attrTruncated + 1 } else c

@[simp] theorem attrDropped_truncate (c : OtelApiCounters) (cut : Bool) :
    (c.truncate cut).attrDropped = c.attrDropped := by
  unfold OtelApiCounters.truncate
  split_ifs <;> rfl

@[simp] theorem attrTruncated_truncate (c : OtelApiCounters) (cut : Bool) :
    (c.truncate cut).attrTruncated = c.attrTruncated + cut.toNat := by
  cases cut <;> rfl

@[simp] theorem attrDropped_dropAttr (c : OtelApiCounters) :
    c.dropAttr.attrDropped = c.attrDropped + 1 := rfl

@[simp] theorem attrTruncated_dropAttr (c : OtelApiCounters) :
    c.dropAttr.attrTruncated = c.attrTruncated := rfl

/-- Both steps of a set stay within this. -/
abbrev SetPath (extra : Prop) (i : ℕ) : St → St → Prop :=
  OnSlot i (SpanPath env.maxSpanBytes extra True)

/-- Steps that leave the attributes as they are. -/
structure KeepsAttrs (extra : Prop) (i : ℕ) (s s' : St) : Prop where
  path : SetPath env extra i s s'
  attrs : (s'.slots i).attrs = (s.slots i).attrs
  span : (s'.slots i).span = (s.slots i).span

/-- An attribute has been added that has no value yet. -/
structure Adds (extra : Prop) (i : ℕ) (key : CString) (s s' : St) : Prop where
  path : SetPath env extra i s s'
  attrs : (s'.slots i).attrs = (s.slots i).attrs ++ [⟨key, .int 0⟩]
  span : (s'.slots i).span = (s.slots i).span
  bytes : (s'.slots i).bytes = (s.slots i).bytes + (s.slots i).keyCost key
  counters : s'.counters = s.counters

/-- A set has put its value. -/
structure Puts (extra : Prop) (i : ℕ) (key : CString) (v : OtelAttrValue) (s s' : St) : Prop where
  path : SetPath env extra i s s'
  entries : (s'.slots i).entries = Upsert.put key v (s.slots i).entries
  span : (s'.slots i).span = (s.slots i).span

/-- A set has been refused, and these are the attributes it has left. -/
structure Drops (extra : Prop) (i : ℕ) (attrs : List OtelAttribute) (s s' : St) : Prop where
  path : SetPath env extra i s s'
  attrs : (s'.slots i).attrs = attrs
  span : (s'.slots i).span = (s.slots i).span.dropAttr

variable {env}

namespace KeepsAttrs

variable {key : CString} {v : OtelAttrValue} {attrs : List OtelAttribute} {s s₁ s₂ s₃ : St}

theorem refl (s : St) : KeepsAttrs env extra i s s := ⟨Std.Refl.refl s, rfl, rfl⟩

theorem trans (h₁ : KeepsAttrs env extra i s s₁) (h₂ : KeepsAttrs env extra i s₁ s₂) :
    KeepsAttrs env extra i s s₂ :=
  ⟨IsTrans.trans _ _ _ h₁.path h₂.path, h₂.attrs.trans h₁.attrs, h₂.span.trans h₁.span⟩

theorem puts (h₁ : KeepsAttrs env extra i s s₁) (h₂ : Puts env extra i key v s₁ s₂)
    (h₃ : KeepsAttrs env extra i s₂ s₃) : Puts env extra i key v s s₃ where
  path := IsTrans.trans _ _ _ h₁.path (IsTrans.trans _ _ _ h₂.path h₃.path)
  entries := by
    have hentries := h₂.entries
    unfold OtelSlot.entries at hentries ⊢
    rw [h₃.attrs, hentries, h₁.attrs]
  span := by rw [h₃.span, h₂.span, h₁.span]

theorem drops (h₁ : KeepsAttrs env extra i s s₁) (h₂ : Drops env extra i attrs s₁ s₂)
    (h₃ : KeepsAttrs env extra i s₂ s₃) : Drops env extra i attrs s s₃ where
  path := IsTrans.trans _ _ _ h₁.path (IsTrans.trans _ _ _ h₂.path h₃.path)
  attrs := h₃.attrs.trans h₂.attrs
  span := by rw [h₃.span, h₂.span, h₁.span]

theorem asked (s : St) : KeepsAttrs env extra i s s.asked := ⟨onSlot_asked s, rfl, rfl⟩

theorem refused (s : St) (slot : OtelSlot) (size : ℕ) :
    KeepsAttrs env extra i s (env.refused slot size s) :=
  ⟨onSlot_refused env slot size s, by rw [slots_refused], by rw [slots_refused]⟩

theorem counters (s : St) (c : OtelApiCounters) : KeepsAttrs env extra i s { s with counters := c } :=
  ⟨⟨Std.Refl.refl (s.slots i), fun _ _ => rfl, rfl, rfl⟩, rfl, rfl⟩

theorem set {slot : OtelSlot} (h : SpanPath env.maxSpanBytes extra True (s.slots i) slot)
    (hattrs : slot.attrs = (s.slots i).attrs) (hspan : slot.span = (s.slots i).span) :
    KeepsAttrs env extra i s (s.setSlot i slot) :=
  ⟨onSlot_set h, by rw [slots_setSlot, hattrs], by rw [slots_setSlot, hspan]⟩

theorem release (s : St) (size : ℕ) :
    KeepsAttrs env extra i s (s.setSlot i ((s.slots i).release size)) :=
  set (.single (.release _ _)) rfl rfl

/-- A request that is granted and charged. -/
theorem request {size : ℕ} (h : ¬ env.Refuses (s.slots i) s.tick size) :
    KeepsAttrs env extra i s (s.asked.setSlot i ((s.slots i).request size size)) := by
  refine (asked s).trans (set (.single (.request _ _ _ (.inr ?_) (.inl rfl))) rfl rfl)
  unfold Env.Refuses at h
  show (s.slots i).bytes + size ≤ env.maxSpanBytes
  omega

end KeepsAttrs

variable (env)

theorem wp_dropAttr (extra : Prop) {Q : Unit → St → Prop} {E : Exn → St → Prop} {s : St}
    (h : ∀ s', Drops env extra i (s.slots i).attrs s s' → s'.counters = s.counters.dropAttr → Q () s') :
    Wp (dropAttr i) Q E s := by
  unfold dropAttr modifyCounters
  rw [wp_bind, wp_modifySlot_setSlot, wp_modify]
  have hset : SetPath env extra i s
      (s.setSlot i { s.slots i with span := (s.slots i).span.dropAttr }) :=
    onSlot_set (.single (.dropAttr _ trivial))
  refine h _ ⟨⟨hset.slot, hset.others, hset.nrecs, hset.dispatches⟩, ?_, ?_⟩ rfl
  · change ((s.setSlot i _).slots i).attrs = _
    rw [slots_setSlot]
  · change ((s.setSlot i _).slots i).span = _
    rw [slots_setSlot]
    rfl

theorem wp_slotAttr_cases {key : CString} {Q : Option ℕ → St → Prop} {E : Exn → St → Prop} {s : St}
    (hextra : env.Spills (s.slots i) s.tick key → extra)
    (hheld : ∀ k, (s.slots i).attrs.findIdx? (fun a => a.key = key) = some k → Q (some k) s)
    (hadded : ¬ (s.slots i).Holds key → ∀ s', Adds env extra i key s s' →
      Q (some (s.slots i).attrs.length) s')
    (hdropped : ¬ (s.slots i).Holds key →
      (env.Grants → env.maxSpanBytes < (s.slots i).bytes + (s.slots i).keyCost key) →
      ∀ s', Drops env extra i (s.slots i).attrs s s' → s'.counters = s.counters.dropAttr → Q none s') :
    Wp (slotAttr env i key) Q E s := by
  unfold slotAttr
  rw [wp_bind, wp_get]
  cases hfind : (s.slots i).attrs.findIdx? (fun a => a.key = key) with
  | some k => exact hheld k hfind
  | none =>
    have hnot := not_holds_of_findIdx hfind
    have hcost := keyCost_of_not_holds hnot
    -- The key is dropped from any state that the growth and the copy may have led to.
    have hdrop (s₁ : St) (h₁ : KeepsAttrs env extra i s s₁) (hcounters : s₁.counters = s.counters)
        (hfull : env.Grants → env.maxSpanBytes < (s.slots i).bytes + (s.slots i).keyCost key) :
        Wp (do
          dropAttr i
          return none) Q E s₁ := by
      rw [wp_bind]
      refine wp_dropAttr env extra fun s₂ h₂ hcounters₂ => ?_
      exact hdropped hnot hfull s₂ (h₁.attrs ▸ h₁.drops h₂ (.refl s₂)) (hcounters ▸ hcounters₂)
    have hcopy (s₁ : St) (h₁ : KeepsAttrs env extra i s s₁) (hcounters : s₁.counters = s.counters)
        (hbytes : (s₁.slots i).bytes + (key.length + 1) =
          (s.slots i).bytes + (s.slots i).keyCost key) {next : Option CString → M (Option ℕ)}
        (hnone : next none = do
          dropAttr i
          return none)
        (hsome : ∀ k, next (some k) = do
          modifySlot i fun slot => { slot with attrs := slot.attrs ++ [⟨k, .int 0⟩] }
          return some (s.slots i).attrs.length) :
        Wp (copyIfGrown env true i key none >>= next) Q E s₁ := by
      unfold copyIfGrown copyField
      rw [if_pos rfl, wp_bind, wp_bind]
      refine wp_slotStrdup_cases env (fun href => ?_) fun hok => ?_
      · show Wp (next none) Q E _
        rw [hnone]
        refine hdrop _ (h₁.trans (.refused s₁ _ _)) (by rw [counters_refused, hcounters])
          fun hgrants => ?_
        rcases href with hfull | hfails
        · exact hbytes ▸ hfull
        · simp [hgrants s₁.tick] at hfails
      · have hcopied : env.clipLen key none = key.length := rfl
        rw [hcopied] at hok
        rw [hcopied, List.take_length, wp_pure, hsome, wp_bind, wp_modifySlot_setSlot, wp_pure, slots_setSlot]
        have h₂ := h₁.trans (.request hok)
        refine hadded hnot _ ⟨IsTrans.trans _ _ _ h₂.path (onSlot_set ?_), ?_, ?_, ?_, hcounters⟩
        · rw [slots_setSlot]
          exact .single (.attrs _ _ trivial)
        · rw [slots_setSlot, ← h₁.attrs]
          rfl
        · rw [slots_setSlot, ← h₁.span]
          rfl
        · rw [slots_setSlot, ← hbytes]
          rfl
    dsimp only
    rw [wp_bind]
    refine wp_slotGrow_cases env (fun hroom => ?_) (fun hlt href => ?_) fun hlt hok => ?_
    · have hroom : (s.slots i).attrs.length + 1 ≤ (s.slots i).attrsCap := hroom
      rw [if_pos hroom] at hcost
      exact hcopy s (.refl s) rfl (by omega) rfl fun _ => rfl
    · have hlt : ¬ (s.slots i).attrs.length + 1 ≤ (s.slots i).attrsCap := Nat.not_le_of_lt hlt
      rw [if_neg hlt] at hcost
      unfold copyIfGrown
      rw [if_neg Bool.false_ne_true, wp_bind]
      refine hdrop _ (.refused s _ _) (counters_refused ..) fun hgrants => ?_
      rcases href with hfull | hfails
      · omega
      · simp [hgrants s.tick] at hfails
    · have hlt' : ¬ (s.slots i).attrs.length + 1 ≤ (s.slots i).attrsCap := Nat.not_le_of_lt hlt
      rw [if_neg hlt'] at hcost
      refine hcopy _ ((KeepsAttrs.asked s).trans (.set (.tail (.single (.request _ _ _ (.inr ?_) ?_))
        (.setCap _ _ _)) rfl rfl)) rfl ?_ rfl fun _ => rfl
      · unfold Env.Refuses at hok
        show (s.slots i).bytes + _ ≤ _
        omega
      · unfold SlotArray.growSize
        split_ifs with hinline
        · exact .inr (hextra ⟨hnot, by simpa [SlotArray.isInline] using hinline, hlt, hok⟩)
        · exact .inl rfl
      · rw [slots_setSlot, hcost]
        show (s.slots i).bytes + _ + _ = _
        omega

/-- The part of a string that becomes the value of an attribute. -/
def Env.clip (val : CString) : CString := val.take (env.clipLen val (some env.attrValueMax))

/-- A new value for a key that is there already is refused. -/
def Env.LosesAttr (slot : OtelSlot) (tick : ℕ) (key val : CString) : Prop :=
  slot.Holds key ∧ env.Refuses slot tick (env.clipLen val (some env.attrValueMax) + 1)

instance (slot : OtelSlot) (tick : ℕ) (key val : CString) :
    Decidable (env.LosesAttr slot tick key val) := inferInstanceAs (Decidable (_ ∧ _))

/-- The account has room for a value of this length and for its key, if that is new. -/
def Env.HasRoom (slot : OtelSlot) (key : CString) (len : ℕ) : Prop :=
  slot.bytes + slot.keyCost key + (len + 1) ≤ env.maxSpanBytes

instance (slot : OtelSlot) (key : CString) (len : ℕ) : Decidable (env.HasRoom slot key len) :=
  inferInstanceAs (Decidable (_ ≤ _))

/-- Setting the value where the key was found or added is a put. -/
theorem puts_setAttrValue {key : CString} {v : OtelAttrValue} {k : ℕ} {s s₁ : St}
    (hpath : SetPath env extra i s s₁)
    (hentries : ((s₁.slots i).attrs.modify k fun a => { a with v := v }).map OtelAttribute.entry =
      Upsert.put key v (s.slots i).entries)
    (hspan : (s₁.slots i).span = (s.slots i).span) :
    Puts env extra i key v s (s₁.setSlot i { s₁.slots i with
      attrs := (s₁.slots i).attrs.modify k fun a => { a with v := v } }) where
  path := IsTrans.trans _ _ _ hpath (onSlot_set (.single (.attrs _ _ trivial)))
  entries := by
    rw [slots_setSlot]
    exact hentries
  span := by
    rw [slots_setSlot]
    exact hspan

/-- The second half of `set_str_internal`, once the attribute has a place. -/
theorem wp_setAttrString_cases (key : CString) {val : CString} {k : ℕ} {Q : Unit → St → Prop}
    {E : Exn → St → Prop} {s s₁ : St} (hpath : SetPath env extra i s s₁)
    (hspan : (s₁.slots i).span = (s.slots i).span) (hcounters : s₁.counters = s.counters)
    (hentries : ∀ v, ((s₁.slots i).attrs.modify k fun a => { a with v := v }).map
      OtelAttribute.entry = Upsert.put key v (s.slots i).entries)
    (hset : ¬ env.Refuses (s₁.slots i) s₁.tick (env.clipLen val (some env.attrValueMax) + 1) →
      ∀ s', Puts env extra i key (.string (some (env.clip val))) s s' →
        s'.counters = s.counters.truncate (clipped val (some env.attrValueMax)) → Q () s')
    (hrefused : env.Refuses (s₁.slots i) s₁.tick (env.clipLen val (some env.attrValueMax) + 1) →
      ∀ s', Drops env extra i (s₁.slots i).attrs.dropLast s s' →
        s'.counters = s.counters.dropAttr → Q () s') :
    Wp (do
      let copy ← slotStrdup env i val (some env.attrValueMax)
      match copy.1 with
      | none =>
        modifySlot i fun slot => { slot with attrs := slot.attrs.dropLast }
        dropAttr i
      | some str =>
        runIf (copy.2 = true) countTruncated
        setAttrValue i k (.string (some str))) Q E s₁ := by
  rw [wp_bind]
  refine wp_slotStrdup_cases env (fun href => ?_) fun hok => ?_
  · dsimp only
    rw [wp_bind, wp_modifySlot_setSlot, slots_refused]
    have hcut : SetPath env extra i s₁ ((env.refused (s₁.slots i)
        (env.clipLen val (some env.attrValueMax) + 1) s₁).setSlot i
        { s₁.slots i with attrs := (s₁.slots i).attrs.dropLast }) := by
      refine IsTrans.trans _ _ _ (onSlot_refused env _ _ s₁) (onSlot_set ?_)
      rw [slots_refused]
      exact .single (.attrs _ _ trivial)
    refine wp_dropAttr env extra fun s₂ h₂ hcounters₂ => hrefused href s₂ ⟨?_, ?_, ?_⟩ ?_
    · exact IsTrans.trans _ _ _ hpath (IsTrans.trans _ _ _ hcut h₂.path)
    · rw [h₂.attrs, slots_setSlot]
    · rw [h₂.span, slots_setSlot, ← hspan]
    · rw [hcounters₂, counters_setSlot, counters_refused, hcounters]
  · dsimp only
    have hcharged : SetPath env extra i s₁ (s₁.asked.setSlot i ((s₁.slots i).request
        (env.clipLen val (some env.attrValueMax) + 1) (env.clipLen val (some env.attrValueMax) + 1))) :=
      (KeepsAttrs.request hok).path
    have hthen (c : OtelApiCounters)
        (hc : c = s.counters.truncate (clipped val (some env.attrValueMax))) :
        Wp (setAttrValue i k (.string (some (env.clip val)))) Q E
          { s₁.asked.setSlot i ((s₁.slots i).request (env.clipLen val (some env.attrValueMax) + 1)
              (env.clipLen val (some env.attrValueMax) + 1)) with counters := c } := by
      have hslot := slots_setSlot s₁.asked i ((s₁.slots i).request
        (env.clipLen val (some env.attrValueMax) + 1) (env.clipLen val (some env.attrValueMax) + 1))
      refine hset hok _ (puts_setAttrValue env (IsTrans.trans _ _ _ hpath
        ⟨hcharged.slot, hcharged.others, hcharged.nrecs, hcharged.dispatches⟩) ?_ ?_) hc
      · change (((s₁.asked.setSlot i _).slots i).attrs.modify k _).map _ = _
        rw [hslot]
        exact hentries _
      · change ((s₁.asked.setSlot i _).slots i).span = _
        rw [hslot]
        exact hspan
    unfold OtelApiCounters.truncate at hthen
    rw [wp_bind, wp_runIf]
    refine ⟨fun hcut => hthen _ ?_, fun hcut => hthen _ ?_⟩
    · rw [if_pos hcut, ← hcounters]
      rfl
    · rw [if_neg hcut, ← hcounters]
      rfl

theorem wp_setStrInternal_cases {key val : CString} {Q : Unit → St → Prop} {E : Exn → St → Prop}
    {s : St} (hextra : env.Spills (s.slots i) s.tick key → extra)
    (hset : ¬ env.LosesAttr (s.slots i) s.tick key val →
      env.HasRoom (s.slots i) key (env.clipLen val (some env.attrValueMax)) →
      ∀ s', Puts env extra i key (.string (some (env.clip val))) s s' →
        s'.counters = s.counters.truncate (clipped val (some env.attrValueMax)) → Q () s')
    (hrefused : ¬ (s.slots i).Holds key →
      (env.Grants → ¬ env.HasRoom (s.slots i) key (env.clipLen val (some env.attrValueMax))) →
      ∀ s', Drops env extra i (s.slots i).attrs s s' → s'.counters = s.counters.dropAttr → Q () s')
    (hlost : env.LosesAttr (s.slots i) s.tick key val →
      (env.Grants → ¬ env.HasRoom (s.slots i) key (env.clipLen val (some env.attrValueMax))) →
      ∀ s', Drops env extra i (s.slots i).attrs.dropLast s s' →
        s'.counters = s.counters.dropAttr → Q () s') :
    Wp (setStrInternal env i key (some val)) Q E s := by
  unfold setStrInternal
  dsimp only
  rw [wp_bind]
  refine wp_slotAttr_cases env hextra (fun k hfind => ?_) (fun hnot s₁ h₁ => ?_)
    fun hnot hfull s₁ h₁ hcounters => hrefused hnot (fun hgrants hroom => ?_) s₁ h₁ hcounters
  · have hholds := holds_of_findIdx hfind
    have hcost : (s.slots i).keyCost key = 0 := if_pos hholds
    refine wp_setAttrString_cases env key (Std.Refl.refl s) rfl rfl
      (fun v => entries_modify hfind) (fun hok => hset (fun h => hok h.2) ?_)
      fun href => hlost ⟨hholds, href⟩ fun hgrants hroom => ?_
    · unfold Env.Refuses at hok
      unfold Env.HasRoom
      omega
    · unfold Env.HasRoom at hroom
      rcases href with hfull | hfails
      · omega
      · simp [hgrants s.tick] at hfails
  · have hcut : (s₁.slots i).attrs.dropLast = (s.slots i).attrs := by
      rw [h₁.attrs, List.dropLast_concat]
    have hbytes := h₁.bytes
    refine wp_setAttrString_cases env key h₁.path h₁.span h₁.counters (fun v => ?_)
      (fun hok => hset (fun h => hnot h.1) ?_) fun href => ?_
    · rw [h₁.attrs]
      exact entries_modify_append hnot
    · unfold Env.Refuses at hok
      unfold Env.HasRoom
      omega
    · rw [hcut]
      refine hrefused hnot fun hgrants hroom => ?_
      unfold Env.HasRoom at hroom
      rcases href with hfull | hfails
      · omega
      · simp [hgrants s₁.tick] at hfails
  · have hlt := hfull hgrants
    unfold Env.HasRoom at hroom
    omega

/-- The body of the setters for numbers and truth values. -/
def setValue (i : ℕ) (key : CString) (v : OtelAttrValue) : M Unit := do
  let a ← slotAttr env i key
  match a with
  | none => return ()
  | some k => setAttrValue i k v

theorem wp_setValue_cases {key : CString} {v : OtelAttrValue} {Q : Unit → St → Prop}
    {E : Exn → St → Prop} {s : St} (hextra : env.Spills (s.slots i) s.tick key → extra)
    (hset : ∀ s', Puts env extra i key v s s' → Q () s')
    (hrefused : ¬ (s.slots i).Holds key → ∀ s', Drops env extra i (s.slots i).attrs s s' → Q () s') :
    Wp (setValue env i key v) Q E s := by
  unfold setValue
  rw [wp_bind]
  refine wp_slotAttr_cases env hextra (fun k hfind => ?_) (fun hnot s₁ h₁ => ?_)
    fun hnot _ s₁ h₁ _ => hrefused hnot s₁ h₁
  · exact hset _ (puts_setAttrValue env (Std.Refl.refl s) (entries_modify hfind) rfl)
  · refine hset _ (puts_setAttrValue env h₁.path ?_ h₁.span)
    rw [h₁.attrs]
    exact entries_modify_append hnot

/-! ## Formatted strings -/

/-- `api_span_set_vprintf` gets a buffer for a string of this length. -/
def Env.BigBuffer (len tick : ℕ) : Prop :=
  (vprintfBufSize ≤ len ∧ vprintfBufSize ≤ env.attrValueMax) ∧ env.allocFails tick = false

instance (len tick : ℕ) : Decidable (env.BigBuffer len tick) := inferInstanceAs (Decidable (_ ∧ _))

/-- The number of the question that follows the one for the buffer, if that was put. -/
def Env.tickAfterBuffer (len tick : ℕ) : ℕ :=
  if vprintfBufSize ≤ len ∧ vprintfBufSize ≤ env.attrValueMax then tick + 1 else tick

/-- What is left of the formatted string. -/
def Env.formattedText (formatted : CString) (tick : ℕ) : CString :=
  if env.BigBuffer formatted.length tick then formatted else formatted.take (vprintfBufSize - 1)

/-- `api_span_set_vprintf` once the span is known. -/
def setFormatted (i : ℕ) (key formatted : CString) : M Unit := do
  let big ← allocBigBuffer env formatted.length
  if big then
    modifySlot i (OtelSlot.request (formatted.length + 1) 0)
    setStrInternal env i key (some formatted)
    modifySlot i (OtelSlot.release (formatted.length + 1))
  else
    runIf (vprintfBufSize ≤ formatted.length) countTruncated
    setStrInternal env i key (some (formatted.take (vprintfBufSize - 1)))

theorem losesAttr_congr {slot slot' : OtelSlot} (hattrs : slot'.attrs = slot.attrs)
    (hbytes : slot'.bytes = slot.bytes) (tick : ℕ) (key val : CString) :
    env.LosesAttr slot' tick key val ↔ env.LosesAttr slot tick key val := by
  unfold Env.LosesAttr Env.Refuses OtelSlot.Holds
  rw [hattrs, hbytes]

theorem spills_congr {slot slot' : OtelSlot} (hattrs : slot'.attrs = slot.attrs)
    (hbytes : slot'.bytes = slot.bytes) (hcap : slot'.attrsCap = slot.attrsCap) (tick : ℕ)
    (key : CString) : env.Spills slot' tick key ↔ env.Spills slot tick key := by
  have hgrowth : SlotArray.attrs.growth slot' (slot.attrs.length + 1) =
      SlotArray.attrs.growth slot (slot.attrs.length + 1) := by
    unfold SlotArray.growth SlotArray.newCap SlotArray.cap
    rw [hcap]
  unfold Env.Spills Env.Refuses OtelSlot.Holds
  rw [hattrs, hbytes, hcap, hgrowth]

theorem wp_setFormatted_cases {key formatted : CString} {Q : Unit → St → Prop}
    {E : Exn → St → Prop} {s : St}
    (hextra : env.BigBuffer formatted.length s.tick ∨
      env.Spills (s.slots i) (env.tickAfterBuffer formatted.length s.tick) key → extra)
    (hset : ¬ env.LosesAttr (s.slots i) (env.tickAfterBuffer formatted.length s.tick) key
        (env.formattedText formatted s.tick) →
      ∀ s', Puts env extra i key (.string (some (env.clip (env.formattedText formatted s.tick)))) s s' →
        Q () s')
    (hrefused : ¬ (s.slots i).Holds key → ∀ s', Drops env extra i (s.slots i).attrs s s' → Q () s')
    (hlost : env.LosesAttr (s.slots i) (env.tickAfterBuffer formatted.length s.tick) key
        (env.formattedText formatted s.tick) →
      ∀ s', Drops env extra i (s.slots i).attrs.dropLast s s' → Q () s') :
    Wp (setFormatted env i key formatted) Q E s := by
  -- The set starts in `s₁` and `x` after it leaves the attributes alone.
  have hcall (s₁ : St) (h₁ : KeepsAttrs env extra i s s₁)
      (hbytes : (s₁.slots i).bytes = (s.slots i).bytes)
      (hcap : (s₁.slots i).attrsCap = (s.slots i).attrsCap)
      (htick : s₁.tick = env.tickAfterBuffer formatted.length s.tick) (x : M Unit)
      (hx : ∀ s₂, ∃ s₃, KeepsAttrs env extra i s₂ s₃ ∧ (Q () s₃ → Wp x Q E s₂)) :
      Wp (do
        setStrInternal env i key (some (env.formattedText formatted s.tick))
        x) Q E s₁ := by
    rw [← htick] at hextra hset hlost
    have hlose := losesAttr_congr env h₁.attrs hbytes s₁.tick key (env.formattedText formatted s.tick)
    have hspill := spills_congr env h₁.attrs hbytes hcap s₁.tick key
    rw [wp_bind]
    refine wp_setStrInternal_cases env (fun h => hextra (.inr (hspill.1 h)))
      (fun hnot _ s₂ h₂ _ => ?_) (fun hnot _ s₂ h₂ _ => ?_) fun hloses _ s₂ h₂ _ => ?_
    all_goals obtain ⟨s₃, h₃, hthen⟩ := hx s₂
    · exact hthen (hset (fun h => hnot (hlose.2 h)) s₃ (h₁.puts h₂ h₃))
    · exact hthen (hrefused (fun h => hnot (by rwa [OtelSlot.Holds, h₁.attrs])) s₃
        (h₁.attrs ▸ h₁.drops h₂ h₃))
    · exact hthen (hlost (hlose.1 hloses) s₃ (h₁.attrs ▸ h₁.drops h₂ h₃))
  have hsmall (s₁ : St) (h₁ : KeepsAttrs env extra i s s₁) (hslot : s₁.slots i = s.slots i)
      (htick : s₁.tick = env.tickAfterBuffer formatted.length s.tick)
      (hbig : ¬ env.BigBuffer formatted.length s.tick) : Wp (do
        runIf (vprintfBufSize ≤ formatted.length) countTruncated
        setStrInternal env i key (some (formatted.take (vprintfBufSize - 1)))) Q E s₁ := by
    have htext : env.formattedText formatted s.tick = formatted.take (vprintfBufSize - 1) :=
      if_neg hbig
    have hset (c : OtelApiCounters) : Wp
        (setStrInternal env i key (some (formatted.take (vprintfBufSize - 1)))) Q E
        { s₁ with counters := c } := by
      have hdone := hcall { s₁ with counters := c } (h₁.trans (.counters s₁ c))
        (congrArg OtelSlot.bytes hslot) (congrArg OtelSlot.attrsCap hslot) htick (pure ())
        fun s₂ => ⟨s₂, .refl s₂, id⟩
      rwa [htext, bind_pure] at hdone
    rw [wp_bind, wp_runIf]
    exact ⟨fun _ => hset _, fun _ => hset s₁.counters⟩
  unfold setFormatted allocBigBuffer
  rw [wp_bind, wp_ite]
  refine ⟨fun hlong => wp_allocNoOom env (fun hok => ?_) fun hfails => ?_, fun hshort => ?_⟩
  · have hbig : env.BigBuffer formatted.length s.tick := ⟨hlong, hok⟩
    have htext : env.formattedText formatted s.tick = formatted := if_pos hbig
    have hrequest : KeepsAttrs env extra i s
        (s.asked.setSlot i ((s.slots i).request (formatted.length + 1) 0)) :=
      (KeepsAttrs.asked s).trans
        (.set (.single (.request _ _ _ (.inl rfl) (.inr (hextra (.inl hbig))))) rfl rfl)
    rw [if_pos rfl, wp_bind, wp_modifySlot_setSlot]
    have hdone := hcall _ hrequest (by rw [slots_setSlot]; rfl) (by rw [slots_setSlot]; rfl)
      (by rw [Env.tickAfterBuffer, if_pos hlong]; rfl)
      (modifySlot i (OtelSlot.release (formatted.length + 1))) fun s₂ =>
        ⟨_, .release s₂ _, id⟩
    rwa [htext] at hdone
  · refine hsmall s.asked (.asked s) rfl (by rw [Env.tickAfterBuffer, if_pos hlong]; rfl) ?_
    rintro ⟨-, hok⟩
    simp [hfails] at hok
  · refine hsmall s (.refl s) rfl (by rw [Env.tickAfterBuffer, if_neg hshort]) fun hbig => ?_
    exact hshort hbig.1

end Setters

end PostgresOtel
