import PostgresOtel.Producer.SpanRuns

/-!
# Formatted attributes against plain ones

Where the allocator never fails, what a set does follows from the room in the account and from the
limit on values.  That gives the exact condition for `api_span_set_vprintf` to leave a span and the
counters as `api_span_set_str` leaves them when given the whole text.
-/

set_option autoImplicit false

namespace PostgresOtel

open Exec

variable (env : Env) {i : ℕ}

/-- The attributes and the other data of the span in slot `i` are the same, and so are the counters. -/
structure SameSet (i : ℕ) (s s' : St) : Prop where
  attrs : (s.slots i).attrs = (s'.slots i).attrs
  span : (s.slots i).span = (s'.slots i).span
  counters : s.counters = s'.counters

/-- What a set of a string leaves where the allocator never fails. -/
structure SetEnds (i : ℕ) (key val : CString) (s s' : St) : Prop where
  room : env.HasRoom (s.slots i) key (env.clipLen val (some env.attrValueMax)) →
    (s'.slots i).entries = Upsert.put key (.string (some (env.clip val))) (s.slots i).entries ∧
      (s'.slots i).span = (s.slots i).span ∧
      s'.counters = s.counters.truncate (clipped val (some env.attrValueMax))
  full : ¬ env.HasRoom (s.slots i) key (env.clipLen val (some env.attrValueMax)) →
    (s'.slots i).attrs = (if (s.slots i).Holds key then (s.slots i).attrs.dropLast
      else (s.slots i).attrs) ∧
      (s'.slots i).span = (s.slots i).span.dropAttr ∧ s'.counters = s.counters.dropAttr

theorem entry_injective : Function.Injective OtelAttribute.entry := by
  rintro ⟨key, v⟩ ⟨key', v'⟩ h
  obtain ⟨rfl, rfl⟩ := Prod.mk.inj h
  rfl

theorem attrs_of_entries {slot slot' : OtelSlot} (h : slot.entries = slot'.entries) :
    slot.attrs = slot'.attrs := List.map_injective_iff.2 entry_injective h

section Outcome

variable {env}

theorem wp_setStrInternal_ends (hgrants : env.Grants) (key val : CString) (s : St) :
    Wp (setStrInternal env i key (some val)) (fun _ s' => SetEnds env i key val s s')
      (fun _ _ => False) s := by
  have hextra : env.Spills (s.slots i) s.tick key → True := fun _ => trivial
  refine wp_setStrInternal_cases env hextra
    (fun _ hroom s' h hcounters => ?_) (fun hnot hfull s' h hcounters => ?_)
    fun hlose hfull s' h hcounters => ?_
  · exact ⟨fun _ => ⟨h.entries, h.span, hcounters⟩, fun hno => absurd hroom hno⟩
  · refine ⟨fun hroom => absurd hroom (hfull hgrants), fun _ => ⟨?_, h.span, hcounters⟩⟩
    rw [if_neg hnot, h.attrs]
  · refine ⟨fun hroom => absurd hroom (hfull hgrants), fun _ => ⟨?_, h.span, hcounters⟩⟩
    rw [if_pos hlose.1, h.attrs]

variable {key val : CString} {s s' s'' : St}

/-- The outcome is determined. -/
theorem SetEnds.same (h : SetEnds env i key val s s') (h' : SetEnds env i key val s s'') :
    SameSet i s' s'' := by
  by_cases hroom : env.HasRoom (s.slots i) key (env.clipLen val (some env.attrValueMax))
  · obtain ⟨he, hs, hc⟩ := h.room hroom
    obtain ⟨he', hs', hc'⟩ := h'.room hroom
    exact ⟨attrs_of_entries (he.trans he'.symm), hs.trans hs'.symm, hc.trans hc'.symm⟩
  · obtain ⟨ha, hs, hc⟩ := h.full hroom
    obtain ⟨ha', hs', hc'⟩ := h'.full hroom
    exact ⟨ha.trans ha'.symm, hs.trans hs'.symm, hc.trans hc'.symm⟩

/-- The buffer of a formatted string makes no difference. -/
theorem SetEnds.of_buffer {len : ℕ}
    (h : SetEnds env i key val (s.asked.setSlot i ((s.slots i).request len 0)) s') :
    SetEnds env i key val s (s'.setSlot i ((s'.slots i).release len)) := by
  obtain ⟨hroom, hfull⟩ := h
  rw [slots_setSlot] at hroom hfull
  refine ⟨fun hr => ?_, fun hr => ?_⟩
  · rw [slots_setSlot]
    exact hroom hr
  · rw [slots_setSlot]
    exact hfull hr

/-- The value of a key tells two sets apart. -/
theorem put_value_inj {v w : OtelAttrValue} {entries : List (CString × OtelAttrValue)}
    (h : Upsert.put key v entries = Upsert.put key w entries) : v = w := by
  have hlookup := congrArg (List.lookup key) h
  rw [Upsert.lookup_put, Upsert.lookup_put, if_pos (beq_self_eq_true key),
    if_pos (beq_self_eq_true key)] at hlookup
  exact Option.some.inj hlookup

/-- A formatted string that the buffer does not cut short is set as it is. -/
theorem wp_setFormatted_whole {formatted : CString} (hgrants : env.Grants)
    (hwhole : formatted.length < vprintfBufSize ∨ vprintfBufSize ≤ env.attrValueMax) :
    Wp (setFormatted env i key formatted) (fun _ s' => SetEnds env i key formatted s s')
      (fun _ _ => False) s := by
  unfold setFormatted allocBigBuffer
  rw [wp_bind, wp_ite]
  refine ⟨fun hbig => ?_, fun hsmall => ?_⟩
  · refine wp_allocNoOom env (fun _ => ?_) fun hfails => absurd (hgrants s.tick) (by simp [hfails])
    rw [if_pos rfl, wp_bind, wp_modifySlot_setSlot, wp_bind]
    refine (wp_setStrInternal_ends hgrants key formatted _).mono (fun _ s₁ h₁ => ?_) fun _ _ h => h
    exact h₁.of_buffer
  · have hlen : formatted.length < vprintfBufSize := by omega
    have htext : formatted.take (vprintfBufSize - 1) = formatted := by
      rw [List.take_of_length_le]
      omega
    rw [wp_pure, if_neg Bool.false_ne_true, wp_bind, wp_runIf, htext]
    exact ⟨fun hlong => by omega, fun _ => wp_setStrInternal_ends hgrants key formatted s⟩

/-- One that the buffer cuts short is counted as such, and what is left of it is set. -/
theorem wp_setFormatted_cut {formatted : CString} (hgrants : env.Grants)
    (hlong : vprintfBufSize ≤ formatted.length) (hlimit : env.attrValueMax < vprintfBufSize) :
    Wp (setFormatted env i key formatted)
      (fun _ s' => SetEnds env i key (formatted.take (vprintfBufSize - 1))
        { s with counters := s.counters.truncate true } s')
      (fun _ _ => False) s := by
  unfold setFormatted allocBigBuffer
  rw [wp_bind, wp_ite]
  refine ⟨fun hbig => by omega, fun _ => ?_⟩
  rw [wp_pure, if_neg Bool.false_ne_true, wp_bind, wp_runIf]
  exact ⟨fun _ => wp_setStrInternal_ends hgrants key _ _, fun hshort => absurd hlong hshort⟩

/-- What is left of it and the whole text are set alike only if the limit cuts the text there too, and
once. -/
theorem sameSet_cut_iff {formatted : CString} (hlong : vprintfBufSize ≤ formatted.length)
    (hlimit : env.attrValueMax < vprintfBufSize)
    (hcut : SetEnds env i key (formatted.take (vprintfBufSize - 1))
      { s with counters := s.counters.truncate true } s')
    (hplain : SetEnds env i key formatted s s'') : SameSet i s' s'' ↔
      env.attrValueMax = vprintfBufSize - 1 ∧
        env.mbcliplen formatted (vprintfBufSize - 1) = vprintfBufSize - 1 ∧
        env.HasRoom (s.slots i) key (vprintfBufSize - 1) := by
  have hsize : (formatted.take (vprintfBufSize - 1)).length = vprintfBufSize - 1 := by
    rw [List.length_take]
    omega
  have hclip : env.clipLen formatted (some env.attrValueMax) =
      env.mbcliplen formatted env.attrValueMax := if_pos (by omega)
  have hclipped : clipped formatted (some env.attrValueMax) = true := by
    simp only [clipped, decide_eq_true_eq]
    omega
  constructor
  · intro hsame
    have htruncated := congrArg OtelApiCounters.attrTruncated hsame.counters
    have hdropped := congrArg OtelApiCounters.attrDropped hsame.counters
    by_cases hroom : env.HasRoom (s.slots i) key
        (env.clipLen (formatted.take (vprintfBufSize - 1)) (some env.attrValueMax)) <;>
      by_cases hroom' : env.HasRoom (s.slots i) key (env.clipLen formatted (some env.attrValueMax))
    · obtain ⟨he, -, hc⟩ := hcut.room hroom
      obtain ⟨he', -, hc'⟩ := hplain.room hroom'
      have hnotCut : clipped (formatted.take (vprintfBufSize - 1)) (some env.attrValueMax) = false := by
        by_contra hcutAgain
        rw [Bool.not_eq_false] at hcutAgain
        simp [hc, hc', hclipped, hcutAgain] at htruncated
      have hmax : env.attrValueMax = vprintfBufSize - 1 := by
        simp only [clipped, decide_eq_false_iff_not, hsize] at hnotCut
        omega
      have hcutLen : env.clipLen (formatted.take (vprintfBufSize - 1)) (some env.attrValueMax) =
          vprintfBufSize - 1 := by
        rw [Env.clipLen, hmax, if_neg (by omega), hsize]
      -- The texts are the same, so the limit cuts where the buffer does.
      have hentries : (s'.slots i).entries = (s''.slots i).entries := by
        rw [OtelSlot.entries, hsame.attrs, OtelSlot.entries]
      rw [he, he'] at hentries
      have htext : env.clip (formatted.take (vprintfBufSize - 1)) = env.clip formatted := by
        simpa using put_value_inj hentries
      have hlength := congrArg List.length htext
      rw [hcutLen] at hroom
      rw [hmax] at hcutLen hclip
      simp only [Env.clip, hmax, hcutLen, hclip, List.length_take] at hlength
      have hbuf : vprintfBufSize = 1024 := rfl
      exact ⟨hmax, by omega, hroom⟩
    · simp [(hcut.room hroom).2.2, (hplain.full hroom').2.2] at hdropped
    · simp [(hcut.full hroom).2.2, (hplain.room hroom').2.2] at hdropped
    · simp [(hcut.full hroom).2.2, (hplain.full hroom').2.2] at htruncated
  · rintro ⟨hmax, hboundary, hroom⟩
    have hcutLen : env.clipLen (formatted.take (vprintfBufSize - 1)) (some env.attrValueMax) =
        vprintfBufSize - 1 := by
      rw [Env.clipLen, hmax, if_neg (by omega), hsize]
    have hnotCut : clipped (formatted.take (vprintfBufSize - 1)) (some env.attrValueMax) = false := by
      simp only [clipped, decide_eq_false_iff_not]
      omega
    rw [hmax, hboundary] at hclip
    obtain ⟨he, hs, hc⟩ := hcut.room (by rwa [hcutLen])
    obtain ⟨he', hs', hc'⟩ := hplain.room (by rwa [hmax, hclip])
    refine ⟨attrs_of_entries ?_, hs.trans hs'.symm, ?_⟩
    · rw [he, he', Env.clip, Env.clip, hcutLen, hmax, hclip, List.take_take, Nat.min_self]
    · rw [hc, hc', hnotCut, hclipped]
      rfl

end Outcome

/-- The condition for the two setters to agree on a text, where the allocator never fails: it fits into
the buffer, or the limit on values is at least as long, or the limit cuts it just where the buffer does
and the set has room. -/
def Env.FormatsAlike (slot : OtelSlot) (key formatted : CString) : Prop :=
  formatted.length < vprintfBufSize ∨ vprintfBufSize ≤ env.attrValueMax ∨
    env.attrValueMax = vprintfBufSize - 1 ∧
      env.mbcliplen formatted (vprintfBufSize - 1) = vprintfBufSize - 1 ∧
      env.HasRoom slot key (vprintfBufSize - 1)

instance (slot : OtelSlot) (key formatted : CString) :
    Decidable (env.FormatsAlike slot key formatted) :=
  inferInstanceAs (Decidable (_ ∨ _ ∨ _ ∧ _ ∧ _))

/-! ## The two setters -/

variable {ref : OtelSpanRef} {s : St}

/-- Either the setter works on the span in the state it was called in, or it does nothing more. -/
theorem setterSlot_eq (ref : OtelSpanRef) (s : St) :
    (env.Reaches ref s ∧ setterSlot env ref s = .ok (some (refIdx ref)) s) ∨
      (¬ env.Reaches ref s ∧ ∃ s', setterSlot env ref s = .ok none s') := by
  have hends : Wp (setterSlot env ref)
      (fun slot s' => (env.Reaches ref s ∧ slot = some (refIdx ref) ∧ s' = s) ∨
        (¬ env.Reaches ref s ∧ slot = none)) (fun _ _ => False) s :=
    wp_setterSlot_cases env (fun h => .inl ⟨h, rfl, rfl⟩) fun h _ => .inr ⟨h, rfl⟩
  obtain ⟨slot, s', heq, ⟨hreach, rfl, rfl⟩ | ⟨hnot, rfl⟩⟩ := hends.exists_ok
  · exact .inl ⟨hreach, heq⟩
  · exact .inr ⟨hnot, s', heq⟩

/-- Where the allocator never fails, the two setters agree on a span exactly if the string formats
alike, or if neither reaches the span. -/
theorem setVprintf_agrees_iff (hgrants : env.Grants) (ref : OtelSpanRef) (key formatted : CString)
    (s : St) :
    SameSet (refIdx ref) (endState (apiSpanSetVprintf env ref key formatted) s)
        (endState (apiSpanSetStr env ref key (some formatted)) s) ↔
      (env.Reaches ref s → env.FormatsAlike (s.slots (refIdx ref)) key formatted) := by
  rcases setterSlot_eq env ref s with ⟨hreach, heq⟩ | ⟨hnot, s', heq⟩
  · have hformatted : endState (apiSpanSetVprintf env ref key formatted) s =
        endState (setFormatted env (refIdx ref) key formatted) s := endState_bind_ok heq
    have hstr : endState (apiSpanSetStr env ref key (some formatted)) s =
        endState (setStrInternal env (refIdx ref) key (some formatted)) s := endState_bind_ok heq
    have hplain : SetEnds env (refIdx ref) key formatted s
        (endState (setStrInternal env (refIdx ref) key (some formatted)) s) :=
      ((wp_setStrInternal_ends hgrants key formatted s).mono (fun _ _ h => h)
        fun _ _ h => h.elim).endState
    rw [hformatted, hstr]
    by_cases hwhole : formatted.length < vprintfBufSize ∨ vprintfBufSize ≤ env.attrValueMax
    · have hsame := (((wp_setFormatted_whole hgrants hwhole).mono (fun _ _ h => h)
        fun _ _ h => h.elim).endState).same hplain
      refine ⟨fun _ _ => ?_, fun _ => hsame⟩
      exact hwhole.elim .inl fun h => .inr (.inl h)
    · rw [not_or, Nat.not_lt, Nat.not_le] at hwhole
      have hcut := sameSet_cut_iff hwhole.1 hwhole.2 (((wp_setFormatted_cut hgrants hwhole.1
        hwhole.2).mono (fun _ _ h => h) fun _ _ h => h.elim).endState) hplain
      rw [hcut]
      refine ⟨fun h _ => .inr (.inr h), fun h => ?_⟩
      rcases h hreach with hshort | hlarge | h
      · omega
      · omega
      · exact h
  · have hformatted : endState (apiSpanSetVprintf env ref key formatted) s = s' := endState_bind_ok heq
    have hstr : endState (apiSpanSetStr env ref key (some formatted)) s = s' := endState_bind_ok heq
    rw [hformatted, hstr]
    exact ⟨fun _ h => absurd h hnot, fun _ => ⟨rfl, rfl, rfl⟩⟩

/-- A string longer than the buffer, under a limit that allows it. -/
theorem setVprintf_agrees_long :
    SameSet 0 (endState (apiSpanSetVprintf {} (makeRef 1 0 true) (cstr "k") (List.replicate 2000 97))
        { slots := fun _ => { gen := 1, attrsCap := 12 }, slotsUsed := 1 })
      (endState (apiSpanSetStr {} (makeRef 1 0 true) (cstr "k") (some (List.replicate 2000 97)))
        { slots := fun _ => { gen := 1, attrsCap := 12 }, slotsUsed := 1 }) :=
  (setVprintf_agrees_iff {} (fun _ => rfl) (makeRef 1 0 true) (cstr "k") (List.replicate 2000 97)
    { slots := fun _ => { gen := 1, attrsCap := 12 }, slotsUsed := 1 }).2
    fun _ => .inr (.inl (by decide))

/-- Where the limit is shorter than the buffer, a string longer than both is counted as cut short
twice. -/
theorem setVprintf_counts_twice : ¬ (∀ (env : Env), env.Grants → ∀ (ref : OtelSpanRef)
    (key formatted : CString) (s : St), env.Reaches ref s →
      SameSet (refIdx ref) (endState (apiSpanSetVprintf env ref key formatted) s)
        (endState (apiSpanSetStr env ref key (some formatted)) s)) := by
  intro hclaim
  have hsame := hclaim { attrValueMax := 512 } (fun _ => rfl) (makeRef 1 0 true) (cstr "k")
    (List.replicate 1024 97) { slots := fun _ => { gen := 1, attrsCap := 12 }, slotsUsed := 1 }
    (by decide)
  have htwice : (endState (apiSpanSetVprintf { attrValueMax := 512 } (makeRef 1 0 true) (cstr "k")
      (List.replicate 1024 97)) { slots := fun _ => { gen := 1, attrsCap := 12 }, slotsUsed := 1 }
      ).counters.attrTruncated = 2 := by decide +kernel
  have honce : (endState (apiSpanSetStr { attrValueMax := 512 } (makeRef 1 0 true) (cstr "k")
      (some (List.replicate 1024 97)))
      { slots := fun _ => { gen := 1, attrsCap := 12 }, slotsUsed := 1 }
      ).counters.attrTruncated = 1 := by decide +kernel
  rw [hsame.counters, honce] at htwice
  cases htwice

end PostgresOtel
