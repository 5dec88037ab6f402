import PostgresOtel.Lib.JsonText

/-!
# JSON texts on one line

A string of a JSON text has no byte below `0x20`, so that a text written without white space of that
kind is on one line.  A file of such texts, each ended by a newline, is split into them again.
-/

set_option autoImplicit false

namespace Json

/-- No control bytes, newlines among them. -/
def OneLine (t : List UInt8) : Prop := ∀ c ∈ t, 0x20 ≤ c

/-! ## Strings -/

/-- Reading from `b` to `a` passes no control bytes. -/
def Skips (b a : List UInt8) : Prop := ∃ t, b = t ++ a ∧ OneLine t

section Skips

variable {b a d : List UInt8} {c : UInt8}

theorem Skips.trans (h : Skips b a) (h' : Skips a d) : Skips b d := by
  obtain ⟨t, rfl, ht⟩ := h
  obtain ⟨u, rfl, hu⟩ := h'
  exact ⟨t ++ u, (List.append_assoc _ _ _).symm, List.forall_mem_append.2 ⟨ht, hu⟩⟩

theorem skips_byte (hc : 0x20 ≤ c) : Skips (c :: b) b :=
  ⟨[c], rfl, fun _ hx => List.mem_singleton.1 hx ▸ hc⟩

theorem skips_hexValue {x : ℕ} (h : hexValue c = some x) : Skips (c :: b) b := by
  refine skips_byte ?_
  have all : ∀ v : BitVec 8, (hexValue (UInt8.ofBitVec v)).isSome = true → 0x20 ≤ UInt8.ofBitVec v := by
    decide +kernel
  exact all c.toBitVec (h ▸ rfl)

theorem skips_unescape {x : UInt8} (h : unescape c = some x) : Skips (c :: b) b := by
  refine skips_byte ?_
  have all : ∀ v : BitVec 8, (unescape (UInt8.ofBitVec v)).isSome = true → 0x20 ≤ UInt8.ofBitVec v := by
    decide +kernel
  exact all c.toBitVec (h ▸ rfl)

theorem skips_codeUnit {x : ℕ × List UInt8} (h : codeUnit b = some x) : Skips b x.2 := by
  match b, h with
  | c₃ :: c₂ :: c₁ :: c₀ :: t, h =>
    simp only [codeUnit, Option.bind_eq_bind, Option.bind_eq_some_iff, Option.pure_def,
      Option.some.injEq] at h
    obtain ⟨_, h₃, _, h₂, _, h₁, _, h₀, rfl⟩ := h
    exact (skips_hexValue h₃).trans ((skips_hexValue h₂).trans
      ((skips_hexValue h₁).trans (skips_hexValue h₀)))

theorem skips_lowSurrogate {x : ℕ × List UInt8} (h : lowSurrogate b = some x) : Skips b x.2 := by
  match b, h with
  | c :: d :: t, h =>
    rw [lowSurrogate] at h
    split_ifs at h with hcd
    obtain ⟨rfl, rfl⟩ := hcd
    exact (skips_byte (by decide)).trans ((skips_byte (by decide)).trans
      (skips_codeUnit (Option.eq_some_of_filter_eq_some h)))

theorem skips_unicodeStep {x : List UInt8 × List UInt8} (h : unicodeStep b = some x) :
    Skips b x.2 := by
  unfold unicodeStep at h
  obtain ⟨⟨u, t⟩, hunit, h⟩ := Option.bind_eq_some_iff.1 h
  have hskip := skips_codeUnit hunit
  dsimp only at h
  split_ifs at h
  · obtain rfl := Option.some.inj h
    exact hskip
  · obtain ⟨⟨l, t'⟩, hlow, h⟩ := Option.bind_eq_some_iff.1 h
    obtain rfl := Option.some.inj h
    exact hskip.trans (skips_lowSurrogate hlow)

theorem skips_charStep {x : List UInt8 × List UInt8} (h : charStep b = some x) : Skips b x.2 := by
  cases b with
  | nil => cases h
  | cons c t =>
    rw [charStep] at h
    split_ifs at h with hslash hplain
    · have hback : Skips (c :: t) t := skips_byte (hslash ▸ by decide)
      cases t with
      | nil => cases h
      | cons d t =>
        rw [escapeStep] at h
        split_ifs at h with hu
        · exact hback.trans ((skips_byte (hu ▸ by decide)).trans (skips_unicodeStep h))
        · obtain ⟨_, hescape, rfl⟩ := Option.map_eq_some_iff.1 h
          exact hback.trans (skips_unescape hescape)
    · obtain rfl := Option.some.inj h
      refine skips_byte ?_
      unfold plain at hplain
      rw [Bool.and_eq_true, Bool.and_eq_true] at hplain
      exact of_decide_eq_true hplain.1.1

theorem Chars.skips {s : List UInt8} (h : Chars b s a) : Skips b a := by
  induction h with
  | close hb => exact hb ▸ skips_byte (by decide)
  | char hstep _ ih => exact (skips_charStep hstep).trans ih

end Skips

theorem PrintsString.oneLine {t s : List UInt8} (h : PrintsString t s) : OneLine t := by
  obtain ⟨b, rfl, hb⟩ := h
  obtain ⟨u, hu, hline⟩ := (hb []).skips
  rw [List.append_nil, List.append_nil] at hu
  exact List.forall_mem_cons.2 ⟨by decide, hu ▸ hline⟩

/-! ## Texts -/

theorem oneLine_number {t : List UInt8} (h : Number t) : OneLine t := by
  intro c hc
  have all : ∀ v : BitVec 8, inNumber (UInt8.ofBitVec v) = true → 0x20 ≤ UInt8.ofBitVec v := by
    decide +kernel
  exact all c.toBitVec (h.bytes c hc)

theorem oneLine_afterCommas {l : List (List UInt8)} (h : ∀ t ∈ l, OneLine t) :
    OneLine (afterCommas l) := by
  intro c hc
  obtain ⟨t, ht, hc⟩ := List.mem_flatMap.1 hc
  rcases List.mem_cons.1 hc with rfl | hc
  · decide
  · exact h t ht c hc

theorem oneLine_separated {l : List (List UInt8)} (h : ∀ t ∈ l, OneLine t) : OneLine (separated l) := by
  cases l with
  | nil => exact fun c hc => absurd hc List.not_mem_nil
  | cons t l =>
    obtain ⟨ht, hl⟩ := List.forall_mem_cons.1 h
    exact List.forall_mem_append.2 ⟨ht, oneLine_afterCommas hl⟩

theorem oneLine_objectText {l : List (List UInt8 × List UInt8)}
    (h : ∀ m ∈ l, OneLine m.1 ∧ OneLine m.2) : OneLine (objectText l) := by
  have hmembers : OneLine (separated (l.map memberText)) := by
    refine oneLine_separated (List.forall_mem_map.2 fun m hm => ?_)
    obtain ⟨hkey, hvalue⟩ := h m hm
    exact List.forall_mem_append.2 ⟨hkey, List.forall_mem_cons.2 ⟨by decide, hvalue⟩⟩
  refine List.forall_mem_cons.2 ⟨by decide, List.forall_mem_append.2 ⟨hmembers, ?_⟩⟩
  exact List.forall_mem_singleton.2 (by decide)

/-! ## Lines -/

/-- The lines of a file, and what is after the last newline. -/
def splitLines : List UInt8 → List (List UInt8) × List UInt8
  | [] => ([], [])
  | c :: rest =>
    let (lines, last) := splitLines rest
    if c = 0x0A then ([] :: lines, last)
    else match lines with
      | [] => ([], c :: last)
      | line :: lines => ((c :: line) :: lines, last)

theorem splitLines_line {t : List UInt8} (h : OneLine t) (b : List UInt8) :
    splitLines (t ++ 0x0A :: b) = (t :: (splitLines b).1, (splitLines b).2) := by
  induction t with
  | nil => rfl
  | cons c t ih =>
    obtain ⟨hc, ht⟩ := List.forall_mem_cons.1 h
    have hne : c ≠ 0x0A := by
      rintro rfl
      exact absurd hc (by decide)
    rw [List.cons_append, splitLines, ih ht]
    simp [hne]

/-- A file of texts that are each on one line, and each ended by a newline, is split into them. -/
theorem splitLines_texts {ts : List (List UInt8)} (h : ∀ t ∈ ts, OneLine t) :
    splitLines (ts.flatMap fun t => t ++ [0x0A]) = (ts, []) := by
  induction ts with
  | nil => rfl
  | cons t ts ih =>
    obtain ⟨ht, hts⟩ := List.forall_mem_cons.1 h
    rw [List.flatMap_cons, List.append_assoc, List.singleton_append, splitLines_line ht, ih hts]

end Json
