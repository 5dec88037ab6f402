import Mathlib.Data.List.Forall2
import PostgresOtel.Lib.Json

/-!
# Writing JSON texts

Texts of values put together with punctuation, and what can be seen of a text without reading it:
outside of its strings it has only the bytes that numbers, literals, punctuation and white space are
made of.
-/

set_option autoImplicit false

namespace Json

/-! ## Texts of values -/

/-- The bytes are a text of the value, whatever follows them. -/
def Prints (t : List UInt8) (v : Value) : Prop := ∀ a, Stops a → Reads (.value v) (t ++ a) a

/-- They are a string, with its quotes. -/
def PrintsString (t s : List UInt8) : Prop := ∃ b, t = 0x22 :: b ∧ ∀ a, Chars (b ++ a) s a

theorem prints_literal (x : Option Bool) :
    Prints (literal x) (x.elim .null .bool) := fun a _ => by
  cases x with
  | none => exact .null rfl
  | some x => exact .bool x rfl

theorem prints_num {t : List UInt8} (h : Number t) : Prints t (.num t) := fun _ ha => .num rfl h ha

theorem PrintsString.prints {t s : List UInt8} (h : PrintsString t s) : Prints t (.str s) := by
  obtain ⟨b, rfl, hb⟩ := h
  exact fun a _ => .str rfl (hb a)

def quoted (s : List UInt8) : List UInt8 := 0x22 :: (s ++ [0x22])

/-- A string without quotes, backslashes and control bytes is printed as it is. -/
theorem printsString_quoted {s : List UInt8} (h : ∀ c ∈ s, plain c = true) :
    PrintsString (quoted s) s := by
  refine ⟨_, rfl, fun a => ?_⟩
  induction s with
  | nil => exact .close rfl
  | cons c s ih =>
    have hc := h c List.mem_cons_self
    have hne : c ≠ 0x5C := by
      rintro rfl
      cases hc
    have hstep : charStep (c :: (s ++ [0x22] ++ a)) = some ([c], s ++ [0x22] ++ a) := by
      simp [charStep, hne, hc]
    exact .char hstep (ih fun c hc => h c (List.mem_cons_of_mem _ hc))

/-- Texts with a comma before each. -/
def afterCommas (l : List (List UInt8)) : List UInt8 := l.flatMap fun t => 0x2C :: t

/-- Texts with a comma between one and the next. -/
def separated : List (List UInt8) → List UInt8
  | [] => []
  | t :: l => t ++ afterCommas l

def arrayText (l : List (List UInt8)) : List UInt8 := 0x5B :: (separated l ++ [0x5D])

def memberText (m : List UInt8 × List UInt8) : List UInt8 := m.1 ++ 0x3A :: m.2

def objectText (l : List (List UInt8 × List UInt8)) : List UInt8 :=
  0x7B :: (separated (l.map memberText) ++ [0x7D])

theorem stops_comma (a : List UInt8) : Stops (0x2C :: a) := fun _ h => by
  cases h
  rfl

theorem reads_elements {ts : List (List UInt8)} {vs : List Value} (h : List.Forall₂ Prints ts vs)
    (a : List UInt8) :
    Reads (.elements vs) (afterCommas ts ++ 0x5D :: a) a ∧ Stops (afterCommas ts ++ 0x5D :: a) := by
  induction h with
  | nil =>
    refine ⟨.closeArr rfl, fun _ h => ?_⟩
    cases h
    rfl
  | cons hv _ ih =>
    rw [afterCommas, List.flatMap_cons, List.cons_append, List.cons_append, List.append_assoc]
    exact ⟨.element rfl (hv _ ih.2).afterSpace ih.1, stops_comma _⟩

theorem prints_array {ts : List (List UInt8)} {vs : List Value} (h : List.Forall₂ Prints ts vs) :
    Prints (arrayText ts) (.arr vs) := fun a _ => by
  unfold arrayText
  rw [List.cons_append, List.append_assoc]
  cases h with
  | nil => exact .arrNil rfl rfl
  | cons hv hl =>
    unfold separated
    rw [List.append_assoc]
    obtain ⟨hrest, hstops⟩ := reads_elements hl a
    exact .arr rfl (hv _ hstops).afterSpace hrest

/-- A key as a string, and a value. -/
def PrintsMember (m : List UInt8 × List UInt8) (x : List UInt8 × Value) : Prop :=
  PrintsString m.1 x.1 ∧ Prints m.2 x.2

theorem PrintsMember.reads {m : List UInt8 × List UInt8} {x : List UInt8 × Value}
    (h : PrintsMember m x) {a : List UInt8} (ha : Stops a) :
    Reads (.member x.1 x.2) (skipSpace (memberText m ++ a)) a := by
  obtain ⟨⟨b, hb, hkey⟩, hv⟩ := h
  unfold memberText
  rw [hb, List.append_assoc, List.cons_append, List.cons_append]
  exact .member rfl (hkey _) rfl (hv a ha).afterSpace

theorem reads_members {ms : List (List UInt8 × List UInt8)} {l : List (List UInt8 × Value)}
    (h : List.Forall₂ PrintsMember ms l) (a : List UInt8) :
    Reads (.members l) (afterCommas (ms.map memberText) ++ 0x7D :: a) a ∧
      Stops (afterCommas (ms.map memberText) ++ 0x7D :: a) := by
  induction h with
  | nil =>
    refine ⟨.closeObj rfl, fun _ h => ?_⟩
    cases h
    rfl
  | cons hm _ ih =>
    rw [List.map_cons, afterCommas, List.flatMap_cons, List.cons_append, List.cons_append,
      List.append_assoc]
    exact ⟨.nextMember rfl (hm.reads ih.2) ih.1, stops_comma _⟩

theorem prints_object {ms : List (List UInt8 × List UInt8)} {l : List (List UInt8 × Value)}
    (h : List.Forall₂ PrintsMember ms l) : Prints (objectText ms) (.obj l) := fun a _ => by
  unfold objectText
  rw [List.cons_append, List.append_assoc]
  cases h with
  | nil => exact .objNil rfl rfl
  | cons hm hl =>
    rw [List.map_cons, separated, List.append_assoc]
    obtain ⟨hrest, hstops⟩ := reads_members hl a
    exact .obj rfl (hm.reads hstops) hrest

theorem Prints.isText {t : List UInt8} {v : Value} (h : Prints t v) : IsText t v := by
  have hread := h [] fun _ h => by cases h
  rw [List.append_nil] at hread
  exact ⟨[], hread.afterSpace, rfl⟩

/-! ## Outside of strings -/

/-- Where a byte of a text stands. -/
inductive Place
  | outside
  | inside
  | escaped
  deriving DecidableEq

def Place.next : Place → UInt8 → Place
  | .outside, c => if c = 0x22 then .inside else .outside
  | .inside, c => if c = 0x5C then .escaped else if c = 0x22 then .outside else .inside
  | .escaped, _ => .inside

/-- The bytes outside of strings, the quotes apart. -/
def bare : Place → List UInt8 → List UInt8
  | _, [] => []
  | place, c :: t =>
    if place = .outside ∧ c ≠ 0x22 then c :: bare (place.next c) t else bare (place.next c) t

/-- The bytes begin and end outside of strings. -/
def Balanced (t : List UInt8) : Prop := t.foldl Place.next .outside = .outside

theorem bare_append (place : Place) (t u : List UInt8) :
    bare place (t ++ u) = bare place t ++ bare (t.foldl Place.next place) u := by
  induction t generalizing place with
  | nil => rfl
  | cons c t ih =>
    rw [List.cons_append, bare, bare, ih, List.foldl_cons]
    split_ifs
    · rfl
    · rfl

theorem Balanced.append {t u : List UInt8} (ht : Balanced t) (hu : Balanced u) :
    Balanced (t ++ u) := by
  unfold Balanced
  rw [List.foldl_append, ht, hu]

theorem Balanced.bare_append {t u : List UInt8} (ht : Balanced t) :
    bare .outside (t ++ u) = bare .outside t ++ bare .outside u := by
  rw [Json.bare_append, ht]

/-- The bytes of numbers, literals, punctuation and white space. -/
def bareByte (c : UInt8) : Bool :=
  inNumber c || isSpace c || [0x5B, 0x5D, 0x7B, 0x7D, 0x2C, 0x3A].contains c ||
    (literal none ++ literal (some true) ++ literal (some false)).contains c

theorem ne_quote_of_bareByte {c : UInt8} (h : bareByte c = true) : c ≠ 0x22 := by
  rintro rfl
  cases h

/-- A text goes on from `b` to `a`, between these places, and the bytes outside of strings are those
that may be there. -/
def Passes (place : Place) (b : List UInt8) (place' : Place) (a : List UInt8) : Prop :=
  ∃ t, b = t ++ a ∧ t.foldl Place.next place = place' ∧ ∀ c ∈ bare place t, bareByte c = true

section Passes

variable {place place' place'' : Place} {a b d t : List UInt8} {c : UInt8}

theorem Passes.refl (place : Place) (b : List UInt8) : Passes place b place b :=
  ⟨[], rfl, rfl, fun _ h => by cases h⟩

theorem Passes.trans (h : Passes place b place' a) (h' : Passes place' a place'' d) :
    Passes place b place'' d := by
  obtain ⟨t, rfl, hplace, hbare⟩ := h
  obtain ⟨u, rfl, hplace', hbare'⟩ := h'
  refine ⟨t ++ u, (List.append_assoc ..).symm, ?_, fun c hc => ?_⟩
  · rw [List.foldl_append, hplace, hplace']
  · rw [bare_append, hplace] at hc
    exact (List.mem_append.1 hc).elim (hbare c) (hbare' c)

theorem passes_bare (hc : bareByte c = true) : Passes .outside (c :: b) .outside b := by
  have hne := ne_quote_of_bareByte hc
  refine ⟨[c], rfl, if_neg hne, fun d hd => ?_⟩
  simp only [bare, hne, ne_eq, not_false_eq_true, and_self, if_true, List.mem_singleton] at hd
  rw [hd, hc]

/-- A byte in a string is not outside of it. -/
theorem passes_char (hplace : place ≠ .outside) : Passes place (c :: b) (place.next c) b := by
  refine ⟨[c], rfl, rfl, fun d hd => ?_⟩
  simp [bare, hplace] at hd

theorem passes_bareBytes (h : ∀ c ∈ t, bareByte c = true) :
    Passes .outside (t ++ b) .outside b := by
  induction t with
  | nil => exact .refl _ _
  | cons c t ih =>
    exact (passes_bare (h c List.mem_cons_self)).trans
      (ih fun c hc => h c (List.mem_cons_of_mem _ hc))

theorem passes_space (b : List UInt8) : Passes .outside b .outside (skipSpace b) := by
  have hspace : ∀ c ∈ b.takeWhile isSpace, bareByte c = true := fun c hc => by
    simp [bareByte, List.all_eq_true.1 List.all_takeWhile c hc]
  have hpass := passes_bareBytes (b := skipSpace b) hspace
  rwa [skipSpace, List.takeWhile_append_dropWhile] at hpass

theorem passes_plain (hquote : c ≠ 0x22) (hslash : c ≠ 0x5C) :
    Passes .inside (c :: b) .inside b := by
  have hpass : Passes .inside (c :: b) (Place.next .inside c) b := passes_char (by decide)
  rwa [Place.next, if_neg hslash, if_neg hquote] at hpass

theorem passes_escape (c : UInt8) (b : List UInt8) : Passes .inside (0x5C :: c :: b) .inside b :=
  (passes_char (by decide)).trans (passes_char (by decide))

theorem passes_hexValue {x : ℕ} (h : hexValue c = some x) : Passes .inside (c :: b) .inside b := by
  refine passes_plain ?_ ?_
  · rintro rfl
    cases h
  · rintro rfl
    cases h

theorem passes_codeUnit {x : ℕ × List UInt8} (h : codeUnit b = some x) :
    Passes .inside b .inside x.2 := by
  match b, h with
  | c₃ :: c₂ :: c₁ :: c₀ :: t, h =>
    simp only [codeUnit, Option.bind_eq_bind, Option.bind_eq_some_iff, Option.pure_def,
      Option.some.injEq] at h
    obtain ⟨_, h₃, _, h₂, _, h₁, _, h₀, rfl⟩ := h
    exact (passes_hexValue h₃).trans ((passes_hexValue h₂).trans
      ((passes_hexValue h₁).trans (passes_hexValue h₀)))

theorem passes_lowSurrogate {x : ℕ × List UInt8} (h : lowSurrogate b = some x) :
    Passes .inside b .inside x.2 := by
  match b, h with
  | c :: d :: t, h =>
    rw [lowSurrogate] at h
    split_ifs at h with hcd
    obtain ⟨rfl, rfl⟩ := hcd
    exact (passes_escape _ _).trans (passes_codeUnit (Option.eq_some_of_filter_eq_some h))

theorem passes_unicodeStep {x : List UInt8 × List UInt8} (h : unicodeStep b = some x) :
    Passes .inside b .inside x.2 := by
  unfold unicodeStep at h
  obtain ⟨⟨u, t⟩, hunit, h⟩ := Option.bind_eq_some_iff.1 h
  have hpass := passes_codeUnit hunit
  dsimp only at h
  split_ifs at h
  · obtain rfl := Option.some.inj h
    exact hpass
  · obtain ⟨⟨l, t'⟩, hlow, h⟩ := Option.bind_eq_some_iff.1 h
    obtain rfl := Option.some.inj h
    exact hpass.trans (passes_lowSurrogate hlow)

theorem passes_charStep {x : List UInt8 × List UInt8} (h : charStep b = some x) :
    Passes .inside b .inside x.2 := by
  cases b with
  | nil => cases h
  | cons c t =>
    rw [charStep] at h
    split_ifs at h with hslash hplain
    · rw [hslash]
      cases t with
      | nil => cases h
      | cons d t =>
        rw [escapeStep] at h
        split_ifs at h
        · exact (passes_escape d t).trans (passes_unicodeStep h)
        · obtain ⟨_, -, rfl⟩ := Option.map_eq_some_iff.1 h
          exact passes_escape d t
    · obtain rfl := Option.some.inj h
      refine passes_plain ?_ hslash
      rintro rfl
      cases hplain

theorem Chars.passes {s : List UInt8} (h : Chars b s a) : Passes .inside b .outside a := by
  induction h with
  | close hb =>
    rw [hb]
    exact passes_char (by decide)
  | char hstep _ ih => exact (passes_charStep hstep).trans ih

theorem passes_string {s : List UInt8} (h : Chars t s a) : Passes .outside (0x22 :: t) .outside a := by
  refine Passes.trans ⟨[0x22], rfl, rfl, fun d hd => ?_⟩ h.passes
  cases hd

theorem Reads.passes {p : Part} (h : Reads p b a) : Passes .outside b .outside a := by
  have hpunct {c : UInt8} {b t : List UInt8} (hc : bareByte c = true) (hb : skipSpace b = c :: t) :
      Passes .outside b .outside t := by
    have hspace := passes_space b
    rw [hb] at hspace
    exact hspace.trans (passes_bare hc)
  induction h with
  | null hb =>
    rw [hb]
    exact passes_bareBytes (List.all_eq_true.1 (by decide))
  | bool x hb =>
    rw [hb]
    exact passes_bareBytes (List.all_eq_true.1 (by cases x <;> decide))
  | num hb ht _ =>
    rw [hb]
    exact passes_bareBytes fun c hc => by simp [bareByte, ht.bytes c hc]
  | str hb hs =>
    rw [hb]
    exact passes_string hs
  | arrNil hb hend =>
    rw [hb]
    exact (passes_bare rfl).trans (hpunct rfl hend)
  | arr hb _ _ ihv ihl =>
    rw [hb]
    exact (passes_bare rfl).trans ((passes_space _).trans (ihv.trans ihl))
  | objNil hb hend =>
    rw [hb]
    exact (passes_bare rfl).trans (hpunct rfl hend)
  | obj hb _ _ ihm ihl =>
    rw [hb]
    exact (passes_bare rfl).trans ((passes_space _).trans (ihm.trans ihl))
  | closeArr hb => exact hpunct rfl hb
  | element hb _ _ ihv ihl => exact (hpunct rfl hb).trans ((passes_space _).trans (ihv.trans ihl))
  | member hb hk hw _ ihv =>
    rw [hb]
    exact (passes_string hk).trans ((hpunct rfl hw).trans ((passes_space _).trans ihv))
  | closeObj hb => exact hpunct rfl hb
  | nextMember hb _ _ ihm ihl =>
    exact (hpunct rfl hb).trans ((passes_space _).trans (ihm.trans ihl))

end Passes

theorem IsText.bareByte {b : List UInt8} {v : Value} (h : IsText b v) :
    ∀ c ∈ bare .outside b, Json.bareByte c = true := by
  obtain ⟨a, hread, ha⟩ := h
  have hpass := (passes_space b).trans (hread.passes.trans (passes_space a))
  rw [ha] at hpass
  obtain ⟨t, rfl, -, hbare⟩ := hpass
  rwa [List.append_nil]

theorem Prints.balanced {t : List UInt8} {v : Value} (h : Prints t v) : Balanced t := by
  have hread := h [] fun _ h => by cases h
  obtain ⟨u, hu, hplace, -⟩ := hread.passes
  rw [List.append_nil, List.append_nil] at hu
  rw [hu]
  exact hplace

theorem PrintsString.balanced {t s : List UInt8} (h : PrintsString t s) : Balanced t :=
  h.prints.balanced

/-! ## Texts put together -/

/-- The bytes `t` are a part of `u` that begins outside of its strings. -/
def Occurs (t u : List UInt8) : Prop := ∃ v w, u = v ++ (t ++ w) ∧ Balanced v

section Occurs

variable {t u v : List UInt8} {l : List (List UInt8)}

theorem Occurs.trans (h : Occurs t u) (h' : Occurs u v) : Occurs t v := by
  obtain ⟨x, y, rfl, hx⟩ := h
  obtain ⟨x', y', rfl, hx'⟩ := h'
  exact ⟨x' ++ x, y ++ y', by simp, hx'.append hx⟩

/-- Its bytes outside of strings are some of the whole. -/
theorem Occurs.mem_bare (h : Occurs t u) {c : UInt8} (hc : c ∈ bare .outside t) :
    c ∈ bare .outside u := by
  obtain ⟨v, w, rfl, hv⟩ := h
  rw [hv.bare_append, bare_append]
  exact List.mem_append_right _ (List.mem_append_left _ hc)

theorem balanced_bareByte {c : UInt8} (hc : bareByte c = true) : Balanced [c] :=
  if_neg (ne_quote_of_bareByte hc)

theorem Balanced.cons {c : UInt8} (ht : Balanced t) (hc : bareByte c = true) : Balanced (c :: t) :=
  (balanced_bareByte hc).append ht

theorem Occurs.append_left (h : Occurs t u) (hv : Balanced v) : Occurs t (v ++ u) := by
  obtain ⟨x, y, rfl, hx⟩ := h
  exact ⟨v ++ x, y, by simp, hv.append hx⟩

theorem Occurs.append_right (h : Occurs t u) (v : List UInt8) : Occurs t (u ++ v) := by
  obtain ⟨x, y, rfl, hx⟩ := h
  exact ⟨x, y ++ v, by simp, hx⟩

theorem Occurs.refl (t : List UInt8) : Occurs t t := ⟨[], [], by simp, rfl⟩

theorem balanced_afterCommas (h : ∀ t ∈ l, Balanced t) : Balanced (afterCommas l) := by
  induction l with
  | nil => rfl
  | cons t l ih =>
    refine ((h t List.mem_cons_self).cons rfl).append ?_
    exact ih fun u hu => h u (List.mem_cons_of_mem _ hu)

theorem balanced_separated (h : ∀ t ∈ l, Balanced t) : Balanced (separated l) := by
  cases l with
  | nil => rfl
  | cons t l =>
    refine (h t List.mem_cons_self).append (balanced_afterCommas ?_)
    exact fun u hu => h u (List.mem_cons_of_mem _ hu)

theorem occurs_afterCommas (h : ∀ t ∈ l, Balanced t) (ht : t ∈ l) : Occurs t (afterCommas l) := by
  induction l with
  | nil => cases ht
  | cons u l ih =>
    rcases List.mem_cons.1 ht with rfl | ht
    · exact ((Occurs.refl t).append_left (balanced_bareByte rfl)).append_right _
    · refine (ih (fun u hu => h u (List.mem_cons_of_mem _ hu)) ht).append_left ?_
      exact (h u List.mem_cons_self).cons rfl

theorem occurs_separated (h : ∀ t ∈ l, Balanced t) (ht : t ∈ l) : Occurs t (separated l) := by
  cases l with
  | nil => cases ht
  | cons u l =>
    rcases List.mem_cons.1 ht with rfl | ht
    · exact (Occurs.refl t).append_right _
    · have hl := occurs_afterCommas (fun u hu => h u (List.mem_cons_of_mem _ hu)) ht
      exact hl.append_left (h u List.mem_cons_self)

theorem balanced_arrayText (h : ∀ t ∈ l, Balanced t) : Balanced (arrayText l) :=
  ((balanced_separated h).append (balanced_bareByte rfl)).cons rfl

theorem occurs_arrayText (h : ∀ t ∈ l, Balanced t) (ht : t ∈ l) : Occurs t (arrayText l) :=
  ((occurs_separated h ht).append_right _).append_left (balanced_bareByte (c := 0x5B) rfl)

/-- The key and the value of a member. -/
def BalancedMember (m : List UInt8 × List UInt8) : Prop := Balanced m.1 ∧ Balanced m.2

theorem BalancedMember.memberText {m : List UInt8 × List UInt8} (h : BalancedMember m) :
    Balanced (memberText m) := h.1.append (h.2.cons rfl)

theorem occurs_memberText {m : List UInt8 × List UInt8} (h : BalancedMember m) :
    Occurs m.2 (memberText m) :=
  ((Occurs.refl m.2).append_left (balanced_bareByte (c := 0x3A) rfl)).append_left h.1

theorem balanced_objectText {l : List (List UInt8 × List UInt8)} (h : ∀ m ∈ l, BalancedMember m) :
    Balanced (objectText l) := by
  refine ((balanced_separated fun t ht => ?_).append (balanced_bareByte rfl)).cons rfl
  obtain ⟨m, hm, rfl⟩ := List.mem_map.1 ht
  exact (h m hm).memberText

theorem occurs_objectText {l : List (List UInt8 × List UInt8)} {m : List UInt8 × List UInt8}
    (h : ∀ m ∈ l, BalancedMember m) (hm : m ∈ l) : Occurs m.2 (objectText l) := by
  refine (occurs_memberText (h m hm)).trans ?_
  refine ((occurs_separated (fun t ht => ?_) (List.mem_map_of_mem hm)).append_right _).append_left
    (balanced_bareByte (c := 0x7B) rfl)
  obtain ⟨m, hm, rfl⟩ := List.mem_map.1 ht
  exact (h m hm).memberText

end Occurs

/-! ## Texts that may fail to be JSON -/

/-- The bytes begin and end outside of strings, and are a text of the value if `p`. -/
structure Piece (p : Prop) (t : List UInt8) (v : Value) : Prop where
  balanced : Balanced t
  prints : p → Prints t v

def PieceMember (p : Prop) (m : List UInt8 × List UInt8) (x : List UInt8 × Value) : Prop :=
  PrintsString m.1 x.1 ∧ Piece p m.2 x.2

section Piece

variable {p : Prop}

theorem Prints.piece {t : List UInt8} {v : Value} (h : Prints t v) : Piece p t v :=
  ⟨h.balanced, fun _ => h⟩

theorem forall_balanced {ts : List (List UInt8)} {vs : List Value}
    (h : List.Forall₂ (Piece p) ts vs) : ∀ t ∈ ts, Balanced t := by
  induction h with
  | nil => exact fun _ ht => by cases ht
  | cons hv _ ih => exact List.forall_mem_cons.2 ⟨hv.balanced, ih⟩

theorem forall_balancedMember {ms : List (List UInt8 × List UInt8)} {l : List (List UInt8 × Value)}
    (h : List.Forall₂ (PieceMember p) ms l) : ∀ m ∈ ms, BalancedMember m := by
  induction h with
  | nil => exact fun _ hm => by cases hm
  | cons hm _ ih => exact List.forall_mem_cons.2 ⟨⟨hm.1.balanced, hm.2.balanced⟩, ih⟩

theorem piece_array {ts : List (List UInt8)} {vs : List Value}
    (h : List.Forall₂ (Piece p) ts vs) : Piece p (arrayText ts) (.arr vs) where
  balanced := balanced_arrayText (forall_balanced h)
  prints hp := prints_array (h.imp fun _ _ hv => hv.prints hp)

theorem piece_object {ms : List (List UInt8 × List UInt8)} {l : List (List UInt8 × Value)}
    (h : List.Forall₂ (PieceMember p) ms l) : Piece p (objectText ms) (.obj l) where
  balanced := balanced_objectText (forall_balancedMember h)
  prints hp := prints_object (h.imp fun _ _ hm => ⟨hm.1, hm.2.prints hp⟩)

end Piece

end Json
