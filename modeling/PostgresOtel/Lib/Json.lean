import Mathlib.Algebra.Group.Nat.Defs
import Mathlib.Data.List.Basic
import Mathlib.Data.Nat.Notation
import Mathlib.Tactic.Common

/-!
# JSON texts

The grammar of JSON over bytes, the bytes from `0x80` on being those of longer characters, whatever
their encoding.  `Reads p b a` says that the part `p` of a text is read from the bytes `b` and leaves
`a`; a text has at most one value.
-/

set_option autoImplicit false

namespace Json

/-! ## Characters -/

/-- A byte of a string that stands for itself. -/
def plain (c : UInt8) : Bool := 0x20 ≤ c && c != 0x22 && c != 0x5C

def isDigit (c : UInt8) : Bool := 0x30 ≤ c && c ≤ 0x39

/-- A byte of a number: a digit, `-`, `+`, `.`, `e` or `E`. -/
def inNumber (c : UInt8) : Bool := isDigit c || [0x2D, 0x2B, 0x2E, 0x65, 0x45].contains c

def isSpace (c : UInt8) : Bool := [0x20, 0x09, 0x0A, 0x0D].contains c

def skipSpace (b : List UInt8) : List UInt8 := b.dropWhile isSpace

/-- What a letter after a backslash stands for, `u` apart. -/
def unescape (c : UInt8) : Option UInt8 :=
  if c = 0x22 ∨ c = 0x5C ∨ c = 0x2F then some c
  else if c = 0x62 then some 0x08
  else if c = 0x66 then some 0x0C
  else if c = 0x6E then some 0x0A
  else if c = 0x72 then some 0x0D
  else if c = 0x74 then some 0x09
  else none

def hexValue (c : UInt8) : Option ℕ :=
  if isDigit c then some (c.toNat - 0x30)
  else if 0x61 ≤ c ∧ c ≤ 0x66 then some (c.toNat - 0x61 + 10)
  else if 0x41 ≤ c ∧ c ≤ 0x46 then some (c.toNat - 0x41 + 10)
  else none

/-- The four digits after `\u`. -/
def codeUnit : List UInt8 → Option (ℕ × List UInt8)
  | c₃ :: c₂ :: c₁ :: c₀ :: t => do
    let d₃ ← hexValue c₃
    let d₂ ← hexValue c₂
    let d₁ ← hexValue c₁
    let d₀ ← hexValue c₀
    return (((d₃ * 16 + d₂) * 16 + d₁) * 16 + d₀, t)
  | _ => none

/-- The UTF-8 bytes of a code point. -/
def utf8 (u : ℕ) : List UInt8 :=
  let tail (i : ℕ) : UInt8 := UInt8.ofNat (0x80 + u / 64 ^ i % 64)
  if u < 0x80 then [UInt8.ofNat u]
  else if u < 0x800 then [UInt8.ofNat (0xC0 + u / 64), tail 0]
  else if u < 0x10000 then [UInt8.ofNat (0xE0 + u / 64 ^ 2), tail 1, tail 0]
  else [UInt8.ofNat (0xF0 + u / 64 ^ 3), tail 2, tail 1, tail 0]

/-- The second half of a surrogate pair. -/
def lowSurrogate : List UInt8 → Option (ℕ × List UInt8)
  | c :: d :: t =>
    if c = 0x5C ∧ d = 0x75 then (codeUnit t).filter fun u => 0xDC00 ≤ u.1 ∧ u.1 < 0xE000 else none
  | _ => none

/-- What follows `\u`. -/
def unicodeStep (t : List UInt8) : Option (List UInt8 × List UInt8) := do
  let (u, t) ← codeUnit t
  if u < 0xD800 ∨ 0xE000 ≤ u then
    return (utf8 u, t)
  else if u < 0xDC00 then
    let (l, t) ← lowSurrogate t
    return (utf8 (0x10000 + (u - 0xD800) * 0x400 + (l - 0xDC00)), t)
  else
    none

/-- What follows a backslash. -/
def escapeStep : List UInt8 → Option (List UInt8 × List UInt8)
  | [] => none
  | c :: t => if c = 0x75 then unicodeStep t else (unescape c).map fun x => ([x], t)

/-- One character of a string. -/
def charStep : List UInt8 → Option (List UInt8 × List UInt8)
  | [] => none
  | c :: t => if c = 0x5C then escapeStep t else if plain c then some ([c], t) else none

/-! ## The grammar -/

/-- The rest of a string after its opening quote, what it decodes to, and what follows it. -/
inductive Chars : List UInt8 → List UInt8 → List UInt8 → Prop
  | close {b a : List UInt8} : b = 0x22 :: a → Chars b [] a
  | char {b t x s a : List UInt8} : charStep b = some (x, t) → Chars t s a → Chars b (x ++ s) a

def Digits (t : List UInt8) : Prop := t ≠ [] ∧ ∀ c ∈ t, isDigit c

/-- A whole number has no leading zero. -/
def Whole (t : List UInt8) : Prop := Digits t ∧ (t.head? = some 0x30 → t = [0x30])

/-- `.` and digits, or nothing. -/
def Fraction (t : List UInt8) : Prop := t = [] ∨ ∃ d, t = 0x2E :: d ∧ Digits d

/-- `e` or `E`, a sign or none, and digits; or nothing. -/
def Exponent (t : List UInt8) : Prop :=
  t = [] ∨ ∃ e sign d, t = e :: (sign ++ d) ∧ (e = 0x65 ∨ e = 0x45) ∧
    (sign = [] ∨ sign = [0x2B] ∨ sign = [0x2D]) ∧ Digits d

def Number (t : List UInt8) : Prop :=
  ∃ sign n f e, t = sign ++ (n ++ (f ++ e)) ∧ (sign = [] ∨ sign = [0x2D]) ∧ Whole n ∧ Fraction f ∧
    Exponent e

/-- A value.  A number is its text, a string the bytes it decodes to, and the members of an object
are in order. -/
inductive Value
  | null
  | bool (x : Bool)
  | num (t : List UInt8)
  | str (s : List UInt8)
  | arr (l : List Value)
  | obj (l : List (List UInt8 × Value))

/-- The first member of an object with the key. -/
def Value.get (k : List UInt8) : Value → Option Value
  | .obj l => l.lookup k
  | _ => none

/-- The parts of a text: a value, the rest of an array after an element, a member of an object, and
the rest of an object after a member. -/
inductive Part
  | value (v : Value)
  | elements (l : List Value)
  | member (k : List UInt8) (v : Value)
  | members (l : List (List UInt8 × Value))

/-- `null`, `true` or `false`. -/
def literal : Option Bool → List UInt8
  | none => [0x6E, 0x75, 0x6C, 0x6C]
  | some true => [0x74, 0x72, 0x75, 0x65]
  | some false => [0x66, 0x61, 0x6C, 0x73, 0x65]

/-- The bytes go on with no number. -/
def Stops (a : List UInt8) : Prop := ∀ c ∈ a.head?, inNumber c = false

inductive Reads : Part → List UInt8 → List UInt8 → Prop
  | null {b a : List UInt8} : b = literal none ++ a → Reads (.value .null) b a
  | bool {b a : List UInt8} (x : Bool) : b = literal (some x) ++ a → Reads (.value (.bool x)) b a
  | num {t b a : List UInt8} : b = t ++ a → Number t → Stops a → Reads (.value (.num t)) b a
  | str {s b t a : List UInt8} : b = 0x22 :: t → Chars t s a → Reads (.value (.str s)) b a
  | arrNil {b t a : List UInt8} : b = 0x5B :: t → skipSpace t = 0x5D :: a →
      Reads (.value (.arr [])) b a
  | arr {v : Value} {l : List Value} {b t u a : List UInt8} : b = 0x5B :: t →
      Reads (.value v) (skipSpace t) u → Reads (.elements l) u a → Reads (.value (.arr (v :: l))) b a
  | objNil {b t a : List UInt8} : b = 0x7B :: t → skipSpace t = 0x7D :: a →
      Reads (.value (.obj [])) b a
  | obj {k : List UInt8} {v : Value} {l : List (List UInt8 × Value)} {b t u a : List UInt8} :
      b = 0x7B :: t → Reads (.member k v) (skipSpace t) u → Reads (.members l) u a →
      Reads (.value (.obj ((k, v) :: l))) b a
  | closeArr {b a : List UInt8} : skipSpace b = 0x5D :: a → Reads (.elements []) b a
  | element {v : Value} {l : List Value} {b t u a : List UInt8} : skipSpace b = 0x2C :: t →
      Reads (.value v) (skipSpace t) u → Reads (.elements l) u a → Reads (.elements (v :: l)) b a
  | member {k : List UInt8} {v : Value} {b t u w a : List UInt8} : b = 0x22 :: t → Chars t k u →
      skipSpace u = 0x3A :: w → Reads (.value v) (skipSpace w) a → Reads (.member k v) b a
  | closeObj {b a : List UInt8} : skipSpace b = 0x7D :: a → Reads (.members []) b a
  | nextMember {k : List UInt8} {v : Value} {l : List (List UInt8 × Value)} {b t u a : List UInt8} :
      skipSpace b = 0x2C :: t → Reads (.member k v) (skipSpace t) u → Reads (.members l) u a →
      Reads (.members ((k, v) :: l)) b a

/-- The bytes are a text of the value, with white space around it. -/
def IsText (b : List UInt8) (v : Value) : Prop :=
  ∃ a, Reads (.value v) (skipSpace b) a ∧ skipSpace a = []

/-! ## A text has one value -/

theorem Chars.unique {b s s' a a' : List UInt8} (h : Chars b s a) (h' : Chars b s' a') :
    s = s' ∧ a = a' := by
  induction h generalizing s' with
  | close hb =>
    cases h' with
    | close hb' =>
      rw [hb] at hb'
      exact ⟨rfl, (List.cons.inj hb').2⟩
    | char hstep =>
      rw [hb] at hstep
      simp [charStep, plain] at hstep
  | char hstep _ ih =>
    cases h' with
    | close hb' =>
      rw [hb'] at hstep
      simp [charStep, plain] at hstep
    | char hstep' hrest =>
      rw [hstep] at hstep'
      obtain ⟨rfl, rfl⟩ := Prod.mk.inj (Option.some.inj hstep')
      obtain ⟨rfl, rfl⟩ := ih hrest
      exact ⟨rfl, rfl⟩

theorem Number.bytes {t : List UInt8} (h : Number t) : ∀ c ∈ t, inNumber c = true := by
  obtain ⟨sign, n, f, e, rfl, hsign, hn, hf, he⟩ := h
  have digits {d : List UInt8} (hd : Digits d) (c : UInt8) (hc : c ∈ d) :
      inNumber c = true := by
    simp [inNumber, hd.2 c hc]
  intro c hc
  rw [List.mem_append, List.mem_append, List.mem_append] at hc
  rcases hc with hc | hc | hc | hc
  · rcases hsign with rfl | rfl
    · cases hc
    · rw [List.mem_singleton.1 hc]
      decide
  · exact digits hn.1 c hc
  · obtain rfl | ⟨d, rfl, hd⟩ := hf
    · cases hc
    · rcases List.mem_cons.1 hc with rfl | hc
      · decide
      · exact digits hd c hc
  · obtain rfl | ⟨x, sign, d, rfl, hx, hs, hd⟩ := he
    · cases hc
    · rcases List.mem_cons.1 hc with rfl | hc
      · rcases hx with rfl | rfl <;> decide
      · rcases List.mem_append.1 hc with hc | hc
        · rcases hs with rfl | rfl | rfl
          · cases hc
          · rw [List.mem_singleton.1 hc]
            decide
          · rw [List.mem_singleton.1 hc]
            decide
        · exact digits hd c hc

theorem Number.ne_nil {t : List UInt8} (h : Number t) : t ≠ [] := by
  obtain ⟨sign, n, f, e, rfl, -, hn, -⟩ := h
  intro hnil
  have happend := List.append_eq_nil_iff.1 (List.append_eq_nil_iff.1 hnil).2
  exact hn.1.1 happend.1

/-- A number is as long as it can be. -/
theorem Number.unique {t t' a a' : List UInt8} (h : Number t) (h' : Number t') (ha : Stops a)
    (ha' : Stops a') (heq : t ++ a = t' ++ a') : t = t' ∧ a = a' := by
  have hspan {t a : List UInt8} (h : Number t) (ha : Stops a) :
      (t ++ a).takeWhile inNumber = t := by
    rw [List.takeWhile_append_of_pos h.bytes]
    cases a with
    | nil => simp
    | cons c a => simp [ha c rfl]
  have htake := congrArg (List.takeWhile inNumber) heq
  rw [hspan h ha, hspan h' ha'] at htake
  subst htake
  exact ⟨rfl, List.append_cancel_left heq⟩

/-- What the first byte of a value says. -/
inductive Shape
  | null
  | bool (x : Bool)
  | num
  | str
  | arr
  | obj

def Value.shape : Value → Shape
  | .null => .null
  | .bool x => .bool x
  | .num _ => .num
  | .str _ => .str
  | .arr _ => .arr
  | .obj _ => .obj

def shapeOf (c : UInt8) : Option Shape :=
  if inNumber c then some .num
  else if c = 0x6E then some .null
  else if c = 0x74 then some (.bool true)
  else if c = 0x66 then some (.bool false)
  else if c = 0x22 then some .str
  else if c = 0x5B then some .arr
  else if c = 0x7B then some .obj
  else none

theorem Reads.leads {v : Value} {b a : List UInt8} (h : Reads (.value v) b a) :
    ∃ c t, b = c :: t ∧ shapeOf c = some v.shape := by
  cases h with
  | null hb => exact ⟨_, _, hb, rfl⟩
  | bool x hb =>
    subst hb
    cases x
    · exact ⟨_, _, rfl, rfl⟩
    · exact ⟨_, _, rfl, rfl⟩
  | num hb ht _ =>
    obtain ⟨c, t, rfl⟩ := List.exists_cons_of_ne_nil ht.ne_nil
    exact ⟨c, _, hb, if_pos (ht.bytes c List.mem_cons_self)⟩
  | str hb => exact ⟨_, _, hb, rfl⟩
  | arrNil hb => exact ⟨_, _, hb, rfl⟩
  | arr hb => exact ⟨_, _, hb, rfl⟩
  | objNil hb => exact ⟨_, _, hb, rfl⟩
  | obj hb => exact ⟨_, _, hb, rfl⟩

theorem Reads.shape_eq {v v' : Value} {b a a' : List UInt8} (h : Reads (.value v) b a)
    (h' : Reads (.value v') b a') : v.shape = v'.shape := by
  obtain ⟨c, t, rfl, hc⟩ := h.leads
  obtain ⟨_, _, heq, hc'⟩ := h'.leads
  obtain ⟨rfl, -⟩ := List.cons.inj heq
  exact Option.some.inj (hc.symm.trans hc')

/-- What begins otherwise is no value. -/
theorem Reads.not_of_shapeOf {v : Value} {c : UInt8} {t a : List UInt8} (hc : shapeOf c = none) :
    ¬ Reads (.value v) (c :: t) a := fun h => by
  obtain ⟨_, _, heq, hshape⟩ := h.leads
  rw [← (List.cons.inj heq).1, hc] at hshape
  cases hshape

/-- The kind of a part, which its reader knows. -/
inductive Kind
  | value
  | elements
  | member
  | members

def Part.kind : Part → Kind
  | .value _ => .value
  | .elements _ => .elements
  | .member _ _ => .member
  | .members _ => .members

/-- Whatever part of this kind is read from the bytes, it is this one. -/
def Only (p : Part) (b a : List UInt8) : Prop :=
  ∀ p' a', Reads p' b a' → p.kind = p'.kind → p = p' ∧ a = a'

section Only

variable {v : Value} {k b t u w a : List UInt8}

/-- Only values with the first byte of this one are in question. -/
theorem Reads.only_value (h : Reads (.value v) b a)
    (hsame : ∀ v' a', Reads (.value v') b a' → v.shape = v'.shape → v = v' ∧ a = a') :
    Only (.value v) b a := by
  intro p' a' h' hkind
  cases p' with
  | value v' =>
    obtain ⟨rfl, rfl⟩ := hsame v' a' h' (h.shape_eq h')
    exact ⟨rfl, rfl⟩
  | elements | member | members => cases hkind

theorem only_null (hb : b = literal none ++ a) : Only (.value .null) b a := by
  refine (Reads.null hb).only_value fun v' a' h' hshape => ?_
  cases v' <;> cases hshape
  cases h' with
  | null hb' => exact ⟨rfl, List.append_cancel_left (hb.symm.trans hb')⟩

theorem only_bool (x : Bool) (hb : b = literal (some x) ++ a) : Only (.value (.bool x)) b a := by
  refine (Reads.bool x hb).only_value fun v' a' h' hshape => ?_
  cases v' <;> cases hshape
  cases h' with
  | bool x hb' => exact ⟨rfl, List.append_cancel_left (hb.symm.trans hb')⟩

theorem only_num (hb : b = t ++ a) (ht : Number t) (ha : Stops a) : Only (.value (.num t)) b a := by
  refine (Reads.num hb ht ha).only_value fun v' a' h' hshape => ?_
  cases v' <;> cases hshape
  cases h' with
  | num hb' ht' ha' =>
    obtain ⟨rfl, rfl⟩ := ht.unique ht' ha ha' (hb.symm.trans hb')
    exact ⟨rfl, rfl⟩

theorem only_str {s : List UInt8} (hb : b = 0x22 :: t) (hs : Chars t s a) :
    Only (.value (.str s)) b a := by
  refine (Reads.str hb hs).only_value fun v' a' h' hshape => ?_
  cases v' <;> cases hshape
  cases h' with
  | str hb' hs' =>
    obtain rfl := (List.cons.inj (hb.symm.trans hb')).2
    obtain ⟨rfl, rfl⟩ := hs.unique hs'
    exact ⟨rfl, rfl⟩

/-! Arrays -/

theorem only_arrNil (hb : b = 0x5B :: t) (hend : skipSpace t = 0x5D :: a) :
    Only (.value (.arr [])) b a := by
  refine (Reads.arrNil hb hend).only_value fun v' a' h' hshape => ?_
  cases v' <;> cases hshape
  cases h' with
  | arrNil hb' hend' =>
    obtain rfl := (List.cons.inj (hb.symm.trans hb')).2
    exact ⟨rfl, (List.cons.inj (hend.symm.trans hend')).2⟩
  | arr hb' hv' _ =>
    obtain rfl := (List.cons.inj (hb.symm.trans hb')).2
    rw [hend] at hv'
    exact absurd hv' (Reads.not_of_shapeOf rfl)

theorem only_arr {l : List Value} (hb : b = 0x5B :: t) (hv : Reads (.value v) (skipSpace t) u)
    (hl : Reads (.elements l) u a) (ihv : Only (.value v) (skipSpace t) u)
    (ihl : Only (.elements l) u a) : Only (.value (.arr (v :: l))) b a := by
  refine (Reads.arr hb hv hl).only_value fun v' a' h' hshape => ?_
  cases v' <;> cases hshape
  cases h' with
  | arrNil hb' hend' =>
    obtain rfl := (List.cons.inj (hb.symm.trans hb')).2
    rw [hend'] at hv
    exact absurd hv (Reads.not_of_shapeOf rfl)
  | arr hb' hv' hl' =>
    obtain rfl := (List.cons.inj (hb.symm.trans hb')).2
    obtain ⟨heq, rfl⟩ := ihv _ _ hv' rfl
    obtain ⟨heq', rfl⟩ := ihl _ _ hl' rfl
    cases heq
    cases heq'
    exact ⟨rfl, rfl⟩

theorem only_closeArr (hb : skipSpace b = 0x5D :: a) : Only (.elements []) b a := by
  intro p' a' h' hkind
  cases h' with
  | closeArr hb' => exact ⟨rfl, (List.cons.inj (hb.symm.trans hb')).2⟩
  | element hb' => cases hb.symm.trans hb'
  | _ => cases hkind

theorem only_element {l : List Value} (hb : skipSpace b = 0x2C :: t)
    (ihv : Only (.value v) (skipSpace t) u) (ihl : Only (.elements l) u a) :
    Only (.elements (v :: l)) b a := by
  intro p' a' h' hkind
  cases h' with
  | closeArr hb' => cases hb.symm.trans hb'
  | element hb' hv' hl' =>
    obtain rfl := (List.cons.inj (hb.symm.trans hb')).2
    obtain ⟨heq, rfl⟩ := ihv _ _ hv' rfl
    obtain ⟨heq', rfl⟩ := ihl _ _ hl' rfl
    cases heq
    cases heq'
    exact ⟨rfl, rfl⟩
  | _ => cases hkind

/-! Objects -/

/-- No member begins with a brace. -/
theorem Reads.not_member (hb : b = 0x7D :: t) : ¬ Reads (.member k v) b a := by
  intro h
  cases h with
  | member hquote => cases hb.symm.trans hquote

theorem only_objNil (hb : b = 0x7B :: t) (hend : skipSpace t = 0x7D :: a) :
    Only (.value (.obj [])) b a := by
  refine (Reads.objNil hb hend).only_value fun v' a' h' hshape => ?_
  cases v' <;> cases hshape
  cases h' with
  | objNil hb' hend' =>
    obtain rfl := (List.cons.inj (hb.symm.trans hb')).2
    exact ⟨rfl, (List.cons.inj (hend.symm.trans hend')).2⟩
  | obj hb' hm' _ =>
    obtain rfl := (List.cons.inj (hb.symm.trans hb')).2
    exact absurd hm' (Reads.not_member hend)

theorem only_obj {l : List (List UInt8 × Value)} (hb : b = 0x7B :: t)
    (hm : Reads (.member k v) (skipSpace t) u) (hl : Reads (.members l) u a)
    (ihm : Only (.member k v) (skipSpace t) u) (ihl : Only (.members l) u a) :
    Only (.value (.obj ((k, v) :: l))) b a := by
  refine (Reads.obj hb hm hl).only_value fun v' a' h' hshape => ?_
  cases v' <;> cases hshape
  cases h' with
  | objNil hb' hend' =>
    obtain rfl := (List.cons.inj (hb.symm.trans hb')).2
    exact absurd hm (Reads.not_member hend')
  | obj hb' hm' hl' =>
    obtain rfl := (List.cons.inj (hb.symm.trans hb')).2
    obtain ⟨heq, rfl⟩ := ihm _ _ hm' rfl
    obtain ⟨heq', rfl⟩ := ihl _ _ hl' rfl
    cases heq
    cases heq'
    exact ⟨rfl, rfl⟩

theorem only_member (hb : b = 0x22 :: t) (hk : Chars t k u) (hw : skipSpace u = 0x3A :: w)
    (ihv : Only (.value v) (skipSpace w) a) : Only (.member k v) b a := by
  intro p' a' h' hkind
  cases h' with
  | member hb' hk' hw' hv' =>
    obtain rfl := (List.cons.inj (hb.symm.trans hb')).2
    obtain ⟨rfl, rfl⟩ := hk.unique hk'
    obtain rfl := (List.cons.inj (hw.symm.trans hw')).2
    obtain ⟨heq, rfl⟩ := ihv _ _ hv' rfl
    cases heq
    exact ⟨rfl, rfl⟩
  | _ => cases hkind

theorem only_closeObj (hb : skipSpace b = 0x7D :: a) : Only (.members []) b a := by
  intro p' a' h' hkind
  cases h' with
  | closeObj hb' => exact ⟨rfl, (List.cons.inj (hb.symm.trans hb')).2⟩
  | nextMember hb' => cases hb.symm.trans hb'
  | _ => cases hkind

theorem only_nextMember {l : List (List UInt8 × Value)} (hb : skipSpace b = 0x2C :: t)
    (ihm : Only (.member k v) (skipSpace t) u) (ihl : Only (.members l) u a) :
    Only (.members ((k, v) :: l)) b a := by
  intro p' a' h' hkind
  cases h' with
  | closeObj hb' => cases hb.symm.trans hb'
  | nextMember hb' hm' hl' =>
    obtain rfl := (List.cons.inj (hb.symm.trans hb')).2
    obtain ⟨heq, rfl⟩ := ihm _ _ hm' rfl
    obtain ⟨heq', rfl⟩ := ihl _ _ hl' rfl
    cases heq
    cases heq'
    exact ⟨rfl, rfl⟩
  | _ => cases hkind

end Only

theorem Reads.only {p : Part} {b a : List UInt8} (h : Reads p b a) : Only p b a := by
  induction h with
  | null hb => exact only_null hb
  | bool x hb => exact only_bool x hb
  | num hb ht ha => exact only_num hb ht ha
  | str hb hs => exact only_str hb hs
  | arrNil hb hend => exact only_arrNil hb hend
  | arr hb hv hl ihv ihl => exact only_arr hb hv hl ihv ihl
  | objNil hb hend => exact only_objNil hb hend
  | obj hb hm hl ihm ihl => exact only_obj hb hm hl ihm ihl
  | closeArr hb => exact only_closeArr hb
  | element hb _ _ ihv ihl => exact only_element hb ihv ihl
  | member hb hk hw _ ihv => exact only_member hb hk hw ihv
  | closeObj hb => exact only_closeObj hb
  | nextMember hb _ _ ihm ihl => exact only_nextMember hb ihm ihl

theorem Reads.unique {p p' : Part} {b a a' : List UInt8} (h : Reads p b a) (h' : Reads p' b a')
    (hkind : p.kind = p'.kind) : p = p' ∧ a = a' := h.only p' a' h' hkind

theorem IsText.unique {b : List UInt8} {v v' : Value} (h : IsText b v) (h' : IsText b v') :
    v = v' := by
  obtain ⟨a, hread, -⟩ := h
  obtain ⟨a', hread', -⟩ := h'
  cases (hread.unique hread' rfl).1
  rfl

theorem Reads.skipSpace_eq {v : Value} {b a : List UInt8} (h : Reads (.value v) b a) :
    skipSpace b = b := by
  obtain ⟨c, t, rfl, hc⟩ := h.leads
  have hspace : isSpace c = false := by
    by_contra hs
    simp only [isSpace, List.contains_iff_mem, List.mem_cons, List.not_mem_nil, or_false,
      Bool.not_eq_false] at hs
    rcases hs with rfl | rfl | rfl | rfl <;> cases hc
  simp [skipSpace, hspace]

theorem Reads.afterSpace {v : Value} {b a : List UInt8} (h : Reads (.value v) b a) :
    Reads (.value v) (skipSpace b) a := by
  rwa [h.skipSpace_eq]

end Json
