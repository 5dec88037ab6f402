import PostgresOtel.Context.CommentPairs
import PostgresOtel.Context.TraceparentText
import PostgresOtel.Trace.Comment

/-!
# Contexts in a statement's text

`otel_try_apply_sqlcommenter_context` on the text of a statement, compared with a `SET` of
`otel_api.traceparent` to the value in its comment.  The two differ for values that are longer than
those of version 00, and for texts that begin with a comment on something else.
-/

set_option autoImplicit false

namespace PostgresOtel

open Scan

/-! ## Searches in a text with a known part -/

variable {a b : UInt8} {x y : CString} {i n : ℕ}

theorem pairAt_append_left (h : pairAt x i a b) (y : CString) : pairAt (x ++ y) i a b := by
  have hlt := h.lt
  unfold pairAt at h ⊢
  rwa [List.getElem?_append_left (by omega), List.getElem?_append_left hlt]

theorem pairAt_append_right : pairAt (x ++ y) (x.length + i) a b ↔ pairAt y i a b := by
  rw [← pairAt_drop, List.drop_left]

/-- The first pair is the one after a part without any. -/
theorem memmemPair_append (hab : a ≠ b) (hnone : ∀ i, ¬ pairAt x i a b) (rest : CString) :
    memmemPair a b (x ++ a :: b :: rest) = some x.length := by
  induction x with
  | nil => simp [memmemPair]
  | cons c x ih =>
    have hrest := ih fun i hpair => hnone (i + 1) (by simpa [pairAt] using hpair)
    cases x with
    | nil => simp_all [memmemPair]
    | cons d x =>
      have hhead : ¬ (c = a ∧ d = b) := fun h => hnone 0 (by simp [pairAt, h])
      rw [List.cons_append, List.cons_append, memmemPair, if_neg hhead]
      rw [List.cons_append] at hrest
      rw [hrest]
      rfl

/-- What follows does not matter to a pair that has been found. -/
theorem memmemPair_append_left (h : memmemPair a b x = some n) (y : CString) :
    memmemPair a b (x ++ y) = some n := by
  fun_induction memmemPair a b x generalizing n with
  | case1 c d rest heq => simpa [memmemPair, heq] using h
  | case2 c d rest hne ih =>
    obtain ⟨m, hm, rfl⟩ := Option.map_eq_some_iff.1 h
    have hrest := ih hm
    rw [List.cons_append] at hrest
    rw [List.cons_append, List.cons_append, memmemPair, if_neg hne, hrest]
    rfl
  | case3 => cases h

/-! ## Bodies without traceparent pairs -/

/-- Somewhere a pair of the text begins as a `traceparent` pair does. -/
def HasTraceparentPair (s : CString) : Prop := ∃ before blanks rest : CString,
  s = before ++ (blanks ++ (traceparentKey ++ 0x3d :: 0x27 :: rest)) ∧
    (before = [] ∨ before.getLast? = some 0x2c) ∧ ∀ c ∈ blanks, isBlank c = true

/-- A pair after the next comma is a pair of the whole. -/
theorem HasTraceparentPair.of_nextPair {r s : CString} (h : HasTraceparentPair (nextPair r))
    (hsuffix : r <:+ s) : HasTraceparentPair s := by
  obtain ⟨x, rfl⟩ := hsuffix
  obtain ⟨before, blanks, rest, heq, hbefore, hblanks⟩ := h
  have hsplit := List.takeWhile_append_dropWhile (p := isntComma) (l := r)
  cases hdrop : r.dropWhile isntComma with
  | nil =>
    have hnil : nextPair r = [] := by rw [nextPair, hdrop, List.tail_nil]
    rw [hnil] at heq
    simp at heq
  | cons c tail =>
    have hcomma : c = 0x2c := by
      have hstop := List.head?_dropWhile_not isntComma r
      rw [hdrop] at hstop
      simpa [isntComma] using hstop
    have htail : tail = nextPair r := by rw [nextPair, hdrop, List.tail_cons]
    refine ⟨x ++ (r.takeWhile isntComma ++ 0x2c :: before), blanks, rest, ?_, .inr ?_, hblanks⟩
    · conv_lhs => rw [← hsplit, hdrop, hcomma, htail, heq]
      simp
    · rcases hbefore with rfl | hlast
      · simp
      · rw [← List.append_assoc, List.getLast?_append, List.getLast?_cons, hlast]
        rfl

/-- What follows a pair, from the text in front of the pair. -/
theorem after_suffix (s : CString) :
    (pairRest ((s.dropWhile isBlank).dropWhile isKeyByte)).after <:+ s :=
  (pairRest_after_suffix _).trans
    ((List.dropWhile_suffix isKeyByte).trans (List.dropWhile_suffix isBlank))

/-- Only from a `traceparent` pair is anything extracted. -/
theorem hasTraceparentPair_of_extractRest {outlen : ℕ} {s raw : CString}
    (h : extractRest outlen s = some raw) : HasTraceparentPair s := by
  fun_induction extractRest outlen s with
  | case1 => cases h
  | case2 => cases h
  | case3 => cases h
  | case4 s hs q hq r hrest ih =>
    have hsuffix := after_suffix s
    rw [hrest] at hsuffix
    exact (ih h).of_nextPair hsuffix
  | case5 s hs q hq val after hrest hkey =>
    obtain ⟨c, hval⟩ := pairRest_value hrest
    refine ⟨[], s.takeWhile isBlank, val ++ c :: after, ?_, .inl rfl, fun c hc =>
      List.mem_takeWhile_imp hc⟩
    have hblank := List.takeWhile_append_dropWhile (p := isBlank) (l := s)
    have hname := List.takeWhile_append_dropWhile (p := isKeyByte) (l := q)
    rw [hval, hkey] at hname
    rw [List.nil_append, hname]
    exact hblank.symm
  | case6 s hs q hq val after hrest hkey ih =>
    have hsuffix := after_suffix s
    rw [hrest] at hsuffix
    exact (ih h).of_nextPair hsuffix

/-! ## A comment with a traceparent -/

/-- A block comment whose pairs carry `t`: its body holds no marker. -/
structure PairComment (t : CString) where
  pairs : List KeyValue
  trail : CString
  trail_blank : ∀ c ∈ trail, isBlank c = true
  carries : ∃ p ∈ traceparentPair pairs, p.value = t
  no_opening : ∀ i, ¬ pairAt (commentBody pairs ++ trail) i 0x2f 0x2a
  no_closing : ∀ i, ¬ pairAt (commentBody pairs ++ trail) i 0x2a 0x2f

namespace PairComment

variable {t : CString} (c : PairComment t)

def body : CString := commentBody c.pairs ++ c.trail

def text : CString := 0x2f :: 0x2a :: (c.body ++ [0x2a, 0x2f])

@[simp] theorem length_text : c.text.length = c.body.length + 4 := by
  simp [text]

end PairComment

/-- Where the comment stands in the text of a statement. -/
inductive Placement
  | leading (white rest : CString)
  | trailing (lead trailers : CString)

namespace Placement

variable {t : CString}

def sql (c : PairComment t) : Placement → CString
  | .leading white rest => white ++ (c.text ++ rest)
  | .trailing lead trailers => lead ++ (c.text ++ trailers)

/-- The text begins with a comment marker. -/
def Opens (s : CString) : Prop := pairAt s (s.takeWhile isSpace).length 0x2f 0x2a

/-- The comment is at the start, or within the scan budget at the end.  If the other end begins with a
comment, that is closed there and has no traceparent pairs. -/
def Ok (c : PairComment t) : Placement → Prop
  | .leading white _ => ∀ b ∈ white, isSpace b = true
  | .trailing lead trailers => (∀ b ∈ trailers, isTrailer b = true) ∧
      c.text.length ≤ otelSqlcommenterScanBudget ∧
      (Opens lead → ∃ start len, leadingComment lead = some (start, len) ∧
        ¬ HasTraceparentPair ((lead.drop start).take len))

/-- Another comment stands at the start of the text. -/
def Hidden : Placement → Prop
  | .leading _ _ => False
  | .trailing lead _ => Opens lead

end Placement

/-! ## Finding it -/

section Find

variable {t : CString} (c : PairComment t)

theorem leadingComment_leading {white : CString} (hwhite : ∀ b ∈ white, isSpace b = true)
    (rest : CString) :
    leadingComment (white ++ (c.text ++ rest)) = some (white.length + 2, c.body.length) := by
  have hspace : ((white ++ (c.text ++ rest)).takeWhile isSpace) = white := by
    rw [List.takeWhile_append_of_pos hwhite]
    simp [PairComment.text, isSpace]
  have hopen : pairAt (white ++ (c.text ++ rest)) white.length 0x2f 0x2a := by
    have h : pairAt (c.text ++ rest) 0 0x2f 0x2a := ⟨rfl, rfl⟩
    exact pairAt_append_right.2 h
  have hdrop : (white ++ (c.text ++ rest)).drop (white.length + 2) =
      c.body ++ 0x2a :: 0x2f :: rest := by
    rw [← List.drop_drop, List.drop_left]
    simp [PairComment.text]
  unfold leadingComment
  rw [hspace]
  dsimp only
  rw [if_pos ⟨by simp; omega, hopen⟩, hdrop, memmemPair_append (x := c.body) (by decide) c.no_closing]
  rfl

/-- A comment that is closed in the first part of a text is found. -/
theorem leadingComment_append {lead : CString} {start len : ℕ}
    (h : leadingComment lead = some (start, len)) (y : CString) :
    leadingComment (lead ++ y) = some (start, len) := by
  unfold leadingComment at h ⊢
  dsimp only at h ⊢
  split_ifs at h with hopen
  obtain ⟨n, hn, hpair⟩ := Option.map_eq_some_iff.1 h
  have hlt := hopen.2.lt
  have hspace : (lead ++ y).takeWhile isSpace = lead.takeWhile isSpace := by
    rw [List.takeWhile_append, if_neg (by omega)]
  rw [hspace, if_pos ⟨by rw [List.length_append]; omega, pairAt_append_left hopen.2 y⟩,
    List.drop_append_of_le_length (by omega), memmemPair_append_left hn, Option.map_some, hpair]

theorem textEnd_trailing {lead trailers : CString} (htrailers : ∀ b ∈ trailers, isTrailer b = true) :
    textEnd (lead ++ (c.text ++ trailers)) = lead.length + c.text.length := by
  have hreverse : (lead ++ (c.text ++ trailers)).reverse =
      trailers.reverse ++ 0x2f :: 0x2a :: (c.body.reverse ++ 0x2a :: 0x2f :: lead.reverse) := by
    simp [PairComment.text]
  have hall : ∀ b ∈ trailers.reverse, isTrailer b = true := fun b hb =>
    htrailers b (List.mem_reverse.1 hb)
  have hstop : isTrailer 0x2f = false := by decide
  unfold textEnd
  rw [hreverse, List.takeWhile_append_of_pos hall, List.takeWhile_cons_of_neg (by simp [hstop]),
    List.append_nil, List.length_reverse, List.length_append, List.length_append]
  omega

theorem commentBody_ends (p : KeyValue) (ps : List KeyValue) :
    ∃ x, commentBody (p :: ps) = x ++ [0x27] := by
  induction ps generalizing p with
  | nil => exact ⟨p.blanks ++ (p.key ++ 0x3d :: 0x27 :: p.text), by simp [commentBody, KeyValue.written]⟩
  | cons q ps ih =>
    obtain ⟨x, hx⟩ := ih q
    exact ⟨p.written ++ 0x2c :: x, by simp [commentBody, hx]⟩

/-- A body ends in a quote or a blank. -/
theorem body_getLast : c.body.getLast? ≠ some 0x2f := by
  intro hlast
  unfold PairComment.body at hlast
  rcases List.eq_nil_or_concat c.trail with htrail | ⟨x, b, htrail⟩
  · rw [htrail, List.append_nil] at hlast
    cases hpairs : c.pairs with
    | nil =>
      rw [hpairs] at hlast
      cases hlast
    | cons p ps =>
      obtain ⟨x, hx⟩ := commentBody_ends p ps
      rw [hpairs, hx] at hlast
      simp at hlast
  · have hblank := c.trail_blank b (by simp [htrail])
    have hb : b = 0x2f := by
      rw [htrail] at hlast
      simpa [List.getLast?_append] using hlast
    rw [hb] at hblank
    cases hblank

/-- No opening marker starts in the body, not even with the closing one's star. -/
theorem not_pairAt_body {k : ℕ} (hk : k < c.body.length) (y : CString) :
    ¬ pairAt (c.body ++ 0x2a :: y) k 0x2f 0x2a := by
  rintro ⟨hfirst, hsecond⟩
  rw [List.getElem?_append_left hk] at hfirst
  by_cases hlast : k + 1 < c.body.length
  · rw [List.getElem?_append_left hlast] at hsecond
    exact c.no_opening k ⟨hfirst, hsecond⟩
  · apply body_getLast c
    rwa [List.getLast?_eq_getElem?, show c.body.length - 1 = k by omega]

/-- The opening marker that is found going back is the comment's own. -/
theorem trailingComment_trailing {lead trailers : CString}
    (htrailers : ∀ b ∈ trailers, isTrailer b = true)
    (hbudget : c.text.length ≤ otelSqlcommenterScanBudget) :
    trailingComment (lead ++ (c.text ++ trailers)) = some (lead.length + 2, c.body.length) := by
  have hend : textEnd (lead ++ (c.text ++ trailers)) = _ := textEnd_trailing c htrailers
  rw [c.length_text] at hend hbudget
  have htext : c.text ++ trailers = 0x2f :: 0x2a :: (c.body ++ 0x2a :: 0x2f :: trailers) := by
    simp [PairComment.text]
  have hown : pairAt (lead ++ (c.text ++ trailers)) lead.length 0x2f 0x2a := by
    have h : pairAt (c.text ++ trailers) 0 0x2f 0x2a := ⟨rfl, rfl⟩
    exact pairAt_append_right.2 h
  have hclose : pairAt (lead ++ (c.text ++ trailers)) (lead.length + (c.body.length + 2)) 0x2a 0x2f := by
    have h : pairAt (c.body ++ 0x2a :: 0x2f :: trailers) (c.body.length + 0) 0x2a 0x2f :=
      pairAt_append_right.2 ⟨rfl, rfl⟩
    rw [pairAt_append_right, htext]
    exact h
  have hbetween (k : ℕ) (hk : k < c.body.length + 1) :
      ¬ pairAt (lead ++ (c.text ++ trailers)) (lead.length + (k + 1)) 0x2f 0x2a := by
    rw [pairAt_append_right, htext]
    cases k with
    | zero =>
      rintro ⟨hstar, -⟩
      cases hstar
    | succ k => exact not_pairAt_body c (by omega) (0x2f :: trailers)
  have hfind (floor : ℕ) (hfloor : floor ≤ lead.length) :
      findOpening (lead ++ (c.text ++ trailers)) floor (textEnd (lead ++ (c.text ++ trailers)) - 2) =
        some (lead.length + 1) := by
    obtain ⟨n, hn⟩ := Option.isSome_iff_exists.1
      (findOpening_isSome hown (i := textEnd (lead ++ (c.text ++ trailers)) - 2) (by omega) hfloor)
    obtain ⟨-, hle, hopen, hnone⟩ := findOpening_spec hn
    have hlow : lead.length < n := by
      by_contra hge
      exact hnone lead.length (by omega) (by omega) hown
    have hhigh : n ≤ lead.length + 1 := by
      by_contra hgt
      apply hbetween (n - 1 - lead.length - 1) (by omega)
      rwa [show lead.length + (n - 1 - lead.length - 1 + 1) = n - 1 by omega]
    rw [hn, show n = lead.length + 1 by omega]
  have hmarker : textEnd (lead ++ (c.text ++ trailers)) - 2 = lead.length + (c.body.length + 2) := by
    omega
  unfold otelSqlcommenterScanBudget at hbudget
  unfold trailingComment
  dsimp only
  rw [if_pos ⟨by omega, by rwa [hmarker]⟩, hfind _ (by unfold otelSqlcommenterScanBudget; split_ifs <;> omega),
    Option.map_some, hmarker, sizeSub_of_le (by omega) (by omega)]
  congr 2
  omega

theorem take_body (x y : CString) :
    ((x ++ (c.text ++ y)).drop (x.length + 2)).take c.body.length = c.body := by
  rw [← List.drop_drop, List.drop_left]
  simp [PairComment.text]

/-- At the start there is no comment, if the text in front opens none and is not only white space. -/
theorem leadingComment_trailing {lead : CString} (hopens : ¬ Placement.Opens lead)
    (hlead : ¬ ∀ b ∈ lead, isSpace b = true) (y : CString) :
    leadingComment (lead ++ (c.text ++ y)) = none := by
  have hne : (lead.takeWhile isSpace).length ≠ lead.length := fun heq =>
    hlead (List.takeWhile_eq_self_iff.1 ((List.takeWhile_prefix isSpace).eq_of_length heq))
  have hle := (List.takeWhile_prefix isSpace (l := lead)).length_le
  have hspace : (lead ++ (c.text ++ y)).takeWhile isSpace = lead.takeWhile isSpace := by
    rw [List.takeWhile_append, if_neg hne]
  unfold leadingComment
  rw [hspace]
  dsimp only
  rw [if_neg]
  rintro ⟨-, hfirst, hsecond⟩
  rw [List.getElem?_append_left (by omega)] at hfirst
  by_cases hinside : (lead.takeWhile isSpace).length + 1 < lead.length
  · rw [List.getElem?_append_left hinside] at hsecond
    exact hopens ⟨hfirst, hsecond⟩
  · rw [List.getElem?_append_right (by omega),
      show (lead.takeWhile isSpace).length + 1 - lead.length = 0 by omega] at hsecond
    cases hsecond

/-- The comment is found, unless another one stands at the start. -/
theorem findBlockComment_visible {place : Placement} (hok : place.Ok c) (hvisible : ¬ place.Hidden) :
    ∃ start, findBlockComment (place.sql c) = some (start, c.body.length) ∧
      ((place.sql c).drop start).take c.body.length = c.body := by
  unfold findBlockComment
  cases place with
  | leading white rest =>
    exact ⟨white.length + 2, by rw [Placement.sql, leadingComment_leading c hok], take_body c white rest⟩
  | trailing lead trailers =>
    obtain ⟨htrailers, hbudget, -⟩ := hok
    refine ⟨lead.length + 2, ?_, take_body c lead trailers⟩
    rw [Placement.sql]
    by_cases hlead : ∀ b ∈ lead, isSpace b = true
    · rw [leadingComment_leading c hlead]
    · rw [leadingComment_trailing c hvisible hlead]
      exact trailingComment_trailing c htrailers hbudget

/-- A comment that hides it has no traceparent pairs. -/
theorem findBlockComment_hidden {place : Placement} (hok : place.Ok c) (hhidden : place.Hidden) :
    ∃ start len, findBlockComment (place.sql c) = some (start, len) ∧
      (((place.sql c).drop start).take len).length = len ∧
      ¬ HasTraceparentPair (((place.sql c).drop start).take len) := by
  cases place with
  | leading white rest => exact hhidden.elim
  | trailing lead trailers =>
    obtain ⟨-, -, hother⟩ := hok
    obtain ⟨start, len, hlead, hnone⟩ := hother hhidden
    have hinside := (leadingComment_between hlead).inside
    have htake : ((lead ++ (c.text ++ trailers)).drop start).take len = (lead.drop start).take len := by
      rw [List.drop_append_of_le_length (by omega), List.take_append_of_le_length (by simp; omega)]
    refine ⟨start, len, ?_, ?_, ?_⟩
    · rw [findBlockComment, Placement.sql, leadingComment_append hlead]
    · rw [Placement.sql, htake]
      simp
      omega
    · rwa [Placement.sql, htake]

end Find

/-! ## The context it carries -/

/-- The bytes of the fixed part of a header value are hex digits and dashes. -/
theorem mem_take_traceparent {s : CString} {ctx : OtelSpanContext} (h : otelTraceparentParse s = some ctx)
    {b : UInt8} (hb : b ∈ s.take otelTraceparentLen) : b ≠ 0x27 ∧ b ≠ 0x5c := by
  obtain ⟨version, traceId, spanId, flags, tail, hlengths, rfl, -⟩ := otelTraceparentParse_spec h
  have hsplit : traceparentText version traceId spanId flags tail =
      traceparentText version traceId spanId flags [] ++ tail := by
    simp [traceparentText]
  have hlen : (traceparentText version traceId spanId flags []).length = otelTraceparentLen := by
    rw [length_traceparentText hlengths, List.length_nil, Nat.add_zero]
  rw [hsplit, List.take_left' hlen] at hb
  have hhex {bytes : List UInt8} (hmem : b ∈ otelBytesToHex bytes) : b ≠ 0x27 ∧ b ≠ 0x5c := by
    have hdigit := (@lowerHex_of_length _ bytes rfl).2 b hmem
    constructor <;> rintro rfl <;> revert hdigit <;> decide
  simp only [traceparentText, List.mem_append, List.mem_cons, List.append_nil] at hb
  rcases hb with hb | rfl | hb | rfl | hb | rfl | hb
  all_goals first | exact hhex hb | decide

/-- What a quote leaves of a value is no header value, nor was the value. -/
theorem parse_of_quote {t : CString} (hquote : 0x27 ∈ t)
    (hfits : (scannedValue t).length ≤ otelTraceparentLen) :
    otelTraceparentParse (scannedValue t) = none ∧ (t.length ≤ otelTraceparentLen →
      otelTraceparentParse t = none) := by
  constructor
  · rw [Option.eq_none_iff_forall_ne_some]
    intro ctx h
    have hmem : (0x5c : UInt8) ∈ (scannedValue t).take otelTraceparentLen := by
      rw [List.take_of_length_le hfits]
      simp [scannedValue, hquote]
    exact (mem_take_traceparent h hmem).2 rfl
  · intro hlen
    rw [Option.eq_none_iff_forall_ne_some]
    intro ctx h
    exact (mem_take_traceparent h (by rwa [List.take_of_length_le hlen])).1 rfl

/-- A visible comment carries the context of its value, if that is no longer than those of version 00. -/
theorem commentContext_visible {t : CString} (c : PairComment t) (hnul : 0 ∉ t) {place : Placement}
    (hok : place.Ok c) (hvisible : ¬ place.Hidden) :
    commentContext (place.sql c) =
      if t.length ≤ otelTraceparentLen then otelTraceparentParse t else none := by
  obtain ⟨start, hfound, htake⟩ := findBlockComment_visible c hok hvisible
  obtain ⟨p, hp, rfl⟩ := c.carries
  have hextract := extractTraceparentFromComment_commentBody c.pairs c.trail_blank
  rw [hp, Option.bind_some] at hextract
  have hextract : extractTraceparentFromComment c.body c.body.length (otelTraceparentLen + 1) =
      orRefused (if (scannedValue p.value).length ≤ otelTraceparentLen then
        some (scannedValue p.value) else none) := hextract
  have hplain : (scannedValue p.value).takeWhile (· ≠ 0) = scannedValue p.value := by
    rw [List.takeWhile_eq_self_iff]
    intro b hb
    rw [decide_eq_true_iff]
    rintro rfl
    rcases List.mem_append.1 hb with hb | hb
    · exact hnul ((List.takeWhile_prefix isntQuote).subset hb)
    · split_ifs at hb
      · exact absurd (List.mem_singleton.1 hb) (by decide)
      · cases hb
  unfold commentContext
  rw [hfound]
  dsimp only
  rw [htake, hextract]
  by_cases hquote : 0x27 ∈ p.value
  · -- a value with a quote gives nothing, at either end of the cut
    by_cases hfits : (scannedValue p.value).length ≤ otelTraceparentLen
    · obtain ⟨hcut, hwhole⟩ := parse_of_quote hquote hfits
      rw [if_pos hfits]
      simp only [orRefused, hplain, hcut]
      split_ifs with hlen
      · exact (hwhole hlen).symm
      · rfl
    · have hlen : ¬ p.value.length ≤ otelTraceparentLen := by
        intro hlen
        have hcut : (p.value.takeWhile isntQuote).length < p.value.length := by
          rw [takeWhile_length_lt_iff (Nat.le_refl _), List.take_length]
          exact hquote
        apply hfits
        rw [scannedValue, if_pos hquote, List.length_append, List.length_singleton]
        omega
      rw [if_neg hfits, if_neg hlen]
      rfl
  · rw [scannedValue_of_notMem hquote] at hplain ⊢
    split_ifs with hlen
    · simp only [orRefused, hplain]
    · rfl

theorem commentContext_hidden {t : CString} (c : PairComment t) {place : Placement}
    (hok : place.Ok c) (hhidden : place.Hidden) : commentContext (place.sql c) = none := by
  obtain ⟨start, len, hfound, hlen, hnone⟩ := findBlockComment_hidden c hok hhidden
  have hextract := extractTraceparentFromComment_eq (((place.sql c).drop start).take len)
    (Nat.succ_pos otelTraceparentLen)
  rw [hlen] at hextract
  have hrest : extractRest (otelTraceparentLen + 1) (((place.sql c).drop start).take len) = none := by
    rw [Option.eq_none_iff_forall_ne_some]
    exact fun raw h => hnone (hasTraceparentPair_of_extractRest h)
  unfold commentContext
  rw [hfound]
  dsimp only
  rw [hextract, hrest]
  rfl

/-! ## The comment against `SET` -/

/-- `otel_try_apply_sqlcommenter_context`, with the setting `otel_api.parse_sqlcommenter`. -/
def applySqlcommenter (parseSqlcommenter : Bool) (root : OtelRootContext) (sql : CString) :
    OtelRootContext :=
  otelTryApplySqlcommenterContext root (if parseSqlcommenter then commentContext sql else none)

/-- The comment of the text is accepted just when `SET otel_api.traceparent` accepts `t`, and then gives
the same context. -/
structure AgreesWithSet (root : OtelRootContext) (sql t : CString) : Prop where
  accepts : (applySqlcommenter true root sql).isSet = true ↔ checkTraceparent t = .ok ()
  installs : (applySqlcommenter true root sql).isSet = true →
    (applySqlcommenter true root sql).ctx = (assignTraceparent t).ctx

theorem checkTraceparent_ok_iff {t : CString} (ht : t ≠ []) :
    checkTraceparent t = .ok () ↔ (otelTraceparentParse t).isSome = true := by
  unfold checkTraceparent
  rw [if_neg ht]
  split_ifs with hparse <;> simp [hparse]

theorem commentContext_placed {t : CString} (c : PairComment t) (hnul : 0 ∉ t) {place : Placement}
    (hok : place.Ok c) :
    (t.length ≤ otelTraceparentLen ∧ ¬ place.Hidden →
      commentContext (place.sql c) = otelTraceparentParse t) ∧
    (¬ (t.length ≤ otelTraceparentLen ∧ ¬ place.Hidden) → commentContext (place.sql c) = none) := by
  constructor
  · rintro ⟨hlen, hvisible⟩
    rw [commentContext_visible c hnul hok hvisible, if_pos hlen]
  · intro hlost
    by_cases hhidden : place.Hidden
    · exact commentContext_hidden c hok hhidden
    · rw [commentContext_visible c hnul hok hhidden, if_neg fun hlen => hlost ⟨hlen, hhidden⟩]

/-- For a statement with such a comment and no root context: the comment agrees with `SET`, unless `SET`
accepts the value and it is too long for the comment, or another comment stands at the start. -/
theorem comment_agrees_iff {t : CString} (ht : t ≠ []) (hnul : 0 ∉ t) (c : PairComment t)
    {place : Placement} (hok : place.Ok c) {root : OtelRootContext} (hroot : root.isSet = false) :
    AgreesWithSet root (place.sql c) t ↔
      (checkTraceparent t = .ok () → t.length ≤ otelTraceparentLen ∧ ¬ place.Hidden) := by
  obtain ⟨hfound, hlost⟩ := commentContext_placed c hnul hok
  by_cases hgood : t.length ≤ otelTraceparentLen ∧ ¬ place.Hidden
  · have hcontext := hfound hgood
    refine ⟨fun _ _ => hgood, fun _ => ?_⟩
    cases hparse : otelTraceparentParse t with
    | none =>
      rw [hparse] at hcontext
      have hkept : applySqlcommenter true root (place.sql c) = root := by
        simp [applySqlcommenter, otelTryApplySqlcommenterContext, hroot, hcontext]
      constructor <;> simp [hkept, hroot, checkTraceparent_ok_iff ht, hparse]
    | some ctx =>
      rw [hparse] at hcontext
      have hinstalled : applySqlcommenter true root (place.sql c) =
          { ctx := ctx, isSet := true, fromComment := true } := by
        simp [applySqlcommenter, otelTryApplySqlcommenterContext, hroot, hcontext]
      constructor <;> simp [hinstalled, assignTraceparent, checkTraceparent_ok_iff ht, hparse]
  · have hkept : applySqlcommenter true root (place.sql c) = root := by
      simp [applySqlcommenter, otelTryApplySqlcommenterContext, hroot, hlost hgood]
    constructor
    · intro hagrees haccepts
      have hset := hagrees.accepts.2 haccepts
      rw [hkept, hroot] at hset
      cases hset
    · intro hrefused
      refine ⟨⟨fun hset => ?_, fun haccepts => absurd (hrefused haccepts) hgood⟩, fun hset => ?_⟩
      · rw [hkept, hroot] at hset
        cases hset
      · rw [hkept, hroot] at hset
        cases hset

/-! ## Two texts -/

theorem encodes_plain {value : CString} (h : ∀ c ∈ value, c ≠ 0x2c ∧ c ≠ 0x25 ∧ c ≠ 0x27) :
    Encodes value value := by
  induction value with
  | nil => exact .nil
  | cons c value ih =>
    obtain ⟨hc, hvalue⟩ := List.forall_mem_cons.1 h
    exact .raw hc.1 hc.2.1 hc.2.2 (ih hvalue)

theorem not_pairAt_of_lt (h : ∀ i < x.length, ¬ pairAt x i a b) (i : ℕ) : ¬ pairAt x i a b :=
  fun hpair => h i (by have := hpair.lt; omega) hpair

/-- The one pair `traceparent`, for a value that need not be encoded. -/
def plainPair (value : CString) (h : ∀ c ∈ value, c ≠ 0x2c ∧ c ≠ 0x25 ∧ c ≠ 0x27) : KeyValue :=
  .traceparent value value (encodes_plain h)

def exampleTraceparent : CString := cstr "00-0123456789abcdef0123456789abcdef-0123456789abcdef-01"

/-- A value of a later version, with a tail. -/
def laterTraceparent : CString := cstr "01-0123456789abcdef0123456789abcdef-0123456789abcdef-01-x"

def exampleComment : PairComment exampleTraceparent where
  pairs := [plainPair exampleTraceparent (by decide +kernel)]
  trail := []
  trail_blank := blank_nil
  carries := ⟨_, rfl, rfl⟩
  no_opening := not_pairAt_of_lt (by decide +kernel)
  no_closing := not_pairAt_of_lt (by decide +kernel)

def laterComment : PairComment laterTraceparent where
  pairs := [plainPair laterTraceparent (by decide +kernel)]
  trail := []
  trail_blank := blank_nil
  carries := ⟨_, rfl, rfl⟩
  no_opening := not_pairAt_of_lt (by decide +kernel)
  no_closing := not_pairAt_of_lt (by decide +kernel)

theorem comment_agrees_iff_example :
    AgreesWithSet {} (cstr "/*traceparent='00-0123456789abcdef0123456789abcdef-0123456789abcdef-01'*/ SELECT 1")
      exampleTraceparent := by
  have hok : (Placement.leading [] (cstr " SELECT 1")).Ok exampleComment := by simp [Placement.Ok]
  exact (comment_agrees_iff (by decide) (by decide +kernel) exampleComment hok rfl).2
    fun _ => ⟨by decide +kernel, fun h => h⟩

/-- The trailing comment behind an unrelated one. -/
def hiddenPlacement : Placement := .trailing (cstr "/*x*/ SELECT 1 ") []

theorem hiddenPlacement_ok : hiddenPlacement.Ok exampleComment := by
  refine ⟨by simp, by decide +kernel, fun _ => ⟨2, 1, by decide +kernel, ?_⟩⟩
  rintro ⟨before, blanks, rest, heq, -, -⟩
  have hlen := congrArg List.length heq
  have hkey : traceparentKey.length = 11 := by decide
  have hinside : (((cstr "/*x*/ SELECT 1 ").drop 2).take 1).length = 1 := by decide +kernel
  simp only [hinside, List.length_append, List.length_cons, hkey] at hlen
  omega

/-- A comment of a later version is refused, and so is one behind another comment; `SET` accepts the
values of both. -/
theorem comments_that_set_accepts :
    ¬ AgreesWithSet {} (Placement.sql laterComment (.leading [] (cstr " SELECT 1"))) laterTraceparent ∧
      hiddenPlacement.Ok exampleComment ∧
      ¬ AgreesWithSet {} (hiddenPlacement.sql exampleComment) exampleTraceparent := by
  have hrefused {sql t : CString} (haccepts : (otelTraceparentParse t).isSome = true)
      (happlied : (applySqlcommenter true {} sql).isSet = false) : ¬ AgreesWithSet {} sql t := by
    intro h
    rw [h.accepts.2 (checkTraceparent_ok haccepts)] at happlied
    cases happlied
  exact ⟨hrefused (by decide +kernel) (by decide +kernel), hiddenPlacement_ok,
    hrefused (by decide +kernel) (by decide +kernel)⟩

end PostgresOtel
