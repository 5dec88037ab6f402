import PostgresOtel.Context.Sqlcommenter

/-!
# Where the comment of a text lies

What `find_block_comment` reports lies between two markers of the text, but for one kind of text: the
opening and the closing marker at its end share their star, and then the length wraps around.
-/

set_option autoImplicit false

namespace PostgresOtel

variable {sql : CString} {a b : UInt8} {i n start len floor : ℕ}

/-! ## Markers -/

theorem pairAt_drop : pairAt (sql.drop i) n a b ↔ pairAt sql (i + n) a b := by
  unfold pairAt
  rw [List.getElem?_drop, List.getElem?_drop, Nat.add_assoc]

theorem pairAt.lt (h : pairAt sql i a b) : i + 1 < sql.length :=
  (List.getElem?_eq_some_iff.1 h.2).1

/-- The first pair is found. -/
theorem memmemPair_spec {s : CString} (h : memmemPair a b s = some n) :
    pairAt s n a b ∧ ∀ k < n, ¬ pairAt s k a b := by
  fun_induction memmemPair a b s generalizing n with
  | case1 x y rest heq =>
    obtain rfl : 0 = n := Option.some.inj h
    exact ⟨by simpa [pairAt] using heq, fun k hk => absurd hk (Nat.not_lt_zero k)⟩
  | case2 x y rest hne ih =>
    obtain ⟨m, hm, rfl⟩ := Option.map_eq_some_iff.1 h
    obtain ⟨hpair, hfirst⟩ := ih hm
    refine ⟨by simpa [pairAt] using hpair, fun k hk hpair => ?_⟩
    cases k with
    | zero => exact hne (by simpa [pairAt] using hpair)
    | succ k => exact hfirst k (by omega) (by simpa [pairAt] using hpair)
  | case3 => cases h

/-- The nearest opening marker is found. -/
theorem findOpening_spec (h : findOpening sql floor i = some n) :
    floor < n ∧ n ≤ i ∧ pairAt sql (n - 1) 0x2f 0x2a ∧
      ∀ k, n ≤ k → k < i → ¬ pairAt sql k 0x2f 0x2a := by
  induction i with
  | zero => cases h
  | succ i ih =>
    unfold findOpening at h
    split_ifs at h with hfloor hpair
    · obtain rfl : i + 1 = n := Option.some.inj h
      exact ⟨hfloor, Nat.le_refl _, hpair, fun k hk hlt => absurd hk (by omega)⟩
    · obtain ⟨hlt, hle, hopen, hnone⟩ := ih h
      refine ⟨hlt, by omega, hopen, fun k hk hki => ?_⟩
      rcases Nat.lt_succ_iff_lt_or_eq.1 hki with hlow | rfl
      · exact hnone k hk hlow
      · exact hpair

/-- A marker above the floor is not missed. -/
theorem findOpening_isSome (hpair : pairAt sql n 0x2f 0x2a) (hn : n < i) (hfloor : floor ≤ n) :
    (findOpening sql floor i).isSome := by
  induction i with
  | zero => omega
  | succ i ih =>
    unfold findOpening
    rw [if_pos (by omega)]
    split_ifs with hhere
    · rfl
    · rcases Nat.lt_succ_iff_lt_or_eq.1 hn with hlow | rfl
      · exact ih hlow
      · exact absurd hpair hhere

theorem textEnd_le (sql : CString) : textEnd sql ≤ sql.length := Nat.sub_le _ _

theorem sizeSub_of_le {a b : ℕ} (h : b ≤ a) (ha : a - b < 2 ^ 64) : sizeSub a b = a - b := by
  unfold sizeSub
  omega

/-! ## The reported comment -/

/-- The bytes between two markers of the text. -/
structure BetweenMarkers (sql : CString) (start len : ℕ) : Prop where
  after_opening : 2 ≤ start ∧ pairAt sql (start - 2) 0x2f 0x2a
  before_closing : pairAt sql (start + len) 0x2a 0x2f
  inside : start + len + 2 ≤ sql.length

/-- Whatever is reported is between markers. -/
def ReportsInside (sql : CString) : Prop :=
  ∀ start len, findBlockComment sql = some (start, len) → BetweenMarkers sql start len

/-- No comment is at the start, and the markers at the end share their star. -/
def SharedStar (sql : CString) : Prop :=
  leadingComment sql = none ∧ 4 ≤ textEnd sql ∧ pairAt sql (textEnd sql - 3) 0x2f 0x2a ∧
    pairAt sql (textEnd sql - 2) 0x2a 0x2f

instance (sql : CString) : Decidable (SharedStar sql) := inferInstanceAs (Decidable (_ ∧ _))

theorem leadingComment_between (h : leadingComment sql = some (start, len)) :
    BetweenMarkers sql start len := by
  unfold leadingComment at h
  dsimp only at h
  split_ifs at h with hopen
  obtain ⟨n, hn, hpair⟩ := Option.map_eq_some_iff.1 h
  obtain ⟨rfl, rfl⟩ := Prod.mk.inj hpair
  have hclose := pairAt_drop.1 (memmemPair_spec hn).1
  have hlt := hclose.lt
  exact ⟨⟨by omega, hopen.2⟩, hclose, by omega⟩

/-- Of a trailing comment the opening marker is known, and the distance as a `size_t`. -/
theorem trailingComment_spec (h : trailingComment sql = some (start, len)) :
    ∃ i, start = i + 1 ∧ len = sizeSub (textEnd sql - 2) (i + 1) ∧ 4 ≤ textEnd sql ∧
      pairAt sql (textEnd sql - 2) 0x2a 0x2f ∧ 0 < i ∧ textEnd sql < i + 4097 ∧
      i ≤ textEnd sql - 2 ∧ pairAt sql (i - 1) 0x2f 0x2a := by
  unfold trailingComment at h
  dsimp only at h
  split_ifs at h with hclose hfar
  · obtain ⟨i, hi, hpair⟩ := Option.map_eq_some_iff.1 h
    obtain ⟨rfl, rfl⟩ := Prod.mk.inj hpair
    obtain ⟨hfloor, hle, hopen, -⟩ := findOpening_spec hi
    unfold otelSqlcommenterScanBudget at hfloor hfar
    exact ⟨i, rfl, rfl, hclose.1, hclose.2, by omega, by omega, hle, hopen⟩
  · obtain ⟨i, hi, hpair⟩ := Option.map_eq_some_iff.1 h
    obtain ⟨rfl, rfl⟩ := Prod.mk.inj hpair
    obtain ⟨hfloor, hle, hopen, -⟩ := findOpening_spec hi
    unfold otelSqlcommenterScanBudget at hfar
    exact ⟨i, rfl, rfl, hclose.1, hclose.2, by omega, by omega, hle, hopen⟩

theorem trailingComment_between (hshared : ¬ pairAt sql (textEnd sql - 3) 0x2f 0x2a)
    (h : trailingComment sql = some (start, len)) : BetweenMarkers sql start len := by
  obtain ⟨i, rfl, rfl, hlast, hclose, hpos, hbudget, hle, hopen⟩ := trailingComment_spec h
  have hend := textEnd_le sql
  have hapart : i ≠ textEnd sql - 2 := by
    rintro rfl
    exact hshared (by rwa [show textEnd sql - 2 - 1 = textEnd sql - 3 by omega] at hopen)
  have hlen : sizeSub (textEnd sql - 2) (i + 1) = textEnd sql - 2 - (i + 1) :=
    sizeSub_of_le (by omega) (by omega)
  have hsum : i + 1 + (textEnd sql - 2 - (i + 1)) = textEnd sql - 2 := by omega
  rw [hlen]
  refine ⟨⟨by omega, ?_⟩, ?_, by omega⟩
  · rwa [show i + 1 - 2 = i - 1 by omega]
  · rwa [hsum]

/-- The length that is reported for markers that share their star. -/
theorem findBlockComment_of_sharedStar (h : SharedStar sql) :
    findBlockComment sql = some (textEnd sql - 1, 2 ^ 64 - 1) := by
  obtain ⟨hlead, hlast, hopen, hclose⟩ := h
  have hsub : sizeSub (textEnd sql - 2) (textEnd sql - 2 + 1) = 2 ^ 64 - 1 := by
    unfold sizeSub
    omega
  have hfind (floor : ℕ) (hfloor : floor < textEnd sql - 2) :
      findOpening sql floor (textEnd sql - 2) = some (textEnd sql - 2) := by
    obtain ⟨i, hi⟩ : ∃ i, textEnd sql - 2 = i + 1 := ⟨textEnd sql - 3, by omega⟩
    rw [hi] at hfloor ⊢
    unfold findOpening
    rw [if_pos hfloor, if_pos (by rwa [show i = textEnd sql - 3 by omega])]
  have hstart : textEnd sql - 2 + 1 = textEnd sql - 1 := by omega
  unfold findBlockComment
  rw [hlead]
  unfold trailingComment
  dsimp only
  rw [if_pos ⟨hlast, hclose⟩, hfind _ (by unfold otelSqlcommenterScanBudget; split_ifs <;> omega),
    Option.map_some, hsub, hstart]

/-- The report is right for a text that fits into memory, unless its markers share their star. -/
theorem reportsInside_iff (sql : CString) (hlen : sql.length < 2 ^ 64) :
    ReportsInside sql ↔ ¬ SharedStar sql := by
  constructor
  · intro hinside hshared
    have hlast := (hinside _ _ (findBlockComment_of_sharedStar hshared)).inside
    omega
  · intro hshared start len h
    unfold findBlockComment at h
    cases hlead : leadingComment sql with
    | some comment =>
      rw [hlead] at h
      obtain rfl := Option.some.inj h
      exact leadingComment_between hlead
    | none =>
      rw [hlead] at h
      obtain ⟨i, -, -, hlast, hclose, -⟩ := trailingComment_spec h
      exact trailingComment_between (fun hopen => hshared ⟨hlead, hlast, hopen, hclose⟩) h

theorem reportsInside_iff_star : ¬ ReportsInside (cstr "x/*/") :=
  fun h => (reportsInside_iff (cstr "x/*/") (by decide)).1 h (by decide +kernel)

/-- A text of four characters is enough. -/
theorem shared_star_wraps :
    findBlockComment (cstr "x/*/") = some (3, 2 ^ 64 - 1) ∧ ¬ ReportsInside (cstr "x/*/") := by
  have hfound : findBlockComment (cstr "x/*/") = some (3, 2 ^ 64 - 1) := by decide +kernel
  refine ⟨hfound, fun h => ?_⟩
  have hlast := (h _ _ hfound).inside
  have hlength : (cstr "x/*/").length = 4 := by decide
  omega

end PostgresOtel
