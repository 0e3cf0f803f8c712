import GoLdap.DN.Model

/-!
# DN.Fold — `foldString` is a normal form

`foldRune` climbs to the largest member of an orbit and stays there, so `foldString` is idempotent and its result is
equal to its argument under `strings.EqualFold`.  It does not identify all of an orbit that has an ASCII member, since
ASCII code points never go through `foldRune`: for them the lower-case letter stands for the orbit, which is not its
largest member where the orbit leaves ASCII (`k` and `s`).

* `foldString_eq_iff`: two strings with the same folding are equal under `strings.EqualFold`, with ASCII against ASCII.
-/

namespace GoLdap

open Go

variable (F : FoldOrbits)

theorem le_foldRune (r : ℕ) : r ≤ foldRune F r := by
  induction r using foldRune.induct F with
  | case1 r h =>
    rw [foldRune, if_pos h]
  | case2 r h ih =>
    rw [foldRune, if_neg h]
    omega

theorem same_foldRune (r : ℕ) : F.same r (foldRune F r) = true := by
  induction r using foldRune.induct F with
  | case1 r h =>
    rw [foldRune, if_pos h]
    exact F.refl r
  | case2 r h ih =>
    rw [foldRune, if_neg h]
    exact F.trans (F.next_same r) ih

theorem next_foldRune_le (r : ℕ) : F.next (foldRune F r) ≤ foldRune F r := by
  induction r using foldRune.induct F with
  | case1 r h =>
    rw [foldRune, if_pos h]
    exact h
  | case2 r h ih =>
    rw [foldRune, if_neg h]
    exact ih

theorem foldRune_idem (r : ℕ) : foldRune F (foldRune F r) = foldRune F r := by
  rw [foldRune, if_pos (next_foldRune_le F r)]

theorem foldChar_idem (r : ℕ) : foldChar F (foldChar F r) = foldChar F r := by
  unfold foldChar
  by_cases h : r < 0x80
  · rw [if_pos h]
    split_ifs <;> omega
  · rw [if_neg h]
    have hle := le_foldRune F r
    rw [if_neg (by omega), foldRune_idem]

theorem same_foldChar (r : ℕ) : F.same r (foldChar F r) = true := by
  unfold foldChar
  split_ifs with h1 h2
  · exact F.ascii h2.1 h2.2
  · exact F.refl r
  · exact same_foldRune F r

theorem foldChar_valid {r : ℕ} (h : ValidRune r) : ValidRune (foldChar F r) := F.valid (same_foldChar F r) h

theorem runes_foldString (s : GoString) : runes (foldString F s) = (runes s).map (foldChar F) := by
  refine runes_flatMap_encodeRune fun r hr => ?_
  obtain ⟨x, hx, rfl⟩ := List.mem_map.mp hr
  exact foldChar_valid F (runes_valid hx)

theorem foldString_idem (s : GoString) : foldString F (foldString F s) = foldString F s := by
  have h : (foldChar F ∘ foldChar F) = foldChar F := funext (foldChar_idem F)
  rw [foldString, runes_foldString, List.map_map, h, foldString]

theorem foldString_ne_nil {s : GoString} (h : s ≠ []) : foldString F s ≠ [] := by
  intro e
  have h1 := runes_foldString F s
  rw [e, runes_nil] at h1
  exact runes_ne_nil h (List.map_eq_nil_iff.mp h1.symm)

theorem equalFold_foldString (s : GoString) : F.equalFold s (foldString F s) = true := by
  rw [F.equalFold_iff, runes_foldString, List.forall₂_map_right_iff, List.forall₂_same]
  exact fun r _ => same_foldChar F r

/-! ## Strings with the same folding -/

/-- The largest member of an orbit is the same from wherever the climb starts. -/
theorem foldRune_eq_of_same {a b : ℕ} (h : F.same a b = true) : foldRune F a = foldRune F b := by
  -- each of the two is in the orbit, which has no member above the other
  have hmax {r x : ℕ} (hx : F.same r x = true) : foldRune F x ≤ foldRune F r := by
    have hsame : F.same (foldRune F r) (foldRune F x) = true :=
      F.trans (F.symm (same_foldRune F r)) (F.trans hx (same_foldRune F x))
    exact (F.next_wrap (next_foldRune_le F r) hsame).2
  exact le_antisymm (hmax (F.symm h)) (hmax h)

theorem foldChar_ascii_iff (r : ℕ) : foldChar F r < 0x80 ↔ r < 0x80 := by
  unfold foldChar
  have hle := le_foldRune F r
  split_ifs <;> omega

/-- The strings have ASCII characters at the same positions, counted in code points. -/
def AsciiAlike (x y : GoString) : Prop := List.Forall₂ (fun a b => a < 0x80 ↔ b < 0x80) (runes x) (runes y)

section Decides

variable (F : SimpleFold)

theorem foldChar_eq_iff (a b : ℕ) : foldChar F.toFoldOrbits a = foldChar F.toFoldOrbits b ↔
    F.same a b = true ∧ (a < 0x80 ↔ b < 0x80) := by
  constructor
  · intro h
    refine ⟨F.trans (same_foldChar F.toFoldOrbits a) (h ▸ F.symm (same_foldChar F.toFoldOrbits b)), ?_⟩
    rw [← foldChar_ascii_iff F.toFoldOrbits a, h, foldChar_ascii_iff]
  · rintro ⟨hsame, halike⟩
    unfold foldChar
    by_cases ha : a < 0x80
    · have hb : b < 0x80 := halike.mp ha
      rw [if_pos ha, if_pos hb]
      rcases F.ascii_case ha hb hsame with rfl | ⟨h1, h2, rfl⟩ | ⟨h1, h2, rfl⟩
      · rfl
      · rw [if_pos ⟨h1, h2⟩, if_neg (by omega)]
      · rw [if_neg (by omega), if_pos ⟨h1, h2⟩]
    · rw [if_neg ha, if_neg fun hb => ha (halike.mpr hb)]
      exact foldRune_eq_of_same F.toFoldOrbits hsame

theorem foldString_eq_iff (x y : GoString) : foldString F.toFoldOrbits x = foldString F.toFoldOrbits y ↔
    F.equalFold x y = true ∧ AsciiAlike x y := by
  have hrunes : foldString F.toFoldOrbits x = foldString F.toFoldOrbits y ↔
      (runes x).map (foldChar F.toFoldOrbits) = (runes y).map (foldChar F.toFoldOrbits) := by
    constructor
    · intro h
      rw [← runes_foldString, h, runes_foldString]
    · intro h
      rw [foldString, h, foldString]
  rw [hrunes, ← List.forall₂_eq_eq_eq, List.forall₂_map_left_iff, List.forall₂_map_right_iff, F.equalFold_iff, AsciiAlike]
  simp only [foldChar_eq_iff]
  exact Pointwise.and_iff

/-- The law of `foldString` holds for two strings exactly unless they are equal under `strings.EqualFold` with an ASCII
letter against a code point that is not ASCII. -/
theorem foldString_law_iff (x y : GoString) :
    (foldString F.toFoldOrbits x = foldString F.toFoldOrbits y ↔ F.equalFold x y = true) ↔
      (F.equalFold x y = true → AsciiAlike x y) := by
  rw [foldString_eq_iff]
  exact ⟨fun h heq => (h.mpr heq).2, fun h => ⟨And.left, fun heq => ⟨heq, h heq⟩⟩⟩

end Decides

/-- The Kelvin sign, U+212A. -/
def kelvinSign : GoString := [0xE2, 0x84, 0xAA]

/-- The letter and the sign are equal under `strings.EqualFold` and are folded to different strings. -/
theorem foldString_kelvin : latinFold.equalFold (str "K") kelvinSign = true ∧
    foldString latinFold.toFoldOrbits (str "K") ≠ foldString latinFold.toFoldOrbits kelvinSign := by
  have hletter : runes (str "K") = [0x4B] := by decide
  have hsign : runes kelvinSign = [0x212A] := by decide
  refine ⟨?_, fun h => ?_⟩
  · rw [FoldOrbits.equalFold, hletter, hsign]
    decide
  · have halike := ((foldString_eq_iff latinFold _ _).mp h).2
    rw [AsciiAlike, hletter, hsign, List.forall₂_cons] at halike
    exact absurd (halike.1.mp (by decide)) (by decide)

end GoLdap
