import GoLdap.Go.Utf8
import GoLdap.Lib.Pointwise

/-!
# Go.Fold — simple case folding

`unicode.SimpleFold` walks the orbits of code points that are equal under Unicode simple case folding.  The tables
themselves are not needed to reason about code that folds: `FoldOrbits` is what the documentation of `SimpleFold`
promises, and `equalFold` is `strings.EqualFold`, which compares the decoded code points modulo these orbits.
`latinOrbits` has the orbits of the ASCII letters, with the two that leave ASCII (`K`, `S`).
-/

namespace Go

/-- The fold orbits and the function `unicode.SimpleFold` on them. -/
structure FoldOrbits where
  /-- Equal under simple case folding. -/
  same : ℕ → ℕ → Bool
  /-- `unicode.SimpleFold`. -/
  next : ℕ → ℕ
  refl : ∀ r, same r r = true
  symm : ∀ {a b}, same a b = true → same b a = true
  trans : ∀ {a b c}, same a b = true → same b c = true → same a c = true
  next_same : ∀ r, same r (next r) = true
  /-- A step up goes to the next larger member of the orbit. -/
  next_up : ∀ {r x}, r < next r → same r x = true → r < x → next r ≤ x
  /-- Otherwise the step goes from the largest member to the smallest. -/
  next_wrap : ∀ {r x}, next r ≤ r → same r x = true → next r ≤ x ∧ x ≤ r
  next_le : ∀ {r}, r < next r → next r ≤ maxRune
  valid : ∀ {r x}, same r x = true → ValidRune r → ValidRune x
  /-- The two cases of an ASCII letter are in one orbit. -/
  ascii : ∀ {r}, 0x41 ≤ r → r ≤ 0x5A → same r (r + 0x20) = true

namespace FoldOrbits

variable (F : FoldOrbits)

/-- Code points equal position by position, modulo the orbits. -/
def sameRunes : List ℕ → List ℕ → Bool
  | [], [] => true
  | a :: l, b :: m => F.same a b && sameRunes l m
  | _, _ => false

/-- `strings.EqualFold`. -/
def equalFold (s t : GoString) : Bool := F.sameRunes (runes s) (runes t)

theorem sameRunes_iff {l m : List ℕ} : F.sameRunes l m = true ↔ List.Forall₂ (fun a b => F.same a b = true) l m := by
  induction l generalizing m with
  | nil => cases m <;> simp [sameRunes]
  | cons a l ih => cases m <;> simp [sameRunes, ih]

theorem equalFold_iff {s t : GoString} :
    F.equalFold s t = true ↔ List.Forall₂ (fun a b => F.same a b = true) (runes s) (runes t) := F.sameRunes_iff

theorem equalFold_refl (s : GoString) : F.equalFold s s = true :=
  F.equalFold_iff.mpr (List.forall₂_same.mpr fun r _ => F.refl r)

theorem equalFold_symm {s t : GoString} (h : F.equalFold s t = true) : F.equalFold t s = true := by
  rw [equalFold_iff] at h ⊢
  exact (h.imp fun _ _ => F.symm).flip

theorem equalFold_trans {s t u : GoString} (h : F.equalFold s t = true) (h' : F.equalFold t u = true) :
    F.equalFold s u = true := by
  rw [equalFold_iff] at h h' ⊢
  exact Pointwise.trans (r := fun a b => F.same a b = true) (fun _ _ _ => F.trans) h h'

end FoldOrbits

/-- The orbits of `unicode.SimpleFold`: ASCII code points share one only as the two cases of a letter.  For two ASCII
code points `strings.EqualFold` does not look at the tables at all. -/
structure SimpleFold extends FoldOrbits where
  ascii_case : ∀ {r x}, r < 0x80 → x < 0x80 → same r x = true →
    r = x ∨ (0x41 ≤ r ∧ r ≤ 0x5A ∧ x = r + 0x20) ∨ (0x41 ≤ x ∧ x ≤ 0x5A ∧ r = x + 0x20)

/-! ## The Latin orbits -/

/-- The lower-case ASCII letter of an orbit that has one. -/
def latinCanon (r : ℕ) : ℕ :=
  if 0x41 ≤ r ∧ r ≤ 0x5A then r + 0x20 else if r = 0x212A then 0x6B else if r = 0x17F then 0x73 else r

def latinNext (r : ℕ) : ℕ :=
  if r = 0x6B then 0x212A else if r = 0x212A then 0x4B
  else if r = 0x73 then 0x17F else if r = 0x17F then 0x53
  else if 0x41 ≤ r ∧ r ≤ 0x5A then r + 0x20
  else if 0x61 ≤ r ∧ r ≤ 0x7A then r - 0x20
  else r

/-- The orbits of the ASCII letters (`K → k → U+212A → K`, `S → s → U+017F → S`, `A → a → A`); every other code
point is alone. -/
def latinOrbits : FoldOrbits where
  same a b := latinCanon a == latinCanon b
  next := latinNext
  refl r := by simp
  symm h := by simpa using (eq_of_beq h).symm
  trans h h' := by simpa using (eq_of_beq h).trans (eq_of_beq h')
  next_same r := by
    simp only [beq_iff_eq]
    grind [latinCanon, latinNext]
  next_up h hs hx := by
    simp only [beq_iff_eq] at hs
    grind [latinCanon, latinNext]
  next_wrap h hs := by
    simp only [beq_iff_eq] at hs
    grind [latinCanon, latinNext]
  next_le h := by grind [latinNext, maxRune]
  valid hs hv := by
    simp only [beq_iff_eq] at hs
    grind [latinCanon, ValidRune, maxRune]
  ascii h h' := by
    simp only [beq_iff_eq]
    grind [latinCanon]

/-- The Latin orbits meet ASCII as they should. -/
def latinFold : SimpleFold where
  toFoldOrbits := latinOrbits
  ascii_case {r x} hr hx hs := by
    have heq : latinCanon r = latinCanon x := eq_of_beq hs
    unfold latinCanon at heq
    split_ifs at heq <;> omega

end Go
