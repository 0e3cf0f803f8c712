import Mathlib.Data.List.Forall2

/-!
# Lib.Pointwise — lists related member by member, and proper suffixes up to a relation

`List.Forall₂ r` lifts a relation to lists of one length.  It is an equivalence if `r` is one (`equivalence`).
`ProperSuffix r a b` says that `b` is a non-empty list followed by a list related to `a`.  For an equivalence this is a
strict order that respects the relation of the lists.
-/

namespace Pointwise

variable {α : Type*} {r : α → α → Prop}

theorem trans (htrans : ∀ x y z, r x y → r y z → r x z) :
    ∀ {l m w : List α}, List.Forall₂ r l m → List.Forall₂ r m w → List.Forall₂ r l w
  | _, _, _, .nil, .nil => .nil
  | _, _, _, .cons h hs, .cons h' hs' => .cons (htrans _ _ _ h h') (trans htrans hs hs')

theorem equivalence (h : Equivalence r) : Equivalence (List.Forall₂ r) where
  refl _ := List.forall₂_same.mpr fun x _ => h.refl x
  symm hlm := hlm.flip.imp fun _ _ => h.symm
  trans := trans (r := r) fun _ _ _ => h.trans

theorem and_iff {r' : α → α → Prop} {l m : List α} :
    List.Forall₂ (fun x y => r x y ∧ r' x y) l m ↔ List.Forall₂ r l m ∧ List.Forall₂ r' l m := by
  constructor
  · intro h
    exact ⟨h.imp fun _ _ => And.left, h.imp fun _ _ => And.right⟩
  · rintro ⟨h, h'⟩
    induction h with
    | nil => exact .nil
    | cons hx _ ih =>
      cases h' with
      | cons hx' hs' => exact .cons ⟨hx, hx'⟩ (ih hs')

/-- A list related to one of two parts has two parts itself. -/
theorem exists_of_append {l₁ l₂ m : List α} (h : List.Forall₂ r (l₁ ++ l₂) m) :
    ∃ m₁ m₂, m = m₁ ++ m₂ ∧ List.Forall₂ r l₁ m₁ ∧ List.Forall₂ r l₂ m₂ :=
  ⟨m.take l₁.length, m.drop l₁.length, (List.take_append_drop _ _).symm,
    (List.forall₂_take_append m l₁ l₂ h.flip).flip, (List.forall₂_drop_append m l₁ l₂ h.flip).flip⟩

/-- `b` is a non-empty list followed by a list related to `a`. -/
def ProperSuffix (r : α → α → Prop) (a b : List α) : Prop :=
  ∃ front back, front ≠ [] ∧ b = front ++ back ∧ List.Forall₂ r a back

namespace ProperSuffix

variable {a b c : List α}

theorem length_lt (h : ProperSuffix r a b) : a.length < b.length := by
  obtain ⟨front, back, hfront, rfl, hback⟩ := h
  have hpos := List.length_pos_iff.mpr hfront
  rw [List.length_append, hback.length_eq]
  omega

theorem irrefl (a : List α) : ¬ ProperSuffix r a a := fun h => Nat.lt_irrefl _ h.length_lt

theorem asymm (h : ProperSuffix r a b) : ¬ ProperSuffix r b a := fun h' =>
  Nat.lt_asymm h.length_lt h'.length_lt

theorem mono {r' : α → α → Prop} (himp : ∀ x y, r x y → r' x y) (h : ProperSuffix r a b) : ProperSuffix r' a b := by
  obtain ⟨front, back, hfront, hb, hback⟩ := h
  exact ⟨front, back, hfront, hb, hback.imp himp⟩

theorem trans (htrans : ∀ x y z, r x y → r y z → r x z) (h : ProperSuffix r a b) (h' : ProperSuffix r b c) :
    ProperSuffix r a c := by
  obtain ⟨front, back, -, rfl, hback⟩ := h
  obtain ⟨front', back', hfront', rfl, hback'⟩ := h'
  -- the part of `c` related to `b` is split where `b` is
  obtain ⟨m₁, m₂, rfl, -, hm₂⟩ := exists_of_append hback'
  exact ⟨front' ++ m₁, m₂, by simp [hfront'], (List.append_assoc _ _ _).symm, Pointwise.trans htrans hback hm₂⟩

/-- Related lists have the same proper suffixes and are suffixes of the same lists. -/
theorem congr (hr : Equivalence r) {a' b' : List α} (ha : List.Forall₂ r a a') (hb : List.Forall₂ r b b')
    (h : ProperSuffix r a b) : ProperSuffix r a' b' := by
  obtain ⟨front, back, hfront, rfl, hback⟩ := h
  obtain ⟨m₁, m₂, rfl, hm₁, hm₂⟩ := exists_of_append hb
  have hne : m₁ ≠ [] := by
    rw [← List.length_pos_iff, ← hm₁.length_eq]
    exact List.length_pos_iff.mpr hfront
  have hlist := equivalence hr
  exact ⟨m₁, m₂, hne, rfl, hlist.trans (hlist.symm ha) (hlist.trans hback hm₂)⟩

end ProperSuffix

end Pointwise
