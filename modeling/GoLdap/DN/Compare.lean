import GoLdap.DN.Model
import GoLdap.Lib.Pointwise

/-!
# DN.Compare — equality and ancestry of names

`Equal` and `EqualFold` run the same loops with another comparison of attributes, and `AncestorOf` and `AncestorOfFold`
with another comparison of RDNs.  Everything is proved once, for any comparison that is an equivalence.

* `equalBy_iff_matching`: two RDNs are equal exactly if a bijection pairs equal attributes.
* `equalBy_iff_forall₂`: two names are equal exactly if their RDNs are, position by position.
* `ancestorBy_iff`: a name is an ancestor exactly if its RDNs are, up to equality, a proper suffix of the other's.
-/

namespace GoLdap

open Go GreedyMatch Pointwise

/-- Related by a comparison. -/
def Holds {α : Type} (eq : α → α → Bool) (x y : α) : Prop := eq x y = true

/-! ## The comparisons of attributes -/

section Attributes

variable (F : FoldOrbits)

theorem equal_refl (a : AttributeTypeAndValue) : a.equal F a = true := by
  simp [AttributeTypeAndValue.equal, F.equalFold_refl]

theorem equal_symm {a b : AttributeTypeAndValue} (h : a.equal F b = true) : b.equal F a = true := by
  simp only [AttributeTypeAndValue.equal, Bool.and_eq_true, beq_iff_eq] at h ⊢
  exact ⟨F.equalFold_symm h.1, h.2.symm⟩

theorem equal_trans {a b c : AttributeTypeAndValue} (h : a.equal F b = true) (h' : b.equal F c = true) :
    a.equal F c = true := by
  simp only [AttributeTypeAndValue.equal, Bool.and_eq_true, beq_iff_eq] at h h' ⊢
  exact ⟨F.equalFold_trans h.1 h'.1, h.2.trans h'.2⟩

theorem equivalence_equal : Equivalence (Holds (AttributeTypeAndValue.equal F)) :=
  ⟨equal_refl F, equal_symm F, equal_trans F⟩

theorem equivalence_equalFold : Equivalence (Holds (AttributeTypeAndValue.equalFold F)) where
  refl a := by simp [Holds, AttributeTypeAndValue.equalFold, F.equalFold_refl]
  symm h := by
    simp only [Holds, AttributeTypeAndValue.equalFold, Bool.and_eq_true] at h ⊢
    exact ⟨F.equalFold_symm h.1, F.equalFold_symm h.2⟩
  trans h h' := by
    simp only [Holds, AttributeTypeAndValue.equalFold, Bool.and_eq_true] at h h' ⊢
    exact ⟨F.equalFold_trans h.1 h'.1, F.equalFold_trans h.2 h'.2⟩

theorem equalFold_of_equal {a b : AttributeTypeAndValue} (h : a.equal F b = true) : a.equalFold F b = true := by
  simp only [AttributeTypeAndValue.equal, AttributeTypeAndValue.equalFold, Bool.and_eq_true, beq_iff_eq] at h ⊢
  rw [h.2]
  exact ⟨h.1, F.equalFold_refl _⟩

end Attributes

/-! ## RDNs -/

/-- The body of `(*RelativeDN).Equal` and `(*RelativeDN).EqualFold`. -/
def RelativeDN.equalBy (eq : AttributeTypeAndValue → AttributeTypeAndValue → Bool) (r other : RelativeDN) : Bool :=
  if r.attributes.length ≠ other.attributes.length then false
  else r.hasAllBy eq other.attributes && other.hasAllBy eq r.attributes

theorem rdn_equal_eq (F : FoldOrbits) : RelativeDN.equal F = RelativeDN.equalBy (AttributeTypeAndValue.equal F) := rfl

section RDN

variable {eq eq' : AttributeTypeAndValue → AttributeTypeAndValue → Bool} (heq : Equivalence (Holds eq))
include heq

/-- **RDNs are compared as multisets.** -/
theorem equalBy_iff_matching {r o : RelativeDN} : r.equalBy eq o = true ↔ Matching eq r.attributes o.attributes := by
  rw [← covers_iff_matching heq.refl heq.symm heq.trans]
  unfold RelativeDN.equalBy
  split_ifs with hlen
  · exact iff_of_false (by simp) fun h => hlen h.1
  · rw [Bool.and_eq_true, and_iff_right (not_not.mp hlen)]
    rfl

theorem equivalence_equalBy : Equivalence (Holds (RelativeDN.equalBy eq)) where
  refl _ := (equalBy_iff_matching heq).mpr (.refl heq.refl _)
  symm h := (equalBy_iff_matching heq).mpr (((equalBy_iff_matching heq).mp h).symm heq.symm)
  trans h h' :=
    (equalBy_iff_matching heq).mpr (((equalBy_iff_matching heq).mp h).trans ((equalBy_iff_matching heq).mp h') heq.trans)

theorem equalBy_mono (heq' : Equivalence (Holds eq')) (himp : ∀ {a b}, eq a b = true → eq' a b = true) {r o : RelativeDN}
    (h : r.equalBy eq o = true) : r.equalBy eq' o = true :=
  (equalBy_iff_matching heq').mpr (((equalBy_iff_matching heq).mp h).mono himp)

theorem equalBy_of_perm {r r' : RelativeDN} (h : r.attributes.Perm r'.attributes) : r.equalBy eq r' = true :=
  (equalBy_iff_matching heq).mpr (.of_perm heq.refl h)

end RDN

/-! ## Names -/

/-- The body of `(*DN).Equal` and `(*DN).EqualFold`. -/
def DN.equalBy (eq : RelativeDN → RelativeDN → Bool) (d other : DN) : Bool :=
  if d.rdns.length ≠ other.rdns.length then false else allPairs eq d.rdns other.rdns

theorem dn_equal_eq (F : FoldOrbits) : DN.equal F = DN.equalBy (RelativeDN.equal F) := rfl

section DN

variable {eq eq' : RelativeDN → RelativeDN → Bool}

theorem allPairs_iff_forall₂ {l m : List RelativeDN} (hlen : l.length = m.length) :
    allPairs eq l m = true ↔ List.Forall₂ (Holds eq) l m := by
  unfold allPairs
  induction l generalizing m with
  | nil =>
    obtain rfl := List.length_eq_zero_iff.mp hlen.symm
    simp
  | cons r l ih =>
    obtain ⟨r', m, rfl⟩ := List.exists_cons_of_length_pos (show 0 < m.length by rw [← hlen]; simp)
    rw [List.zipWith_cons_cons, List.all_cons, Bool.and_eq_true, List.forall₂_cons, ih (by simpa using hlen)]
    rfl

theorem equalBy_iff_forall₂ {d o : DN} : d.equalBy eq o = true ↔ List.Forall₂ (Holds eq) d.rdns o.rdns := by
  unfold DN.equalBy
  split_ifs with hlen
  · exact iff_of_false (by simp) fun h => hlen h.length_eq
  · exact allPairs_iff_forall₂ (not_not.mp hlen)

theorem equivalence_dn_equalBy (heq : Equivalence (Holds eq)) : Equivalence (Holds (DN.equalBy eq)) where
  refl d := equalBy_iff_forall₂.mpr ((equivalence heq).refl d.rdns)
  symm h := equalBy_iff_forall₂.mpr ((equivalence heq).symm (equalBy_iff_forall₂.mp h))
  trans h h' := equalBy_iff_forall₂.mpr ((equivalence heq).trans (equalBy_iff_forall₂.mp h) (equalBy_iff_forall₂.mp h'))

theorem dn_equalBy_mono (himp : ∀ r o, eq r o = true → eq' r o = true) {d o : DN} (h : d.equalBy eq o = true) :
    d.equalBy eq' o = true :=
  equalBy_iff_forall₂.mpr ((equalBy_iff_forall₂.mp h).imp himp)

/-- **Ancestry is the order of proper suffixes.** -/
theorem ancestorBy_iff {d o : DN} : d.ancestorBy eq o = true ↔ ProperSuffix (Holds eq) d.rdns o.rdns := by
  unfold DN.ancestorBy
  constructor
  · intro h
    split_ifs at h with hlen
    have hback : (o.rdns.drop (o.rdns.length - d.rdns.length)).length = d.rdns.length := by
      rw [List.length_drop]
      omega
    refine ⟨o.rdns.take (o.rdns.length - d.rdns.length), _, ?_, (List.take_append_drop _ _).symm,
      (allPairs_iff_forall₂ hback.symm).mp h⟩
    rw [← List.length_pos_iff, List.length_take]
    omega
  · intro h
    rw [if_neg (Nat.not_le.mpr h.length_lt)]
    obtain ⟨front, back, -, ho, hback⟩ := h
    have hdrop : o.rdns.drop (o.rdns.length - d.rdns.length) = back := by
      rw [ho, List.length_append, hback.length_eq, Nat.add_sub_cancel, List.drop_left]
    rw [hdrop, allPairs_iff_forall₂ hback.length_eq]
    exact hback

end DN

/-! ## Equality -/

/-- What makes a comparison of RDNs and names that of multisets of attributes: RDNs are equal exactly if a bijection
pairs equal attributes, equality is an equivalence, and it does not depend on the order of the attributes of an RDN. -/
structure MultisetComparison (attr : AttributeTypeAndValue → AttributeTypeAndValue → Bool)
    (rdn : RelativeDN → RelativeDN → Bool) (dn : DN → DN → Bool) : Prop where
  bijection : ∀ r o, rdn r o = true ↔
    ∃ σ : Fin r.attributes.length ≃ Fin o.attributes.length,
      ∀ i, attr (r.attributes.get i) (o.attributes.get (σ i)) = true
  rdn_equivalence : Equivalence (Holds rdn)
  dn_equivalence : Equivalence (Holds dn)
  rdn_perm : ∀ r r' o o', r.attributes.Perm r'.attributes → o.attributes.Perm o'.attributes → rdn r o = rdn r' o'
  dn_perm : ∀ d d' o o', List.Forall₂ (fun r r' => r.attributes.Perm r'.attributes) d.rdns d'.rdns →
    List.Forall₂ (fun r r' => r.attributes.Perm r'.attributes) o.rdns o'.rdns → dn d o = dn d' o'

/-- An equivalence does not tell equivalent arguments apart. -/
theorem eq_of_holds {α : Type} {eq : α → α → Bool} (heq : Equivalence (Holds eq)) {x x' y y' : α} (hx : Holds eq x x')
    (hy : Holds eq y y') : eq x y = eq x' y' := by
  rw [Bool.eq_iff_iff]
  exact ⟨fun h => heq.trans (heq.symm hx) (heq.trans h hy), fun h => heq.trans hx (heq.trans h (heq.symm hy))⟩

theorem multisetComparison_equalBy {eq : AttributeTypeAndValue → AttributeTypeAndValue → Bool}
    (heq : Equivalence (Holds eq)) :
    MultisetComparison eq (RelativeDN.equalBy eq) (DN.equalBy (RelativeDN.equalBy eq)) where
  bijection r o := equalBy_iff_matching heq
  rdn_equivalence := equivalence_equalBy heq
  dn_equivalence := equivalence_dn_equalBy (equivalence_equalBy heq)
  rdn_perm r r' o o' hr ho := eq_of_holds (equivalence_equalBy heq) (equalBy_of_perm heq hr) (equalBy_of_perm heq ho)
  dn_perm d d' o o' hd ho := by
    have hperm : ∀ {d d' : DN}, List.Forall₂ (fun r r' => r.attributes.Perm r'.attributes) d.rdns d'.rdns →
        Holds (DN.equalBy (RelativeDN.equalBy eq)) d d' := fun h =>
      equalBy_iff_forall₂.mpr (h.imp fun _ _ => equalBy_of_perm heq)
    exact eq_of_holds (equivalence_dn_equalBy (equivalence_equalBy heq)) (hperm hd) (hperm ho)

theorem rdn_equalFold_of_equal (F : FoldOrbits) {r o : RelativeDN} (h : r.equal F o = true) : r.equalFold F o = true :=
  equalBy_mono (equivalence_equal F) (equivalence_equalFold F) (equalFold_of_equal F) h

/-- **`Equal` and `EqualFold` compare RDNs as multisets of attributes**, and `Equal` implies `EqualFold`. -/
theorem equal_multisetComparison (F : FoldOrbits) :
    MultisetComparison (AttributeTypeAndValue.equal F) (RelativeDN.equal F) (DN.equal F) ∧
      MultisetComparison (AttributeTypeAndValue.equalFold F) (RelativeDN.equalFold F) (DN.equalFold F) ∧
      (∀ r o : RelativeDN, r.equal F o = true → r.equalFold F o = true) ∧
      ∀ d o : DN, d.equal F o = true → d.equalFold F o = true :=
  ⟨multisetComparison_equalBy (equivalence_equal F), multisetComparison_equalBy (equivalence_equalFold F),
    fun _ _ => rdn_equalFold_of_equal F, fun _ _ => dn_equalBy_mono fun _ _ => rdn_equalFold_of_equal F⟩

/-! ## Ancestry -/

/-- A comparison of names that is the strict order of proper suffixes, up to the equality `dn` of names with the
equality `rdn` of their RDNs. -/
structure StrictAncestry (rdn : RelativeDN → RelativeDN → Bool) (dn ancestor : DN → DN → Bool) : Prop where
  suffix : ∀ a b, ancestor a b = true ↔
    ∃ front back, front ≠ [] ∧ b.rdns = front ++ back ∧ List.Forall₂ (fun r r' => rdn r r' = true) a.rdns back
  irrefl : ∀ a, ancestor a a = false
  asymm : ∀ a b, ancestor a b = true → ancestor b a = false
  trans : ∀ a b c, ancestor a b = true → ancestor b c = true → ancestor a c = true
  congr : ∀ a a' b b', dn a a' = true → dn b b' = true → ancestor a b = ancestor a' b'

theorem strictAncestry_ancestorBy {eq : RelativeDN → RelativeDN → Bool} (heq : Equivalence (Holds eq)) :
    StrictAncestry eq (DN.equalBy eq) (DN.ancestorBy eq) where
  suffix a b := ancestorBy_iff
  irrefl a := by
    rw [Bool.eq_false_iff, Ne, ancestorBy_iff]
    exact ProperSuffix.irrefl _
  asymm a b h := by
    rw [Bool.eq_false_iff, Ne, ancestorBy_iff]
    exact (ancestorBy_iff.mp h).asymm
  trans a b c h h' :=
    ancestorBy_iff.mpr ((ancestorBy_iff.mp h).trans (fun _ _ _ => heq.trans) (ancestorBy_iff.mp h'))
  congr a a' b b' ha hb := by
    rw [equalBy_iff_forall₂] at ha hb
    have hlist := equivalence heq
    rw [Bool.eq_iff_iff, ancestorBy_iff, ancestorBy_iff]
    exact ⟨.congr heq ha hb, .congr heq (hlist.symm ha) (hlist.symm hb)⟩

/-- **`AncestorOf` and `AncestorOfFold` are strict orders** that respect `Equal` and `EqualFold`, and the first implies
the second. -/
theorem ancestorOf_strictAncestry (F : FoldOrbits) :
    StrictAncestry (RelativeDN.equal F) (DN.equal F) (DN.ancestorOf F) ∧
      StrictAncestry (RelativeDN.equalFold F) (DN.equalFold F) (DN.ancestorOfFold F) ∧
      ∀ a b : DN, a.ancestorOf F b = true → a.ancestorOfFold F b = true := by
  refine ⟨strictAncestry_ancestorBy (equivalence_equalBy (equivalence_equal F)),
    strictAncestry_ancestorBy (equivalence_equalBy (equivalence_equalFold F)), fun a b h => ?_⟩
  exact ancestorBy_iff.mpr ((ancestorBy_iff.mp h).mono fun _ _ => rdn_equalFold_of_equal F)

end GoLdap
