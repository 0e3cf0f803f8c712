import Mathlib.Data.List.Basic
import Mathlib.Data.List.Count
import Mathlib.Data.List.Perm.Basic
import Mathlib.Data.List.Forall2
import Mathlib.Data.List.NodupEquivFin

/-!
# Lib.GreedyMatch — matching with consumption

`consume eq a ms` marks the first unmarked entry that `eq` relates to `a`, and `coverAll eq ms as` consumes one entry
for every member of `as`, in order.  For an equivalence the greedy choice loses nothing: `coverAll` succeeds exactly
when every class has at least as many unmarked entries as members of `as` (`coverAll_iff`).  So two lists of one length
cover each other exactly when there is a bijection between their positions that pairs related members (`Matching`,
`covers_iff_matching`).
-/

namespace GreedyMatch

variable {α : Type} (eq : α → α → Bool)

/-- Mark the first unmarked entry related to `a`. -/
def consume (a : α) : List (α × Bool) → Option (List (α × Bool))
  | [] => none
  | (x, true) :: ms => (consume a ms).map ((x, true) :: ·)
  | (x, false) :: ms => if eq x a then some ((x, true) :: ms) else (consume a ms).map ((x, false) :: ·)

/-- Consume an entry for every member of the list. -/
def coverAll : List (α × Bool) → List α → Bool
  | _, [] => true
  | ms, a :: as =>
    match consume eq a ms with
    | none => false
    | some ms' => coverAll ms' as

/-- The entries not yet marked. -/
def unmarked (ms : List (α × Bool)) : List α := (ms.filter (fun m => !m.2)).map Prod.fst

/-- All entries of a list, unmarked. -/
def fresh (xs : List α) : List (α × Bool) := xs.map (fun x => (x, false))

@[simp] theorem unmarked_cons_true (x : α) (ms : List (α × Bool)) : unmarked ((x, true) :: ms) = unmarked ms := by
  simp [unmarked]

@[simp] theorem unmarked_cons_false (x : α) (ms : List (α × Bool)) :
    unmarked ((x, false) :: ms) = x :: unmarked ms := by
  simp [unmarked]

@[simp] theorem unmarked_fresh (xs : List α) : unmarked (fresh xs) = xs := by
  induction xs with
  | nil => rfl
  | cons x xs ih =>
    have : fresh (x :: xs) = (x, false) :: fresh xs := rfl
    rw [this, unmarked_cons_false, ih]

variable {eq}

/-- A failed search leaves no related unmarked entry. -/
theorem consume_eq_none {a : α} : ∀ {ms : List (α × Bool)}, consume eq a ms = none →
    ∀ x ∈ unmarked ms, eq x a = false
  | [], _, x, hx => by simp [unmarked] at hx
  | (y, true) :: ms, h, x, hx => by
    rw [consume, Option.map_eq_none_iff] at h
    exact consume_eq_none h x (by simpa using hx)
  | (y, false) :: ms, h, x, hx => by
    rw [consume] at h
    split_ifs at h with hy
    rw [Option.map_eq_none_iff] at h
    rw [unmarked_cons_false, List.mem_cons] at hx
    rcases hx with rfl | hx
    · simpa using hy
    · exact consume_eq_none h x hx

/-- A successful search takes one related entry out of the unmarked ones. -/
theorem consume_eq_some {a : α} : ∀ {ms ms' : List (α × Bool)}, consume eq a ms = some ms' →
    ∃ x, eq x a = true ∧ (unmarked ms).Perm (x :: unmarked ms')
  | [], _, h => by simp [consume] at h
  | (y, true) :: ms, ms', h => by
    rw [consume, Option.map_eq_some_iff] at h
    obtain ⟨ms1, h1, rfl⟩ := h
    obtain ⟨x, hx, hp⟩ := consume_eq_some h1
    exact ⟨x, hx, by simpa using hp⟩
  | (y, false) :: ms, ms', h => by
    rw [consume] at h
    split_ifs at h with hy
    · simp only [Option.some.injEq] at h
      subst h
      exact ⟨y, hy, by simp⟩
    · rw [Option.map_eq_some_iff] at h
      obtain ⟨ms1, h1, rfl⟩ := h
      obtain ⟨x, hx, hp⟩ := consume_eq_some h1
      refine ⟨x, hx, ?_⟩
      rw [unmarked_cons_false, unmarked_cons_false]
      exact (List.Perm.cons y hp).trans (List.Perm.swap x y _)

section Equivalence

variable (hrefl : ∀ x, eq x x = true) (hsymm : ∀ {x y}, eq x y = true → eq y x = true)
  (htrans : ∀ {x y z}, eq x y = true → eq y z = true → eq x z = true)
include hrefl hsymm htrans

/-- **Greedy matching counts classes**: it succeeds exactly when no class is asked for more often than it is there. -/
theorem coverAll_iff {ms : List (α × Bool)} {as : List α} :
    coverAll eq ms as = true ↔ ∀ y, as.countP (eq y) ≤ (unmarked ms).countP (eq y) := by
  induction as generalizing ms with
  | nil => simp [coverAll]
  | cons a as ih =>
    have hcongr : ∀ {x}, eq x a = true → ∀ y, eq y x = eq y a := fun {x} hx y => by
      rw [Bool.eq_iff_iff]
      exact ⟨fun h => htrans h hx, fun h => htrans h (hsymm hx)⟩
    cases hc : consume eq a ms with
    | none =>
      rw [coverAll, hc]
      refine ⟨fun h => absurd h (by simp), fun h => ?_⟩
      -- the class of `a` is asked for and not there
      have h1 := h a
      rw [List.countP_cons, if_pos (hrefl a)] at h1
      obtain ⟨x, hx, hxa⟩ := List.countP_pos_iff.mp (Nat.lt_of_lt_of_le (Nat.succ_pos _) h1)
      have := consume_eq_none hc x hx
      rw [hsymm hxa] at this
      simp at this
    | some ms' =>
      obtain ⟨x, hx, hp⟩ := consume_eq_some hc
      rw [coverAll, hc]
      dsimp only
      rw [ih]
      refine forall_congr' fun y => ?_
      rw [hp.countP_eq, List.countP_cons, List.countP_cons, hcongr hx y]
      omega

/-- Lists that pair off, up to a permutation, cover each other. -/
theorem coverAll_of_forall₂ {xs xs' as : List α} (hp : xs'.Perm xs)
    (h : List.Forall₂ (fun x a => eq x a = true) xs' as) : coverAll eq (fresh xs) as = true := by
  rw [coverAll_iff hrefl hsymm htrans, unmarked_fresh]
  intro y
  rw [← hp.countP_eq]
  refine Nat.le_of_eq ?_
  clear hp
  induction h with
  | nil => rfl
  | cons hxa _ ih =>
    rw [List.countP_cons, List.countP_cons, ih]
    congr 1
    refine if_congr ?_ rfl rfl
    exact ⟨fun h => htrans h (hsymm hxa), fun h => htrans h hxa⟩

end Equivalence

/-! ## Bijections -/

section Matching

/-- A bijection between the positions of two lists that pairs related members. -/
def Matching (eq : α → α → Bool) (l m : List α) : Prop :=
  ∃ σ : Fin l.length ≃ Fin m.length, ∀ i, eq (l.get i) (m.get (σ i)) = true

variable {l m : List α}

/-- A bijection is a permutation of one list that is related to the other member by member. -/
theorem matching_iff_perm : Matching eq l m ↔ ∃ m', m'.Perm m ∧ List.Forall₂ (fun x y => eq x y = true) l m' := by
  constructor
  · rintro ⟨σ, hσ⟩
    refine ⟨(List.finRange l.length).map fun i => m.get (σ i), ?_, ?_⟩
    · have hall : ((List.finRange l.length).map σ).Perm (List.finRange m.length) := by
        rw [List.perm_ext_iff_of_nodup ((List.nodup_finRange _).map σ.injective) (List.nodup_finRange _)]
        exact fun j => iff_of_true (List.mem_map.mpr ⟨σ.symm j, by simp, by simp⟩) (List.mem_finRange j)
      simpa [Function.comp_def] using hall.map m.get
    · conv => arg 2; rw [← List.map_get_finRange l]
      rw [List.forall₂_map_left_iff, List.forall₂_map_right_iff, List.forall₂_same]
      exact fun i _ => hσ i
  · rintro ⟨m', hperm, hforall⟩
    -- the members of `m'` are those of `m` at positions in another order
    rw [← List.map_get_finRange m] at hperm
    obtain ⟨js, rfl, hjs⟩ : ∃ js : List (Fin m.length), m' = js.map m.get ∧ js.Perm (List.finRange m.length) := by
      have hcomp := congrFun (congrFun (List.eq_map_comp_perm m.get) m') (List.finRange m.length)
      exact hcomp.mpr hperm
    have hlen : l.length = js.length := by simpa using hforall.length_eq
    refine ⟨(finCongr hlen).trans (List.Nodup.getEquivOfForallMemList js
      (hjs.nodup_iff.mpr (List.nodup_finRange _)) fun j => hjs.mem_iff.mpr (List.mem_finRange j)), fun i => ?_⟩
    have hi := (List.forall₂_iff_get.mp hforall).2 i.1 i.2 (by simp [← hlen])
    simpa using hi

theorem Matching.refl (hrefl : ∀ x, eq x x = true) (l : List α) : Matching eq l l :=
  ⟨Equiv.refl _, fun i => hrefl (l.get i)⟩

theorem Matching.symm (hsymm : ∀ {x y}, eq x y = true → eq y x = true) (h : Matching eq l m) : Matching eq m l := by
  obtain ⟨σ, hσ⟩ := h
  refine ⟨σ.symm, fun j => hsymm ?_⟩
  simpa using hσ (σ.symm j)

theorem Matching.trans {w : List α} (h : Matching eq l m) (h' : Matching eq m w)
    (htrans : ∀ {x y z}, eq x y = true → eq y z = true → eq x z = true) : Matching eq l w := by
  obtain ⟨σ, hσ⟩ := h
  obtain ⟨τ, hτ⟩ := h'
  exact ⟨σ.trans τ, fun i => htrans (hσ i) (hτ (σ i))⟩

theorem Matching.mono {eq' : α → α → Bool} (himp : ∀ {x y}, eq x y = true → eq' x y = true) (h : Matching eq l m) :
    Matching eq' l m := by
  obtain ⟨σ, hσ⟩ := h
  exact ⟨σ, fun i => himp (hσ i)⟩

theorem Matching.of_perm (hrefl : ∀ x, eq x x = true) (h : l.Perm m) : Matching eq l m :=
  matching_iff_perm.mpr ⟨l, h, List.forall₂_same.mpr fun x _ => hrefl x⟩

/-- Lists with the same keys match, if members with the same key are related. -/
theorem Matching.of_perm_map {κ : Type} {key : α → κ} (hkey : ∀ {x y}, key x = key y → eq x y = true)
    (hp : (l.map key).Perm (m.map key)) : Matching eq l m := by
  have hmap : List.Forall₂ (fun k y => k = key y) (m.map key) m := by
    rw [List.forall₂_map_left_iff, List.forall₂_same]
    exact fun _ _ => rfl
  -- the permutation of the keys is moved to the members
  obtain ⟨m', hforall, hperm⟩ := List.perm_comp_forall₂ hp hmap
  rw [List.forall₂_map_left_iff] at hforall
  exact matching_iff_perm.mpr ⟨m', hperm, hforall.imp fun _ _ h => hkey h⟩

/-- Lists that match have the same keys, if related members have the same key. -/
theorem Matching.perm_map {κ : Type} {key : α → κ} (hkey : ∀ x ∈ l, ∀ y ∈ m, eq x y = true → key x = key y)
    (h : Matching eq l m) : (l.map key).Perm (m.map key) := by
  obtain ⟨m', hperm, hforall⟩ := matching_iff_perm.mp h
  have hmap : l.map key = m'.map key := by
    have hmem : ∀ y ∈ m', y ∈ m := fun y => hperm.mem_iff.mp
    clear hperm h
    induction hforall with
    | nil => rfl
    | @cons x y l m' hxy _ ih =>
      rw [List.map_cons, List.map_cons, hkey x (by simp) y (hmem y (by simp)) hxy,
        ih (fun x hx => hkey x (by simp [hx])) fun y hy => hmem y (by simp [hy])]
  rw [hmap]
  exact hperm.map key

/-- What a list was covered by: related entries, each used once. -/
theorem exists_forall₂_of_coverAll {ms : List (α × Bool)} {as : List α} (h : coverAll eq ms as = true) :
    ∃ xs, List.Forall₂ (fun x a => eq x a = true) xs as ∧ xs.Subperm (unmarked ms) := by
  induction as generalizing ms with
  | nil => exact ⟨[], .nil, List.nil_subperm⟩
  | cons a as ih =>
    rw [coverAll] at h
    cases hc : consume eq a ms with
    | none =>
      rw [hc] at h
      cases h
    | some ms' =>
      rw [hc] at h
      obtain ⟨xs, hforall, hsub⟩ := ih h
      obtain ⟨x, hx, hp⟩ := consume_eq_some hc
      exact ⟨x :: xs, .cons hx hforall, ((List.subperm_cons x).mpr hsub).trans hp.symm.subperm⟩

/-- **Greedy matching finds a bijection** whenever there is one. -/
theorem covers_iff_matching (hrefl : ∀ x, eq x x = true) (hsymm : ∀ {x y}, eq x y = true → eq y x = true)
    (htrans : ∀ {x y z}, eq x y = true → eq y z = true → eq x z = true) :
    (l.length = m.length ∧ coverAll eq (fresh l) m = true ∧ coverAll eq (fresh m) l = true) ↔ Matching eq l m := by
  constructor
  · rintro ⟨hlen, -, hcover⟩
    obtain ⟨ys, hforall, hsub⟩ := exists_forall₂_of_coverAll hcover
    rw [unmarked_fresh] at hsub
    have hperm : ys.Perm m := hsub.perm_of_length_le (by rw [hforall.length_eq, hlen])
    exact matching_iff_perm.mpr ⟨ys, hperm, hforall.flip.imp fun _ _ => hsymm⟩
  · intro h
    obtain ⟨m', hm, hforall⟩ := matching_iff_perm.mp h
    obtain ⟨l', hl, hforall'⟩ := matching_iff_perm.mp (h.symm hsymm)
    refine ⟨hforall.length_eq.trans hm.length_eq, ?_, ?_⟩
    · exact coverAll_of_forall₂ hrefl hsymm htrans hl (hforall'.flip.imp fun _ _ => hsymm)
    · exact coverAll_of_forall₂ hrefl hsymm htrans hm (hforall.flip.imp fun _ _ => hsymm)

end Matching

end GreedyMatch
