import Mathlib.Data.List.Basic

/-!
# Lib.Wildcard — patterns with wildcards

A pattern is a list of characters and of wildcards, `none`, each of which stands for any string.  The wildcards cut a
pattern into parts.  The first part has to be a prefix, the last one a suffix, and the others have to occur in between
(`matches_ofParts`).  Parts that are empty can be left out there (`inOrder_filter`).
-/

namespace Wildcard

variable {α : Type}

/-- What a pattern matches. -/
inductive Matches : List (Option α) → List α → Prop
  | nil : Matches [] []
  | char (a : α) {p : List (Option α)} {x : List α} (h : Matches p x) : Matches (some a :: p) (a :: x)
  | any (gap : List α) {p : List (Option α)} {x : List α} (h : Matches p x) : Matches (none :: p) (gap ++ x)

/-- The strings occur in this order, without overlap. -/
def InOrder : List (List α) → List α → Prop
  | [], _ => True
  | part :: parts, x => ∃ gap rest, x = gap ++ part ++ rest ∧ InOrder parts rest

/-- The pattern with these parts, the first of which is at the beginning. -/
def ofParts (first : List α) (parts : List (List α)) : List (Option α) :=
  first.map some ++ parts.flatMap fun part => none :: part.map some

theorem matches_any_cons {p : List (Option α)} {x : List α} :
    Matches (none :: p) x ↔ ∃ gap y, x = gap ++ y ∧ Matches p y := by
  constructor
  · intro h
    cases h with
    | any gap h => exact ⟨gap, _, rfl, h⟩
  · rintro ⟨gap, y, rfl, h⟩
    exact .any gap h

theorem matches_literal_append {l : List α} {p : List (Option α)} {x : List α} :
    Matches (l.map some ++ p) x ↔ ∃ y, x = l ++ y ∧ Matches p y := by
  induction l generalizing x with
  | nil => simp
  | cons a l ih =>
    constructor
    · intro h
      cases h with
      | char _ h =>
        obtain ⟨y, rfl, hy⟩ := ih.mp h
        exact ⟨y, rfl, hy⟩
    · rintro ⟨y, rfl, hy⟩
      exact .char a (ih.mpr ⟨y, rfl, hy⟩)

theorem matches_literal {l x : List α} : Matches (l.map some) x ↔ x = l := by
  have h := @matches_literal_append α l [] x
  rw [List.append_nil] at h
  rw [h]
  constructor
  · rintro ⟨y, rfl, hy⟩
    cases hy
    rw [List.append_nil]
  · rintro rfl
    exact ⟨[], (List.append_nil x).symm, .nil⟩

/-- The parts behind a wildcard. -/
theorem matches_wild_parts {middle : List (List α)} {last x : List α} :
    Matches ((middle ++ [last]).flatMap fun part => none :: part.map some) x ↔
      ∃ m, x = m ++ last ∧ InOrder middle m := by
  induction middle generalizing x with
  | nil =>
    rw [List.nil_append, List.flatMap_singleton, matches_any_cons]
    simp [matches_literal, InOrder]
  | cons part middle ih =>
    rw [List.cons_append, List.flatMap_cons, List.cons_append, matches_any_cons]
    constructor
    · rintro ⟨gap, y, rfl, h⟩
      obtain ⟨z, rfl, hz⟩ := matches_literal_append.mp h
      obtain ⟨m, rfl, hm⟩ := ih.mp hz
      exact ⟨gap ++ part ++ m, by simp, gap, m, rfl, hm⟩
    · rintro ⟨_, rfl, gap, m, rfl, hm⟩
      refine ⟨gap, part ++ (m ++ last), by simp, ?_⟩
      exact matches_literal_append.mpr ⟨m ++ last, rfl, ih.mpr ⟨m, rfl, hm⟩⟩

/-- A pattern with a wildcard, by its parts. -/
theorem matches_ofParts {first last x : List α} {middle : List (List α)} :
    Matches (ofParts first (middle ++ [last])) x ↔ ∃ m, x = first ++ m ++ last ∧ InOrder middle m := by
  rw [ofParts, matches_literal_append]
  constructor
  · rintro ⟨y, rfl, hy⟩
    obtain ⟨m, rfl, hm⟩ := matches_wild_parts.mp hy
    exact ⟨m, by rw [List.append_assoc], hm⟩
  · rintro ⟨m, rfl, hm⟩
    exact ⟨m ++ last, by rw [List.append_assoc], matches_wild_parts.mpr ⟨m, rfl, hm⟩⟩

theorem InOrder.append_left {parts : List (List α)} {x : List α} (h : InOrder parts x) (gap : List α) :
    InOrder parts (gap ++ x) := by
  cases parts with
  | nil => trivial
  | cons part parts =>
    obtain ⟨gap', rest, rfl, hrest⟩ := h
    exact ⟨gap ++ gap', rest, by simp, hrest⟩

theorem inOrder_nil_cons {parts : List (List α)} {x : List α} : InOrder ([] :: parts) x ↔ InOrder parts x := by
  constructor
  · rintro ⟨gap, rest, rfl, hrest⟩
    rw [List.append_nil]
    exact hrest.append_left gap
  · intro h
    exact ⟨[], x, rfl, h⟩

/-- Empty parts occur everywhere. -/
theorem inOrder_filter {parts : List (List α)} {x : List α} :
    InOrder (parts.filter fun part => !part.isEmpty) x ↔ InOrder parts x := by
  induction parts generalizing x with
  | nil => exact Iff.rfl
  | cons part parts ih =>
    cases part with
    | nil =>
      rw [inOrder_nil_cons, ← ih]
      exact Iff.rfl
    | cons a part =>
      rw [List.filter_cons_of_pos (by simp)]
      exact exists_congr fun gap => exists_congr fun rest => and_congr_right fun _ => ih

end Wildcard
