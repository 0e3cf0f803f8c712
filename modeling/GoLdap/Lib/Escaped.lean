import Mathlib.Data.List.Basic

/-!
# Lib.Escaped — text with an escape character

In such a text `esc` takes the next character literally, whatever it is.  A scan keeps one flag, whether it is behind an
escape, and a character *cuts* the text when it satisfies a predicate outside of any escape.

* `pending`: the flag after a text; a text that ends with it set has an escape of nothing.
* `marks`: the characters of a text, each with the flag in front of it.
* `Free`: nothing in the text cuts it.
* `first`, `cut`: the text at the first character that cuts it, and at all of them.
* `cut_induction`: induction over the pieces of a text.
-/

namespace Escaped

variable {α : Type} [DecidableEq α] (esc : α)

/-- The flag behind a character. -/
def next (flag : Bool) (c : α) : Bool := !flag && decide (c = esc)

/-- The flag behind a text. -/
def pending (flag : Bool) (s : List α) : Bool := s.foldl (next esc) flag

/-- The characters, each with whether it is escaped. -/
def marks : Bool → List α → List (α × Bool)
  | _, [] => []
  | flag, c :: s => (c, flag) :: marks (next esc flag c) s

/-- The character satisfies the predicate and is neither escaped nor the escape. -/
def Cuts (p : α → Prop) (flag : Bool) (c : α) : Prop := flag = false ∧ c ≠ esc ∧ p c

instance (p : α → Prop) [DecidablePred p] (flag : Bool) (c : α) : Decidable (Cuts esc p flag c) :=
  inferInstanceAs (Decidable (_ ∧ _))

/-- No character cuts the text. -/
def Free (p : α → Prop) : Bool → List α → Prop
  | _, [] => True
  | flag, c :: s => ¬ Cuts esc p flag c ∧ Free p (next esc flag c) s

section Cut

variable (p : α → Prop) [DecidablePred p]

/-- The text before and behind the first character that cuts it. -/
def first : Bool → List α → Option (List α × α × List α)
  | _, [] => none
  | flag, c :: s =>
    if Cuts esc p flag c then some ([], c, s)
    else (first (next esc flag c) s).map fun r => (c :: r.1, r.2)

/-- The first piece of a text, and the others with the characters in front of them. -/
def cut : Bool → List α → List α × List (α × List α)
  | _, [] => ([], [])
  | flag, c :: s =>
    let r := cut (next esc flag c) s
    if Cuts esc p flag c then ([], (c, r.1) :: r.2) else (c :: r.1, r.2)

end Cut

variable {esc} {p : α → Prop}

@[simp] theorem pending_nil (flag : Bool) : pending esc flag [] = flag := rfl

@[simp] theorem pending_cons (flag : Bool) (c : α) (s : List α) :
    pending esc flag (c :: s) = pending esc (next esc flag c) s := rfl

theorem pending_append (flag : Bool) (s t : List α) :
    pending esc flag (s ++ t) = pending esc (pending esc flag s) t := List.foldl_append

@[simp] theorem map_fst_marks (esc : α) (flag : Bool) (s : List α) : (marks esc flag s).map Prod.fst = s := by
  induction s generalizing flag with
  | nil => rfl
  | cons c s ih => rw [marks, List.map_cons, ih]

theorem marks_append (flag : Bool) (s t : List α) :
    marks esc flag (s ++ t) = marks esc flag s ++ marks esc (pending esc flag s) t := by
  induction s generalizing flag with
  | nil => rfl
  | cons c s ih => rw [List.cons_append, marks, ih, marks, pending_cons, List.cons_append]

theorem next_of_ne (flag : Bool) {c : α} (h : c ≠ esc) : next esc flag c = false := by
  simp [next, h]

theorem next_of_cuts {flag : Bool} {c : α} (h : Cuts esc p flag c) : next esc flag c = false := next_of_ne flag h.2.1

/-- The flag does not survive a text without the escape character. -/
theorem pending_of_not_mem (flag : Bool) {s : List α} (hne : s ≠ []) (h : esc ∉ s) : pending esc flag s = false := by
  induction s generalizing flag with
  | nil => exact absurd rfl hne
  | cons c s ih =>
    obtain ⟨hc, hs⟩ := not_or.mp (fun hm => h (List.mem_cons.mpr hm))
    rw [pending_cons, next_of_ne flag (Ne.symm hc)]
    by_cases hnil : s = []
    · rw [hnil]
      rfl
    · exact ih false hnil hs

/-- A character that cuts starts a new text. -/
theorem pending_append_cuts {flag : Bool} {w : List α} {c : α} (hc : Cuts esc p (pending esc flag w) c) (r : List α) :
    pending esc flag (w ++ c :: r) = pending esc false r := by
  rw [pending_append, pending_cons, next_of_cuts hc]

theorem free_append {flag : Bool} {s t : List α} :
    Free esc p flag (s ++ t) ↔ Free esc p flag s ∧ Free esc p (pending esc flag s) t := by
  induction s generalizing flag with
  | nil => simp [Free]
  | cons c s ih => simp only [List.cons_append, Free, ih, pending_cons, and_assoc]

/-- A text without characters of the predicate is free of them. -/
theorem free_of_forall {s : List α} (h : ∀ c ∈ s, c ≠ esc → ¬ p c) (flag : Bool) : Free esc p flag s := by
  induction s generalizing flag with
  | nil => trivial
  | cons c s ih =>
    refine ⟨fun hc => h c (by simp) hc.2.1 hc.2.2, ?_⟩
    exact ih (fun d hd => h d (by simp [hd])) _

/-- A text put together from free texts that end outside of an escape. -/
theorem free_flatMap {β : Type} {f : β → List α} {l : List β}
    (h : ∀ x ∈ l, Free esc p false (f x) ∧ pending esc false (f x) = false) :
    Free esc p false (l.flatMap f) ∧ pending esc false (l.flatMap f) = false := by
  induction l with
  | nil => exact ⟨trivial, rfl⟩
  | cons x l ih =>
    obtain ⟨hfree, hflag⟩ := h x (by simp)
    obtain ⟨hfree', hflag'⟩ := ih fun y hy => h y (by simp [hy])
    rw [List.flatMap_cons, free_append, pending_append, hflag]
    exact ⟨⟨hfree, hfree'⟩, hflag'⟩

/-- A free text is free of less. -/
theorem Free.mono {q : α → Prop} {flag : Bool} {s : List α} (hs : Free esc p flag s) (h : ∀ c, q c → p c) :
    Free esc q flag s := by
  induction s generalizing flag with
  | nil => trivial
  | cons c s ih => exact ⟨fun hc => hs.1 ⟨hc.1, hc.2.1, h c hc.2.2⟩, ih hs.2⟩

theorem Free.or {q : α → Prop} {flag : Bool} {s : List α} (hp : Free esc p flag s) (hq : Free esc q flag s) :
    Free esc (fun c => p c ∨ q c) flag s := by
  induction s generalizing flag with
  | nil => trivial
  | cons c s ih =>
    refine ⟨fun hc => ?_, ih hp.2 hq.2⟩
    rcases hc with ⟨hflag, hne, h | h⟩
    · exact hp.1 ⟨hflag, hne, h⟩
    · exact hq.1 ⟨hflag, hne, h⟩

section Cut

variable [DecidablePred p] {flag : Bool} {s w r : List α} {c : α}

theorem first_eq_none_iff : first esc p flag s = none ↔ Free esc p flag s := by
  induction s generalizing flag with
  | nil => simp [first, Free]
  | cons c s ih =>
    rw [first, Free]
    split_ifs with hc
    · simp [hc]
    · simp [hc, ih]

theorem first_append (hw : Free esc p flag w) (hc : Cuts esc p (pending esc flag w) c) :
    first esc p flag (w ++ c :: r) = some (w, c, r) := by
  induction w generalizing flag with
  | nil =>
    rw [pending_nil] at hc
    rw [List.nil_append, first, if_pos hc]
  | cons d w ih =>
    rw [List.cons_append, first, if_neg hw.1, ih hw.2 hc]
    rfl

theorem first_eq_some (h : first esc p flag s = some (w, c, r)) :
    s = w ++ c :: r ∧ Free esc p flag w ∧ Cuts esc p (pending esc flag w) c := by
  induction s generalizing flag w with
  | nil => cases h
  | cons d s ih =>
    rw [first] at h
    split_ifs at h with hd
    · cases h
      exact ⟨rfl, trivial, hd⟩
    · obtain ⟨⟨w', c', r'⟩, hfirst, heq⟩ := Option.map_eq_some_iff.mp h
      cases heq
      obtain ⟨rfl, hw, hc⟩ := ih hfirst
      exact ⟨rfl, ⟨hd, hw⟩, hc⟩

theorem cut_of_free (h : Free esc p flag s) : cut esc p flag s = (s, []) := by
  induction s generalizing flag with
  | nil => rfl
  | cons c s ih =>
    rw [cut, if_neg h.1, ih h.2]

/-- Two texts with a character between them that cuts have the pieces of both. -/
theorem cut_append (hc : Cuts esc p (pending esc flag s) c) :
    cut esc p flag (s ++ c :: r) =
      ((cut esc p flag s).1, (cut esc p flag s).2 ++ (c, (cut esc p false r).1) :: (cut esc p false r).2) := by
  induction s generalizing flag with
  | nil =>
    rw [pending_nil] at hc
    show cut esc p flag (c :: r) = ([], (c, (cut esc p false r).1) :: (cut esc p false r).2)
    rw [cut, if_pos hc, next_of_cuts hc]
  | cons d s ih =>
    rw [List.cons_append, cut, ih hc, cut]
    split_ifs <;> rfl

/-- Induction over the pieces: a text is free, or a free text, a character that cuts, and a text with fewer pieces. -/
theorem cut_induction {motive : List α → Prop} (esc : α) (p : α → Prop) [DecidablePred p]
    (free : ∀ s, Free esc p false s → motive s)
    (piece : ∀ w c r, Free esc p false w → Cuts esc p (pending esc false w) c → motive r → motive (w ++ c :: r))
    (s : List α) : motive s := by
  induction hn : s.length using Nat.strongRecOn generalizing s with
  | _ n ih =>
    rcases hfirst : first esc p false s with _ | ⟨w, c, r⟩
    · exact free s (first_eq_none_iff.mp hfirst)
    · obtain ⟨rfl, hw, hc⟩ := first_eq_some hfirst
      have hlt : r.length < n := by
        rw [← hn, List.length_append, List.length_cons]
        omega
      exact piece w c r hw hc (ih r.length hlt r rfl)

end Cut

end Escaped
