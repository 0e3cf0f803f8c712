import Mathlib.Data.List.Basic
import Mathlib.Data.List.Induction

/-!
# Lib.Responder — answering one request after the other

A responder has a state, takes requests in some order and sends any number of answers to each of them.  Every answer bears
the tag of its request, so that the answers to one request can be sorted out of all that was sent (`filter_serveAll`).
-/

/-- Requests are named by `κ` and tagged by `ι`; answers are of type `β`. -/
structure Responder (σ κ ι β : Type) where
  tagOf : β → ι
  reply : σ → κ → ι → List β × σ
  tagOf_reply : ∀ s c i, ∀ b ∈ (reply s c i).1, tagOf b = i

namespace Responder

variable {σ κ ι β : Type} (P : Responder σ κ ι β) (tag : κ → ι) (s : σ)

/-- All that is sent for requests, one after the other, and the state after them. -/
def serveAll (cs : List κ) : List β × σ :=
  cs.foldl (fun x c => (x.1 ++ (P.reply x.2 c (tag c)).1, (P.reply x.2 c (tag c)).2)) ([], s)

@[simp] theorem serveAll_nil : P.serveAll tag s [] = ([], s) := rfl

theorem serveAll_concat (cs : List κ) (c : κ) :
    P.serveAll tag s (cs ++ [c]) = ((P.serveAll tag s cs).1 ++ (P.reply (P.serveAll tag s cs).2 c (tag c)).1,
      (P.reply (P.serveAll tag s cs).2 c (tag c)).2) := by
  rw [serveAll, List.foldl_append]
  rfl

variable {P tag s}

theorem serveAll_congr {tag' : κ → ι} {cs : List κ} (h : ∀ c ∈ cs, tag' c = tag c) :
    P.serveAll tag' s cs = P.serveAll tag s cs := by
  induction cs using List.reverseRecOn with
  | nil => rfl
  | append_singleton cs c ih =>
    rw [serveAll_concat, serveAll_concat, ih fun d hd => h d (List.mem_append_left _ hd), h c (by simp)]

/-- Every answer has the tag of a request. -/
theorem tagOf_of_mem_serveAll {cs : List κ} {b : β} (hb : b ∈ (P.serveAll tag s cs).1) : ∃ c ∈ cs, P.tagOf b = tag c := by
  induction cs using List.reverseRecOn with
  | nil => cases hb
  | append_singleton cs c ih =>
    rw [serveAll_concat] at hb
    obtain hb | hb := List.mem_append.mp hb
    · obtain ⟨d, hd, htag⟩ := ih hb
      exact ⟨d, List.mem_append_left _ hd, htag⟩
    · exact ⟨c, by simp, P.tagOf_reply _ _ _ b hb⟩

variable [DecidableEq ι]

theorem filter_serveAll_eq_nil {cs : List κ} {i : ι} (h : ∀ c ∈ cs, tag c ≠ i) :
    (P.serveAll tag s cs).1.filter (P.tagOf · = i) = [] := by
  refine List.filter_eq_nil_iff.mpr fun b hb htag => ?_
  obtain ⟨c, hc, heq⟩ := tagOf_of_mem_serveAll hb
  exact h c hc (heq.symm.trans (of_decide_eq_true htag))

/-- The answers with the tag of a request are those that were sent for it. -/
theorem filter_serveAll {l₁ l₂ : List κ} {c : κ} (h : ∀ d ∈ l₁ ++ l₂, tag d ≠ tag c) :
    (P.serveAll tag s (l₁ ++ c :: l₂)).1.filter (P.tagOf · = tag c) = (P.reply (P.serveAll tag s l₁).2 c (tag c)).1 := by
  induction l₂ using List.reverseRecOn with
  | nil =>
    have hbefore : (P.serveAll tag s l₁).1.filter (P.tagOf · = tag c) = [] :=
      filter_serveAll_eq_nil fun d hd => h d (List.mem_append_left _ hd)
    have hall : (P.reply (P.serveAll tag s l₁).2 c (tag c)).1.filter (P.tagOf · = tag c) =
        (P.reply (P.serveAll tag s l₁).2 c (tag c)).1 :=
      List.filter_eq_self.mpr fun b hb => decide_eq_true (P.tagOf_reply _ _ _ b hb)
    rw [serveAll_concat, List.filter_append, hbefore, hall, List.nil_append]
  | append_singleton l₂ d ih =>
    have hnone (t : σ) : (P.reply t d (tag d)).1.filter (P.tagOf · = tag c) = [] := by
      refine List.filter_eq_nil_iff.mpr fun b hb htag => h d (by simp) ?_
      rw [← P.tagOf_reply _ _ _ b hb]
      exact of_decide_eq_true htag
    rw [← List.cons_append, ← List.append_assoc, serveAll_concat, List.filter_append, hnone, List.append_nil]
    exact ih fun e he => h e (by rw [← List.append_assoc]; exact List.mem_append_left _ he)

end Responder
