import Mathlib.Logic.Basic

/-!
# Lib.Machine — state machines with guarded actions

A machine has an initial state, a guard for every action and its effect.  `Reaches M ok s` says that a run of `M` all of
whose steps meet the condition `ok` ends in `s`; `Reachable M s` is the case without a condition.

* `Reaches.invariant`: what holds at the start and is preserved by every step holds in every state reached.
* `Reaches.invariant_of`: the same, when the step may use facts already known about every state reached.
* `reaches_after`: following a list of actions is a run.
-/

/-- A state machine: `next s a` is the effect of `a` in a state that meets its guard. -/
structure Machine (σ α : Type) where
  init : σ
  Enabled : σ → α → Prop
  next : σ → α → σ

namespace Machine

variable {σ α : Type} {M : Machine σ α} {ok : σ → α → Prop}

/-- The states reached by runs whose steps all meet the condition. -/
inductive Reaches (M : Machine σ α) (ok : σ → α → Prop) : σ → Prop
  | init : Reaches M ok M.init
  | step {s : σ} {a : α} (h : Reaches M ok s) (he : M.Enabled s a) (hok : ok s a) : Reaches M ok (M.next s a)

/-- The states reached by any run. -/
def Reachable (M : Machine σ α) (s : σ) : Prop := Reaches M (fun _ _ => True) s

theorem Reaches.mono {ok' : σ → α → Prop} (himp : ∀ s a, ok s a → ok' s a) {s : σ} (h : Reaches M ok s) :
    Reaches M ok' s := by
  induction h with
  | init => exact .init
  | step _ he hok ih => exact .step ih he (himp _ _ hok)

theorem Reaches.reachable {s : σ} (h : Reaches M ok s) : M.Reachable s := h.mono fun _ _ _ => trivial

theorem Reaches.invariant {P : σ → Prop} {s : σ} (h : Reaches M ok s) (hinit : P M.init)
    (hstep : ∀ s a, P s → M.Enabled s a → ok s a → P (M.next s a)) : P s := by
  induction h with
  | init => exact hinit
  | step _ he hok ih => exact hstep _ _ ih he hok

/-- An invariant whose preservation rests on invariants already proved. -/
theorem Reaches.invariant_of {P Q : σ → Prop} {s : σ} (h : Reaches M ok s) (hQ : ∀ s, Reaches M ok s → Q s)
    (hinit : P M.init) (hstep : ∀ s a, Q s → P s → M.Enabled s a → ok s a → P (M.next s a)) : P s := by
  induction h with
  | init => exact hinit
  | step hs he hok ih => exact hstep _ _ (hQ _ hs) ih he hok

/-! ## Runs given by their actions -/

/-- The guards and the condition hold all along a list of actions. -/
def Follows (M : Machine σ α) (ok : σ → α → Prop) : σ → List α → Prop
  | _, [] => True
  | s, a :: as => (M.Enabled s a ∧ ok s a) ∧ M.Follows ok (M.next s a) as

/-- The state after a list of actions. -/
def after (M : Machine σ α) (s : σ) (as : List α) : σ := as.foldl M.next s

instance decidableFollows [∀ s a, Decidable (M.Enabled s a)] [∀ s a, Decidable (ok s a)] :
    ∀ s as, Decidable (M.Follows ok s as)
  | _, [] => inferInstanceAs (Decidable True)
  | s, a :: as =>
    @instDecidableAnd _ _ (inferInstanceAs (Decidable (M.Enabled s a ∧ ok s a)))
      (decidableFollows (M.next s a) as)

theorem Reaches.after {s : σ} (hs : Reaches M ok s) : ∀ {as : List α}, M.Follows ok s as → Reaches M ok (M.after s as)
  | [], _ => hs
  | _ :: _, h => Reaches.after (.step hs h.1.1 h.1.2) h.2

theorem reaches_after (as : List α) (h : M.Follows ok M.init as) : Reaches M ok (M.after M.init as) :=
  Reaches.init.after h

theorem reachable_after (as : List α) (h : M.Follows (fun _ _ => True) M.init as) :
    M.Reachable (M.after M.init as) :=
  reaches_after as h

end Machine
