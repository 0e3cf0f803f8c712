import Mathlib.Data.List.Basic

/-!
# Lib.Scanner — a scan over a text, one character at a time

A scanner has a state and a position; a character changes the state or is an error, and at the end the state is turned into
the result.  `S.Feeds s text t` says that `text` takes the scanner from `s` to `t` wherever it stands and whatever follows.

* `Feeds.append`: texts one after the other.
* `Feeds.flatMap`: a text written piece by piece, of which the state collects the meaning.
* `Feeds.run`: the result after a whole text.
-/

/-- A scan: the effect of a character at a position, and of the end of the text. -/
structure Scanner (α σ ε β : Type) where
  step : ℕ → σ → α → Except ε σ
  finish : ℕ → σ → Except ε β

namespace Scanner

variable {α σ ε β : Type} (S : Scanner α σ ε β)

/-- The scan of a text from a position and a state. -/
def run : ℕ → σ → List α → Except ε β
  | i, s, [] => S.finish i s
  | i, s, a :: text =>
    match S.step i s a with
    | .error e => .error e
    | .ok s => run (i + 1) s text

/-- The text takes the scanner from one state to the other. -/
def Feeds (s : σ) (text : List α) (t : σ) : Prop :=
  ∀ i rest, S.run i s (text ++ rest) = S.run (i + text.length) t rest

variable {S} {s t u : σ} {a : α} {text text' : List α}

theorem Feeds.nil : S.Feeds s [] s := fun _ _ => rfl

theorem Feeds.single (h : ∀ i, S.step i s a = .ok t) : S.Feeds s [a] t := by
  intro i rest
  rw [List.singleton_append, run, h]
  rfl

theorem Feeds.append (h : S.Feeds s text t) (h' : S.Feeds t text' u) : S.Feeds s (text ++ text') u := by
  intro i rest
  rw [List.append_assoc, h, h', List.length_append, Nat.add_assoc]

/-- Characters that are passed over. -/
theorem Feeds.skip (h : ∀ a ∈ text, ∀ i, S.step i s a = .ok s) : S.Feeds s text s := by
  induction text with
  | nil => exact .nil
  | cons a text ih =>
    obtain ⟨ha, htext⟩ := List.forall_mem_cons.mp h
    exact (Feeds.single ha).append (ih htext)

/-- Pieces of text, each of which adds to what a state has collected. -/
theorem Feeds.flatMap {γ δ : Type} (state : List δ → σ) {f : γ → List α} {g : γ → List δ} {l : List γ}
    (h : ∀ c ∈ l, ∀ acc, S.Feeds (state acc) (f c) (state (acc ++ g c))) (acc : List δ) :
    S.Feeds (state acc) (l.flatMap f) (state (acc ++ l.flatMap g)) := by
  induction l generalizing acc with
  | nil =>
    rw [List.flatMap_nil, List.flatMap_nil, List.append_nil]
    exact .nil
  | cons c l ih =>
    obtain ⟨hc, hl⟩ := List.forall_mem_cons.mp h
    rw [List.flatMap_cons, List.flatMap_cons, ← List.append_assoc]
    exact (hc acc).append (ih hl _)

/-- Characters, each of which adds to what a state has collected. -/
theorem Feeds.collect {δ : Type} (state : List δ → σ) {g : α → List δ}
    (h : ∀ a ∈ text, ∀ acc i, S.step i (state acc) a = .ok (state (acc ++ g a))) (acc : List δ) :
    S.Feeds (state acc) text (state (acc ++ text.flatMap g)) := by
  have hpieces := Feeds.flatMap state (f := fun a => [a]) (fun a ha acc => Feeds.single (h a ha acc)) acc
  rwa [List.flatMap_singleton'] at hpieces

theorem Feeds.run (h : S.Feeds s text t) (i : ℕ) : S.run i s text = S.finish (i + text.length) t := by
  have hrun := h i []
  rwa [List.append_nil] at hrun

end Scanner
