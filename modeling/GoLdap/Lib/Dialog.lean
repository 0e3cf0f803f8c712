import Mathlib.Data.Nat.Notation
import Mathlib.Logic.Basic

/-!
# Lib.Dialog — programs that ask

A dialog is a program that asks one question after the other and goes on with the answers.  It is run against a peer that
answers from a state of its own, or does not answer at all.  `Complies.run` is the rule for what holds with every peer;
`run_simulates` is the rule for replacing a peer by another one that behaves in the same way.
-/

/-- A program that ends with a result or asks a question. -/
inductive Dialog (Q : Type) (A : Q → Type) (R : Type) where
  | done (r : R)
  | ask (q : Q) (k : A q → Dialog Q A R)

namespace Dialog

variable {Q R σ τ : Type} {A : Q → Type}

/-- A run: the questions with their answers, the result unless the last question was not answered, and the state the peer
is in. -/
structure Run (Q : Type) (A : Q → Type) (R σ : Type) where
  history : List ((q : Q) × Option (A q))
  result : Option R
  state : σ

/-- Whoever answers: from a state, with a new state. -/
abbrev Peer (Q : Type) (A : Q → Type) (σ : Type) := σ → (q : Q) → Option (A q) × σ

def run (peer : Peer Q A σ) : Dialog Q A R → σ → Run Q A R σ
  | done r, s => ⟨[], some r, s⟩
  | ask q k, s =>
    match peer s q with
    | (none, s') => ⟨[⟨q, none⟩], none, s'⟩
    | (some a, s') =>
      let rest := (k a).run peer s'
      ⟨⟨q, some a⟩ :: rest.history, rest.result, rest.state⟩

@[simp] theorem run_done (peer : Peer Q A σ) (r : R) (s : σ) : (done r : Dialog Q A R).run peer s = ⟨[], some r, s⟩ := rfl

theorem run_ask_some {peer : Peer Q A σ} {q : Q} {k : A q → Dialog Q A R} {s s' : σ} {a : A q}
    (h : peer s q = (some a, s')) : (ask q k).run peer s =
      ⟨⟨q, some a⟩ :: ((k a).run peer s').history, ((k a).run peer s').result, ((k a).run peer s').state⟩ := by
  rw [run, h]

theorem run_ask_none {peer : Peer Q A σ} {q : Q} {k : A q → Dialog Q A R} {s s' : σ} (h : peer s q = (none, s')) :
    (ask q k).run peer s = ⟨[⟨q, none⟩], none, s'⟩ := by
  rw [run, h]

/-! ## A rule for all peers -/

/-- The questions of a history that were answered, with their answers. -/
def answered (history : List ((q : Q) × Option (A q))) : List ((q : Q) × A q) :=
  history.filterMap fun x => x.2.map (Sigma.mk x.1)

@[simp] theorem answered_nil : answered ([] : List ((q : Q) × Option (A q))) = [] := rfl

@[simp] theorem answered_cons_some (q : Q) (a : A q) (history : List ((q : Q) × Option (A q))) :
    answered (⟨q, some a⟩ :: history) = ⟨q, a⟩ :: answered history := rfl

@[simp] theorem answered_cons_none (q : Q) (history : List ((q : Q) × Option (A q))) :
    answered (⟨q, none⟩ :: history) = answered history := rfl

/-- The dialog asks at most so many questions; each of them is allowed by `P` after the answers so far, and the result is
allowed by `S` after all answers. -/
inductive Complies (P : List ((q : Q) × A q) → Q → Prop) (S : List ((q : Q) × A q) → R → Prop) :
    ℕ → List ((q : Q) × A q) → Dialog Q A R → Prop
  | done {n : ℕ} {past : List ((q : Q) × A q)} {r : R} (h : S past r) : Complies P S n past (done r)
  | ask {n : ℕ} {past : List ((q : Q) × A q)} {q : Q} {k : A q → Dialog Q A R} (hq : P past q)
      (hk : ∀ a, Complies P S n (past ++ [⟨q, a⟩]) (k a)) : Complies P S (n + 1) past (ask q k)

/-- Every question of a history is allowed after the answers before it. -/
def AllowedBy (P : List ((q : Q) × A q) → Q → Prop) (past : List ((q : Q) × A q))
    (history : List ((q : Q) × Option (A q))) : Prop :=
  ∀ h x h', history = h ++ x :: h' → P (past ++ answered h) x.1

theorem AllowedBy.nil {P : List ((q : Q) × A q) → Q → Prop} {past : List ((q : Q) × A q)} : AllowedBy P past [] := by
  intro h x h' heq
  exact absurd heq.symm (by simp)

theorem AllowedBy.cons {P : List ((q : Q) × A q) → Q → Prop} {past : List ((q : Q) × A q)}
    {x : (q : Q) × Option (A q)} {history : List ((q : Q) × Option (A q))} (hx : P past x.1)
    (hrest : AllowedBy P (past ++ answered [x]) history) : AllowedBy P past (x :: history) := by
  intro h y h' heq
  cases h with
  | nil =>
    obtain ⟨rfl, -⟩ := List.cons.inj heq
    simpa using hx
  | cons z h =>
    obtain ⟨rfl, hhistory⟩ := List.cons.inj heq
    have hpast : past ++ answered (x :: h) = past ++ answered [x] ++ answered h := by
      obtain ⟨q, _ | a⟩ := x <;> simp
    rw [hpast]
    exact hrest h y h' hhistory

/-- What every run of such a dialog is like. -/
theorem Complies.run {P : List ((q : Q) × A q) → Q → Prop} {S : List ((q : Q) × A q) → R → Prop} {n : ℕ}
    {past : List ((q : Q) × A q)} {d : Dialog Q A R} (h : Complies P S n past d) (peer : Peer Q A σ) (s : σ) :
    (d.run peer s).history.length ≤ n ∧ AllowedBy P past (d.run peer s).history ∧
      ∀ r ∈ (d.run peer s).result, S (past ++ answered (d.run peer s).history) r := by
  induction h generalizing s with
  | done h =>
    refine ⟨Nat.zero_le _, .nil, fun r hr => ?_⟩
    rw [← Option.some.inj hr]
    simpa using h
  | @ask n past q k hq _ ih =>
    cases hp : peer s q with
    | mk answer s' =>
      cases answer with
      | none =>
        rw [run_ask_none hp]
        exact ⟨Nat.succ_le_succ (Nat.zero_le n), .cons hq .nil, fun r hr => by cases hr⟩
      | some a =>
        rw [run_ask_some hp]
        obtain ⟨hlen, hall, hresult⟩ := ih a s'
        refine ⟨Nat.succ_le_succ hlen, .cons hq hall, fun r hr => ?_⟩
        simpa using hresult r hr

/-! ## Peers that behave in the same way -/

/-- Two peers give the same answers from related states, and stay in related states. -/
def Simulates (Rel : σ → τ → Prop) (peer₁ : Peer Q A σ) (peer₂ : Peer Q A τ) : Prop :=
  ∀ s t q, Rel s t → (peer₁ s q).1 = (peer₂ t q).1 ∧ Rel (peer₁ s q).2 (peer₂ t q).2

theorem run_simulates {Rel : σ → τ → Prop} {peer₁ : Peer Q A σ} {peer₂ : Peer Q A τ}
    (h : Simulates Rel peer₁ peer₂) (d : Dialog Q A R) {s : σ} {t : τ} (hst : Rel s t) :
    (d.run peer₁ s).history = (d.run peer₂ t).history ∧ (d.run peer₁ s).result = (d.run peer₂ t).result ∧
      Rel (d.run peer₁ s).state (d.run peer₂ t).state := by
  induction d generalizing s t with
  | done r => exact ⟨rfl, rfl, hst⟩
  | ask q k ih =>
    obtain ⟨hanswer, hstate⟩ := h s t q hst
    cases h1 : peer₁ s q with
    | mk answer s' =>
      cases h2 : peer₂ t q with
      | mk answer' t' =>
        rw [h1, h2] at hanswer hstate
        obtain rfl : answer = answer' := hanswer
        cases answer with
        | none =>
          rw [run_ask_none h1, run_ask_none h2]
          exact ⟨rfl, rfl, hstate⟩
        | some a =>
          rw [run_ask_some h1, run_ask_some h2]
          obtain ⟨hhistory, hresult, hfinal⟩ := ih a hstate
          exact ⟨congrArg _ hhistory, hresult, hfinal⟩

end Dialog
