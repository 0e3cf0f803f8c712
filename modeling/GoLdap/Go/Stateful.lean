import GoLdap.Go.Error

/-!
# Go.Stateful — calls that write to a variable

A Go function that is given a pointer can write to what it points to and still fail.  `Stateful σ ε α` is such a call: from
what the variable holds it gives how the call ends and what the variable holds then, also after an error or a panic.

* `run_modify_bind`, `run_lift_bind`, `run_failIf_bind_pos`, `run_failIf_bind_neg`: a call is run statement by statement.
* `Fails`, `Keeps`, `Sets`: calls that do not succeed, succeed and write nothing, or overwrite the variable, whatever it
  held.
* `fails_or_appends`, `fails_or_grows`: a loop that appends to the variable fails always, or always appends the same.
-/

namespace Go

/-- A call that writes to a variable of type `σ`. -/
structure Stateful (σ ε α : Type) where
  run : σ → Outcome ε α × σ

namespace Stateful

variable {σ ε α β : Type}

/-- Sequencing: errors and panics end the call, and what was written stays. -/
def bind (x : Stateful σ ε α) (f : α → Stateful σ ε β) : Stateful σ ε β where
  run s :=
    match x.run s with
    | (.ok a, t) => (f a).run t
    | (.err e, t) => (.err e, t)
    | (.panic, t) => (.panic, t)

instance : Monad (Stateful σ ε) where
  pure a := ⟨fun s => (.ok a, s)⟩
  bind := bind

/-- What the variable holds. -/
def get : Stateful σ ε σ := ⟨fun s => (.ok s, s)⟩

/-- An assignment. -/
def modify (f : σ → σ) : Stateful σ ε Unit := ⟨fun s => (.ok (), f s)⟩

/-- A call that does not write to the variable. -/
def lift (x : Outcome ε α) : Stateful σ ε α := ⟨fun s => (x, s)⟩

/-- `return err`. -/
def fail (e : ε) : Stateful σ ε α := lift (.err e)

/-- `if c { return err }`. -/
def failIf (c : Prop) [Decidable c] (e : ε) : Stateful σ ε Unit := if c then fail e else pure ()

/-! ## Statement by statement -/

theorem run_modify (f : σ → σ) (s : σ) : (modify f : Stateful σ ε Unit).run s = (.ok (), f s) := rfl

theorem run_lift (x : Outcome ε α) (s : σ) : (lift x : Stateful σ ε α).run s = (x, s) := rfl

theorem run_bind_ok {x : Stateful σ ε α} {a : α} {s t : σ} (h : x.run s = (.ok a, t)) (f : α → Stateful σ ε β) :
    (x >>= f).run s = (f a).run t := by
  show (bind x f).run s = _
  simp only [bind, h]

/-- A sequence succeeds if both of its parts do. -/
theorem run_bind_eq_ok {x : Stateful σ ε α} {f : α → Stateful σ ε β} {b : β} {s t : σ} :
    (x >>= f).run s = (.ok b, t) ↔ ∃ a u, x.run s = (.ok a, u) ∧ (f a).run u = (.ok b, t) := by
  show (bind x f).run s = _ ↔ _
  rcases h : x.run s with ⟨a | e | _, u⟩ <;> simp [bind, h]

theorem run_lift_bind_eq_ok {x : Outcome ε α} {f : α → Stateful σ ε β} {b : β} {s t : σ} :
    (lift x >>= f).run s = (.ok b, t) ↔ ∃ a, x = .ok a ∧ (f a).run s = (.ok b, t) := by
  simp [run_bind_eq_ok, run_lift]

theorem run_failIf_bind_eq_ok {c : Prop} [Decidable c] {e : ε} {f : Unit → Stateful σ ε β} {b : β} {s t : σ} :
    (failIf c e >>= f).run s = (.ok b, t) ↔ ¬ c ∧ (f ()).run s = (.ok b, t) := by
  by_cases h : c
  · simp [failIf, h, fail, run_lift_bind_eq_ok]
  · simp [failIf, h]
    rfl

theorem run_get_bind (f : σ → Stateful σ ε β) (s : σ) : (get >>= f).run s = (f s).run s := rfl

theorem run_modify_bind (f : σ → σ) (g : Unit → Stateful σ ε β) (s : σ) :
    (modify f >>= g).run s = (g ()).run (f s) := run_bind_ok (run_modify f s) g

theorem run_lift_bind {x : Outcome ε α} {a : α} (h : x = .ok a) (g : α → Stateful σ ε β) (s : σ) :
    (lift x >>= g).run s = (g a).run s := run_bind_ok (h ▸ run_lift x s) g

theorem run_failIf_bind_pos {c : Prop} [Decidable c] (h : c) (e : ε) (g : Unit → Stateful σ ε β) (s : σ) :
    (failIf c e >>= g).run s = (.err e, s) := by
  rw [failIf, if_pos h]
  rfl

theorem run_failIf_bind_neg {c : Prop} [Decidable c] (h : ¬ c) (e : ε) (g : Unit → Stateful σ ε β) (s : σ) :
    (failIf c e >>= g).run s = (g ()).run s := by
  rw [failIf, if_neg h]
  rfl

/-! ## What a call does to the variable -/

section Effect

variable (x : Stateful σ ε Unit)

/-- The call does not succeed, and how it ends does not depend on the variable. -/
def Fails : Prop := ∃ o, o ≠ .ok () ∧ ∀ s, (x.run s).1 = o

/-- The call succeeds and leaves the variable as it was. -/
def Keeps : Prop := ∀ s, x.run s = (.ok (), s)

/-- The call succeeds and leaves a value that does not depend on what the variable held. -/
def Sets : Prop := ∃ t, ∀ s, x.run s = (.ok (), t)

end Effect

theorem Fails.ne_ok {x : Stateful σ ε Unit} (h : x.Fails) (s t : σ) : x.run s ≠ (.ok (), t) := by
  obtain ⟨o, hne, ho⟩ := h
  intro hrun
  rw [← ho s, hrun] at hne
  exact hne rfl

theorem fails_fail (e : ε) : (fail e : Stateful σ ε Unit).Fails := ⟨.err e, by rintro ⟨⟩, fun _ => rfl⟩

theorem fails_panic : (lift .panic : Stateful σ ε Unit).Fails := ⟨.panic, by rintro ⟨⟩, fun _ => rfl⟩

theorem sets_modify (t : σ) : (modify fun _ => t : Stateful σ ε Unit).Sets := ⟨t, fun _ => rfl⟩

/-- `x, err := …; if err != nil { return … }` and then the assignment of `x`. -/
def store {δ : Type} (x : Except δ σ) (e : ε) : Stateful σ ε Unit :=
  match x with
  | .error _ => fail e
  | .ok a => modify fun _ => a

theorem fails_or_sets_store {δ : Type} (x : Except δ σ) (e : ε) :
    (store x e : Stateful σ ε Unit).Fails ∨ (store x e : Stateful σ ε Unit).Sets := by
  cases x with
  | error d => exact .inl (fails_fail e)
  | ok a => exact .inr (sets_modify a)

/-- A loop that appends what each item gives to the variable, up to the first that fails. -/
def appendEach (f : α → Outcome ε β) : List α → Stateful (List β) ε Unit
  | [] => pure ()
  | item :: rest => do
    let b ← lift (f item)
    modify fun l => l ++ [b]
    appendEach f rest

/-- What was appended before the loop failed stays, but whether it fails does not depend on it. -/
theorem fails_or_appends (f : α → Outcome ε β) (items : List α) : (appendEach f items).Fails ∨
    ∃ bs : List β, bs.length = items.length ∧ ∀ s, (appendEach f items).run s = (.ok (), s ++ bs) := by
  induction items with
  | nil =>
    refine .inr ⟨[], rfl, fun s => ?_⟩
    rw [List.append_nil]
    rfl
  | cons item rest ih =>
    rw [appendEach]
    cases hf : f item with
    | err e => exact .inl ⟨.err e, by rintro ⟨⟩, fun s => rfl⟩
    | panic => exact .inl ⟨.panic, by rintro ⟨⟩, fun s => rfl⟩
    | ok b =>
      obtain ⟨o, hne, ho⟩ | ⟨bs, hlen, hbs⟩ := ih
      · refine .inl ⟨o, hne, fun s => ?_⟩
        rw [run_lift_bind rfl, run_modify_bind]
        exact ho _
      · refine .inr ⟨b :: bs, congrArg (· + 1) hlen, fun s => ?_⟩
        rw [run_lift_bind rfl, run_modify_bind, hbs, List.append_assoc, List.singleton_append]

theorem fails_or_grows (f : α → Outcome ε β) (item : α) (rest : List α) : (appendEach f (item :: rest)).Fails ∨
    ∀ s, ∃ t, (appendEach f (item :: rest)).run s = (.ok (), t) ∧ s.length < t.length := by
  refine (fails_or_appends f (item :: rest)).imp_right ?_
  rintro ⟨bs, hlen, hbs⟩ s
  refine ⟨s ++ bs, hbs s, ?_⟩
  rw [List.length_append, hlen, List.length_cons]
  omega

end Stateful

end Go
