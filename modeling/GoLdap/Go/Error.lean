import GoLdap.Go.Bytes

/-!
# Go.Error — error values and panics

An error is modelled by the constant text of its message and the bytes or the number that are formatted into it.  Code
that can fail returns `Except`; code that can also panic (an index out of range, a failed type assertion, a nil
dereference) returns an `Outcome`.
-/

namespace Go

/-- An `error`: the constant text of the message and the data formatted into it. -/
structure Error where
  text : String
  arg : GoString
  num : ℕ
  deriving DecidableEq, Repr

/-- `errors.New`. -/
def Error.new (text : String) : Error := ⟨text, [], 0⟩

/-- `fmt.Errorf` with a string argument. -/
def Error.fmt (text : String) (arg : GoString) : Error := ⟨text, arg, 0⟩

/-- `fmt.Errorf` with a number. -/
def Error.fmtNum (text : String) (n : ℕ) : Error := ⟨text, [], n⟩

/-- `fmt.Errorf` with a string argument and a number. -/
def Error.fmtAt (text : String) (arg : GoString) (n : ℕ) : Error := ⟨text, arg, n⟩

@[simp] theorem except_ok_bind {ε α β : Type} (a : α) (f : α → Except ε β) : ((Except.ok a : Except ε α) >>= f) = f a :=
  rfl

theorem except_map_eq_ok {ε α β : Type} {f : α → β} {x : Except ε α} {b : β} :
    f <$> x = Except.ok b ↔ ∃ a, x = .ok a ∧ f a = b := by
  cases x <;> simp [Functor.map, Except.map]

theorem except_bind_eq_ok {ε α β : Type} {x : Except ε α} {f : α → Except ε β} {b : β} :
    (x >>= f) = .ok b ↔ ∃ a, x = .ok a ∧ f a = .ok b := by
  cases x <;> simp [bind, Except.bind]

/-- What a Go call can do: return a value, return an error, or panic. -/
inductive Outcome (ε α : Type) where
  | ok (a : α)
  | err (e : ε)
  | panic
  deriving DecidableEq, Repr

namespace Outcome

variable {ε α β : Type}

/-- Sequencing: errors and panics end the call. -/
def bind : Outcome ε α → (α → Outcome ε β) → Outcome ε β
  | ok a, f => f a
  | err e, _ => err e
  | panic, _ => panic

instance : Monad (Outcome ε) where
  pure := ok
  bind := bind

@[simp] theorem ok_bind (a : α) (f : α → Outcome ε β) : (ok a >>= f) = f a := rfl
@[simp] theorem err_bind (e : ε) (f : α → Outcome ε β) : ((err e : Outcome ε α) >>= f) = err e := rfl
@[simp] theorem panic_bind (f : α → Outcome ε β) : ((panic : Outcome ε α) >>= f) = panic := rfl
@[simp] theorem map_ok (f : α → β) (a : α) : f <$> (ok a : Outcome ε α) = ok (f a) := rfl
@[simp] theorem pure_eq (a : α) : (pure a : Outcome ε α) = ok a := rfl

theorem bind_eq_ok {x : Outcome ε α} {f : α → Outcome ε β} {b : β} :
    (x >>= f) = ok b ↔ ∃ a, x = ok a ∧ f a = ok b := by
  cases x <;> simp

theorem map_eq_panic (f : α → β) (x : Outcome ε α) : f <$> x = panic ↔ x = panic := by
  cases x <;> simp [Functor.map, Outcome.bind]

/-- What holds of the value, if the call returns one. -/
def Ensures (P : α → Prop) : Outcome ε α → Prop
  | ok a => P a
  | _ => True

theorem Ensures.mono {P Q : α → Prop} {x : Outcome ε α} (hx : x.Ensures P) (h : ∀ a, P a → Q a) : x.Ensures Q := by
  cases x with
  | ok a => exact h a hx
  | err e => trivial
  | panic => trivial

theorem Ensures.bind {P : β → Prop} {x : Outcome ε α} {f : α → Outcome ε β} (hf : ∀ a, (f a).Ensures P) :
    (x >>= f).Ensures P := by
  cases x with
  | ok a => exact hf a
  | err e => trivial
  | panic => trivial

theorem Ensures.map {P : β → Prop} {x : Outcome ε α} {f : α → β} (hf : ∀ a, P (f a)) : (f <$> x).Ensures P := by
  cases x with
  | ok a => exact hf a
  | err e => trivial
  | panic => trivial

def ofExcept : Except ε α → Outcome ε α
  | .ok a => ok a
  | .error e => err e

theorem ofExcept_eq_ok {x : Except ε α} {a : α} : ofExcept x = ok a ↔ x = .ok a := by
  cases x <;> simp [ofExcept]

/-- The result of a call that returned one. -/
def toOption : Outcome ε α → Option α
  | ok a => some a
  | _ => none

/-- The element at an index, or the run-time panic. -/
def index (l : List α) (i : ℕ) : Outcome ε α :=
  match l[i]? with
  | some a => ok a
  | none => panic

/-- `l[low:high]`, or the run-time panic.  Go takes a slice up to the capacity of its operand; here the length is the
limit, so that a slice that is taken is one of the elements of `l` only. -/
def slice (l : List α) (low high : ℕ) : Outcome ε (List α) :=
  if low ≤ high ∧ high ≤ l.length then ok ((l.take high).drop low) else panic

theorem slice_of_le {l : List α} {low high : ℕ} (h : low ≤ high) (hlen : high ≤ l.length) :
    (slice l low high : Outcome ε (List α)) = ok ((l.take high).drop low) := if_pos ⟨h, hlen⟩

theorem index_of_lt {l : List α} {i : ℕ} {a : α} (h : l[i]? = some a) : (index l i : Outcome ε α) = ok a := by
  rw [index, h]

/-- A loop panics at an element no earlier element has stopped it before.  Whether an element stops the loop must not
depend on what was accumulated. -/
theorem foldlM_eq_panic {f : α → β → Outcome ε α} {Panics Fails : β → Prop}
    (hpanic : ∀ a x, f a x = .panic ↔ Panics x) (hfail : ∀ a x, (∃ e, f a x = .err e) ↔ Fails x) (l : List β) (a : α) :
    l.foldlM f a = .panic ↔ ∃ pre x post, l = pre ++ x :: post ∧ Panics x ∧ ∀ y ∈ pre, ¬ Fails y := by
  induction l generalizing a with
  | nil => simp
  | cons x l ih =>
    rw [List.foldlM_cons]
    cases h : f a x with
    | ok b =>
      have hp : ¬ Panics x := fun hp => by simp [(hpanic a x).mpr hp] at h
      have hf : ¬ Fails x := fun hf => by
        obtain ⟨e, he⟩ := (hfail a x).mpr hf
        rw [he] at h
        cases h
      rw [Outcome.ok_bind, ih]
      constructor
      · rintro ⟨pre, y, post, rfl, hy, hpre⟩
        refine ⟨x :: pre, y, post, rfl, hy, ?_⟩
        rintro z (_ | ⟨_, hz⟩)
        · exact hf
        · exact hpre z hz
      · rintro ⟨_ | ⟨z, pre⟩, y, post, heq, hy, hpre⟩
        · obtain ⟨rfl, rfl⟩ := List.cons.inj heq
          exact absurd hy hp
        · obtain ⟨rfl, rfl⟩ := List.cons.inj heq
          exact ⟨pre, y, post, rfl, hy, fun w hw => hpre w (List.mem_cons_of_mem _ hw)⟩
    | err e =>
      have hp : ¬ Panics x := fun hp => by simp [(hpanic a x).mpr hp] at h
      have hf : Fails x := (hfail a x).mp ⟨e, h⟩
      rw [Outcome.err_bind]
      refine iff_of_false nofun ?_
      rintro ⟨_ | ⟨z, pre⟩, y, post, heq, hy, hpre⟩
      · obtain ⟨rfl, rfl⟩ := List.cons.inj heq
        exact hp hy
      · obtain ⟨rfl, rfl⟩ := List.cons.inj heq
        exact hpre _ List.mem_cons_self hf
    | panic =>
      rw [Outcome.panic_bind]
      exact iff_of_true rfl ⟨[], x, l, rfl, (hpanic a x).mp h, nofun⟩

end Outcome

end Go
