import GoLdap.Conn.Clients

/-!
# Conn.Ownership — whose a context is

A client holds the contexts it has not taken off the outstanding requests, each only once; while the connection is not
closing, every such context is held by its client (`Owned`).
-/

namespace GoLdap

namespace Conn

variable {s : Conn} {a : Action}

/-- The context of the exchange a client is in, while it counts as outstanding. -/
def current : ClientPc → List ℕ
  | .admitted c | .active c | .receiving c | .offering c | .tlsGot c _ | .closing (some c) => [c]
  | .finishing c .closeDone | .finishing c .check | .finishing c .decrement => [c]
  | _ => []

/-- The contexts a client has still to take off the outstanding requests. -/
def holds (cl : Client) : List ℕ := current cl.pc ++ cl.stack

@[simp] theorem holds_return (cl : Client) : holds cl.return = cl.stack := by
  obtain ⟨pc, _ | ⟨c, rest⟩, b⟩ := cl <;> rfl

@[simp] theorem holds_mk (pc : ClientPc) (stack : List ℕ) (b : Bool) : holds ⟨pc, stack, b⟩ = current pc ++ stack := rfl

theorem holds_of_pc {cl : Client} {pc : ClientPc} (h : cl.pc = pc) : holds cl = current pc ++ cl.stack := by
  rw [holds, h]

/-- The steps that take a context off a client without finishing it, when the connection is closing. -/
def Drops (i c : ℕ) (a : Action) : Prop := a = .checkFinishClosing i c ∨ a = .refuse (.request i c)

/-- All that a step can do to the contexts a client holds. -/
inductive HoldsStep (s : Conn) (i : ℕ) : Action → List ℕ → Prop
  | same {a : Action} (ha : ∀ c, a ≠ .decrement i c) : HoldsStep s i a (holds (s.clients i))
  | admitSend {n : Option ℕ} : HoldsStep s i (.admitSend i n) (s.created :: holds (s.clients i))
  | finish {c : ℕ} {l : List ℕ} (h : holds (s.clients i) = c :: l) : HoldsStep s i (.decrement i c) l
  | drop {a : Action} {c : ℕ} {l : List ℕ} (h : holds (s.clients i) = c :: l) (ha : Drops i c a)
      (hc : s.closing = true) : HoldsStep s i a l

theorem holds_next (hm : s.MutexOk) (he : s.Enabled a) (i : ℕ) : HoldsStep s i a (holds ((s.next a).clients i)) := by
  have hstep := clients_next hm he i
  generalize (s.next a).clients i = cl at hstep
  have hsame : (∀ c, a ≠ .decrement i c) → ∀ {l : List ℕ}, l = holds (s.clients i) → HoldsStep s i a l := by
    rintro ha l rfl
    exact .same ha
  cases hstep with
  | same hi =>
    refine .same ?_
    rintro c rfl
    exact hi rfl
  | begun ha hpc => exact hsame (by rcases ha with rfl | rfl <;> simp) (by simp [holds_of_pc hpc, current])
  | nested hpc => exact hsame (by simp) (by simp [holds_of_pc hpc, current])
  | moved hpc hmove =>
    have hh := holds_of_pc hpc
    cases hmove with
    | @admitSend n =>
      have h := HoldsStep.admitSend (s := s) (i := i) (n := n)
      rwa [hh] at h
    | decrement => exact .finish hh
    | _ => exact hsame (by simp) hh.symm
  | returned hpc hret =>
    have hh := holds_of_pc hpc
    rw [holds_return]
    cases hret with
    | requestRefused => exact .drop hh (Or.inr rfl) he.2.2
    | finishClosing => exact .drop hh (Or.inl rfl) he.2
    | _ => exact hsame (by simp) hh.symm

structure Owned (s : Conn) : Prop where
  /-- There are no contexts beyond those created. -/
  fresh : ∀ c, s.created ≤ c → (s.contexts c).finished = true
  /-- A client between operations, or in a `Close` of its own, has no exchange open. -/
  idle : ∀ i, (s.clients i).pc = .idle ∨ (s.clients i).pc = .closing none → (s.clients i).stack = []
  /-- What a client holds is its own, unfinished and of the kind of its operation. -/
  held : ∀ i, ∀ c ∈ holds (s.clients i), c < s.created ∧ (s.contexts c).owner = i ∧
    (s.contexts c).finished = false ∧ (s.contexts c).startTLS = (s.clients i).startTLS
  nodup : ∀ i, (holds (s.clients i)).Nodup
  /-- Until the connection is closing, an unfinished context is held. -/
  holder : s.closing = false → ∀ c, (s.contexts c).finished = false → c ∈ holds (s.clients (s.contexts c).owner)

theorem owned_start (b : Bool) : (start b).Owned where
  fresh _ _ := rfl
  idle _ _ := rfl
  held _ _ h := by simp [start, holds, current] at h
  nodup _ := List.nodup_nil
  holder _ _ h := by cases h

theorem created_next (s : Conn) (a : Action) :
    ((s.next a).created = s.created ∧ ∀ i n, a ≠ .admitSend i n) ∨
    ∃ i n, a = .admitSend i n ∧ (s.next a).created = s.created + 1 := by
  rcases ledger_next (s := s) (a := a) with ⟨i, n, rfl, hc, -⟩ | ⟨i, c, rfl, hc, -⟩ | ⟨hn, -, hc, -⟩
  · exact Or.inr ⟨i, n, rfl, hc⟩
  · exact Or.inl ⟨hc, by simp⟩
  · exact Or.inl ⟨hc, hn⟩

theorem Owned.idle_next (h : s.Owned) (hm : s.MutexOk) (he : s.Enabled a) (i : ℕ)
    (hpc : ((s.next a).clients i).pc = .idle ∨ ((s.next a).clients i).pc = .closing none) :
    ((s.next a).clients i).stack = [] := by
  have hstep := clients_next hm he i
  generalize (s.next a).clients i = cl at hstep hpc ⊢
  cases hstep with
  | same => exact h.idle i hpc
  | begun | nested => simp at hpc
  | moved hold hmove =>
    cases hmove with
    | beginClose => exact h.idle i (Or.inl hold)
    | _ => simp at hpc
  | returned =>
    unfold Client.return at hpc ⊢
    cases hst : (s.clients i).stack with
    | nil => rfl
    | cons c rest => simp [hst] at hpc

/-- The kind of an operation does not change while it holds contexts. -/
theorem Owned.startTLS_next (h : s.Owned) (hm : s.MutexOk) (he : s.Enabled a) {i c : ℕ}
    (hc : c ∈ holds ((s.next a).clients i)) : ((s.next a).clients i).startTLS = (s.clients i).startTLS := by
  have hstep := clients_next hm he i
  generalize (s.next a).clients i = cl at hstep hc ⊢
  cases hstep with
  | returned =>
    rw [holds_return] at hc
    unfold Client.return
    cases hst : (s.clients i).stack with
    | nil => simp [hst] at hc
    | cons d rest => rfl
  | begun _ hpc =>
    rw [holds_mk, h.idle i (Or.inl hpc)] at hc
    simp [current] at hc
  | _ => rfl

/-- A step leaves an unfinished context of a client alone, unless it finishes it. -/
theorem Owned.held_context (h : s.Owned) (he : s.Enabled a) {i c : ℕ} (hc : c ∈ holds (s.clients i))
    (ha : a ≠ .decrement i c) : c < (s.next a).created ∧ ((s.next a).contexts c).owner = i ∧
      ((s.next a).contexts c).finished = false ∧ ((s.next a).contexts c).startTLS = (s.clients i).startTLS := by
  obtain ⟨hlt, howner, hfin, htls⟩ := h.held i c hc
  obtain ⟨ho, -, ht⟩ := context_static s a (Nat.ne_of_lt hlt)
  refine ⟨?_, ho.trans howner, ?_, ht.trans htls⟩
  · rcases created_next s a with ⟨hn, -⟩ | ⟨-, -, -, hn⟩ <;> omega
  · rcases context_finished s a (Nat.ne_of_lt hlt) with hf | ⟨⟨k, rfl⟩, -⟩
    · exact hf.trans hfin
    · -- the step finishes the context, so it is its client that takes it
      have hk : c ∈ holds (s.clients k) := by simp [holds_of_pc he.1, current]
      have hik : i = k := howner.symm.trans (h.held k c hk).2.1
      exact absurd (by rw [hik]) ha

theorem Owned.held_next (h : s.Owned) (hm : s.MutexOk) (he : s.Enabled a) (i c : ℕ)
    (hc : c ∈ holds ((s.next a).clients i)) :
    c < (s.next a).created ∧ ((s.next a).contexts c).owner = i ∧ ((s.next a).contexts c).finished = false ∧
      ((s.next a).contexts c).startTLS = ((s.next a).clients i).startTLS := by
  rw [h.startTLS_next hm he hc]
  have hstep := holds_next hm he i
  have hnd := h.nodup i
  generalize holds ((s.next a).clients i) = l at hstep hc
  cases hstep with
  | same ha => exact h.held_context he hc (ha c)
  | admitSend =>
    rcases List.mem_cons.mp hc with rfl | hc
    · simp [next]
    · exact h.held_context he hc (by simp)
  | finish hl =>
    rw [hl, List.nodup_cons] at hnd
    refine h.held_context he (by rw [hl]; exact List.mem_cons_of_mem _ hc) ?_
    intro heq
    cases heq
    exact hnd.1 hc
  | drop hl ha =>
    refine h.held_context he (by rw [hl]; exact List.mem_cons_of_mem _ hc) ?_
    rintro rfl
    rcases ha with ha | ha <;> cases ha

theorem Owned.nodup_next (h : s.Owned) (hm : s.MutexOk) (he : s.Enabled a) (i : ℕ) :
    (holds ((s.next a).clients i)).Nodup := by
  have hstep := holds_next hm he i
  have hnd := h.nodup i
  generalize holds ((s.next a).clients i) = l at hstep
  cases hstep with
  | same => exact hnd
  | admitSend => exact List.nodup_cons.mpr ⟨fun hc => Nat.lt_irrefl _ (h.held i _ hc).1, hnd⟩
  | finish hl | drop hl =>
    rw [hl, List.nodup_cons] at hnd
    exact hnd.2

theorem Owned.holder_next (h : s.Owned) (hm : s.MutexOk) (he : s.Enabled a) (hcl : (s.next a).closing = false) (c : ℕ)
    (hc : ((s.next a).contexts c).finished = false) :
    c ∈ holds ((s.next a).clients ((s.next a).contexts c).owner) := by
  have hopen : s.closing = false := by
    by_contra hne
    rw [closing_next.mpr (Or.inl (by simpa using hne))] at hcl
    cases hcl
  by_cases hnew : c = s.created
  · -- only an admission makes this context unfinished
    rcases created_next s a with ⟨-, hn⟩ | ⟨i, n, rfl, -⟩
    · exfalso
      have hctx := contexts_next s a c
      generalize (s.next a).contexts c = m at hctx hc
      have hfin := h.fresh c (Nat.le_of_eq hnew.symm)
      cases hctx with
      | admitSend => exact hn _ _ rfl
      | finished => cases hc
      | _ => exact absurd (hfin.symm.trans hc) (by simp)
    · subst hnew
      simp [next, holds, current]
  · obtain ⟨howner, -⟩ := context_static s a hnew
    rw [howner]
    have hfin : (s.contexts c).finished = false := by
      rcases context_finished s a hnew with hf | ⟨-, hf⟩
      · exact hf.symm.trans hc
      · rw [hf] at hc
        cases hc
    have hmem := h.holder hopen c hfin
    have hstep := holds_next hm he (s.contexts c).owner
    generalize holds ((s.next a).clients (s.contexts c).owner) = l at hstep
    cases hstep with
    | same => exact hmem
    | admitSend => exact List.mem_cons_of_mem _ hmem
    | finish hl =>
      rw [hl] at hmem
      rcases List.mem_cons.mp hmem with rfl | hmem
      · simp [next] at hc
      · exact hmem
    | drop _ _ hclosing =>
      rw [hopen] at hclosing
      cases hclosing

theorem owned_next (h : s.Owned) (hm : s.MutexOk) (he : s.Enabled a) : (s.next a).Owned where
  fresh c hc := by
    have hle : s.created ≤ c := by
      rcases created_next s a with ⟨hn, -⟩ | ⟨-, -, -, hn⟩ <;> omega
    have hctx := contexts_next s a c
    generalize hctx' : (s.next a).contexts c = m at hctx
    cases hctx with
    | admitSend hnew =>
      simp only [next] at hc
      omega
    | finished => rfl
    | _ => exact h.fresh c hle
  idle := h.idle_next hm he
  held := h.held_next hm he
  nodup := h.nodup_next hm he
  holder := h.holder_next hm he

theorem owned_of_reachable {b : Bool} (h : (machine b).Reachable s) : s.Owned :=
  h.invariant_of (fun _ => mutexOk_of_reachable) (owned_start b) fun _ _ hm ho he _ => owned_next ho hm he

theorem Owned.owner_unique (h : s.Owned) {i j c : ℕ} (hi : c ∈ holds (s.clients i)) (hj : c ∈ holds (s.clients j)) :
    i = j :=
  (h.held i c hi).2.1.symm.trans (h.held j c hj).2.1

/-! ## Open exchanges -/

/-- The context of the exchange a client is in, before it closes the `done` channel. -/
def openContext : ClientPc → List ℕ
  | .admitted c | .active c | .receiving c | .offering c | .tlsGot c _ | .closing (some c) | .finishing c .closeDone => [c]
  | _ => []

/-- The contexts whose `done` channel a client has still to close. -/
def pending (cl : Client) : List ℕ := openContext cl.pc ++ cl.stack

theorem mem_pending_of_pc {cl : Client} {pc : ClientPc} {c : ℕ} (h : cl.pc = pc) (hc : c ∈ openContext pc) :
    c ∈ pending cl := by
  rw [pending, h]
  exact List.mem_append_left _ hc

theorem openContext_subset (pc : ClientPc) : openContext pc ⊆ current pc := by
  unfold openContext
  split <;> simp [current]

theorem mem_holds_of_pending {cl : Client} {c : ℕ} (h : c ∈ pending cl) : c ∈ holds cl := by
  rcases List.mem_append.mp h with h | h
  · exact List.mem_append_left _ (openContext_subset _ h)
  · exact List.mem_append_right _ h

theorem pending_return (cl : Client) : pending cl.return = cl.stack := by
  obtain ⟨pc, _ | ⟨c, rest⟩, b⟩ := cl <;> rfl

/-- The open contexts of a client after a step were open before, or the step made them. -/
theorem pending_next (ho : s.Owned) (hm : s.MutexOk) (he : s.Enabled a) {i c : ℕ}
    (hc : c ∈ pending ((s.next a).clients i)) :
    c ∈ pending (s.clients i) ∧ a ≠ .closeDone i c ∨ ∃ n, a = .admitSend i n ∧ c = s.created := by
  have hstep := clients_next hm he i
  generalize (s.next a).clients i = cl at hstep hc
  have hkeep : ∀ {pc : ClientPc}, (s.clients i).pc = pc → c ∈ openContext pc ++ (s.clients i).stack →
      c ∈ pending (s.clients i) := by
    intro pc hpc h
    rw [pending, hpc]
    exact h
  cases hstep with
  | same hi =>
    refine Or.inl ⟨hc, ?_⟩
    rintro rfl
    exact hi rfl
  | begun ha hpc => exact Or.inl ⟨hkeep hpc hc, by rcases ha with rfl | rfl <;> simp⟩
  | nested hpc => exact Or.inl ⟨hkeep hpc hc, by simp⟩
  | moved hpc hmove =>
    cases hmove with
    | @admitSend n =>
      rcases List.mem_append.mp hc with h | h
      · exact Or.inr ⟨n, rfl, List.mem_singleton.mp h⟩
      · exact Or.inl ⟨List.mem_append_right _ h, by simp⟩
    | @closeDone d =>
      -- the context closed here is not also on the stack
      refine Or.inl ⟨List.mem_append_right _ hc, fun heq => ?_⟩
      obtain ⟨-, rfl⟩ := Action.closeDone.inj heq
      have hnd := ho.nodup i
      rw [holds_of_pc hpc] at hnd
      exact (List.nodup_cons.mp hnd).1 hc
    | _ => exact Or.inl ⟨hkeep hpc hc, by simp⟩
  | returned hpc hret =>
    rw [pending_return] at hc
    refine Or.inl ⟨List.mem_append_right _ hc, ?_⟩
    cases hret <;> simp

/-- What is known of a context while its client has not closed its `done` channel, or is still in `sendMessage`. -/
structure OpenOk (s : Conn) : Prop where
  undone : ∀ i, ∀ c ∈ pending (s.clients i), (s.contexts c).done = false
  admitted : ∀ i c, (s.clients i).pc = .admitted c → (s.contexts c).stage = .admitted

theorem openOk_start (b : Bool) : (start b).OpenOk where
  undone _ _ h := by cases h
  admitted _ _ h := by cases h

theorem openOk_next (h : s.OpenOk) (ho : s.Owned) (hm : s.MutexOk) (he : s.Enabled a) : (s.next a).OpenOk where
  undone i c hc := by
    rcases pending_next ho hm he hc with ⟨hold, hne⟩ | ⟨n, rfl, rfl⟩
    · have hheld := mem_holds_of_pending hold
      rcases context_done s a (Nat.ne_of_lt (ho.held i c hheld).1) with hsame | ⟨j, rfl⟩
      · rw [hsame]
        exact h.undone i c hold
      · -- only its own client closes the channel
        have hj : c ∈ holds (s.clients j) := by simp [holds_of_pc he, current]
        obtain rfl := ho.owner_unique hheld hj
        exact absurd rfl hne
    · simp [next]
  admitted i c hpc := by
    have hstep := clients_next hm he i
    generalize (s.next a).clients i = cl at hstep hpc
    cases hstep with
    | same hi =>
      have hheld : c ∈ holds (s.clients i) := by simp [holds_of_pc hpc, current]
      have hst := h.admitted i c hpc
      rcases context_stage s a (Nat.ne_of_lt (ho.held i c hheld).1) with hsame | ⟨⟨j, rfl⟩, -⟩ | ⟨⟨j, rfl⟩, -⟩
      · rw [hsame, hst]
      · have hj : c ∈ holds (s.clients j) := by simp [holds_of_pc (hm.holder _ he.1).1, current]
        obtain rfl := ho.owner_unique hheld hj
        exact absurd rfl hi
      · have hj : c ∈ holds (s.clients j) := by simp [holds_of_pc he.1, current]
        obtain rfl := ho.owner_unique hheld hj
        exact absurd rfl hi
    | begun | nested => cases hpc
    | moved _ hmove =>
      cases hmove with
      | admitSend =>
        cases hpc
        simp [next]
      | _ => cases hpc
    | returned =>
      rcases return_pc (s.clients i) with h | ⟨d, h⟩ <;> rw [h] at hpc <;> cases hpc

theorem openOk_of_reachable {b : Bool} (h : (machine b).Reachable s) : s.OpenOk := by
  refine h.invariant_of (Q := fun s => s.Owned ∧ s.MutexOk) ?_ (openOk_start b) ?_
  · exact fun s hs => ⟨owned_of_reachable hs, mutexOk_of_reachable hs⟩
  · exact fun s a hq hs he _ => openOk_next hs hq.1 hq.2 he

end Conn

end GoLdap
