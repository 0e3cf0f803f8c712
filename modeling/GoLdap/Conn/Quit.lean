import GoLdap.Conn.Ownership

/-!
# Conn.Quit — the quit message

The first `Close` puts one quit message into `chanMessage`, and nothing comes after it: every other sender looks at
`closing` under the mutex.  So `processMessages` takes it when the queue is otherwise empty, and `chanMessage` is closed
once, when no one sends to it any more.
-/

namespace GoLdap

namespace Conn

variable {s : Conn} {a : Action}

/-- `processMessages` has left its loop. -/
def PastQuit : ProcPc → Prop
  | .cleanup | .stopped | .sending _ _ _ .cleanup => True
  | _ => False

@[simp] theorem pastQuit_sending {c : ℕ} {r : Response} {t : Bool} {n : AfterSend} :
    PastQuit (.sending c r t n) ↔ n = .cleanup := by
  cases n <;> simp [PastQuit]

@[simp] theorem pastQuit_procAfter {n : AfterSend} : PastQuit (procAfter n) ↔ n = .cleanup := by
  cases n <;> simp [PastQuit, procAfter]

/-- No `Close` has sent its quit message. -/
def QuitUnsent (s : Conn) : Prop :=
  s.chanMessageCloses = 0 ∧ (s.closing = false ∨ ∃ k, s.messageMutex = some (.quit k))

/-- `Close` has sent its quit message: it waits for the confirmation, or it has closed `chanMessage`. -/
def QuitSent (s : Conn) : Prop :=
  s.closing = true ∧ ((∃ k t, s.messageMutex = some (.confirm k t)) ∧ s.chanMessageCloses = 0 ∨
    s.messageMutex = none ∧ s.chanMessageCloses = 1)

/-- The quit message is not yet sent, in the queue as its last message, or taken off the then empty queue. -/
inductive QuitPhase (s : Conn) : Prop
  | unsent (hs : s.QuitUnsent) (hq : .quit ∉ s.chanMessage) (hp : ¬ PastQuit s.proc)
  | queued {l : List Message} (hs : s.QuitSent) (hq : s.chanMessage = l ++ [.quit]) (hl : .quit ∉ l)
      (hp : ¬ PastQuit s.proc)
  | taken (hs : s.QuitSent) (hq : s.chanMessage = []) (hp : PastQuit s.proc)

theorem QuitSent.next (h : s.QuitSent) (he : s.Enabled a) : (s.next a).QuitSent := by
  obtain ⟨hclosing, hcase⟩ := h
  have hlock := lock_next he
  unfold QuitSent
  generalize (s.next a).closing = b, (s.next a).messageMutex = m, (s.next a).chanMessageCloses = n at hlock
  cases hlock with
  | same => exact ⟨hclosing, hcase⟩
  | enter _ _ hc | closeEnter _ _ hc =>
    rw [hclosing] at hc
    cases hc
  | push hm | closeQuit hm =>
    rcases hcase with ⟨⟨k, t, hk⟩, -⟩ | ⟨hk, -⟩ <;> rw [hm] at hk <;> cases hk
  | closeReturn hm =>
    rcases hcase with ⟨-, hn⟩ | ⟨hk, -⟩
    · exact ⟨hclosing, Or.inr ⟨rfl, by omega⟩⟩
    · rw [hm] at hk
      cases hk

theorem QuitUnsent.next (h : s.QuitUnsent) (hok : s.MutexOk) (he : s.Enabled a) :
    (s.next a).QuitUnsent ∧ (∀ k, a ≠ .closeQuit k) ∨ (s.next a).QuitSent ∧ ∃ k, a = .closeQuit k := by
  obtain ⟨hcloses, hcase⟩ := h
  have hlock := lock_next he
  unfold QuitUnsent QuitSent
  generalize (s.next a).closing = b, (s.next a).messageMutex = m, (s.next a).chanMessageCloses = n at hlock
  cases hlock with
  | same ha =>
    refine Or.inl ⟨⟨hcloses, hcase⟩, ?_⟩
    rintro k rfl
    exact ha trivial
  | enter _ _ hc => exact Or.inl ⟨⟨hcloses, Or.inl hc⟩, by simp⟩
  | push hm => exact Or.inl ⟨⟨hcloses, Or.inl (hok.holder _ hm).2⟩, by simp⟩
  | closeEnter => exact Or.inl ⟨⟨hcloses, Or.inr ⟨_, rfl⟩⟩, by simp⟩
  | closeQuit hm => exact Or.inr ⟨⟨(hok.holder _ hm).2, Or.inl ⟨⟨_, _, rfl⟩, hcloses⟩⟩, _, rfl⟩
  | closeReturn hm =>
    exfalso
    rcases hcase with hc | ⟨k, hk⟩
    · rw [(hok.holder _ hm).2] at hc
      cases hc
    · rw [hm] at hk
      cases hk

theorem message_ne_quit (s : Conn) (x : Sender) : x.message s ≠ .quit := by
  cases x <;> simp [Sender.message]

theorem StartsSend.ne_quit {m : Message} {q : List Message} {c : ℕ} {r : Response} {n : AfterSend}
    (h : StartsSend s a m q c r n) : m ≠ .quit ∧ n ≠ .cleanup := by
  cases h <;> simp

theorem Ignores.ne_quit {m : Message} {q : List Message} (h : Ignores s a m q) : m ≠ .quit := by
  cases h <;> simp

/-- A message taken off a queue that ends in the quit message. -/
theorem eq_append_quit_of_cons {m : Message} {q l : List Message} (h : m :: q = l ++ [.quit]) (hl : .quit ∉ l) :
    m = .quit ∧ q = [] ∨ m ≠ .quit ∧ ∃ l', q = l' ++ [.quit] ∧ .quit ∉ l' := by
  cases l with
  | nil =>
    obtain ⟨rfl, rfl⟩ := List.cons.inj h
    exact Or.inl ⟨rfl, rfl⟩
  | cons m' l' =>
    obtain ⟨rfl, rfl⟩ := List.cons.inj h
    rw [List.mem_cons, not_or] at hl
    exact Or.inr ⟨fun hm => hl.1 hm.symm, l', rfl, hl.2⟩

/-- Before the quit message is sent, the loop goes on and puts no quit message into the queue. -/
theorem loop_next_unsent (he : s.Enabled a) (hs : s.QuitUnsent) (hq : .quit ∉ s.chanMessage)
    (hp : ¬ PastQuit s.proc) (hquit : ∀ k, a ≠ .closeQuit k) :
    .quit ∉ (s.next a).chanMessage ∧ ¬ PastQuit (s.next a).proc := by
  have hstep := loop_next he
  have htail : ∀ {m : Message} {q : List Message}, s.chanMessage = m :: q → .quit ∉ q := by
    intro m q hmq hmem
    rw [hmq] at hq
    exact hq (List.mem_cons_of_mem m hmem)
  generalize (s.next a).chanMessage = q', (s.next a).proc = pc, (s.next a).messageContexts = mc at hstep
  cases hstep with
  | other => exact ⟨hq, hp⟩
  | pushed =>
    refine ⟨?_, hp⟩
    rw [List.mem_append, List.mem_singleton]
    rintro (h | h)
    · exact hq h
    · exact message_ne_quit s _ h.symm
  | quitPushed => exact absurd rfl (hquit _)
  | takeQuit _ hmq =>
    rw [hmq] at hq
    exact absurd List.mem_cons_self hq
  | takeNil _ _ hc =>
    rw [hs.1] at hc
    exact absurd hc (Nat.lt_irrefl 0)
  | takeRequest _ hmq | takeFinish _ hmq => exact ⟨htail hmq, id⟩
  | ignored _ _ hmq => exact ⟨htail hmq, id⟩
  | writeOk | writeFail => exact ⟨hq, id⟩
  | startSend ha _ hmq =>
    rw [pastQuit_sending]
    exact ⟨htail hmq, ha.ne_quit.2⟩
  | endSend _ hpc =>
    rw [hpc, pastQuit_sending] at hp
    rw [pastQuit_procAfter]
    exact ⟨hq, hp⟩
  | cleanupClose hpc | cleanupSend hpc | cleanupEnd hpc =>
    rw [hpc] at hp
    exact absurd trivial hp

theorem QuitSent.not_push (h : s.QuitSent) (x : Sender) : s.messageMutex ≠ some (.push x) := by
  intro hm
  rcases h.2 with ⟨⟨k, t, hk⟩, -⟩ | ⟨hk, -⟩ <;> rw [hm] at hk <;> cases hk

theorem QuitSent.not_quit (h : s.QuitSent) (k : Closer) : s.messageMutex ≠ some (.quit k) := by
  intro hm
  rcases h.2 with ⟨⟨k', t, hk⟩, -⟩ | ⟨hk, -⟩ <;> rw [hm] at hk <;> cases hk

/-- While the quit message is in the queue, the loop goes on until it takes it as the last message. -/
theorem loop_next_queued (he : s.Enabled a) (hs : s.QuitSent) {l : List Message}
    (hq : s.chanMessage = l ++ [.quit]) (hl : .quit ∉ l) (hp : ¬ PastQuit s.proc) :
    (∃ l', (s.next a).chanMessage = l' ++ [.quit] ∧ .quit ∉ l' ∧ ¬ PastQuit (s.next a).proc) ∨
    (s.next a).chanMessage = [] ∧ PastQuit (s.next a).proc := by
  have hstep := loop_next he
  have htail : ∀ {m : Message} {q : List Message}, s.chanMessage = m :: q → m ≠ .quit →
      ∃ l', q = l' ++ [.quit] ∧ .quit ∉ l' := by
    intro m q hmq hne
    rcases eq_append_quit_of_cons (hmq.symm.trans hq) hl with ⟨hm, -⟩ | ⟨-, hex⟩
    · exact absurd hm hne
    · exact hex
  generalize (s.next a).chanMessage = q', (s.next a).proc = pc, (s.next a).messageContexts = mc at hstep
  cases hstep with
  | other => exact Or.inl ⟨l, hq, hl, hp⟩
  | pushed hm => exact absurd hm (hs.not_push _)
  | quitPushed hm => exact absurd hm (hs.not_quit _)
  | takeQuit _ hmq =>
    rcases eq_append_quit_of_cons (hmq.symm.trans hq) hl with ⟨-, rfl⟩ | ⟨hm, -⟩
    · exact Or.inr ⟨rfl, trivial⟩
    · exact absurd rfl hm
  | takeNil _ hmq =>
    rw [hmq] at hq
    simp at hq
  | takeRequest _ hmq | takeFinish _ hmq =>
    obtain ⟨l', hq', hl'⟩ := htail hmq (by simp)
    exact Or.inl ⟨l', hq', hl', id⟩
  | ignored ha _ hmq =>
    obtain ⟨l', hq', hl'⟩ := htail hmq ha.ne_quit
    exact Or.inl ⟨l', hq', hl', id⟩
  | writeOk | writeFail => exact Or.inl ⟨l, hq, hl, id⟩
  | startSend ha _ hmq =>
    obtain ⟨l', hq', hl'⟩ := htail hmq ha.ne_quit.1
    exact Or.inl ⟨l', hq', hl', by rw [pastQuit_sending]; exact ha.ne_quit.2⟩
  | endSend _ hpc =>
    rw [hpc, pastQuit_sending] at hp
    exact Or.inl ⟨l, hq, hl, by rw [pastQuit_procAfter]; exact hp⟩
  | cleanupClose hpc | cleanupSend hpc | cleanupEnd hpc =>
    rw [hpc] at hp
    exact absurd trivial hp

/-- Once the quit message is taken, nothing comes into the queue and the loop is not entered again. -/
theorem loop_next_taken (he : s.Enabled a) (hs : s.QuitSent) (hq : s.chanMessage = []) (hp : PastQuit s.proc) :
    (s.next a).chanMessage = [] ∧ PastQuit (s.next a).proc := by
  have hstep := loop_next he
  have hloop : s.proc ≠ .loop := by
    intro h
    rw [h] at hp
    exact hp
  generalize (s.next a).chanMessage = q', (s.next a).proc = pc, (s.next a).messageContexts = mc at hstep
  cases hstep with
  | other => exact ⟨hq, hp⟩
  | pushed hm => exact absurd hm (hs.not_push _)
  | quitPushed hm => exact absurd hm (hs.not_quit _)
  | takeQuit h | takeNil h | takeRequest h | takeFinish h => exact absurd h hloop
  | startSend _ h | ignored _ h => exact absurd h hloop
  | writeOk hpc | writeFail hpc =>
    rw [hpc] at hp
    exact hp.elim
  | endSend _ hpc =>
    rw [hpc, pastQuit_sending] at hp
    exact ⟨hq, pastQuit_procAfter.mpr hp⟩
  | cleanupClose | cleanupSend | cleanupEnd => exact ⟨hq, trivial⟩

theorem quitPhase_next (h : s.QuitPhase) (hok : s.MutexOk) (he : s.Enabled a) : (s.next a).QuitPhase := by
  cases h with
  | unsent hs hq hp =>
    rcases hs.next hok he with ⟨hs', hquit⟩ | ⟨hs', k, rfl⟩
    · obtain ⟨hq', hp'⟩ := loop_next_unsent he hs hq hp hquit
      exact .unsent hs' hq' hp'
    · exact .queued hs' rfl hq hp
  | queued hs hq hl hp =>
    rcases loop_next_queued he hs hq hl hp with ⟨l', hq', hl', hp'⟩ | ⟨hq', hp'⟩
    · exact .queued (hs.next he) hq' hl' hp'
    · exact .taken (hs.next he) hq' hp'
  | taken hs hq hp =>
    obtain ⟨hq', hp'⟩ := loop_next_taken he hs hq hp
    exact .taken (hs.next he) hq' hp'

theorem quitPhase_start (b : Bool) : (start b).QuitPhase :=
  .unsent ⟨rfl, Or.inl rfl⟩ (by simp [start]) id

theorem quitPhase_of_reachable {b : Bool} (h : (machine b).Reachable s) : s.QuitPhase :=
  h.invariant_of (fun _ => mutexOk_of_reachable) (quitPhase_start b) fun _ _ hm hq he _ => quitPhase_next hq hm he

/-! ## What follows -/

/-- `processMessages` leaves its loop only when the connection is closing. -/
theorem QuitPhase.closing_of_pastQuit (h : s.QuitPhase) (hp : PastQuit s.proc) : s.closing = true := by
  cases h with
  | unsent _ _ hn | queued _ _ _ hn => exact absurd hp hn
  | taken hs => exact hs.1

/-- The nil message of the closed `chanMessage` is never received. -/
theorem QuitPhase.not_takeNil (h : s.QuitPhase) : ¬ s.Enabled .takeNil := by
  rintro ⟨hp, hq, hc⟩
  cases h with
  | unsent hs =>
    rw [hs.1] at hc
    exact Nat.lt_irrefl 0 hc
  | queued _ hq' =>
    rw [hq] at hq'
    simp at hq'
  | taken _ _ hpast =>
    rw [hp] at hpast
    exact hpast

/-- `chanMessage` is closed at most once, and not while someone sends to it. -/
theorem QuitPhase.chanMessageCloses (h : s.QuitPhase) :
    s.chanMessageCloses ≤ 1 ∧ (∀ x, s.messageMutex = some (.push x) → s.chanMessageCloses = 0) ∧
    ∀ k, s.messageMutex = some (.quit k) → s.chanMessageCloses = 0 := by
  have hsent : s.QuitSent → s.chanMessageCloses ≤ 1 ∧
      (∀ x, s.messageMutex = some (.push x) → s.chanMessageCloses = 0) ∧
      ∀ k, s.messageMutex = some (.quit k) → s.chanMessageCloses = 0 := by
    intro hs
    refine ⟨?_, fun x hx => absurd hx (hs.not_push x), fun k hk => absurd hk (hs.not_quit k)⟩
    rcases hs.2 with ⟨-, hn⟩ | ⟨-, hn⟩ <;> omega
  cases h with
  | unsent hs => exact ⟨by rw [hs.1]; exact Nat.zero_le 1, fun _ _ => hs.1, fun _ _ => hs.1⟩
  | queued hs | taken hs => exact hsent hs

end Conn

end GoLdap
