import GoLdap.Conn.Effects

/-!
# Conn.Mutex — who holds `messageMutex`

The party recorded in `messageMutex` is the one that waits there, and `closing` is set exactly for `Close` (`MutexOk`).
-/

namespace GoLdap

namespace Conn

variable {s : Conn} {a : Action}

/-- The caller of `sendProcessMessage` is a client or reader that waits in it, or a timer. -/
def WaitsToSend (s : Conn) : Sender → Prop
  | .request i c => (s.clients i).pc = .admitted c
  | .finish i c => (s.clients i).pc = .finishing c .send
  | .response j p cleanstop => s.readers j = .forwarding p cleanstop
  | .timeout _ => True

def HolderIs (s : Conn) : Holder → Prop
  | .push x => s.WaitsToSend x ∧ s.closing = false
  | .quit k => k.Ready s ∧ s.closing = true
  | .confirm k _ => k.Ready s ∧ s.closing = true

structure MutexOk (s : Conn) : Prop where
  /-- Readers that have not been started are not running. -/
  started : ∀ j, s.readers j ≠ .stopped → j < s.readersStarted
  /-- The holder of the mutex is where the mutex says. -/
  holder : ∀ h, s.messageMutex = some h → s.HolderIs h

theorem mutexOk_start (b : Bool) : (start b).MutexOk where
  started j hj := by
    rcases Nat.eq_zero_or_pos j with rfl | hpos
    · exact Nat.one_pos
    · exact absurd (by simp [start, Nat.pos_iff_ne_zero.mp hpos]) hj
  holder _ h := by simp [start] at h

theorem readersStarted_next (s : Conn) (a : Action) :
    (s.next a).readersStarted = s.readersStarted ∧ (∀ i c p, a ≠ .tlsUpgrade i c p) ∨
    (∃ i c p, a = .tlsUpgrade i c p) ∧ (s.next a).readersStarted = s.readersStarted + 1 := by
  cases a <;> simp [next]

theorem MutexOk.started_next (h : s.MutexOk) (he : s.Enabled a) :
    ∀ j, (s.next a).readers j ≠ .stopped → j < (s.next a).readersStarted := by
  intro j hj
  have hmono : s.readersStarted ≤ (s.next a).readersStarted := by
    rcases readersStarted_next s a with ⟨hn, -⟩ | ⟨-, hn⟩ <;> omega
  have hrun : ∀ {pc : ReaderPc}, s.readers j = pc → pc ≠ .stopped → j < (s.next a).readersStarted :=
    fun hpc hne => Nat.lt_of_lt_of_le (h.started j (hpc ▸ hne)) hmono
  have hstep := readers_next he j
  generalize (s.next a).readers j = pc at hstep hj
  cases hstep with
  | same => exact hrun rfl hj
  | started hnew => exact hnew ▸ Nat.lt_succ_self s.readersStarted
  | read hpc | failed hpc | failedClosing hpc | stored hpc | checked hpc | checkedNoID hpc | refused hpc =>
    exact hrun hpc (by simp)
  | pushed hm => exact hrun (h.holder _ hm).1 (by simp)
  | closedAgain | closed => exact absurd rfl hj

/-- While the mutex is held, a reader in `sendProcessMessage` or `Close` does not move. -/
theorem readers_next_inCall {j : ℕ} {pc : ReaderPc} (hpc : s.readers j = pc)
    (hcall : pc = .closing ∨ ∃ p b, pc = .forwarding p b) (hj : j < s.readersStarted) (hm : s.messageMutex ≠ none)
    (he : s.Enabled a) (hpush : ∀ x, a ≠ .push x) (hret : ∀ k t, a ≠ .closeReturn k t) :
    (s.next a).readers j = pc := by
  have hstep := readers_next he j
  generalize (s.next a).readers j = pc' at hstep ⊢
  cases hstep with
  | same => exact hpc
  | started hnew => omega
  | pushed => exact absurd rfl (hpush _)
  | closed => exact absurd rfl (hret _ _)
  | checked _ hnone | checkedNoID _ hnone | refused _ hnone | closedAgain _ hnone => exact absurd hnone hm
  | read h | failed h | failedClosing h | stored h =>
    rw [hpc] at h
    subst h
    rcases hcall with hc | ⟨p, b, hc⟩ <;> cases hc

/-- The holder stays where it is until it gives the mutex up. -/
theorem MutexOk.holderIs_next (h : s.MutexOk) (he : s.Enabled a) {hd : Holder} (hm : s.messageMutex = some hd)
    (hpush : ∀ x, a ≠ .push x) (hret : ∀ k t, a ≠ .closeReturn k t) : (s.next a).HolderIs hd := by
  have hsome : s.messageMutex ≠ none := by simp [hm]
  have hclient : ∀ {i : ℕ} {pc : ClientPc}, (s.clients i).pc = pc → InCall pc → ((s.next a).clients i).pc = pc := by
    intro i pc hpc hcall
    rw [clients_next_inCall (hpc ▸ hcall) hsome he hpush hret, hpc]
  have hreader : ∀ {j : ℕ} {pc : ReaderPc}, s.readers j = pc → (pc = .closing ∨ ∃ p b, pc = .forwarding p b) →
      (s.next a).readers j = pc := by
    intro j pc hpc hcall
    refine readers_next_inCall hpc hcall (h.started j ?_) hsome he hpush hret
    rw [hpc]
    rcases hcall with rfl | ⟨p, b, rfl⟩ <;> simp
  have hnoEnter : ∀ k, a ≠ .closeEnter k := by
    rintro k rfl
    exact hsome he.2.1
  have hclosing : ∀ {b : Bool}, s.closing = b → (s.next a).closing = b := by
    intro b hb
    cases hcb : (s.next a).closing with
    | true =>
      rcases closing_next.mp hcb with ht | ⟨k, hk⟩
      · rw [← hb, ht]
      · exact absurd hk (hnoEnter k)
    | false =>
      cases b with
      | false => rfl
      | true => rw [closing_next.mpr (Or.inl hb)] at hcb; cases hcb
  have hcloser : ∀ {k : Closer}, k.Ready s → k.Ready (s.next a) := by
    intro k hk
    cases k with
    | client i ret => exact hclient hk trivial
    | reader j => exact hreader hk (Or.inl rfl)
  have hok := h.holder hd hm
  cases hd with
  | push x =>
    refine ⟨?_, hclosing hok.2⟩
    cases x with
    | request i c => exact hclient hok.1 trivial
    | finish i c => exact hclient hok.1 trivial
    | response j p b => exact hreader hok.1 (Or.inr ⟨p, b, rfl⟩)
    | timeout c => trivial
  | quit k => exact ⟨hcloser hok.1, hclosing hok.2⟩
  | confirm k t => exact ⟨hcloser hok.1, hclosing hok.2⟩

theorem mutexOk_next (h : s.MutexOk) (he : s.Enabled a) : (s.next a).MutexOk where
  started := h.started_next he
  holder hd hm := by
    have hlock := lock_next he
    generalize (s.next a).closing = b, (s.next a).messageMutex = m, (s.next a).chanMessageCloses = n at hlock hm
    cases hlock with
    | same ha =>
      refine h.holderIs_next he hm ?_ ?_
      · rintro x rfl
        exact ha trivial
      · rintro k t rfl
        exact ha trivial
    | @enter x hr _ hc =>
      obtain rfl := Option.some.inj hm
      refine ⟨?_, hc⟩
      cases x with
      | timeout c => trivial
      | _ => exact hr
    | @closeEnter k hr =>
      obtain rfl := Option.some.inj hm
      refine ⟨?_, rfl⟩
      cases k <;> exact hr
    | @closeQuit k hq =>
      obtain rfl := Option.some.inj hm
      have hok := h.holder _ hq
      refine ⟨?_, hok.2⟩
      cases k <;> exact hok.1
    | push | closeReturn => cases hm

theorem mutexOk_of_reachable {b : Bool} (h : (machine b).Reachable s) : s.MutexOk :=
  h.invariant (mutexOk_start b) fun _ _ hs he _ => mutexOk_next hs he

end Conn

end GoLdap
