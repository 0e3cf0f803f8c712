import GoLdap.Conn.Outstanding
import GoLdap.Conn.Places

/-!
# Conn.Release — what is left of finished messages

`finishMessage` takes a message off the outstanding requests and tells `processMessages` to forget its context.  While the
connection is open, a context whose `responses` is not closed belongs to a client that has still to finish it, or the
client is about to say so, or has said so and the message waits in `chanMessage` behind the request (`Forgotten`).  So
nothing is left when the clients are done.
-/

namespace GoLdap

namespace Conn

variable {s : Conn} {a : Action} {c : ℕ}

/-- The context will be forgotten: its client has not finished it, is about to tell `processMessages`, or has told it. -/
def FinishComing (s : Conn) (c : ℕ) : Prop :=
  (s.contexts c).finished = false ∨ (∃ i, (s.clients i).pc = .finishing c .send) ∨
    ∃ l₁ l₂, s.chanMessage = l₁ ++ .finish (s.contexts c).id :: l₂ ∧ .request c ∉ l₂

/-- While the connection is open, all contexts that are not closed will be. -/
def Forgotten (s : Conn) : Prop :=
  s.closing = false → ∀ c, (s.contexts c).stage = .accepted → (s.contexts c).closes = 0 → s.FinishComing c

theorem forgotten_start (b : Bool) : (start b).Forgotten := by
  intro _ c hc
  cases hc

theorem closes_le_next (s : Conn) (a : Action) (hc : c ≠ s.created) :
    (s.contexts c).closes ≤ ((s.next a).contexts c).closes := by
  have h := contexts_next s a c
  generalize (s.next a).contexts c = m at h
  cases h with
  | admitSend h => exact absurd h hc
  | closed => exact Nat.le_succ _
  | skipped => exact Nat.le_add_right _ _
  | received => exact Nat.le_add_right _ _
  | _ => exact Nat.le_refl _

/-- A client that is about to tell `processMessages` is still about to, or has told it. -/
theorem finishing_next (hm : s.MutexOk) (he : s.Enabled a) (hopen : s.closing = false) (hc : c ≠ s.created) {i : ℕ}
    (h : (s.clients i).pc = .finishing c .send) : (s.next a).FinishComing c := by
  have hstep := clients_next hm he i
  generalize hcl : (s.next a).clients i = cl at hstep
  cases hstep with
  | same => exact .inr (.inl ⟨i, by rw [hcl, h]⟩)
  | begun _ hpc =>
    rw [h] at hpc
    cases hpc
  | nested hpc =>
    rw [h] at hpc
    cases hpc
  | moved hpc hmove =>
    rw [h] at hpc
    subst hpc
    cases hmove
  | returned hpc hret =>
    rw [h] at hpc
    subst hpc
    cases hret with
    | finishSent =>
      refine .inr (.inr ⟨s.chanMessage, [], ?_, List.not_mem_nil⟩)
      rw [context_id s _ hc]
      rfl
    | finishRefused =>
      have hclosing : s.closing = true := he.2.2
      rw [hopen] at hclosing
      cases hclosing

/-- The step takes the head off the queue. -/
theorem behind_head {m : Message} {q l₁ l₂ : List Message} {id : MsgId}
    (h : m :: q = l₁ ++ .finish id :: l₂) :
    m = .finish id ∧ q = l₂ ∨ ∃ l₁', q = l₁' ++ .finish id :: l₂ := by
  cases l₁ with
  | nil =>
    obtain ⟨hm, hq⟩ := List.cons.inj h
    exact .inl ⟨hm, hq⟩
  | cons m' l₁' => exact .inr ⟨l₁', (List.cons.inj h).2⟩

section Step

variable (hp : s.Placed) (hd : s.IdsDistinct) (ho : s.OpenOk) (hm : s.MutexOk) (he : s.Enabled a)

include hp in
/-- A context that is not closed, and whose request is not in the queue, is registered while `processMessages` is in the
`select` of its loop. -/
theorem registered_of_loop (hacc : (s.contexts c).stage = .accepted) (hcloses : (s.contexts c).closes = 0)
    (hproc : s.proc = .loop) (hq : .request c ∉ s.chanMessage) : s.At c .registered := by
  have hone := hp.place c
  rw [if_pos hacc, places, hproc, hcloses, List.count_eq_zero_of_not_mem hq] at hone
  refine hp.registered_iff.mpr ?_
  simp only [handling, reduceCtorEq, if_false] at hone
  omega

include hp hd ho hm he in
/-- The message in the queue stays there, behind the request, until the context is closed. -/
theorem queued_next (hacc : (s.contexts c).stage = .accepted) (hcloses : (s.contexts c).closes = 0)
    (hcloses' : ((s.next a).contexts c).closes = 0) {l₁ l₂ : List Message}
    (hq : s.chanMessage = l₁ ++ .finish (s.contexts c).id :: l₂) (hbehind : .request c ∉ l₂) :
    ∃ l₁ l₂, (s.next a).chanMessage = l₁ ++ .finish (s.contexts c).id :: l₂ ∧ .request c ∉ l₂ := by
  have hpush {m : Message} (hne : m ≠ .request c) :
      ∃ l₁ l₂, s.chanMessage ++ [m] = l₁ ++ .finish (s.contexts c).id :: l₂ ∧ .request c ∉ l₂ := by
    refine ⟨l₁, l₂ ++ [m], by rw [hq, List.append_assoc, List.cons_append], ?_⟩
    rw [List.mem_append, List.mem_singleton]
    rintro (hmem | heq)
    · exact hbehind hmem
    · exact hne heq.symm
  -- another message is taken off the queue
  have htake {m : Message} {q : List Message} (hmq : s.chanMessage = m :: q)
      (hne : m ≠ .finish (s.contexts c).id) :
      ∃ l₁ l₂, q = l₁ ++ .finish (s.contexts c).id :: l₂ ∧ .request c ∉ l₂ := by
    obtain ⟨rfl, -⟩ | ⟨l₁', rfl⟩ := behind_head (hmq.symm.trans hq)
    · exact absurd rfl hne
    · exact ⟨l₁', l₂, rfl, hbehind⟩
  -- the finish message itself is at the head: the context is registered
  have hhead {q : List Message} (hproc : s.proc = .loop) (hmq : s.chanMessage = .finish (s.contexts c).id :: q)
      (hlast : q = l₂) : s.At c .registered := by
    refine registered_of_loop hp hacc hcloses hproc ?_
    rw [hmq, hlast]
    simpa using hbehind
  have hctx := contexts_next s a c
  have hstep := loop_next he
  generalize (s.next a).chanMessage = q', (s.next a).proc = pc, (s.next a).messageContexts = mc at hstep
  cases hstep with
  | other | takeNil | writeOk | writeFail | endSend | cleanupClose | cleanupSend | cleanupEnd => exact ⟨l₁, l₂, hq, hbehind⟩
  | @pushed x hmutex =>
    refine hpush ?_
    cases x with
    | request i d =>
      intro heq
      obtain rfl := Message.request.inj heq
      rw [ho.admitted i d (hm.holder _ hmutex).1] at hacc
      cases hacc
    | _ => simp [Sender.message]
  | quitPushed => exact hpush (by simp)
  | takeQuit _ hmq => exact htake hmq (by simp)
  | takeRequest _ hmq => exact htake hmq (by simp)
  | startSend ha _ hmq =>
    refine htake hmq ?_
    cases ha <;> simp
  | @ignored _ m q ha hproc hmq =>
    obtain ⟨rfl, hlast⟩ | ⟨l₁', rfl⟩ := behind_head (hmq.symm.trans hq)
    · cases ha with
      | finish hunknown => exact absurd rfl (hunknown _ (hhead hproc hmq hlast))
    · exact ⟨l₁', l₂, rfl, hbehind⟩
  | @takeFinish id d q hproc hmq hmem =>
    obtain ⟨hid, hlast⟩ | ⟨l₁', rfl⟩ := behind_head (hmq.symm.trans hq)
    · obtain rfl := Message.finish.inj hid
      obtain rfl : d = c := hd d c (hp.accepted_of_mem hmem) hacc (hp.entry _ hmem).symm
      simp [next, hcloses] at hcloses'
    · exact ⟨l₁', l₂, rfl, hbehind⟩

include hp hd ho hm he in
theorem forgotten_next (h : s.Forgotten) (hn : s.Numbered) (hown : s.Owned) : (s.next a).Forgotten := by
  intro hopen' c hacc' hcloses'
  have hopen := closing_of_next hopen'
  by_cases hacc : (s.contexts c).stage = .accepted
  · have hne : c ≠ s.created := Nat.ne_of_lt (hn.accepted c hacc).1
    have hcloses : (s.contexts c).closes = 0 := Nat.le_zero.mp (hcloses' ▸ closes_le_next s a hne)
    obtain hunfinished | ⟨i, hpc⟩ | ⟨l₁, l₂, hq, hbehind⟩ := h hopen c hacc hcloses
    · obtain hsame | ⟨⟨i, rfl⟩, -⟩ := context_finished s a hne
      · exact .inl (hsame.trans hunfinished)
      · exact .inr (.inl ⟨i, by simp [next]⟩)
    · exact finishing_next hm he hopen hne hpc
    · refine .inr (.inr ?_)
      rw [context_id s a hne]
      exact queued_next hp hd ho hm he hacc hcloses hcloses' hq hbehind
  · -- the request has just been put into the queue, and its client holds it
    have hsent : ∃ i, a = .push (.request i c) := by
      have hcount := accepted_next hn ho hm he c
      rw [if_pos hacc', if_neg hacc, Nat.zero_add] at hcount
      cases a with
      | push x =>
        cases x with
        | request i d =>
          obtain rfl : d = c := by
            by_contra hdc
            simp [requestSent, hdc] at hcount
          exact ⟨i, rfl⟩
        | _ => cases hcount
      | _ => cases hcount
    obtain ⟨i, rfl⟩ := hsent
    have hpc : (s.clients i).pc = .admitted c := (hm.holder _ he.1).1
    have hheld : c ∈ holds (s.clients i) := by simp [holds_of_pc hpc, current]
    refine .inl ?_
    simpa [next, Sender.sent] using (hown.held i c hheld).2.2.1

end Step

theorem forgotten_of_reachable {b : Bool} (h : (machine b).Reachable s) : s.idsIssued ≤ 2 ^ 64 → s.Forgotten := by
  refine h.invariant_of (P := fun s => s.idsIssued ≤ 2 ^ 64 → s.Forgotten) (Q := fun s => (machine b).Reachable s) ?_
    (fun _ => forgotten_start b) ?_
  · exact fun _ hs => hs
  · intro s a hs ih he _ hids
    have hle : s.idsIssued ≤ 2 ^ 64 := by
      have hids' : (s.next a).idsIssued ≤ 2 ^ 64 := hids
      rcases idsIssued_next s a with ⟨hsame, -⟩ | ⟨-, hsucc⟩ <;> omega
    have hn := numbered_of_reachable hs
    exact forgotten_next (placed_of_reachable hs hle) (fun c d => hn.id_injective hle) (openOk_of_reachable hs)
      (mutexOk_of_reachable hs) he (ih hle) hn (owned_of_reachable hs)

/-- Between operations a client holds no context. -/
theorem Owned.holds_idle (h : s.Owned) {i : ℕ} (hi : (s.clients i).pc = .idle) : holds (s.clients i) = [] := by
  rw [holds_of_pc hi, h.idle i (.inl hi)]
  rfl

/-- **Nothing is left of finished messages.**  In an open connection that has handed out at most `2 ^ 64` message IDs,
every accepted message whose `responses` is not closed is held by the client that sent it, or its client is about to send
the finish message, or the finish message is in `chanMessage`.  When all clients are between operations and `chanMessage`
is empty, no context is registered, nothing is outstanding, no StartTLS is under way, and `responses` of every accepted
message was closed exactly once. -/
theorem finished_messages_released (b : Bool) (s : Conn) (h : (machine b).Reachable s) (hids : s.idsIssued ≤ 2 ^ 64)
    (hopen : s.closing = false) :
    (∀ c, (s.contexts c).stage = .accepted → (s.contexts c).closes = 0 →
      c ∈ holds (s.clients (s.contexts c).owner) ∨ (∃ i, (s.clients i).pc = .finishing c .send) ∨
        .finish (s.contexts c).id ∈ s.chanMessage) ∧
    ((∀ i, (s.clients i).pc = .idle) → s.chanMessage = [] →
      s.messageContexts = [] ∧ s.outstandingRequests = 0 ∧ s.isStartingTLS = false ∧
        ∀ c, (s.contexts c).stage = .accepted → (s.contexts c).closes = 1) := by
  have hown := owned_of_reachable h
  have hplaced := placed_of_reachable h hids
  have hledger := ledgerOk_of_reachable h
  have hcoming : ∀ c, (s.contexts c).stage = .accepted → (s.contexts c).closes = 0 →
      c ∈ holds (s.clients (s.contexts c).owner) ∨ (∃ i, (s.clients i).pc = .finishing c .send) ∨
        .finish (s.contexts c).id ∈ s.chanMessage := by
    intro c hacc hcloses
    obtain hunfinished | hsending | ⟨l₁, l₂, hq, -⟩ := forgotten_of_reachable h hids hopen c hacc hcloses
    · exact .inl (hown.holder hopen c hunfinished)
    · exact .inr (.inl hsending)
    · exact .inr (.inr (by rw [hq]; simp))
  refine ⟨hcoming, fun hidle hempty => ?_⟩
  have hclosed : ∀ c, (s.contexts c).stage = .accepted → (s.contexts c).closes ≠ 0 := by
    intro c hacc hcloses
    obtain hheld | ⟨i, hi⟩ | hmem := hcoming c hacc hcloses
    · rw [hown.holds_idle (hidle _)] at hheld
      cases hheld
    · rw [hidle i] at hi
      cases hi
    · rw [hempty] at hmem
      cases hmem
  have hnone : s.counted = ∅ := by
    refine Finset.eq_empty_of_forall_notMem fun c hc => ?_
    have hheld := hown.holder hopen c (hown.mem_counted.mp hc)
    rw [hown.holds_idle (hidle _)] at hheld
    cases hheld
  refine ⟨?_, ?_, ?_, fun c hacc => ?_⟩
  · refine List.eq_nil_iff_forall_not_mem.mpr fun e he => ?_
    have hone := hplaced.le_one e.2
    have hpos := registrations_pos.mpr ⟨e.1, he⟩
    have hne := hclosed e.2 (hplaced.accepted_of_mem he)
    unfold places at hone
    omega
  · rw [hledger.count, hnone, Finset.card_empty]
    rfl
  · by_contra htls
    obtain ⟨c, hc, -⟩ := hledger.exclusive (Bool.not_eq_false _ ▸ htls)
    rw [hnone] at hc
    exact absurd hc (Finset.notMem_empty c)
  · have hone := hplaced.le_one c
    have hne := hclosed c hacc
    unfold places at hone
    omega

/-- A request that was written and finished. -/
def finishedRun : List Action :=
  sendRequest 0 0 0 ++ [.takeRequest 0 [], .writeOk 0, .finish 0 0, .closeDone 0 0, .checkFinish 0 0, .decrement 0 0,
    .enter (.finish 0 0), .push (.finish 0 0), .takeFinish (msgId 0) 0 []]

theorem finished_messages_released_one :
    ∃ s, (machine false).Reachable s ∧ s.created = 1 ∧ (s.contexts 0).stage = .accepted ∧ s.messageContexts = [] ∧
      s.outstandingRequests = 0 ∧ s.isStartingTLS = false ∧ (s.contexts 0).closes = 1 := by
  have hs := Machine.reachable_after (M := machine false) finishedRun (by decide)
  have hidle : ∀ i, (((machine false).after (machine false).init finishedRun).clients i).pc = .idle := by
    intro i
    rcases i with _ | i <;> rfl
  obtain ⟨hcontexts, hcount, htls, hcloses⟩ :=
    (finished_messages_released false _ hs (by decide) rfl).2 hidle rfl
  exact ⟨_, hs, rfl, rfl, hcontexts, hcount, htls, hcloses 0 rfl⟩

end Conn

end GoLdap
