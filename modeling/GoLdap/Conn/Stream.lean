import GoLdap.Conn.Places

/-!
# Conn.Stream — the packets a client receives

The readers put the packets of the server into `chanMessage`, `processMessages` offers each one to the context with its
ID and waits until the client has taken it.  What the client has received, what is offered to it and what waits in the
queue are then the packets that were put into the queue for it, in order (`Streams`).  The chain breaks where
`sendResponse` gives up a packet because of its timeout and the next one is delivered all the same.
-/

namespace GoLdap

namespace Conn

variable {s : Conn} {a : Action} {c : ℕ}

def packetOf : Response → Option SrvPacket
  | .packet p => some p
  | _ => none

/-- The packets the client has received. -/
def answered (s : Conn) (c : ℕ) : List SrvPacket := (s.contexts c).received.filterMap packetOf

/-- The packets with the ID of the context that the readers have put into the queue since its request was. -/
def answers (s : Conn) (c : ℕ) : List SrvPacket :=
  (s.forwarded.drop (s.contexts c).since).filter (·.id = (s.contexts c).id)

/-- The packet that is being offered to the context. -/
def offered : ProcPc → ℕ → List SrvPacket
  | .sending d r _ _, c => if d = c then (packetOf r).toList else []
  | _, _ => []

def responseTo (id : MsgId) : Message → Option SrvPacket
  | .response p => if p.id = id then some p else none
  | _ => none

/-- The packets with the ID in the queue, or a part of it. -/
def waiting (id : MsgId) (q : List Message) : List SrvPacket := q.filterMap (responseTo id)

/-! ## Steps -/

/-- The responses a step delivers to the context. -/
def delivers (c : ℕ) : Action → List Response
  | .deliver _ d r _ _ => if d = c then [r] else []
  | _ => []

/-- The packets a step puts into the queue. -/
def forwards : Action → List SrvPacket
  | .push (.response _ p _) => [p]
  | _ => []

theorem received_next (s : Conn) (a : Action) (hc : c ≠ s.created) :
    ((s.next a).contexts c).received = (s.contexts c).received ++ delivers c a := by
  by_cases ha : ∃ i d r t n, a = .deliver i d r t n
  · obtain ⟨i, d, r, t, n, rfl⟩ := ha
    rw [next, afterSend_contexts]
    simp only [setContext, setPc, setClient, Function.update_self, Function.update_idem, delivers]
    by_cases hd : d = c
    · subst hd
      simp
    · rw [Function.update_of_ne (Ne.symm hd), if_neg hd, List.append_nil]
  · have hnone : delivers c a = [] := by
      cases a with
      | deliver i d r t n => exact absurd ⟨i, d, r, t, n, rfl⟩ ha
      | _ => rfl
    rw [hnone, List.append_nil]
    have h := contexts_next s a c
    generalize (s.next a).contexts c = m at h
    cases h with
    | admitSend h => exact absurd h hc
    | received => exact absurd ⟨_, _, _, _, _, rfl⟩ ha
    | _ => rfl

theorem since_next (s : Conn) (a : Action) (hc : c ≠ s.created) (ha : ∀ i, a ≠ .push (.request i c)) :
    ((s.next a).contexts c).since = (s.contexts c).since := by
  have h := contexts_next s a c
  generalize (s.next a).contexts c = m at h
  cases h with
  | admitSend h => exact absurd h hc
  | accepted => exact absurd rfl (ha _)
  | _ => rfl

theorem forwarded_next (s : Conn) (a : Action) : (s.next a).forwarded = s.forwarded ++ forwards a := by
  cases a with
  | push x => cases x <;> simp [next, Sender.sent, forwards]
  | _ => simp [next, forwards]

theorem waiting_message (s : Conn) (x : Sender) (id : MsgId) :
    waiting id [x.message s] = (forwards (.push x)).filter (·.id = id) := by
  cases x with
  | response j p cleanstop =>
    by_cases hp : p.id = id <;> simp [waiting, Sender.message, responseTo, forwards, hp]
  | _ => simp [waiting, Sender.message, responseTo, forwards]

theorem delivers_eq_nil (he : s.Enabled a) (h : ∀ r t n, s.proc ≠ .sending c r t n) : delivers c a = [] := by
  cases a with
  | deliver i d r t n =>
    refine if_neg ?_
    rintro rfl
    exact h r t n he.1
  | _ => rfl

theorem forwards_eq_nil (h : ∀ x, a ≠ .push x) : forwards a = [] := by
  cases a with
  | push x => exact absurd rfl (h x)
  | _ => rfl

@[simp] theorem waiting_append (id : MsgId) (q q' : List Message) :
    waiting id (q ++ q') = waiting id q ++ waiting id q' := by
  simp [waiting]

theorem waiting_cons_of_none {id : MsgId} {m : Message} (h : responseTo id m = none) (q : List Message) :
    waiting id (m :: q) = waiting id q := by
  simp [waiting, h]

theorem waiting_response (id : MsgId) (p : SrvPacket) (q : List Message) :
    waiting id (.response p :: q) = (if p.id = id then [p] else []) ++ waiting id q := by
  by_cases hp : p.id = id <;> simp [waiting, responseTo, hp]

/-! ## The stream of a context -/

/-- What the client has received is a part of the answers from the first one on.  While the request is in the queue, the
answers are behind it; then they are what was received, what is offered and what waits, until the client is done. -/
structure StreamOk (s : Conn) (c : ℕ) : Prop where
  since_le : (s.contexts c).since ≤ s.forwarded.length
  inOrder : s.answered c <+: s.answers c
  queued : ∀ l₁ l₂, s.chanMessage = l₁ ++ .request c :: l₂ →
    s.answers c = s.answered c ++ waiting (s.contexts c).id l₂
  live : (s.contexts c).done = false → s.proc = .writing c ∨ s.At c .registered →
    s.answers c = s.answered c ++ offered s.proc c ++ waiting (s.contexts c).id s.chanMessage

structure Streams (s : Conn) : Prop where
  unread : ∀ c, (s.contexts c).stage ≠ .accepted → (s.contexts c).received = []
  /-- After a packet `processMessages` goes on. -/
  resumes : ∀ c p t n, s.proc = .sending c (.packet p) t n → n = .resume
  ok : ∀ c, (s.contexts c).stage = .accepted → s.StreamOk c

theorem streams_start (b : Bool) : (start b).Streams where
  unread _ _ := rfl
  resumes _ _ _ _ h := by cases h
  ok _ h := by cases h

/-- The condition for a stream without gaps: no `sendResponse` gives up a packet of the server because of its timeout, and
the counter of message IDs has not wrapped around. -/
def NoPacketTimeout (s : Conn) : Action → Prop
  | .skipTimeout _ (.packet _) _ => False
  | .takeID _ => s.idsIssued < 2 ^ 64
  | _ => True

section Step

variable (hp : s.Placed) (hd : s.IdsDistinct) (hn : s.Numbered) (ho : s.OpenOk) (hm : s.MutexOk) (he : s.Enabled a)

include hn in
theorem answered_next (hc : (s.contexts c).stage = .accepted) :
    (s.next a).answered c = s.answered c ++ (delivers c a).filterMap packetOf := by
  unfold answered
  rw [received_next s a (Nat.ne_of_lt (hn.accepted c hc).1), List.filterMap_append]

include hn ho hm he in
theorem StreamOk.answers_next (h : s.StreamOk c) (hc : (s.contexts c).stage = .accepted) :
    (s.next a).answers c = s.answers c ++ (forwards a).filter (·.id = (s.contexts c).id) := by
  have hne : c ≠ s.created := Nat.ne_of_lt (hn.accepted c hc).1
  have hnot : ∀ i, a ≠ .push (.request i c) := by
    rintro i rfl
    have hst := ho.admitted i c (hm.holder _ he.1).1
    rw [hst] at hc
    cases hc
  unfold answers
  rw [since_next s a hne hnot, forwarded_next, context_id s a hne, List.drop_append_of_le_length h.since_le,
    List.filter_append]

/-- A request in the queue keeps its place in front of the packets that come after it. -/
theorem queued_before (he : s.Enabled a) (hnot : ∀ i, a ≠ .push (.request i c)) (id : MsgId) {l₁ l₂ : List Message}
    (h : (s.next a).chanMessage = l₁ ++ .request c :: l₂) :
    ∃ l₁' l₂', s.chanMessage = l₁' ++ .request c :: l₂' ∧
      waiting id l₂ = waiting id l₂' ++ (forwards a).filter (·.id = id) := by
  have htake : ∀ {m : Message} {q : List Message}, s.chanMessage = m :: q → (∀ x, a ≠ .push x) →
      q = l₁ ++ .request c :: l₂ → ∃ l₁' l₂', s.chanMessage = l₁' ++ .request c :: l₂' ∧
        waiting id l₂ = waiting id l₂' ++ (forwards a).filter (·.id = id) := by
    rintro m q hmq hx rfl
    exact ⟨m :: l₁, l₂, hmq, by rw [forwards_eq_nil hx]; simp⟩
  have hkeep : (∀ x, a ≠ .push x) → s.chanMessage = l₁ ++ .request c :: l₂ →
      ∃ l₁' l₂', s.chanMessage = l₁' ++ .request c :: l₂' ∧
        waiting id l₂ = waiting id l₂' ++ (forwards a).filter (·.id = id) := by
    intro hx hq
    exact ⟨l₁, l₂, hq, by rw [forwards_eq_nil hx]; simp⟩
  -- a message put behind the request
  have hpush : ∀ {m : Message}, s.chanMessage ++ [m] = l₁ ++ .request c :: l₂ → m ≠ .request c →
      ∃ l₂', s.chanMessage = l₁ ++ .request c :: l₂' ∧ l₂ = l₂' ++ [m] := by
    intro m heq hne
    rcases List.eq_nil_or_concat l₂ with rfl | ⟨l₂', m', rfl⟩
    · obtain ⟨-, hlast⟩ := List.append_inj' heq rfl
      exact absurd (List.cons.inj hlast).1 hne
    · rw [List.concat_eq_append, ← List.cons_append, ← List.append_assoc] at heq
      obtain ⟨hinit, hlast⟩ := List.append_inj' heq rfl
      obtain rfl := (List.cons.inj hlast).1
      exact ⟨l₂', hinit, List.concat_eq_append⟩
  have hstep := loop_next he
  generalize (s.next a).chanMessage = q', (s.next a).proc = pc, (s.next a).messageContexts = mc at hstep h
  cases hstep with
  | other ha =>
    refine hkeep ?_ h
    rintro x rfl
    exact ha trivial
  | @pushed x =>
    have hne : x.message s ≠ .request c := by
      cases x with
      | request i d =>
        intro heq
        obtain rfl := Message.request.inj heq
        exact hnot i rfl
      | _ => simp [Sender.message]
    obtain ⟨l₂', hq, rfl⟩ := hpush h hne
    exact ⟨l₁, l₂', hq, by rw [waiting_append, waiting_message]⟩
  | quitPushed =>
    obtain ⟨l₂', hq, rfl⟩ := hpush h (by simp)
    exact ⟨l₁, l₂', hq, by simp [waiting, responseTo, forwards]⟩
  | takeQuit _ hmq | takeRequest _ hmq | takeFinish _ hmq => exact htake hmq (by simp) h
  | startSend ha _ hmq =>
    refine htake hmq ?_ h
    cases ha <;> simp
  | ignored ha _ hmq =>
    refine htake hmq ?_ h
    cases ha <;> simp
  | endSend ha =>
    refine hkeep ?_ h
    rcases ha with ⟨i, rfl⟩ | rfl | ⟨-, rfl⟩ <;> simp
  | _ => exact hkeep (by simp) h

include hp in
/-- Nothing is offered to a context whose request is in the queue. -/
theorem not_sending_of_queued (hc : .request c ∈ s.chanMessage) : ∀ r t n, s.proc ≠ .sending c r t n := by
  intro r t n hpc
  have hle := hp.le_one c
  have hq : 0 < s.chanMessage.count (.request c) := List.count_pos_iff.mpr hc
  unfold places at hle
  by_cases hcf : n = .closeFailed
  · rw [hpc, hcf, handling, if_pos rfl] at hle
    omega
  · have hreg := hp.registered_iff.mp (hp.sending c r t n hpc hcf)
    omega

include he in
/-- A request that is being written or registered after a step was so before, or is the one that was taken. -/
theorem live_before (hlive : (s.next a).proc = .writing c ∨ ((s.contexts c).id, c) ∈ (s.next a).messageContexts) :
    (s.proc = .writing c ∨ s.At c .registered) ∨ ∃ q, a = .takeRequest c q ∧ s.chanMessage = .request c :: q := by
  have hstep := loop_next he
  generalize (s.next a).chanMessage = q', (s.next a).proc = pc, (s.next a).messageContexts = mc at hstep hlive
  cases hstep with
  | other | pushed | quitPushed => exact .inl hlive
  | takeRequest hpc hmq =>
    rcases hlive with hwriting | hmem
    · obtain rfl := ProcPc.writing.inj hwriting
      exact .inr ⟨_, rfl, hmq⟩
    · exact .inl (.inr hmem)
  | writeOk hpc =>
    rcases List.mem_cons.mp (hlive.resolve_left (by simp)) with heq | hmem
    · rw [hpc, (Prod.mk.inj heq).2]
      exact .inl (.inl rfl)
    · exact .inl (.inr (List.mem_of_mem_filter hmem))
  | takeFinish | cleanupClose => exact .inl (.inr (List.mem_of_mem_filter (hlive.resolve_left (by simp))))
  | @endSend _ d r t n ha hpc =>
    have hafter := hlive.resolve_left (by cases n <;> simp [procAfter])
    unfold registryAfter at hafter
    split_ifs at hafter
    · exact .inl (.inr (List.mem_of_mem_filter hafter))
    · exact .inl (.inr hafter)
  | _ => exact .inl (.inr (hlive.resolve_left (by simp)))

include hp hd he in
/-- What is on its way to a context: a step delivers it or passes it on, and puts new packets behind it. -/
theorem flow_next (hok : NoPacketTimeout s a) (hopen : (s.contexts c).done = false)
    (hlive : s.proc = .writing c ∨ s.At c .registered) :
    (delivers c a).filterMap packetOf ++ offered (s.next a).proc c ++
        waiting (s.contexts c).id (s.next a).chanMessage =
      offered s.proc c ++ waiting (s.contexts c).id s.chanMessage ++ (forwards a).filter (·.id = (s.contexts c).id) := by
  have hregistered : s.proc = .loop → ((s.contexts c).id, c) ∈ s.messageContexts := by
    intro hpc
    rw [hpc] at hlive
    exact hlive.resolve_left (by simp)
  have hstep := loop_next he
  generalize (s.next a).chanMessage = q', (s.next a).proc = pc, (s.next a).messageContexts = mc at hstep
  cases hstep with
  | other ha =>
    have hx : ∀ x, a ≠ .push x := by
      rintro x rfl
      exact ha trivial
    have hdel : delivers c a = [] := by
      cases a with
      | deliver => exact absurd trivial ha
      | _ => rfl
    rw [forwards_eq_nil hx, hdel]
    simp
  | @pushed x =>
    rw [waiting_append, waiting_message]
    simp [delivers]
  | quitPushed => simp [waiting, responseTo, forwards, delivers]
  | takeQuit hpc hmq | takeRequest hpc hmq | takeFinish hpc hmq =>
    rw [hpc, hmq, waiting_cons_of_none rfl]
    simp [forwards, delivers, offered]
  | @startSend _ _ _ d _ _ ha hpc hmq =>
    rw [hpc, hmq]
    cases ha with
    | @response p _ _ hpd =>
      -- the packet is offered to this context exactly if it has its ID
      have hiff : p.id = (s.contexts c).id ↔ d = c := by
        constructor
        · intro hid
          rw [hid] at hpd
          exact hp.mem_unique hd hpd (hregistered hpc)
        · rintro rfl
          exact hp.entry _ hpd
      rw [waiting_response]
      simp only [hiff]
      simp [forwards, delivers, offered, packetOf]
    | timeout =>
      rw [waiting_cons_of_none rfl]
      simp [forwards, delivers, offered, packetOf]
  | ignored ha hpc hmq =>
    rw [hpc, hmq]
    cases ha with
    | response hunknown =>
      rw [waiting_response, if_neg (Ne.symm (hunknown _ (hregistered hpc)))]
      simp [forwards, delivers, offered]
    | timeout | finish =>
      rw [waiting_cons_of_none rfl]
      simp [forwards, delivers, offered]
  | @endSend _ d r t n ha hpc =>
    have hnone : offered (procAfter n) c = [] := by cases n <;> rfl
    rw [hpc, hnone]
    rcases ha with ⟨i, rfl⟩ | rfl | ⟨-, rfl⟩
    · -- delivered
      by_cases hdc : d = c
      · cases hr : packetOf r <;> simp [forwards, delivers, offered, hdc, hr]
      · simp [forwards, delivers, offered, hdc]
    · -- given up because the client is done
      have hdc : d ≠ c := by
        rintro rfl
        rw [he.2] at hopen
        cases hopen
      simp [forwards, delivers, offered, hdc]
    · -- given up because of the timeout: not a packet
      cases r with
      | packet p => exact absurd hok id
      | _ => simp [forwards, delivers, offered, packetOf]
  | takeNil hpc | writeOk hpc | writeFail hpc | cleanupClose hpc | cleanupSend hpc | cleanupEnd hpc =>
    rw [hpc]
    simp [forwards, delivers, offered, packetOf]

include hp hd hn ho hm he in
theorem StreamOk.live_next (h : s.StreamOk c) (hok : NoPacketTimeout s a) (hc : (s.contexts c).stage = .accepted)
    (hdone : ((s.next a).contexts c).done = false)
    (hlive : (s.next a).proc = .writing c ∨ (s.next a).At c .registered) :
    (s.next a).answers c = (s.next a).answered c ++ offered (s.next a).proc c ++
      waiting ((s.next a).contexts c).id (s.next a).chanMessage := by
  have hne : c ≠ s.created := Nat.ne_of_lt (hn.accepted c hc).1
  have hopen : (s.contexts c).done = false := by
    rcases context_done s a hne with hsame | ⟨i, rfl⟩
    · exact hsame.symm.trans hdone
    · simp [next] at hdone
  have hlive' : (s.next a).proc = .writing c ∨ ((s.contexts c).id, c) ∈ (s.next a).messageContexts := by
    rw [← context_id s a hne]
    exact hlive
  rw [h.answers_next hn ho hm he hc, answered_next hn hc, context_id s a hne]
  rcases live_before he hlive' with hbefore | ⟨q, rfl, hq⟩
  · rw [h.live hopen hbefore]
    simpa only [List.append_assoc] using congrArg (s.answered c ++ ·) (flow_next hp hd he hok hopen hbefore).symm
  · rw [h.queued [] q hq]
    simp [next, forwards, delivers, offered]

include hp hn ho hm he in
/-- A delivered packet is the next of the answers. -/
theorem Streams.inOrder_next (h : s.Streams) (hc : (s.contexts c).stage = .accepted) :
    (s.next a).answered c <+: (s.next a).answers c := by
  have hs := h.ok c hc
  have hgrow : s.answers c <+: (s.next a).answers c := by
    rw [hs.answers_next hn ho hm he hc]
    exact List.prefix_append _ _
  rw [answered_next hn hc]
  by_cases hdel : ∃ i p t n, a = .deliver i c (.packet p) t n
  · obtain ⟨i, p, t, n, rfl⟩ := hdel
    obtain ⟨hpc, hrecv⟩ := he
    have hopen := ho.undone i c (mem_pending_of_pc hrecv (by simp [openContext]))
    have hreg := hp.sending c (.packet p) t n hpc (by rw [h.resumes c p t n hpc]; simp)
    have hans := hs.live hopen (Or.inr hreg)
    rw [hpc] at hans
    refine List.IsPrefix.trans ?_ hgrow
    rw [hans]
    simp [delivers, offered, packetOf]
  · have hnil : (delivers c a).filterMap packetOf = [] := by
      cases a with
      | deliver i d r t n =>
        by_cases hdc : d = c
        · subst hdc
          cases r with
          | packet p => exact absurd ⟨i, p, t, n, rfl⟩ hdel
          | _ => simp [delivers, packetOf]
        · simp [delivers, hdc]
      | _ => rfl
    rw [hnil, List.append_nil]
    exact hs.inOrder.trans hgrow

include hp hd hn ho hm he in
theorem Streams.ok_next (h : s.Streams) (hok : NoPacketTimeout s a) (hc : (s.contexts c).stage = .accepted) :
    (s.next a).StreamOk c := by
  have hs := h.ok c hc
  have hne : c ≠ s.created := Nat.ne_of_lt (hn.accepted c hc).1
  have hnot : ∀ i, a ≠ .push (.request i c) := by
    rintro i rfl
    rw [ho.admitted i c (hm.holder _ he.1).1] at hc
    cases hc
  refine ⟨?_, h.inOrder_next hp hn ho hm he hc, fun l₁ l₂ hq => ?_, hs.live_next hp hd hn ho hm he hok hc⟩
  · rw [since_next s a hne hnot, forwarded_next, List.length_append]
    exact Nat.le_add_right_of_le hs.since_le
  · obtain ⟨l₁', l₂', hq', hw⟩ := queued_before he hnot (s.contexts c).id hq
    have hmem : .request c ∈ s.chanMessage := by
      rw [hq']
      simp
    rw [hs.answers_next hn ho hm he hc, answered_next hn hc, delivers_eq_nil he (not_sending_of_queued hp hmem),
      context_id s a hne, hs.queued l₁' l₂' hq', hw]
    simp

include hp ho hm he in
/-- A request put into the queue has no answers yet. -/
theorem Streams.ok_pushed (h : s.Streams) {i : ℕ} (ha : a = .push (.request i c)) : (s.next a).StreamOk c := by
  subst ha
  obtain ⟨hwait, -⟩ := hm.holder _ he.1
  have hst := ho.admitted i c hwait
  have hplaces : s.places c = 0 := by
    rw [hp.place c, hst]
    rfl
  unfold places at hplaces
  have hanswered : (s.next (.push (.request i c))).answered c = [] := by
    have hrec : ((s.next (.push (.request i c))).contexts c).received = (s.contexts c).received := by
      simp [next, Sender.sent]
    rw [answered, hrec, h.unread c (by rw [hst]; simp)]
    rfl
  have hanswers : (s.next (.push (.request i c))).answers c = [] := by
    simp [answers, next, Sender.sent]
  refine ⟨by simp [next, Sender.sent], ?_, fun l₁ l₂ hq => ?_, fun _ hlive => ?_⟩
  · rw [hanswered]
    exact List.nil_prefix
  · -- nothing is behind the request
    have hq' : s.chanMessage ++ [.request c] = l₁ ++ .request c :: l₂ := hq
    have hnil : l₂ = [] := by
      rcases List.eq_nil_or_concat l₂ with hnil | ⟨l, m, rfl⟩
      · exact hnil
      · rw [List.concat_eq_append, ← List.cons_append, ← List.append_assoc] at hq'
        obtain ⟨hinit, -⟩ := List.append_inj' hq' rfl
        have hpos : 0 < s.chanMessage.count (.request c) := List.count_pos_iff.mpr (by rw [hinit]; simp)
        omega
    rw [hanswered, hanswers, hnil]
    rfl
  · exfalso
    rcases hlive with hpc | hreg
    · have hpc' : s.proc = .writing c := by simpa [next] using hpc
      rw [hpc', handling, if_pos rfl] at hplaces
      omega
    · have hid : ((s.next (.push (.request i c))).contexts c).id = (s.contexts c).id := by
        simp [next, Sender.sent, MessageContext.id]
      have hreg' : s.At c .registered := by
        show ((s.contexts c).id, c) ∈ s.messageContexts
        rw [← hid]
        exact hreg
      have hpos := hp.registered_iff.mp hreg'
      omega

end Step

theorem streams_next (h : s.Streams) (hp : s.Placed) (hd : s.IdsDistinct) (hn : s.Numbered) (ho : s.OpenOk)
    (hm : s.MutexOk) (he : s.Enabled a) (hok : NoPacketTimeout s a) : (s.next a).Streams where
  unread c hc := by
    have hacc := accepted_next hn ho hm he c
    rw [if_neg hc] at hacc
    have hold : (s.contexts c).stage ≠ .accepted := by
      intro hst
      rw [if_pos hst] at hacc
      omega
    have hctx := contexts_next s a c
    generalize (s.next a).contexts c = m at hctx
    cases hctx with
    | admitSend => rfl
    | received => exact absurd (hp.accepted_of_sending he.1) hold
    | _ => exact h.unread c hold
  resumes c p t n hpc := by
    have hstep := loop_next he
    generalize (s.next a).chanMessage = q', (s.next a).proc = pc, (s.next a).messageContexts = mc at hstep hpc
    cases hstep with
    | other | pushed | quitPushed => exact h.resumes c p t n hpc
    | startSend ha => cases ha <;> cases hpc; rfl
    | @endSend _ _ _ _ n' => cases n' <;> cases hpc
    | _ => cases hpc
  ok c hc := by
    have hacc := accepted_next hn ho hm he c
    rw [if_pos hc] at hacc
    by_cases hst : (s.contexts c).stage = .accepted
    · exact h.ok_next hp hd hn ho hm he hok hst
    · -- the request was put into the queue by this step
      rw [if_neg hst] at hacc
      cases a with
      | push x =>
        cases x with
        | request i d =>
          have hdc : d = c := by
            by_contra hne
            simp [requestSent, hne] at hacc
          subst hdc
          exact h.ok_pushed hp ho hm he rfl
        | _ => simp [requestSent] at hacc
      | _ => simp [requestSent] at hacc

theorem idsIssued_le {b : Bool} (h : Machine.Reaches (machine b) NoPacketTimeout s) : s.idsIssued ≤ 2 ^ 64 := by
  refine h.invariant (P := fun s => s.idsIssued ≤ 2 ^ 64) (Nat.zero_le _) ?_
  intro s a hle _ hok
  show (s.next a).idsIssued ≤ 2 ^ 64
  rcases idsIssued_next s a with ⟨hsame, -⟩ | ⟨⟨i, rfl⟩, hsucc⟩
  · omega
  · have hlt : s.idsIssued < 2 ^ 64 := hok
    omega

theorem streams_of_reaches {b : Bool} (h : Machine.Reaches (machine b) NoPacketTimeout s) : s.Streams := by
  refine h.invariant_of (Q := fun s => s.Placed ∧ s.IdsDistinct ∧ s.Numbered ∧ s.OpenOk ∧ s.MutexOk) ?_
    (streams_start b) ?_
  · intro s hs
    have hle := idsIssued_le hs
    have hn := numbered_of_reachable hs.reachable
    exact ⟨placed_of_reachable hs.reachable hle, fun c d => hn.id_injective hle, hn, openOk_of_reachable hs.reachable,
      mutexOk_of_reachable hs.reachable⟩
  · rintro s a ⟨hp, hd, hn, ho, hm⟩ ih he hok
    exact streams_next ih hp hd hn ho hm he hok

/-! ## Parts of runs -/

/-- The reader takes a packet from the network and puts it into the queue. -/
def forwardPacket (p : SrvPacket) : List Action :=
  [.read 0 (some p), .checkFlag 0 p, .enter (.response 0 p false), .push (.response 0 p false)]

/-- The request of the first client is written, with a positive timeout. -/
def timedRequest : List Action := .setTimeout true :: sendRequest 0 0 0 ++ [.takeRequest 0 [], .writeOk 0]

end Conn

end GoLdap
