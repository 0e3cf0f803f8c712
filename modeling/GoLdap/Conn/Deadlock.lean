import GoLdap.Conn.MessageIds

/-!
# Conn.Deadlock — a `Close` that waits for `processMessages`

`Close` holds the mutex until `processMessages` has ended, and `processMessages` ends only when every `sendResponse` has
returned: when the client takes the response or has closed the `done` channel.  A client in the second exchange of an
operation does neither for the first one, and waits itself for an ID or for the mutex; the goroutine of `SearchAsync` does
neither while it waits for its consumer (`close_deadlock`).  As long as, once `Close` has begun, a response is sent only to
a context whose client is at it, `Close` does not get stuck (`close_progress`).
-/

namespace GoLdap

namespace Conn

variable {s : Conn} {a : Action}

/-- The steps that a party takes by itself.  The others wait for a packet of the server, for a TLS handshake, for a caller
of the API, for the consumer of a `SearchAsync` or for the cancellation of its context.  The end of a write to the network is
a step of `processMessages`: a write is taken to return, with an error or without one. -/
def Internal : Action → Prop
  | .begin _ | .beginTLS _ | .beginClose _ | .cancel _ _ | .consume _ _ | .tlsAbort _ _ _ | .tlsUpgrade _ _ _ => False
  | .read _ _ | .readFail _ | .readFailClosing _ => False
  | .setTimeout _ => False
  | _ => True

/-- The client is at the exchange of the context and will receive a response or close the `done` channel.  `StartTLS` will
if the server has refused, and is in a TLS handshake otherwise. -/
def Attends (c : ℕ) : ClientPc → Prop
  | .active d | .receiving d | .finishing d .closeDone => d = c
  | .tlsGot d r => d = c ∧ succeeded r = false
  | _ => False

/-- A send to the context can end. -/
def Attended (s : Conn) (c : ℕ) : Prop := (s.contexts c).done = true ∨ ∃ i, Attends c (s.clients i).pc

/-- The condition for a `Close` that returns, on sends without a timeout.  A send that is under way when `Close` begins is
to an attended context; afterwards `processMessages` sends a response to a context only if its client is done with it or at
it, and the client does not turn to another exchange, to `Close` or to its consumer while the response is being sent. -/
def SendsAttended (s : Conn) : Action → Prop
  | .closeEnter _ => ∀ c r n, s.proc = .sending c r false n → s.Attended c
  | .takeResponse _ c _ | .takeTimeout _ c _ | .writeFail c | .cleanupSend _ c =>
    s.closing = true → s.requestTimeout = false → s.Attended c
  | .beginNext _ c | .tlsAbort _ c _ | .offer _ c => s.closing = true → ∀ r n, s.proc ≠ .sending c r false n
  | _ => True

/-! ## The contexts of `processMessages` exist -/

/-- The context `processMessages` is busy with. -/
def procContext : ProcPc → Option ℕ
  | .writing c | .sending c _ _ _ => some c
  | _ => none

structure Known (s : Conn) : Prop where
  queued : ∀ c, .request c ∈ s.chanMessage → c < s.created
  proc : ∀ c, procContext s.proc = some c → c < s.created
  registered : ∀ e ∈ s.messageContexts, e.2 < s.created

theorem known_start (b : Bool) : (start b).Known where
  queued _ h := by cases h
  proc _ h := by cases h
  registered _ h := by cases h

theorem known_next (h : s.Known) (hm : s.MutexOk) (ho : s.Owned) (he : s.Enabled a) : (s.next a).Known := by
  have hle : s.created ≤ (s.next a).created := by
    rcases created_next s a with ⟨hsame, -⟩ | ⟨-, -, -, hsucc⟩ <;> omega
  have hq : ∀ {m : Message} {q : List Message}, s.chanMessage = m :: q → ∀ c, .request c ∈ q → c < (s.next a).created := by
    intro m q hmq c hc
    exact Nat.lt_of_lt_of_le (h.queued c (by rw [hmq]; exact List.mem_cons_of_mem _ hc)) hle
  have hqueue : ∀ c, .request c ∈ s.chanMessage → c < (s.next a).created :=
    fun c hc => Nat.lt_of_lt_of_le (h.queued c hc) hle
  have hproc : ∀ c, procContext s.proc = some c → c < (s.next a).created :=
    fun c hc => Nat.lt_of_lt_of_le (h.proc c hc) hle
  have hreg : ∀ e ∈ s.messageContexts, e.2 < (s.next a).created :=
    fun e hmem => Nat.lt_of_lt_of_le (h.registered e hmem) hle
  have hdel : ∀ id, ∀ e ∈ s.messageContexts.filter (·.1 ≠ id), e.2 < (s.next a).created :=
    fun id e hmem => hreg e (List.mem_of_mem_filter hmem)
  have hstep := loop_next he
  suffices hall : (∀ c, .request c ∈ (s.next a).chanMessage → c < (s.next a).created) ∧
      (∀ c, procContext (s.next a).proc = some c → c < (s.next a).created) ∧
      ∀ e ∈ (s.next a).messageContexts, e.2 < (s.next a).created from ⟨hall.1, hall.2.1, hall.2.2⟩
  generalize (s.next a).chanMessage = q', (s.next a).proc = pc, (s.next a).messageContexts = mc at hstep
  cases hstep with
  | other => exact ⟨hqueue, hproc, hreg⟩
  | @pushed x hx =>
    refine ⟨fun c hc => ?_, hproc, hreg⟩
    rcases List.mem_append.mp hc with hc | hc
    · exact hqueue c hc
    · -- the sender of a request holds its context
      cases x with
      | request i d =>
        obtain rfl := Message.request.inj (List.mem_singleton.mp hc)
        have hheld : c ∈ holds (s.clients i) := by simp [holds_of_pc (hm.holder _ hx).1, current]
        exact Nat.lt_of_lt_of_le (ho.held i c hheld).1 hle
      | _ => simp [Sender.message] at hc
  | quitPushed =>
    refine ⟨fun c hc => hqueue c ?_, hproc, hreg⟩
    simpa using hc
  | takeQuit _ hmq => exact ⟨hq hmq, by simp [procContext], hreg⟩
  | takeNil => exact ⟨hqueue, by simp [procContext], hreg⟩
  | @takeRequest d _ _ hmq =>
    refine ⟨hq hmq, fun c hc => ?_, hreg⟩
    obtain rfl := Option.some.inj hc
    exact hqueue d (by rw [hmq]; exact List.mem_cons_self)
  | @writeOk d hpc =>
    refine ⟨hqueue, by simp [procContext], fun e hmem => ?_⟩
    rcases List.mem_cons.mp hmem with rfl | hmem
    · exact hproc d (by rw [hpc]; rfl)
    · exact hdel _ e hmem
  | writeFail hpc => exact ⟨hqueue, fun c hc => hproc c (by rw [hpc]; exact hc), hreg⟩
  | startSend ha _ hmq =>
    refine ⟨hq hmq, fun c hc => ?_, hreg⟩
    obtain rfl := Option.some.inj hc
    cases ha with
    | response hmem | timeout hmem => exact hreg _ hmem
  | ignored _ _ hmq => exact ⟨hq hmq, by simp [procContext], hreg⟩
  | takeFinish _ hmq => exact ⟨hq hmq, by simp [procContext], hdel _⟩
  | @endSend _ d r t n =>
    refine ⟨hqueue, by cases n <;> simp [procAfter, procContext], ?_⟩
    unfold registryAfter
    split_ifs
    · exact hdel _
    · exact hreg
  | cleanupClose => exact ⟨hqueue, by simp [procContext], hdel _⟩
  | cleanupSend _ hmem =>
    refine ⟨hqueue, fun c hc => ?_, hreg⟩
    obtain rfl := Option.some.inj hc
    exact hreg _ hmem
  | cleanupEnd => exact ⟨hqueue, by simp [procContext], hreg⟩

theorem known_of_reachable {b : Bool} (h : (machine b).Reachable s) : s.Known := by
  refine h.invariant_of (Q := fun s => s.MutexOk ∧ s.Owned) ?_ (known_start b) ?_
  · exact fun s hs => ⟨mutexOk_of_reachable hs, owned_of_reachable hs⟩
  · exact fun s a hq hs he _ => known_next hs hq.1 hq.2 he

/-! ## Sends are attended -/

/-- The client of a context stays with it, or closes its `done` channel. -/
theorem attended_next {c : ℕ} (h : s.Attended c) (hlt : c < s.created) (hm : s.MutexOk) (he : s.Enabled a)
    (hnext : ∀ i, a ≠ .beginNext i c) (habort : ∀ i p, a ≠ .tlsAbort i c p) (hoffer : ∀ i, a ≠ .offer i c)
    (hdeliver : ∀ i d r t n, a ≠ .deliver i d r t n) : (s.next a).Attended c := by
  rcases h with hdone | ⟨i, hat⟩
  · left
    rcases context_done s a (Nat.ne_of_lt hlt) with hsame | ⟨i, rfl⟩
    · rw [hsame, hdone]
    · simp [next]
  · have hstep := clients_next hm he i
    have hkeep : ∀ {pc : ClientPc}, ((s.next a).clients i).pc = pc → Attends c pc → (s.next a).Attended c :=
      fun hpc h => Or.inr ⟨i, hpc ▸ h⟩
    generalize hcl : (s.next a).clients i = cl at hstep hkeep
    cases hstep with
    | same => exact hkeep rfl hat
    | begun _ hpc =>
      rw [hpc] at hat
      exact hat.elim
    | nested hpc =>
      rw [hpc] at hat
      obtain rfl : _ = c := hat
      exact absurd rfl (hnext i)
    | moved hpc hmove =>
      rw [hpc] at hat
      cases hmove with
      | receive | receiveClosed | cancel | finish => exact hkeep rfl hat
      | receiveClosedTLS => exact hkeep rfl ⟨hat, rfl⟩
      | tlsFail | tlsUpgrade => exact hkeep rfl hat.1
      | delivered | deliveredTLS => exact absurd rfl (hdeliver _ _ _ _ _)
      | tlsAbort =>
        obtain rfl : _ = c := hat.1
        exact absurd rfl (habort i _)
      | offer =>
        obtain rfl : _ = c := hat
        exact absurd rfl (hoffer i)
      | closeDone =>
        obtain rfl : _ = c := hat
        exact Or.inl (by simp [next])
      | _ => exact hat.elim
    | returned hpc hret =>
      rw [hpc] at hat
      cases hret <;> exact hat.elim

/-- Once `Close` has begun, what `processMessages` sends without a timeout it sends to an attended context. -/
def AllAttended (s : Conn) : Prop := s.closing = true → ∀ c r n, s.proc = .sending c r false n → s.Attended c

theorem allAttended_next (h : s.AllAttended) (hk : s.Known) (hm : s.MutexOk) (he : s.Enabled a)
    (hok : SendsAttended s a) : (s.next a).AllAttended := by
  intro hclosing c r n hpc
  obtain hbefore | ⟨k, rfl⟩ := closing_next.mp hclosing
  swap
  · -- `Close` begins, and nothing else changes
    exact hok c r n hpc
  have hstep := loop_next he
  have hold : (∀ i d r t n, a ≠ .deliver i d r t n) → s.proc = .sending c r false n → (s.next a).Attended c := by
    intro hdeliver hp
    refine attended_next (h hbefore c r n hp) (hk.proc c (by rw [hp]; rfl)) hm he ?_ ?_ ?_ hdeliver
    · rintro i rfl
      exact hok hbefore r n hp
    · rintro i p rfl
      exact hok hbefore r n hp
    · rintro i rfl
      exact hok hbefore r n hp
  -- a send that starts here does not move the client
  have hstart : s.Attended c → (∀ i, (s.next a).clients i = s.clients i) → (s.next a).contexts c = s.contexts c →
      (s.next a).Attended c := by
    intro hat hcl hctx
    unfold Attended at hat ⊢
    rw [hctx]
    simpa only [hcl] using hat
  have htimeout {d : ℕ} {r' : Response} {t : Bool} {n' : AfterSend}
      (heq : ProcPc.sending d r' t n' = .sending c r false n) : d = c ∧ t = false := by
    cases heq
    exact ⟨rfl, rfl⟩
  generalize (s.next a).chanMessage = q', (s.next a).proc = pc, (s.next a).messageContexts = mc at hstep hpc
  cases hstep with
  | other ha =>
    refine hold ?_ hpc
    rintro i d r t n rfl
    exact ha trivial
  | pushed | quitPushed => exact hold (by rintro _ _ _ _ _ ⟨⟩) hpc
  | writeFail =>
    obtain ⟨rfl, huntimed⟩ := htimeout hpc
    exact hstart (hok hbefore huntimed) (fun _ => rfl) rfl
  | startSend ha =>
    cases ha with
    | response | timeout =>
      obtain ⟨rfl, huntimed⟩ := htimeout hpc
      exact hstart (hok hbefore huntimed) (fun _ => rfl) rfl
  | cleanupSend =>
    obtain ⟨rfl, huntimed⟩ := htimeout hpc
    exact hstart (hok hbefore huntimed) (fun _ => rfl) rfl
  | @endSend _ _ _ _ n' => cases n' <;> cases hpc
  | _ => cases hpc

theorem allAttended_of_reaches {b : Bool} (h : Machine.Reaches (machine b) SendsAttended s) : s.AllAttended := by
  refine h.invariant_of (P := AllAttended) (Q := fun s => s.Known ∧ s.MutexOk) ?_ (fun hclosing => by cases hclosing) ?_
  · exact fun s hs => ⟨known_of_reachable hs.reachable, mutexOk_of_reachable hs.reachable⟩
  · exact fun s a hq hs he hok => allAttended_next hs hq.1 hq.2 he hok

/-! ## Progress -/

/-- `processMessages` can take any message off its queue. -/
theorem take_enabled (hp : s.proc = .loop) {m : Message} {q : List Message} (hq : s.chanMessage = m :: q) :
    ∃ a, s.Enabled a ∧ Internal a := by
  have hlookup : ∀ id, (∃ c, (id, c) ∈ s.messageContexts) ∨ s.Unknown id := by
    intro id
    by_cases h : ∃ c, (id, c) ∈ s.messageContexts
    · exact Or.inl h
    · refine Or.inr ?_
      rintro ⟨id', c⟩ hmem rfl
      exact h ⟨c, hmem⟩
  cases m with
  | quit => exact ⟨.takeQuit q, ⟨hp, hq⟩, trivial⟩
  | request c => exact ⟨.takeRequest c q, ⟨hp, hq⟩, trivial⟩
  | response p =>
    rcases hlookup p.id with ⟨c, hc⟩ | hu
    · exact ⟨.takeResponse p c q, ⟨hp, hq, hc⟩, trivial⟩
    · exact ⟨.takeUnexpected p q, ⟨hp, hq, hu⟩, trivial⟩
  | finish id =>
    rcases hlookup id with ⟨c, hc⟩ | hu
    · exact ⟨.takeFinish id c q, ⟨hp, hq, hc⟩, trivial⟩
    · exact ⟨.takeStaleFinish id q, ⟨hp, hq, hu⟩, trivial⟩
  | timeout id =>
    rcases hlookup id with ⟨c, hc⟩ | hu
    · exact ⟨.takeTimeout id c q, ⟨hp, hq, hc⟩, trivial⟩
    · exact ⟨.takeStaleTimeout id q, ⟨hp, hq, hu⟩, trivial⟩

/-- A send to an attended context can end, or its client can go on. -/
theorem send_enabled {c : ℕ} {r : Response} {t : Bool} {n : AfterSend} (hp : s.proc = .sending c r t n)
    (h : s.Attended c) : ∃ a, s.Enabled a ∧ Internal a := by
  rcases h with hdone | ⟨i, hat⟩
  · exact ⟨.skipDone c r t n, ⟨hp, hdone⟩, trivial⟩
  · cases hpc : (s.clients i).pc with
    | active d => exact ⟨.receive i d, hpc, trivial⟩
    | receiving d =>
      rw [hpc] at hat
      obtain rfl : d = c := hat
      exact ⟨.deliver i d r t n, ⟨hp, hpc⟩, trivial⟩
    | tlsGot d r' =>
      rw [hpc] at hat
      exact ⟨.tlsFail i d r', ⟨hpc, hat.2⟩, trivial⟩
    | finishing d stage =>
      rw [hpc] at hat
      cases stage with
      | closeDone => exact ⟨.closeDone i d, hpc, trivial⟩
      | _ => exact hat.elim
    | _ =>
      rw [hpc] at hat
      exact hat.elim

/-- In the cleanup there is always something to do. -/
theorem cleanup_enabled (hp : s.proc = .cleanup) : ∃ a, s.Enabled a ∧ Internal a := by
  cases hmc : s.messageContexts with
  | nil => exact ⟨.cleanupEnd, ⟨hp, hmc⟩, trivial⟩
  | cons e rest =>
    have hmem : (e.1, e.2) ∈ s.messageContexts := by rw [hmc]; exact List.mem_cons_self
    by_cases herr : s.closing = true ∧ s.closeErr = true
    · exact ⟨.cleanupSend e.1 e.2, ⟨hp, hmem, herr.1, herr.2⟩, trivial⟩
    · exact ⟨.cleanupClose e.1 e.2, ⟨hp, hmem, herr⟩, trivial⟩

/-- **Closing does not deadlock.**  In every run in which responses are sent to attended contexts only, once `Close` has
begun, a party can take a step in every state in which a `Close` waits for the confirmation. -/
theorem close_progress (b : Bool) (s : Conn) (h : Machine.Reaches (machine b) SendsAttended s) (k : Closer) (t : Bool)
    (hk : s.messageMutex = some (.confirm k t)) : ∃ a, s.Enabled a ∧ Internal a := by
  cases hp : s.proc with
  | loop =>
    -- the quit message is in the queue
    cases quitPhase_of_reachable h.reachable with
    | unsent hs =>
      rcases hs.2 with hopen | ⟨k', hq⟩
      · rw [((mutexOk_of_reachable h.reachable).holder _ hk).2] at hopen
        cases hopen
      · rw [hk] at hq
        cases hq
    | @queued l _ hq =>
      cases hl : s.chanMessage with
      | nil => simp [hl] at hq
      | cons m q => exact take_enabled hp hl
    | taken _ _ hpast =>
      rw [hp] at hpast
      exact hpast.elim
  | writing c => exact ⟨.writeOk c, hp, trivial⟩
  | sending c r t' n =>
    cases t' with
    | true => exact ⟨.skipTimeout c r n, hp, trivial⟩
    | false =>
      have hclosing : s.closing = true := ((mutexOk_of_reachable h.reachable).holder _ hk).2
      exact send_enabled hp (allAttended_of_reaches h hclosing c r n hp)
  | cleanup => exact cleanup_enabled hp
  | stopped => exact ⟨.closeReturn k t, ⟨hk, Or.inl hp⟩, trivial⟩

/-! ## Runs -/

/-- The first exchange of an operation, up to the response. -/
def firstExchange (p : SrvPacket) : List Action :=
  sendRequest 0 0 0 ++ [.takeRequest 0 [], .writeOk 0, .read 0 (some p), .checkFlag 0 p, .enter (.response 0 p false),
    .push (.response 0 p false), .takeResponse p 0 [], .receive 0 0, .deliver 0 0 (.packet p) false .resume]

/-- The reader fails, and its `Close` waits for `processMessages`, which sends the error to the first context. -/
def readerFails : List Action :=
  [.readFail 0, .storeErr 0, .closeEnter (.reader 0), .closeQuit (.reader 0), .takeQuit [], .cleanupSend 1 0]

/-- The next packet arrives, and `processMessages` sends it while another client calls `Close`. -/
def closesMeanwhile (p : SrvPacket) : List Action :=
  [.read 0 (some p), .checkFlag 0 p, .enter (.response 0 p false), .push (.response 0 p false), .takeResponse p 0 [],
    .beginClose 1, .closeEnter (.client 1 none), .closeQuit (.client 1 none)]

/-- The client is at its first exchange: it can still receive the error. -/
theorem close_progress_attended :
    ∃ s, Machine.Reaches (machine false) SendsAttended s ∧ s.messageMutex = some (.confirm (.reader 0) false) ∧
      s.proc = .sending 0 .closeError false .cleanup ∧ ∃ a, s.Enabled a ∧ Internal a := by
  let run := firstExchange ⟨1, true, 0⟩ ++ readerFails
  have hrun : Machine.Reaches (machine false) SendsAttended ((machine false).after (start false) run) := by
    apply Machine.reaches_after
    repeat' apply And.intro
    any_goals first | trivial | decide
    · rintro ⟨⟩
    · -- nothing is being sent when `Close` begins
      rintro c r n ⟨⟩
    · exact fun _ _ => Or.inr ⟨0, rfl⟩
  exact ⟨_, hrun, rfl, rfl, close_progress false _ hrun (.reader 0) false rfl⟩

/-- The client cannot go on by itself while the mutex is held and `processMessages` is busy. -/
def Waits : ClientPc → Prop
  | .idle | .wantID | .offering _ | .closing _ => True
  | _ => False

/-- No party can go on: `processMessages` sends to a context that is not done and that no one reads from, `Close` waits for
it, and every client waits for an ID, for its consumer or for the mutex, or is between operations. -/
theorem stuck_of_unattended {c : ℕ} {r : Response} {n : AfterSend} {k : Closer}
    (hp : s.proc = .sending c r false n) (hk : s.messageMutex = some (.confirm k false))
    (hdone : (s.contexts c).done = false) (hclients : ∀ i, Waits (s.clients i).pc)
    (hreaders : ∀ j, s.readers j ≠ .storing) (htimers : ∀ d, (s.contexts d).timer = .off) :
    ∀ a, s.Enabled a → ¬ Internal a := by
  intro a he
  have hwaits {i : ℕ} {pc : ClientPc} (hpc : (s.clients i).pc = pc) : Waits pc := hpc ▸ hclients i
  cases a with
  | begin | beginTLS | beginClose | cancel | consume | tlsAbort | tlsUpgrade | read | readFail | readFailClosing
  | setTimeout => exact id
  | takeID i | takeClosedID i =>
    rw [Enabled, hp] at he
    cases he.2
  | admitSend i | admitRefused i | decrement i | enter | refuse | closeEnter | closeAgain | checkFlag | checkFlagNoID =>
    have hfree := he.2
    simp [hk] at hfree
  | beginNext i | abandon i | checkSend i | checkSendClosing i | receiveClosed i | offer i | finish i | checkFinish i
  | checkFinishClosing i | tlsFail i => exact (hwaits he.1).elim
  | receive i | closeDone i => exact (hwaits he).elim
  | push | closeQuit =>
    have hholder := he.1
    simp [hk] at hholder
  | closeReturn k' t =>
    obtain ⟨hholder, hend⟩ := he
    rw [hk] at hholder
    cases hholder
    simp [hp] at hend
  | takeQuit | takeNil | takeRequest | takeResponse | takeUnexpected | takeTimeout | takeStaleTimeout | takeFinish
  | takeStaleFinish | cleanupClose | cleanupSend | cleanupEnd =>
    have hpc := he.1
    simp [hp] at hpc
  | writeOk | writeFail | skipTimeout =>
    have hpc : _ = _ := he
    simp [hp] at hpc
  | deliver i => exact (hwaits he.2).elim
  | skipDone =>
    obtain ⟨hpc, hd⟩ := he
    rw [hp] at hpc
    cases hpc
    rw [hdone] at hd
    cases hd
  | storeErr j => exact absurd he (hreaders j)
  | fire d =>
    have ht : _ = _ := he
    simp [htimers d] at ht
  | stopTimer d =>
    have ht := he.1
    simp [htimers d] at ht

/-- The client has started its second exchange, and waits for an ID when the reader fails.  A `SearchAsync` waits for its
consumer when the next packet arrives and another client calls `Close`. -/
theorem close_deadlock :
    (∃ s, (machine false).Reachable s ∧ s.requestTimeout = false ∧ (s.clients 0).pc = .wantID ∧
      s.messageMutex = some (.confirm (.reader 0) false) ∧ ¬ ∃ a, s.Enabled a ∧ Internal a) ∧
    ∃ s, (machine false).Reachable s ∧ s.requestTimeout = false ∧ (s.clients 0).pc = .offering 0 ∧
      s.messageMutex = some (.confirm (.client 1 none) false) ∧ ¬ ∃ a, s.Enabled a ∧ Internal a := by
  let run₁ := firstExchange ⟨1, true, 0⟩ ++ .beginNext 0 0 :: readerFails
  let run₂ := firstExchange ⟨1, true, 0⟩ ++ .offer 0 0 :: closesMeanwhile ⟨1, true, 1⟩
  refine ⟨⟨_, Machine.reachable_after (M := machine false) run₁ (by decide), rfl, rfl, rfl, ?_⟩,
    ⟨_, Machine.reachable_after (M := machine false) run₂ (by decide), rfl, rfl, rfl, ?_⟩⟩
  · rintro ⟨a, he, hint⟩
    refine stuck_of_unattended (c := 0) (k := .reader 0) rfl rfl rfl ?_ ?_ ?_ a he hint
    · rintro (_ | i) <;> trivial
    · rintro (_ | j) ⟨⟩
    · rintro (_ | d) <;> rfl
  · rintro ⟨a, he, hint⟩
    refine stuck_of_unattended (c := 0) (k := .client 1 none) rfl rfl rfl ?_ ?_ ?_ a he hint
    · rintro (_ | _ | i) <;> trivial
    · rintro (_ | j) ⟨⟩
    · rintro (_ | d) <;> rfl

end Conn

end GoLdap
