import GoLdap.Lib.Machine
import GoLdap.Search.Async
import GoLdap.Search.Robust

/-!
# Search.Cancel — cancelling a `SearchAsync` (`response.go`)

The worker of a `SearchAsync`, its consumer and the cancellation of its context as a state machine.  A result goes into
the buffer of the channel when there is room, or from the worker to the consumer when the buffer is empty.  The worker
sends by `send`, which gives up when the context is cancelled, with one exception: the error for an entry whose
attributes cannot be unpacked is sent by `r.ch <- …`, which waits for the buffer or for the consumer.

* `sent_eq`: what has been sent so far is what the worker of `Search.Async` sends, up to what is given up.
* `history_of_reachable`: the responses the worker has handled when it is at a send.
* `reachable_blocked`: a consumer that stops in time leaves the buffer full at the send that does not give up.
-/

namespace GoLdap

open Go Ber

/-! ## The machine -/

/-- The error of an entry is sent without looking at the context: its attributes cannot be unpacked. -/
def sendsUnguarded (packet : Packet) : Bool :=
  match packet.children[1]? with
  | none => false
  | some op => op.tag = applicationSearchResultEntry && !(unpackAttributes (attributePackets op)).isOk

/-- Where the worker is: it has not begun; it waits for a response; it is at a send, by `send` or not, after which it goes
on or returns; or it has closed the channel. -/
inductive WorkerPoint (C : Type) where
  | start
  | receiving
  | sending (guarded goesOn : Bool) (res : SearchSingleResult C)
  | ended

def WorkerPoint.IsSend {C : Type} : WorkerPoint C → Prop
  | .sending _ _ _ => True
  | _ => False

/-- A call of `SearchAsync`: the request, the responses and the size of the buffer. -/
structure AsyncSearch (C : Type) where
  encoder : Encoder
  addControlDescriptions : Assign
  decodeControl : Packet → Outcome Err C
  conn : Connection
  req : SearchRequest
  responses : Responses
  bufferSize : ℤ

/-- The responses not yet received, the results in the buffer, those the consumer has taken, and the context. -/
structure AsyncState (C : Type) where
  point : WorkerPoint C
  pending : List (Except Err Packet)
  buffer : List (SearchSingleResult C)
  taken : List (SearchSingleResult C)
  cancelled : Bool

inductive AsyncAction where
  -- the worker
  | begin
  | receive
  | leave
  | enqueue
  | giveUp
  -- the consumer, in `Next`
  | take
  -- the caller
  | cancel
  deriving DecidableEq

namespace AsyncSearch

variable {C : Type} (a : AsyncSearch C)

/-- `newSearchResponse`: the capacity of the channel. -/
def capacity : ℕ := if a.bufferSize > 0 then a.bufferSize.toNat else 0

/-- The worker up to its loop. -/
def begun : WorkerPoint C :=
  if a.conn.closing then .ended
  else
    match a.req.appendTo a.encoder (requestEnvelope a.encoder a.conn.messageID) with
    | .panic => .ended
    | .err e => .sending true false (.ofError e)
    | .ok packet =>
      match a.conn.sendMessage packet with
      | some e => .sending true false (.ofError e)
      | none => .receiving

/-- The worker on a response. -/
def received : Except Err Packet → WorkerPoint C
  | .error e => .sending true false (.ofError e)
  | .ok packet =>
    match describeInDebug a.addControlDescriptions a.conn.debug packet with
    | .error e => .sending true false (.ofError e)
    | .ok described =>
      match handle a.decodeControl described with
      | .panic => .ended
      | .stop r => .sending (!sendsUnguarded described) false r
      | .found none => .ended
      | .found (some r) => .sending true false r
      | .goOn r => .sending true true r

/-- The worker behind a send. -/
def sentPoint (goesOn : Bool) : WorkerPoint C := if goesOn then .receiving else .ended

def Enabled (s : AsyncState C) : AsyncAction → Prop
  | .begin => s.point = .start
  | .receive => s.point = .receiving ∧ (s.pending ≠ [] ∨ a.responses.closed = true)
  | .leave => s.point = .receiving ∧ s.cancelled = true
  | .enqueue => s.point.IsSend ∧ s.buffer.length < a.capacity
  | .giveUp => (∃ goesOn res, s.point = .sending true goesOn res) ∧ s.cancelled = true
  | .take => s.buffer ≠ [] ∨ s.point.IsSend
  | .cancel => True

def next (s : AsyncState C) : AsyncAction → AsyncState C
  | .begin => { s with point := a.begun, pending := a.responses.packets }
  | .receive =>
    match s.pending with
    | [] => { s with point := .sending true false (.ofError errResponseChannelClosed) }
    | r :: rest => { s with point := a.received r, pending := rest }
  | .leave => { s with point := .ended }
  | .enqueue =>
    match s.point with
    | .sending _ goesOn res => { s with point := sentPoint goesOn, buffer := s.buffer ++ [res] }
    | _ => s
  | .giveUp => { s with point := .ended }
  | .take =>
    match s.buffer, s.point with
    | res :: rest, _ => { s with buffer := rest, taken := s.taken ++ [res] }
    -- from the worker to the consumer
    | [], .sending _ goesOn res => { s with point := sentPoint goesOn, taken := s.taken ++ [res] }
    | [], _ => s
  | .cancel => { s with cancelled := true }

def machine : Machine (AsyncState C) AsyncAction where
  init := ⟨.start, [], [], [], false⟩
  Enabled := a.Enabled
  next := a.next

/-- The worker of the model without cancellation. -/
def worker : Worker C :=
  a.conn.searchAsync a.encoder a.addControlDescriptions a.decodeControl a.req a.responses

/-- Its loop on the responses that are left. -/
def loop (pending : List (Except Err Packet)) : Worker C :=
  workerLoop a.decodeControl a.addControlDescriptions a.conn.debug a.responses.closed pending

/-! ## What is sent -/

/-- What the worker is still going to send, if nothing is cancelled. -/
def remaining : WorkerPoint C → List (Except Err Packet) → List (SearchSingleResult C)
  | .start, _ => a.worker.sent
  | .receiving, pending => (a.loop pending).sent
  | .sending _ goesOn res, pending => res :: if goesOn then (a.loop pending).sent else []
  | .ended, _ => []

theorem remaining_begun : a.remaining a.begun a.responses.packets = a.worker.sent := by
  unfold begun worker Connection.searchAsync
  by_cases hclosing : a.conn.closing = true
  · rw [if_pos hclosing, if_pos hclosing]
    rfl
  rw [if_neg hclosing, if_neg hclosing]
  cases a.req.appendTo a.encoder (requestEnvelope a.encoder a.conn.messageID) with
  | panic => rfl
  | err e => rfl
  | ok packet =>
    dsimp only
    cases a.conn.sendMessage packet with
    | some e => rfl
    | none => rfl

theorem remaining_received (r : Except Err Packet) (rest : List (Except Err Packet)) :
    a.remaining (a.received r) rest = (a.loop (r :: rest)).sent := by
  unfold received loop
  cases r with
  | error e => rfl
  | ok packet =>
    rw [workerLoop]
    dsimp only
    cases describeInDebug a.addControlDescriptions a.conn.debug packet with
    | error e => rfl
    | ok described =>
      dsimp only
      cases handle a.decodeControl described with
      | panic => rfl
      | stop r => rfl
      | found r => cases r <;> rfl
      | goOn r => rfl

theorem remaining_sentPoint (goesOn : Bool) (pending : List (Except Err Packet)) :
    a.remaining (sentPoint goesOn) pending = if goesOn then (a.loop pending).sent else [] := by
  cases goesOn <;> rfl

/-- What has been sent and what is left are the results of the worker, up to those given up. -/
def Accounted (s : AsyncState C) : Prop :=
  ∃ lost, s.taken ++ s.buffer ++ a.remaining s.point s.pending ++ lost = a.worker.sent ∧ (s.cancelled = false → lost = [])

/-- A result goes to the buffer or to the consumer. -/
theorem Accounted.sent {guarded goesOn cancelled : Bool} {res : SearchSingleResult C} {pending : List (Except Err Packet)}
    {buffer taken buffer' taken' : List (SearchSingleResult C)}
    (h : a.Accounted ⟨.sending guarded goesOn res, pending, buffer, taken, cancelled⟩)
    (hres : taken' ++ buffer' = taken ++ buffer ++ [res]) :
    a.Accounted ⟨sentPoint goesOn, pending, buffer', taken', cancelled⟩ := by
  obtain ⟨lost, hsent, hlost⟩ := h
  refine ⟨lost, ?_, hlost⟩
  rw [hres, remaining_sentPoint, List.append_assoc _ [res]]
  exact hsent

/-- What is left is lost. -/
theorem Accounted.ended {s : AsyncState C} (h : a.Accounted s) (hcancelled : s.cancelled = true) :
    a.Accounted { s with point := .ended } := by
  obtain ⟨lost, hsent, -⟩ := h
  refine ⟨a.remaining s.point s.pending ++ lost, ?_, fun hnot => ?_⟩
  · simpa only [remaining, List.append_nil, List.append_assoc] using hsent
  · rw [hcancelled] at hnot
    cases hnot

theorem accounted_next {s : AsyncState C} {act : AsyncAction} (h : a.Accounted s) (he : a.Enabled s act) :
    a.Accounted (a.next s act) := by
  obtain ⟨point, pending, buffer, taken, cancelled⟩ := s
  cases act with
  | begin =>
    obtain rfl : point = .start := he
    obtain ⟨lost, hsent, hlost⟩ := h
    refine ⟨lost, ?_, hlost⟩
    simp only [next, remaining_begun]
    exact hsent
  | receive =>
    obtain ⟨rfl, hpending⟩ : point = .receiving ∧ _ := he
    obtain ⟨lost, hsent, hlost⟩ := h
    cases pending with
    | nil =>
      have hclosed : a.responses.closed = true := hpending.resolve_left fun hne => hne rfl
      refine ⟨lost, ?_, hlost⟩
      rw [← hsent]
      simp only [next, remaining, loop, workerLoop, hclosed, if_true]
      rfl
    | cons r rest =>
      refine ⟨lost, ?_, hlost⟩
      simp only [next, remaining_received]
      exact hsent
  | leave => exact h.ended a he.2
  | enqueue =>
    cases point with
    | sending guarded goesOn res => exact h.sent a (List.append_assoc _ _ _).symm
    | start => exact he.1.elim
    | receiving => exact he.1.elim
    | ended => exact he.1.elim
  | giveUp => exact h.ended a he.2
  | take =>
    cases buffer with
    | cons res rest =>
      obtain ⟨lost, hsent, hlost⟩ := h
      refine ⟨lost, ?_, hlost⟩
      simpa only [next, List.append_assoc, List.cons_append, List.nil_append] using hsent
    | nil =>
      cases point with
      | sending guarded goesOn res => exact h.sent a (by simp)
      | start => exact h
      | receiving => exact h
      | ended => exact h
  | cancel =>
    obtain ⟨lost, hsent, -⟩ := h
    exact ⟨lost, hsent, by rintro ⟨⟩⟩

theorem accounted_of_reachable {s : AsyncState C} (h : a.machine.Reachable s) : a.Accounted s :=
  h.invariant ⟨[], by simp [machine, remaining], fun _ => rfl⟩ fun _ _ hs he _ => a.accounted_next hs he

/-- **Refinement**: what the machine has sent is a prefix of what the worker sends, and all of it once the worker has
ended without a cancellation. -/
theorem sent_eq {s : AsyncState C} (h : a.machine.Reachable s) : s.taken ++ s.buffer <+: a.worker.sent ∧
    (s.point = .ended → s.cancelled = false → s.taken ++ s.buffer = a.worker.sent) := by
  obtain ⟨lost, hsent, hlost⟩ := a.accounted_of_reachable h
  rw [List.append_assoc] at hsent
  refine ⟨⟨_, hsent⟩, fun hended hcancelled => ?_⟩
  rw [hended, hlost hcancelled, remaining, List.append_nil, List.append_nil] at hsent
  exact hsent

/-! ## The send that does not give up -/

/-- The request is sent. -/
def Sends : Prop :=
  ∃ packet, a.req.appendTo a.encoder (requestEnvelope a.encoder a.conn.messageID) = .ok packet ∧
    a.conn.sendMessage packet = none

/-- The worker sends a result for the packet and goes on. -/
def GoesOn (p : Packet) : Prop :=
  ∃ described r, describeInDebug a.addControlDescriptions a.conn.debug p = .ok described ∧
    handle a.decodeControl described = .goOn r

/-- The responses the worker has gone on behind, and the ones that are left. -/
structure Handles (before : List Packet) (after : List (Except Err Packet)) : Prop where
  sends : a.Sends
  packets : a.responses.packets = before.map .ok ++ after
  goesOn : ∀ q ∈ before, a.GoesOn q

/-- The worker gets to an entry whose attributes cannot be unpacked, behind at least as many results as fit into the
buffer. -/
def Blocks : Prop :=
  ∃ before p after, a.Handles before (.ok p :: after) ∧
    Describable a.addControlDescriptions a.conn.debug p ∧ sendsUnguarded p = true ∧ a.capacity ≤ before.length

/-- In every state reached with a cancelled context the worker can leave a send without the consumer. -/
def Frees : Prop :=
  ∀ s, a.machine.Reachable s → s.cancelled = true → s.point.IsSend →
    ∃ act, act ≠ .take ∧ a.machine.Enabled s act ∧ ¬ (a.machine.next s act).point.IsSend

theorem begun_of_sends (h : a.Sends) : a.begun = .receiving := by
  obtain ⟨packet, happend, hsend⟩ := h
  have hopen : ¬ a.conn.closing = true := by
    intro hclosing
    rw [Connection.sendMessage, if_pos hclosing] at hsend
    cases hsend
  rw [begun, if_neg hopen, happend]
  dsimp only
  rw [hsend]

theorem sendsUnguarded_iff {p : Packet} : sendsUnguarded p = true ↔
    ∃ op ∈ p.children[1]?, op.tag = applicationSearchResultEntry ∧ ¬ UnpacksAttributes op := by
  unfold sendsUnguarded UnpacksAttributes
  cases p.children[1]? with
  | none => simp
  | some op => cases hunpack : unpackAttributes (attributePackets op) <;> simp [Except.isOk, Except.toBool, hunpack]

theorem sendsUnguarded_describeInDebug {addControlDescriptions : Assign} {debug : Bool} {p q : Packet}
    (h : describeInDebug addControlDescriptions debug p = .ok q) : sendsUnguarded q = sendsUnguarded p := by
  have hsame := operation_describeInDebug h
  rw [Bool.eq_iff_iff, sendsUnguarded_iff, sendsUnguarded_iff]
  cases hq : q.children[1]? with
  | none =>
    rw [hq] at hsame
    cases hp : p.children[1]? with
    | none => exact Iff.rfl
    | some op =>
      rw [hp] at hsame
      cases hsame
  | some op =>
    rw [hq] at hsame
    cases hp : p.children[1]? with
    | none =>
      rw [hp] at hsame
      cases hsame
    | some op' =>
      rw [hp] at hsame
      have hop : op.undescribed = op'.undescribed := Option.some.inj hsame
      have htag : op.tag = op'.tag := by simpa using congrArg Packet.tag hop
      simp only [Option.mem_def, Option.some.injEq, exists_eq_left']
      rw [htag, ← unpacksAttributes_undescribed, hop, unpacksAttributes_undescribed]

theorem handle_of_sendsUnguarded (decodeControl : Packet → Outcome Err C) {p : Packet} (h : sendsUnguarded p = true) :
    ∃ r, handle decodeControl p = .stop r := by
  obtain ⟨op, hop, htag, hattributes⟩ := sendsUnguarded_iff.mp h
  rw [handle, Option.mem_def.mp hop]
  dsimp only
  rw [if_pos htag, handleEntry]
  rw [UnpacksAttributes, attributePackets] at hattributes
  rcases hcs : op.children with _ | ⟨name, _ | ⟨attributes, rest⟩⟩ <;> rw [hcs] at hattributes
  · exact absurd ⟨_, rfl⟩ hattributes
  · exact absurd ⟨_, rfl⟩ hattributes
  · dsimp only at hattributes ⊢
    cases hunpack : unpackAttributes attributes.children with
    | error e => exact ⟨_, rfl⟩
    | ok as => exact absurd ⟨as, hunpack⟩ hattributes

/-! ### What has been handled -/

/-- The point of the worker, the responses that are left and the number of results sent. -/
inductive History : WorkerPoint C → List (Except Err Packet) → ℕ → Prop
  | start (pending : List (Except Err Packet)) : History .start pending 0
  | receiving {before : List Packet} {after : List (Except Err Packet)} (h : a.Handles before after) :
      History .receiving after before.length
  | goesOn {before : List Packet} {p : Packet} {after : List (Except Err Packet)} {res : SearchSingleResult C}
      (h : a.Handles (before ++ [p]) after) : History (.sending true true res) after before.length
  | last (res : SearchSingleResult C) (pending : List (Except Err Packet)) (n : ℕ) :
      History (.sending true false res) pending n
  | unguarded {before : List Packet} {p : Packet} {after : List (Except Err Packet)} {res : SearchSingleResult C}
      (h : a.Handles before (.ok p :: after)) (hp : Describable a.addControlDescriptions a.conn.debug p)
      (hentry : sendsUnguarded p = true) : History (.sending false false res) after before.length
  | ended (pending : List (Except Err Packet)) (n : ℕ) : History .ended pending n

theorem history_begun : a.History a.begun a.responses.packets 0 := by
  unfold begun
  split_ifs with hclosing
  · exact .ended _ _
  cases happend : a.req.appendTo a.encoder (requestEnvelope a.encoder a.conn.messageID) with
  | panic => exact .ended _ _
  | err e => exact .last _ _ _
  | ok packet =>
    dsimp only
    cases hsend : a.conn.sendMessage packet with
    | some e => exact .last _ _ _
    | none =>
      have hhandles : a.Handles [] a.responses.packets := ⟨⟨packet, happend, hsend⟩, rfl, by simp⟩
      exact .receiving hhandles

theorem history_received {before : List Packet} {r : Except Err Packet} {after : List (Except Err Packet)}
    (h : a.Handles before (r :: after)) : a.History (a.received r) after before.length := by
  unfold received
  cases r with
  | error e => exact .last _ _ _
  | ok p =>
    dsimp only
    cases hq : describeInDebug a.addControlDescriptions a.conn.debug p with
    | error e => exact .last _ _ _
    | ok q =>
      dsimp only
      cases hhandle : handle a.decodeControl q with
      | panic => exact .ended _ _
      | stop r =>
        cases hentry : sendsUnguarded q with
        | false => exact .last _ _ _
        | true => exact .unguarded h (describable_iff.mpr ⟨q, hq⟩) (sendsUnguarded_describeInDebug hq ▸ hentry)
      | found r =>
        cases r with
        | none => exact .ended _ _
        | some r => exact .last _ _ _
      | goOn r =>
        refine .goesOn (p := p) ⟨h.sends, by rw [h.packets]; simp, fun p' hp' => ?_⟩
        rcases List.mem_append.mp hp' with hp' | hp'
        · exact h.goesOn p' hp'
        · obtain rfl := List.mem_singleton.mp hp'
          exact ⟨q, r, hq, hhandle⟩

theorem History.sent {guarded goesOn : Bool} {res : SearchSingleResult C} {pending : List (Except Err Packet)} {n : ℕ}
    (h : a.History (.sending guarded goesOn res) pending n) : a.History (sentPoint goesOn) pending (n + 1) := by
  cases h with
  | @goesOn before p _ _ h =>
    have hreceiving := History.receiving h
    rwa [List.length_append, List.length_singleton] at hreceiving
  | last => exact .ended _ _
  | unguarded => exact .ended _ _

/-- **The step**: the history goes on. -/
theorem history_next {s : AsyncState C} {act : AsyncAction}
    (h : a.History s.point s.pending (s.taken.length + s.buffer.length)) (he : a.Enabled s act) :
    a.History (a.next s act).point (a.next s act).pending
      ((a.next s act).taken.length + (a.next s act).buffer.length) := by
  obtain ⟨point, pending, buffer, taken, cancelled⟩ := s
  dsimp only at h
  cases act with
  | begin =>
    obtain rfl : point = .start := he
    generalize hn : taken.length + buffer.length = n at h
    cases h with
    | start =>
      simp only [next, hn]
      exact a.history_begun
  | receive =>
    obtain ⟨rfl, -⟩ : point = .receiving ∧ _ := he
    generalize hn : taken.length + buffer.length = n at h
    cases h with
    | receiving h =>
      cases pending with
      | nil => exact .last _ _ _
      | cons r rest =>
        simp only [next, hn]
        exact a.history_received h
  | leave => exact .ended _ _
  | enqueue =>
    cases point with
    | sending guarded goesOn res =>
      simp only [next, List.length_append, List.length_singleton, ← Nat.add_assoc]
      exact h.sent
    | start => exact h
    | receiving => exact h
    | ended => exact h
  | giveUp => exact .ended _ _
  | take =>
    cases buffer with
    | cons res rest =>
      have hlen : (taken ++ [res]).length + rest.length = taken.length + (res :: rest).length := by
        simp only [List.length_append, List.length_cons, List.length_nil]
        omega
      simp only [next, hlen]
      exact h
    | nil =>
      cases point with
      | sending guarded goesOn res =>
        simp only [next, List.length_append, List.length_singleton]
        exact h.sent
      | start => exact h
      | receiving => exact h
      | ended => exact h
  | cancel => exact h

/-- **The run**. -/
theorem history_of_reachable {s : AsyncState C} (h : a.machine.Reachable s) :
    a.History s.point s.pending (s.taken.length + s.buffer.length) :=
  h.invariant (.start _) fun _ _ hs he _ => a.history_next hs he

/-! ### A run to the send -/

section Run

variable {a}

theorem received_of_goesOn {p : Packet} (h : a.GoesOn p) : ∃ r, a.received (.ok p) = .sending true true r := by
  obtain ⟨q, r, hq, hr⟩ := h
  refine ⟨r, ?_⟩
  rw [received, hq]
  dsimp only
  rw [hr]

theorem received_of_sendsUnguarded {p : Packet} (hp : Describable a.addControlDescriptions a.conn.debug p)
    (h : sendsUnguarded p = true) : ∃ r, a.received (.ok p) = .sending false false r := by
  obtain ⟨q, hq⟩ := describable_iff.mp hp
  rw [← sendsUnguarded_describeInDebug hq] at h
  obtain ⟨r, hr⟩ := handle_of_sendsUnguarded a.decodeControl h
  refine ⟨r, ?_⟩
  rw [received, hq]
  dsimp only
  rw [hr, h]
  rfl

theorem reachable_step {s : AsyncState C} (h : a.machine.Reachable s) (act : AsyncAction) (he : a.Enabled s act) :
    a.machine.Reachable (a.next s act) :=
  .step h he trivial

theorem reachable_receive {r : Except Err Packet} {rest : List (Except Err Packet)}
    {buffer taken : List (SearchSingleResult C)} {cancelled : Bool}
    (h : a.machine.Reachable ⟨.receiving, r :: rest, buffer, taken, cancelled⟩) :
    a.machine.Reachable ⟨a.received r, rest, buffer, taken, cancelled⟩ :=
  reachable_step h .receive ⟨rfl, .inl (by simp)⟩

/-- The consumer takes every result. -/
theorem reachable_taken {before : List Packet} {after : List (Except Err Packet)} {taken : List (SearchSingleResult C)}
    (h : a.machine.Reachable ⟨.receiving, before.map .ok ++ after, [], taken, false⟩) (hgo : ∀ q ∈ before, a.GoesOn q) :
    ∃ taken', a.machine.Reachable ⟨.receiving, after, [], taken', false⟩ := by
  induction before generalizing taken with
  | nil => exact ⟨taken, h⟩
  | cons p before ih =>
    obtain ⟨r, hr⟩ := received_of_goesOn (hgo p (by simp))
    have hsend := reachable_receive h
    rw [hr] at hsend
    have htake : a.machine.Reachable ⟨.receiving, before.map .ok ++ after, [], taken ++ [r], false⟩ :=
      reachable_step hsend .take (.inr trivial)
    exact ih htake fun q hq => hgo q (by simp [hq])

/-- The consumer takes nothing, and the results go into the buffer. -/
theorem reachable_buffered {before : List Packet} {after : List (Except Err Packet)}
    {buffer taken : List (SearchSingleResult C)}
    (h : a.machine.Reachable ⟨.receiving, before.map .ok ++ after, buffer, taken, false⟩)
    (hgo : ∀ q ∈ before, a.GoesOn q) (hroom : buffer.length + before.length ≤ a.capacity) :
    ∃ buffer', buffer'.length = buffer.length + before.length ∧
      a.machine.Reachable ⟨.receiving, after, buffer', taken, false⟩ := by
  induction before generalizing buffer with
  | nil => exact ⟨buffer, rfl, h⟩
  | cons p before ih =>
    obtain ⟨r, hr⟩ := received_of_goesOn (hgo p (by simp))
    have hsend := reachable_receive h
    rw [hr] at hsend
    rw [List.length_cons] at hroom
    have hlt : buffer.length < a.capacity := by omega
    have henqueue : a.machine.Reachable ⟨.receiving, before.map .ok ++ after, buffer ++ [r], taken, false⟩ :=
      reachable_step hsend .enqueue ⟨trivial, hlt⟩
    obtain ⟨buffer', hlen, hreach⟩ := ih henqueue (fun q hq => hgo q (by simp [hq])) (by
      rw [List.length_append, List.length_singleton]
      omega)
    refine ⟨buffer', ?_, hreach⟩
    rw [hlen, List.length_append, List.length_singleton, List.length_cons]
    omega

/-- The worker is cancelled at the send that does not give up, with a full buffer. -/
theorem reachable_blocked (h : a.Blocks) : ∃ r after buffer taken, buffer.length = a.capacity ∧
    a.machine.Reachable ⟨.sending false false r, after, buffer, taken, true⟩ := by
  obtain ⟨before, p, after, ⟨hsends, hpackets, hgo⟩, hp, hentry, hlen⟩ := h
  have hbegin : a.machine.Reachable ⟨.receiving, a.responses.packets, [], [], false⟩ := by
    have hstep : a.machine.Reachable ⟨a.begun, a.responses.packets, [], [], false⟩ := reachable_step .init .begin rfl
    rwa [a.begun_of_sends hsends] at hstep
  -- the first results are taken, the last ones fill the buffer
  rw [hpackets, ← List.take_append_drop (before.length - a.capacity) before, List.map_append, List.append_assoc] at hbegin
  obtain ⟨taken, htaken⟩ := reachable_taken hbegin fun q hq => hgo q (List.mem_of_mem_take hq)
  have hdrop : (before.drop (before.length - a.capacity)).length = a.capacity := by
    rw [List.length_drop]
    omega
  obtain ⟨buffer, hbuffer, hfull⟩ := reachable_buffered htaken (fun q hq => hgo q (List.mem_of_mem_drop hq))
    (by rw [hdrop, List.length_nil]; omega)
  obtain ⟨r, hr⟩ := received_of_sendsUnguarded hp hentry
  have hsend := reachable_receive hfull
  rw [hr] at hsend
  refine ⟨r, after, buffer, taken, ?_, reachable_step hsend .cancel trivial⟩
  rw [hbuffer, hdrop, List.length_nil, Nat.zero_add]

/-- With a full buffer only the consumer ends this send. -/
theorem isSend_of_enabled {r : SearchSingleResult C} {after : List (Except Err Packet)}
    {buffer taken : List (SearchSingleResult C)} {act : AsyncAction} (hfull : a.capacity ≤ buffer.length)
    (hact : act ≠ .take) (he : a.machine.Enabled ⟨.sending false false r, after, buffer, taken, true⟩ act) :
    (a.machine.next ⟨.sending false false r, after, buffer, taken, true⟩ act).point.IsSend := by
  cases act with
  | begin => cases he
  | receive => cases he.1
  | leave => cases he.1
  | enqueue =>
    have hroom : buffer.length < a.capacity := he.2
    omega
  | giveUp =>
    obtain ⟨⟨goesOn, res, hpoint⟩, -⟩ := he
    cases hpoint
  | take => exact absurd rfl hact
  | cancel => trivial

end Run

/-- Cancellation frees the worker in every run exactly if the worker does not get to an entry whose attributes cannot be
unpacked behind as many results as fit into the buffer. -/
theorem frees_iff : a.Frees ↔ ¬ a.Blocks := by
  constructor
  · intro hfrees hblocks
    obtain ⟨r, after, buffer, taken, hfull, hreach⟩ := reachable_blocked hblocks
    obtain ⟨act, hact, he, hnot⟩ := hfrees _ hreach rfl trivial
    exact hnot (isSend_of_enabled hfull.ge hact he)
  · intro hblocks s hreach hcancelled hsend
    have hhistory := a.history_of_reachable hreach
    obtain ⟨point, pending, buffer, taken, cancelled⟩ := s
    cases point with
    | start => exact hsend.elim
    | receiving => exact hsend.elim
    | ended => exact hsend.elim
    | sending guarded goesOn res =>
      cases guarded with
      | true => exact ⟨.giveUp, by decide, ⟨⟨goesOn, res, rfl⟩, hcancelled⟩, id⟩
      | false =>
        dsimp only at hhistory
        generalize hn : taken.length + buffer.length = n at hhistory
        cases hhistory with
        | @unguarded before p _ _ h hp hentry =>
          have hroom : buffer.length < a.capacity := by
            by_contra hfull
            exact hblocks ⟨before, p, pending, h, hp, hentry, by omega⟩
          exact ⟨.enqueue, by decide, ⟨trivial, hroom⟩, id⟩

end AsyncSearch

/-- An entry with an attribute that has no type and no values. -/
def malformedEntry : Packet :=
  searchMessage applicationSearchResultEntry [octetString (str "b"), readConstructed shortEncoder .universal tagSequence
    [readConstructed shortEncoder .universal tagSequence []]]

/-- A buffer for one result, and a malformed entry behind another one. -/
def malformedSearch : AsyncSearch Unit :=
  ⟨shortEncoder, .skip, fun _ => .ok (), openConnection, presenceRequest,
    ⟨[.ok (entryMessage (str "a")), .ok malformedEntry], false⟩, 1⟩

/-- The consumer takes nothing, the context is cancelled, and nothing but the consumer ends the send of the worker. -/
theorem malformedSearch_waits : ∃ s, malformedSearch.machine.Reachable s ∧ s.cancelled = true ∧ s.point.IsSend ∧
    ∀ act, act ≠ .take → malformedSearch.machine.Enabled s act → (malformedSearch.machine.next s act).point.IsSend := by
  have hreach : malformedSearch.machine.Reachable
      ⟨.sending false false (.ofError (.plain (.fmtNum
        "ldap: malformed attribute: expected 2 children (type and vals), got %d" 0))), [],
        [⟨some ⟨str "a", []⟩, [], [], none⟩], [], true⟩ :=
    Machine.reachable_after (M := malformedSearch.machine) [.begin, .receive, .enqueue, .receive, .cancel]
      ⟨⟨rfl, trivial⟩, ⟨⟨rfl, .inl (by rintro ⟨⟩)⟩, trivial⟩, ⟨⟨trivial, Nat.zero_lt_one⟩, trivial⟩,
        ⟨⟨rfl, .inl (by rintro ⟨⟩)⟩, trivial⟩, ⟨trivial, trivial⟩, trivial⟩
  exact ⟨_, hreach, rfl, trivial, fun act hact he => AsyncSearch.isSend_of_enabled le_rfl hact he⟩

end GoLdap
