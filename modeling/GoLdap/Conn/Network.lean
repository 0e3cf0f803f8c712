import GoLdap.Conn.Readers
import GoLdap.Conn.Stream
import Mathlib.Data.List.ReduceOption

/-!
# Conn.Network — a connection and the packets of the server

The connection together with what the server sends: any packets, at any time.  The readers take them off the network in the
order they were sent.  With one reader at a time, what the readers put into `chanMessage` is what was sent, in order, but for
a packet that the reader has in hand; and what a client receives is a part of what was sent with its message ID, from the
first packet on (`answered_isPrefix`), as long as `sendResponse` gives up no packet (`packet_lost`).
-/

namespace GoLdap

/-- The connection and the network. -/
structure NetConn where
  conn : Conn
  /-- What the server has sent; none is a packet without a message ID. -/
  sent : List (Option SrvPacket)
  /-- How much of it the readers have taken. -/
  taken : ℕ

inductive NetAction where
  | conn (a : Action)
  | send (p : Option SrvPacket)
  deriving DecidableEq, Repr

namespace NetConn

/-! ## The machine -/

/-- A reader reads the next packet that was sent. -/
def Offers (s : NetConn) : Action → Prop
  | .read _ p => s.sent[s.taken]? = some p
  | _ => True

/-- The same, as a test. -/
def offers (s : NetConn) : Action → Bool
  | .read _ p => s.sent[s.taken]? == some p
  | _ => true

theorem offers_iff (s : NetConn) (a : Action) : s.offers a = true ↔ s.Offers a := by
  cases a <;> simp [offers, Offers]

def Enabled (s : NetConn) : NetAction → Prop
  | .conn a => s.conn.Enabled a ∧ s.Offers a
  | .send _ => True

instance (s : NetConn) (a : Action) : Decidable (s.Offers a) := decidable_of_iff _ (s.offers_iff a)

instance (s : NetConn) (a : NetAction) : Decidable (s.Enabled a) := by
  cases a <;> unfold Enabled <;> infer_instance

/-- How much a step takes of what was sent. -/
def reads : Action → ℕ
  | .read _ _ => 1
  | _ => 0

def next (s : NetConn) : NetAction → NetConn
  | .conn a => { s with conn := s.conn.next a, taken := s.taken + reads a }
  | .send p => { s with sent := s.sent ++ [p] }

/-- A connection after `Start`, and a server that has sent nothing. -/
def machine (isTLS : Bool) : Machine NetConn NetAction where
  init := ⟨.start isTLS, [], 0⟩
  Enabled := Enabled
  next := next

instance (isTLS : Bool) (s : NetConn) (a : NetAction) : Decidable ((machine isTLS).Enabled s a) :=
  inferInstanceAs (Decidable (s.Enabled a))

/-- The packets the server has sent. -/
def packets (s : NetConn) : List SrvPacket := s.sent.reduceOption

/-- The condition for a stream in order: no packet is given up because of a timeout, and there is one reader at a time. -/
def InOrder (s : NetConn) : NetAction → Prop
  | .conn a => s.conn.NoPacketTimeout a ∧ s.conn.ReaderReplaced a
  | .send _ => True

/-- The steps of the connection are a run of it. -/
theorem reaches_conn {isTLS : Bool} {s : NetConn} (h : Machine.Reaches (machine isTLS) InOrder s) :
    Machine.Reaches (Conn.machine isTLS) (fun s a => s.NoPacketTimeout a ∧ s.ReaderReplaced a) s.conn := by
  induction h with
  | init => exact .init
  | @step s a _ he hok ih =>
    cases a with
    | conn a => exact .step ih he.1 hok
    | send p => exact ih

/-! ## Readers -/

/-- The packet that a reader has taken and not handed over. -/
def inHand : ReaderPc → Option SrvPacket
  | .got p => p
  | .forwarding p _ => some p
  | _ => none

/-- What the readers have handed over is what they have taken, but for the packet that one of them has in hand. -/
structure ReadInOrder (s : NetConn) : Prop where
  taken_le : s.taken ≤ s.sent.length
  forwarded : s.conn.forwarded <+: (s.sent.take s.taken).reduceOption
  holding : s.conn.closing = false → ∀ j p, inHand (s.conn.readers j) = some p →
    s.conn.forwarded ++ [p] = (s.sent.take s.taken).reduceOption
  idle : s.conn.closing = false → (∀ j, inHand (s.conn.readers j) = none) →
    s.conn.forwarded = (s.sent.take s.taken).reduceOption

section Hand

variable {s : Conn} {a : Action}

theorem ne_stopped_of_inHand {pc : ReaderPc} {p : SrvPacket} (h : inHand pc = some p) : pc ≠ .stopped := by
  rintro rfl
  cases h

/-- While the connection is open, a packet is taken by `read` and handed over by `push`; nothing else makes a difference. -/
theorem inHand_next (hm : s.MutexOk) (he : s.Enabled a) (hopen : (s.next a).closing = false)
    (hread : ∀ j p, a ≠ .read j p) (hpush : ∀ j p b, a ≠ .push (.response j p b)) (j : ℕ) :
    inHand ((s.next a).readers j) = inHand (s.readers j) := by
  have hnot : s.closing ≠ true := Bool.eq_false_iff.mp (Conn.closing_of_next hopen)
  have hstep := Conn.readers_next he j
  generalize (s.next a).readers j = pc at hstep
  cases hstep with
  | same => rfl
  | started hj =>
    -- the new reader has not been running before
    have hstopped : s.readers j = .stopped := by
      by_contra hne
      exact Nat.ne_of_lt (hm.started j hne) hj
    rw [hstopped]
    rfl
  | @read p _ => exact absurd rfl (hread j p)
  | failed hpc _ | stored hpc | checked hpc _ =>
    rw [hpc]
    rfl
  | checkedNoID hpc _ =>
    rw [hpc]
    split <;> rfl
  | @pushed p b _ => exact absurd rfl (hpush j p b)
  | failedClosing _ hc | refused _ _ hc | closedAgain _ _ hc => exact absurd hc hnot
  | closed hc => exact absurd (hm.holder _ hc).2 hnot

end Hand

section Step

variable {s : NetConn} (h : s.ReadInOrder) (hm : s.conn.MutexOk) (hu : s.conn.UniqueReader)

include h hu in
/-- A reader takes the next packet. -/
theorem ReadInOrder.read_next {j : ℕ} {p : Option SrvPacket} (he : s.Enabled (.conn (.read j p))) :
    (s.next (.conn (.read j p))).ReadInOrder := by
  obtain ⟨hreading, hp⟩ := he
  have hreading : s.conn.readers j = .reading := hreading
  have hp : s.sent[s.taken]? = some p := hp
  have hlt : s.taken < s.sent.length := (List.getElem?_eq_some_iff.mp hp).1
  have htake : (s.sent.take (s.taken + 1)).reduceOption = (s.sent.take s.taken).reduceOption ++ p.toList := by
    rw [List.take_add_one, hp, List.reduceOption_append, Option.toList_some]
    cases p <;> rfl
  -- the other readers have stopped, so that nothing was in hand
  have hothers : s.conn.closing = false → ∀ k, k ≠ j → s.conn.readers k = .stopped := by
    intro hopen k hk
    by_contra hne
    exact hk (hu hopen k j hne (by rw [hreading]; rintro ⟨⟩))
  have hforwarded : s.conn.closing = false → s.conn.forwarded = (s.sent.take s.taken).reduceOption := by
    refine fun hopen => h.idle hopen fun k => ?_
    by_cases hk : k = j
    · rw [hk, hreading]
      rfl
    · rw [hothers hopen k hk]
      rfl
  have hreaders (k : ℕ) : (s.conn.next (.read j p)).readers k = if k = j then .got p else s.conn.readers k :=
    Function.update_apply _ _ _ _
  refine ⟨hlt, h.forwarded.trans (htake ▸ List.prefix_append _ _), fun hopen k q hq => ?_, fun hopen hnone => ?_⟩
  · rw [next, hreaders] at hq
    show s.conn.forwarded ++ [q] = (s.sent.take (s.taken + 1)).reduceOption
    by_cases hk : k = j
    · rw [if_pos hk] at hq
      obtain rfl : p = some q := hq
      rw [htake, hforwarded hopen]
      rfl
    · rw [if_neg hk, hothers hopen k hk] at hq
      cases hq
  · have hj := hnone j
    rw [next, hreaders, if_pos rfl] at hj
    obtain rfl : p = none := hj
    show s.conn.forwarded = (s.sent.take (s.taken + 1)).reduceOption
    rw [htake, hforwarded hopen]
    exact (List.append_nil _).symm

include h hm hu in
/-- A reader hands its packet over. -/
theorem ReadInOrder.push_next {j : ℕ} {p : SrvPacket} {b : Bool} (he : s.conn.Enabled (.push (.response j p b))) :
    (s.next (.conn (.push (.response j p b)))).ReadInOrder := by
  obtain ⟨hforwarding, hopen⟩ := hm.holder _ he.1
  have hforwarding : s.conn.readers j = .forwarding p b := hforwarding
  have hhanded : s.conn.forwarded ++ [p] = (s.sent.take s.taken).reduceOption :=
    h.holding hopen j p (by rw [hforwarding]; rfl)
  have hreaders (k : ℕ) : (s.conn.next (.push (.response j p b))).readers k =
      if k = j then (if b then .stopped else .reading) else s.conn.readers k := Function.update_apply _ _ _ _
  refine ⟨h.taken_le, hhanded ▸ List.prefix_rfl, fun _ k q hq => ?_, fun _ _ => hhanded⟩
  rw [next, hreaders] at hq
  by_cases hk : k = j
  · rw [if_pos hk] at hq
    cases b <;> cases hq
  · rw [if_neg hk] at hq
    exact absurd (hu hopen k j (ne_stopped_of_inHand hq) (by rw [hforwarding]; rintro ⟨⟩)) hk

include h hm in
/-- The other steps of the connection change neither what is in hand nor what was handed over. -/
theorem ReadInOrder.other_next {a : Action} (he : s.conn.Enabled a) (hread : ∀ j p, a ≠ .read j p)
    (hpush : ∀ j p b, a ≠ .push (.response j p b)) : (s.next (.conn a)).ReadInOrder := by
  have hreads : reads a = 0 := by
    cases a with
    | read j p => exact absurd rfl (hread j p)
    | _ => rfl
  have hforwards : Conn.forwards a = [] := by
    cases a with
    | push x =>
      cases x with
      | response j p b => exact absurd rfl (hpush j p b)
      | _ => rfl
    | _ => rfl
  have hforwarded : (s.conn.next a).forwarded = s.conn.forwarded := by
    rw [Conn.forwarded_next, hforwards, List.append_nil]
  have hinHand (hopen : (s.conn.next a).closing = false) (j : ℕ) :
      inHand ((s.conn.next a).readers j) = inHand (s.conn.readers j) := inHand_next hm he hopen hread hpush j
  rw [next, hreads]
  refine ⟨h.taken_le, ?_, fun hopen j p hp => ?_, fun hopen hnone => ?_⟩
  · show (s.conn.next a).forwarded <+: _
    rw [hforwarded]
    exact h.forwarded
  · show (s.conn.next a).forwarded ++ [p] = _
    rw [hforwarded]
    exact h.holding (Conn.closing_of_next hopen) j p ((hinHand hopen j).symm.trans hp)
  · show (s.conn.next a).forwarded = _
    rw [hforwarded]
    exact h.idle (Conn.closing_of_next hopen) fun j => (hinHand hopen j).symm.trans (hnone j)

include h in
/-- The server sends a packet. -/
theorem ReadInOrder.send_next (p : Option SrvPacket) : (s.next (.send p)).ReadInOrder := by
  have htake : (s.sent ++ [p]).take s.taken = s.sent.take s.taken := List.take_append_of_le_length h.taken_le
  refine ⟨?_, ?_, fun hopen j q hq => ?_, fun hopen hnone => ?_⟩
  · show s.taken ≤ (s.sent ++ [p]).length
    rw [List.length_append]
    exact Nat.le_add_right_of_le h.taken_le
  · show s.conn.forwarded <+: ((s.sent ++ [p]).take s.taken).reduceOption
    rw [htake]
    exact h.forwarded
  · show s.conn.forwarded ++ [q] = ((s.sent ++ [p]).take s.taken).reduceOption
    rw [htake]
    exact h.holding hopen j q hq
  · show s.conn.forwarded = ((s.sent ++ [p]).take s.taken).reduceOption
    rw [htake]
    exact h.idle hopen hnone

include h hm hu in
theorem readInOrder_next {a : NetAction} (he : s.Enabled a) : (s.next a).ReadInOrder := by
  cases a with
  | conn a =>
    by_cases hread : ∃ j p, a = .read j p
    · obtain ⟨j, p, rfl⟩ := hread
      exact h.read_next hu he
    by_cases hpush : ∃ j p b, a = .push (.response j p b)
    · obtain ⟨j, p, b, rfl⟩ := hpush
      exact h.push_next hm hu he.1
    exact h.other_next hm he.1 (fun j p ha => hread ⟨j, p, ha⟩) fun j p b ha => hpush ⟨j, p, b, ha⟩
  | send p => exact h.send_next p

end Step

section Runs

variable {isTLS : Bool} {s : NetConn}

theorem readInOrder_of_reaches (h : Machine.Reaches (machine isTLS) InOrder s) : s.ReadInOrder := by
  refine h.invariant_of (Q := fun s => s.conn.MutexOk ∧ s.conn.UniqueReader) (fun s hs => ?_) ?_ ?_
  · have hconn := reaches_conn hs
    exact ⟨Conn.mutexOk_of_reachable hconn.reachable, Conn.uniqueReader_of_reaches (hconn.mono fun _ _ hok => hok.2)⟩
  · refine ⟨Nat.le_refl 0, List.prefix_rfl, fun _ j p hp => ?_, fun _ _ => rfl⟩
    cases j with
    | zero => cases hp
    | succ j => cases hp
  · exact fun s a hq hs he _ => readInOrder_next hs hq.1 hq.2 he

/-- What the readers have put into `chanMessage` is what the server has sent, from the first packet on. -/
theorem forwarded_isPrefix (h : Machine.Reaches (machine isTLS) InOrder s) : s.conn.forwarded <+: s.packets := by
  refine (readInOrder_of_reaches h).forwarded.trans ?_
  rw [packets]
  exact (List.take_prefix s.taken s.sent).filterMap id

end Runs

/-- The server sends a packet, and the reader puts it into the queue. -/
def arrive (p : SrvPacket) : List NetAction := .send (some p) :: (Conn.forwardPacket p).map .conn

end NetConn

end GoLdap
