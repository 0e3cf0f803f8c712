import GoLdap.Conn.Network
import GoLdap.Lib.Responder

/-!
# Conn.Served — a connection and its server

The connection together with a server at the other end.  A request reaches the server while `processMessages` writes it;
the server answers requests one after the other, in the order they have reached it, and the readers take what it has sent.
All other steps are those of the connection: a run is one of the connection and the network (`reaches_net`).

What a client has received is then a part, from the first answer on, of what the server has sent for its request, in the
state that the requests before it have left the server in (`received_isPrefix`).
-/

namespace GoLdap

/-- The connection and the server. -/
structure ServedConn (σ β : Type) where
  conn : Conn
  /-- The contexts whose requests have reached the server, in order. -/
  transmitted : List ℕ
  /-- How many of them the server has answered. -/
  answered : ℕ
  state : σ
  /-- What the server has sent. -/
  sent : List β
  /-- How much of it the readers have taken. -/
  taken : ℕ

inductive ServedAction where
  | conn (a : Action)
  | transmit (c : ℕ)
  | answer (c : ℕ)
  deriving DecidableEq, Repr

namespace ServedConn

variable {σ β : Type}

/-! ## The machine -/

section

variable (P : Responder σ ℕ MsgId β) (success : β → Bool)

/-- What a reader makes of what was sent; the body is the place of it. -/
def packet (k : ℕ) (b : β) : SrvPacket := ⟨P.tagOf b, success b, k⟩

/-- Readers read what was sent, and a write does not end before the request has reached the server.  A write that fails may
have reached it as well. -/
def Offers (s : ServedConn σ β) : Action → Prop
  | .read _ p => p.isSome = true ∧ p = (s.sent[s.taken]?).map (packet P success s.taken)
  | .writeOk c => c ∈ s.transmitted
  | _ => True

/-- The same, as a test. -/
def offers (s : ServedConn σ β) : Action → Bool
  | .read _ p => p.isSome && p == (s.sent[s.taken]?).map (packet P success s.taken)
  | .writeOk c => s.transmitted.contains c
  | _ => true

theorem offers_iff (s : ServedConn σ β) (a : Action) : s.offers P success a = true ↔ s.Offers P success a := by
  cases a <;> simp [offers, Offers]

instance (s : ServedConn σ β) (a : Action) : Decidable (s.Offers P success a) :=
  decidable_of_iff _ (offers_iff P success s a)

def Enabled (s : ServedConn σ β) : ServedAction → Prop
  | .conn a => s.conn.Enabled a ∧ s.Offers P success a
  | .transmit c => s.conn.proc = .writing c ∧ c ∉ s.transmitted
  | .answer c => s.transmitted[s.answered]? = some c

instance (s : ServedConn σ β) (a : ServedAction) : Decidable (s.Enabled P success a) := by
  cases a <;> unfold Enabled <;> infer_instance

def next (s : ServedConn σ β) : ServedAction → ServedConn σ β
  | .conn a => { s with conn := s.conn.next a, taken := s.taken + NetConn.reads a }
  | .transmit c => { s with transmitted := s.transmitted ++ [c] }
  | .answer c =>
    let reply := P.reply s.state c (s.conn.contexts c).id
    { s with answered := s.answered + 1, state := reply.2, sent := s.sent ++ reply.1 }

/-- A connection after `Start`, and a server in some state. -/
def machine (isTLS : Bool) (init : σ) : Machine (ServedConn σ β) ServedAction where
  init := ⟨.start isTLS, [], 0, init, [], 0⟩
  Enabled := Enabled P success
  next := next P

instance (isTLS : Bool) (init : σ) (s : ServedConn σ β) (a : ServedAction) :
    Decidable ((machine P success isTLS init).Enabled s a) :=
  inferInstanceAs (Decidable (s.Enabled P success a))

end

/-- The condition on the steps of the connection: no packet is given up because of a timeout, and there is one reader at a
time. -/
def Steady (s : ServedConn σ β) : ServedAction → Prop
  | .conn a => s.conn.NoPacketTimeout a ∧ s.conn.ReaderReplaced a
  | _ => True

/-- All that was sent, as readers see it. -/
def log (P : Responder σ ℕ MsgId β) (success : β → Bool) (s : ServedConn σ β) : List SrvPacket :=
  s.sent.mapIdx (packet P success)

/-- The connection and the network. -/
def toNet (P : Responder σ ℕ MsgId β) (success : β → Bool) (s : ServedConn σ β) : NetConn :=
  ⟨s.conn, (s.log P success).map some, s.taken⟩

section

variable {P : Responder σ ℕ MsgId β} {success : β → Bool} {isTLS : Bool} {init : σ} {s : ServedConn σ β}

/-- Packets are sent one by one. -/
theorem reaches_sends {n : NetConn} (h : Machine.Reaches (NetConn.machine isTLS) NetConn.InOrder n)
    (ps : List (Option SrvPacket)) :
    Machine.Reaches (NetConn.machine isTLS) NetConn.InOrder ⟨n.conn, n.sent ++ ps, n.taken⟩ := by
  induction ps using List.reverseRecOn with
  | nil =>
    rw [List.append_nil]
    exact h
  | append_singleton ps p ih =>
    rw [← List.append_assoc]
    exact Machine.Reaches.step (M := NetConn.machine isTLS) (s := ⟨n.conn, n.sent ++ ps, n.taken⟩) (a := .send p) ih
      trivial trivial

/-- The server is one of those of the network. -/
theorem reaches_net (h : Machine.Reaches (machine P success isTLS init) Steady s) :
    Machine.Reaches (NetConn.machine isTLS) NetConn.InOrder (s.toNet P success) := by
  induction h with
  | init => exact .init
  | @step s a _ he hok ih =>
    cases a with
    | conn a =>
      have hoffers : (s.toNet P success).Offers a := by
        cases a with
        | read j p =>
          obtain ⟨hsome, hp⟩ := he.2
          obtain ⟨q, rfl⟩ := Option.isSome_iff_exists.mp hsome
          show ((s.log P success).map some)[s.taken]? = some (some q)
          rw [List.getElem?_map, log, List.getElem?_mapIdx, ← hp, Option.map_some]
        | _ => trivial
      exact Machine.Reaches.step (M := NetConn.machine isTLS) (s := s.toNet P success) (a := .conn a) ih
        ⟨he.1, hoffers⟩ hok
    | transmit c => exact ih
    | answer c =>
      let added := (P.reply s.state c (s.conn.contexts c).id).1.mapIdx fun i => packet P success (i + s.sent.length)
      have hnet : (next P s (.answer c)).toNet P success =
          ⟨s.conn, (s.log P success).map some ++ added.map some, s.taken⟩ := by
        rw [← List.map_append, log, ← List.mapIdx_append]
        rfl
      exact hnet ▸ reaches_sends ih (added.map some)

theorem reaches_conn (h : Machine.Reaches (machine P success isTLS init) Steady s) :
    Machine.Reaches (Conn.machine isTLS) (fun s a => s.NoPacketTimeout a ∧ s.ReaderReplaced a) s.conn :=
  NetConn.reaches_conn (reaches_net h)

/-- What the readers have put into `chanMessage` is what the server has sent, from the first packet on. -/
theorem forwarded_log (h : Machine.Reaches (machine P success isTLS init) Steady s) :
    s.conn.forwarded <+: s.log P success := by
  have hprefix := NetConn.forwarded_isPrefix (reaches_net h)
  have hpackets : (s.toNet P success).packets = s.log P success := by
    rw [NetConn.packets, toNet, List.reduceOption, List.filterMap_map]
    exact List.filterMap_some
  rwa [hpackets] at hprefix

end

/-- What is known of the connection. -/
structure ConnOk (s : Conn) : Prop where
  placed : s.Placed
  numbered : s.Numbered
  openOk : s.OpenOk
  mutexOk : s.MutexOk
  streams : s.Streams
  distinct : s.IdsDistinct

theorem connOk_of_reaches {isTLS : Bool} {s : Conn} (h : Machine.Reaches (Conn.machine isTLS)
    (fun s a => s.NoPacketTimeout a ∧ s.ReaderReplaced a) s) : ConnOk s := by
  have hstream : Machine.Reaches (Conn.machine isTLS) Conn.NoPacketTimeout s := h.mono fun _ _ hok => hok.1
  have hle := Conn.idsIssued_le hstream
  have hn := Conn.numbered_of_reachable h.reachable
  exact ⟨Conn.placed_of_reachable h.reachable hle, hn, Conn.openOk_of_reachable h.reachable,
    Conn.mutexOk_of_reachable h.reachable, Conn.streams_of_reaches hstream, fun c d => hn.id_injective hle⟩

/-! ## Requests -/

/-- The message ID of a context. -/
def id (s : ServedConn σ β) (c : ℕ) : MsgId := (s.conn.contexts c).id

/-- The requests that have reached the server are accepted ones, each of them once; what the server has sent, and its
state, are those after the requests it has answered. -/
structure Accounted (P : Responder σ ℕ MsgId β) (init : σ) (s : ServedConn σ β) : Prop where
  nodup : s.transmitted.Nodup
  accepted : ∀ c ∈ s.transmitted, (s.conn.contexts c).stage = .accepted
  answered_le : s.answered ≤ s.transmitted.length
  served : (s.sent, s.state) = P.serveAll s.id init (s.transmitted.take s.answered)

section

variable {s : Conn} {a : Action}

theorem accepted_of_accepted (h : ConnOk s) (he : s.Enabled a) {c : ℕ} (hc : (s.contexts c).stage = .accepted) :
    ((s.next a).contexts c).stage = .accepted := by
  have hnext := Conn.accepted_next h.numbered h.openOk h.mutexOk he c
  rw [if_pos hc] at hnext
  by_contra hne
  rw [if_neg hne] at hnext
  omega

theorem id_of_accepted (h : ConnOk s) {c : ℕ} (hc : (s.contexts c).stage = .accepted) :
    ((s.next a).contexts c).id = (s.contexts c).id :=
  Conn.context_id s a (Nat.ne_of_lt (h.numbered.accepted c hc).1)

end

section

variable {P : Responder σ ℕ MsgId β} {success : β → Bool} {isTLS : Bool} {init : σ} {s : ServedConn σ β}
  {a : ServedAction}

theorem accounted_next (h : s.Accounted P init) (hc : ConnOk s.conn) (he : s.Enabled P success a) :
    (s.next P a).Accounted P init := by
  cases a with
  | conn a =>
    refine ⟨h.nodup, fun c hmem => accepted_of_accepted hc he.1 (h.accepted c hmem), h.answered_le, h.served.trans ?_⟩
    refine (Responder.serveAll_congr fun c hmem => ?_).symm
    exact id_of_accepted hc (h.accepted c (List.mem_of_mem_take hmem))
  | transmit c =>
    have hc' : (s.conn.contexts c).stage = .accepted := by
      refine hc.placed.accepted_of_handling ?_
      rw [he.1]
      rfl
    refine ⟨List.nodup_append.mpr ⟨h.nodup, List.nodup_singleton c, ?_⟩, ?_, ?_, h.served.trans ?_⟩
    · intro d hd e he' heq
      obtain rfl := List.mem_singleton.mp he'
      exact he.2 (heq ▸ hd)
    · exact List.forall_mem_append.mpr ⟨h.accepted, List.forall_mem_singleton.mpr hc'⟩
    · show s.answered ≤ (s.transmitted ++ [c]).length
      rw [List.length_append]
      exact Nat.le_add_right_of_le h.answered_le
    · show _ = P.serveAll s.id init ((s.transmitted ++ [c]).take s.answered)
      rw [List.take_append_of_le_length h.answered_le]
  | answer c =>
    have hlt : s.answered < s.transmitted.length := (List.getElem?_eq_some_iff.mp he).1
    refine ⟨h.nodup, h.accepted, hlt, ?_⟩
    have hserved := h.served
    show (s.sent ++ _, _) = P.serveAll s.id init (s.transmitted.take (s.answered + 1))
    rw [List.take_add_one, he, Option.toList_some, Responder.serveAll_concat, ← hserved]
    rfl

theorem accounted_of_reaches (h : Machine.Reaches (machine P success isTLS init) Steady s) : s.Accounted P init := by
  refine h.invariant_of (Q := fun s => ConnOk s.conn) (fun s hs => connOk_of_reaches (reaches_conn hs)) ?_ ?_
  · exact ⟨List.nodup_nil, List.forall_mem_nil _, Nat.le_refl 0, rfl⟩
  · exact fun s a hq hs he _ => accounted_next hs hq he

/-- The requests that have reached the server have different message IDs. -/
theorem Accounted.id_ne (h : s.Accounted P init) (hc : ConnOk s.conn) {c d : ℕ} (hcd : c ≠ d) (hmem : c ∈ s.transmitted)
    (hmem' : d ∈ s.transmitted) : s.id c ≠ s.id d :=
  fun hid => hcd (hc.distinct c d (h.accepted c hmem) (h.accepted d hmem') hid)

end

/-! ## Answers -/

section

variable {P : Responder σ ℕ MsgId β} {success : β → Bool} {isTLS : Bool} {init : σ} {s : ServedConn σ β}

/-- Every packet handed over has the message ID of a request that has reached the server. -/
theorem exists_id_of_forwarded (ha : s.Accounted P init) (hr : s.conn.forwarded <+: s.log P success) {p : SrvPacket}
    (hp : p ∈ s.conn.forwarded) : ∃ c ∈ s.transmitted, p.id = s.id c := by
  obtain ⟨k, hk, rfl⟩ := List.mem_mapIdx.mp (hr.subset hp)
  have hmem : s.sent[k] ∈ (P.serveAll s.id init (s.transmitted.take s.answered)).1 := by
    rw [← ha.served]
    exact List.getElem_mem hk
  obtain ⟨c, hc, htag⟩ := Responder.tagOf_of_mem_serveAll hmem
  exact ⟨c, List.mem_of_mem_take hc, htag⟩

/-- When a request was put into the queue, the readers had handed over nothing with its message ID. -/
def Fresh (s : Conn) : Prop :=
  ∀ c, (s.contexts c).stage = .accepted → ∀ p ∈ s.forwarded.take (s.contexts c).since, p.id ≠ (s.contexts c).id

theorem fresh_next (h : Fresh s.conn) (hc : ConnOk s.conn) (ha : s.Accounted P init)
    (hr : s.conn.forwarded <+: s.log P success) {a : Action} (he : s.conn.Enabled a) (hc' : ConnOk (s.conn.next a)) :
    Fresh (s.conn.next a) := by
  intro c hacc p hp
  by_cases hsend : ∃ i, a = .push (.request i c)
  · -- what was handed over belongs to requests that were accepted before
    obtain ⟨i, rfl⟩ := hsend
    have hforwarded : (s.conn.next (.push (.request i c))).forwarded = s.conn.forwarded := rfl
    rw [hforwarded] at hp
    obtain ⟨d, hd, hid⟩ := exists_id_of_forwarded ha hr (List.mem_of_mem_take hp)
    have hacc' := ha.accepted d hd
    have hne : d ≠ c := by
      rintro rfl
      have hst := hc.openOk.admitted i d (hc.mutexOk.holder _ he.1).1
      rw [hst] at hacc'
      cases hacc'
    rw [hid, ServedConn.id, ← id_of_accepted (a := .push (.request i c)) hc hacc']
    exact fun heq => hne (hc'.distinct d c (accepted_of_accepted hc he hacc') hacc heq)
  · have hold : (s.conn.contexts c).stage = .accepted := by
      have hnext := Conn.accepted_next hc.numbered hc.openOk hc.mutexOk he c
      have hzero : Conn.requestSent c a = 0 := by
        cases a with
        | push x =>
          cases x with
          | request i d =>
            refine if_neg ?_
            rintro rfl
            exact hsend ⟨i, rfl⟩
          | _ => rfl
        | _ => rfl
      rw [if_pos hacc, hzero] at hnext
      by_contra hne
      rw [if_neg hne] at hnext
      cases hnext
    have hcreated : c ≠ s.conn.created := Nat.ne_of_lt (hc.numbered.accepted c hold).1
    rw [Conn.since_next s.conn a hcreated fun i ha => hsend ⟨i, ha⟩, Conn.forwarded_next,
      List.take_append_of_le_length (hc.streams.ok c hold).since_le] at hp
    rw [id_of_accepted hc hold]
    exact h c hold p hp

theorem fresh_of_reaches (h : Machine.Reaches (machine P success isTLS init) Steady s) : Fresh s.conn := by
  induction h with
  | init => exact fun c hacc => by cases hacc
  | @step s a hs he hok ih =>
    cases a with
    | conn a =>
      exact fresh_next ih (connOk_of_reaches (reaches_conn hs)) (accounted_of_reaches hs) (forwarded_log hs)
        he.1 (connOk_of_reaches (.step (reaches_conn hs) he.1 hok))
    | transmit c => exact ih
    | answer c => exact ih

end

/-- What the client of a context has received. -/
def received (s : ServedConn σ β) (c : ℕ) : List β := (s.conn.answered c).filterMap fun p => s.sent[p.body]?

section

variable {P : Responder σ ℕ MsgId β} {success : β → Bool} {isTLS : Bool} {init : σ} {s : ServedConn σ β}

/-- The packets with a message ID, with what they stand for. -/
theorem filterMap_log (id : MsgId) :
    ((s.log P success).filter (·.id = id)).filterMap (fun p => s.sent[p.body]?) = s.sent.filter (P.tagOf · = id) := by
  have hbody : ∀ x ∈ s.sent.zipIdx, (if P.tagOf x.1 = id then s.sent[x.2]? else none) =
      if P.tagOf x.1 = id then some x.1 else none := by
    rintro ⟨b, k⟩ hx
    rw [List.mem_zipIdx_iff_getElem?.mp hx]
  have hlog : s.log P success = s.sent.zipIdx.map fun x => packet P success x.2 x.1 := List.mapIdx_eq_zipIdx_map
  have hsent : s.sent.filter (P.tagOf · = id) =
      s.sent.zipIdx.filterMap fun x => if P.tagOf x.1 = id then some x.1 else none := by
    conv_lhs => rw [← List.zipIdx_map_fst 0 s.sent]
    rw [← List.filterMap_eq_filter, List.filterMap_map]
    refine List.filterMap_congr fun x _ => ?_
    simp [Option.guard]
  rw [hsent, ← List.filterMap_congr hbody, hlog, ← List.filterMap_eq_filter, List.filterMap_filterMap,
    List.filterMap_map]
  refine List.filterMap_congr fun x _ => ?_
  by_cases hx : P.tagOf x.1 = id <;> simp [packet, Option.guard, hx]

/-- **A connection and its server.**  In every run without packet timeouts and with a reader at a time, whatever the
interleaving of clients, timers, `processMessages`, readers and the server: what a client has received is a part, from the
first answer on, of what the server has sent for its request in its turn. -/
theorem received_isPrefix (h : Machine.Reaches (machine P success isTLS init) Steady s) {l₁ l₂ : List ℕ} {c : ℕ}
    (hc : s.transmitted = l₁ ++ c :: l₂) :
    s.received c <+: (P.reply (P.serveAll s.id init l₁).2 c (s.id c)).1 := by
  have hconn := connOk_of_reaches (reaches_conn h)
  have ha := accounted_of_reaches h
  have hmem : c ∈ s.transmitted := by
    rw [hc]
    exact List.mem_append_right _ List.mem_cons_self
  -- nothing with the message ID was handed over before the request, so that its answers are all packets with it
  have hanswered : s.conn.answered c <+: s.conn.forwarded.filter (·.id = s.id c) := by
    have hbefore : (s.conn.forwarded.take (s.conn.contexts c).since).filter (·.id = s.id c) = [] :=
      List.filter_eq_nil_iff.mpr fun p hp hid => fresh_of_reaches h c (ha.accepted c hmem) p hp (of_decide_eq_true hid)
    rw [← List.take_append_drop (s.conn.contexts c).since s.conn.forwarded, List.filter_append, hbefore]
    exact (hconn.streams.ok c (ha.accepted c hmem)).inOrder
  have hlog : s.conn.answered c <+: (s.log P success).filter (·.id = s.id c) :=
    hanswered.trans ((forwarded_log h).filter _)
  have hsent : s.received c <+: s.sent.filter (P.tagOf · = s.id c) := filterMap_log (s.id c) ▸ hlog.filterMap _
  refine hsent.trans ?_
  have hserved : s.sent = (P.serveAll s.id init (s.transmitted.take s.answered)).1 := congrArg Prod.fst ha.served
  have hothers : ∀ d ∈ l₁ ++ l₂, s.id d ≠ s.id c := by
    have hnodup := hc ▸ ha.nodup
    intro d hd
    have hd' : d ∈ s.transmitted := by
      rw [hc]
      simp only [List.mem_append, List.mem_cons] at hd ⊢
      tauto
    refine ha.id_ne hconn ?_ hd' hmem
    rintro rfl
    exact (List.nodup_middle.mp hnodup).notMem hd
  by_cases hturn : l₁.length < s.answered
  · -- the server has answered the request, and maybe others after it
    obtain ⟨l, hl⟩ : ∃ l, s.transmitted.take s.answered = l₁ ++ c :: l ∧ ∀ d ∈ l, d ∈ l₂ := by
      refine ⟨l₂.take (s.answered - l₁.length - 1), ?_, fun d hd => List.mem_of_mem_take hd⟩
      rw [hc, List.take_append, List.take_of_length_le (by omega), List.take_cons (by omega)]
    rw [hserved, hl.1, Responder.filter_serveAll]
    intro d hd
    refine hothers d ?_
    obtain hd | hd := List.mem_append.mp hd
    · exact List.mem_append_left _ hd
    · exact List.mem_append_right _ (hl.2 d hd)
  · have hbefore : s.transmitted.take s.answered = l₁.take s.answered := by
      rw [hc, List.take_append_of_le_length (by omega)]
    rw [hserved, hbefore, Responder.filter_serveAll_eq_nil fun d hd =>
      hothers d (List.mem_append_left _ (List.mem_of_mem_take hd))]
    exact List.nil_prefix

/-- The client of a request that has not reached the server has received nothing. -/
theorem received_eq_nil (h : Machine.Reaches (machine P success isTLS init) Steady s) {c : ℕ} (hc : c ∉ s.transmitted) :
    s.received c = [] := by
  have hconn := connOk_of_reaches (reaches_conn h)
  have ha := accounted_of_reaches h
  suffices hnone : s.conn.answered c = [] by rw [received, hnone, List.filterMap_nil]
  by_cases hacc : (s.conn.contexts c).stage = .accepted
  · have hanswers : s.conn.answers c = [] := by
      refine List.filter_eq_nil_iff.mpr fun p hp hid => ?_
      obtain ⟨d, hd, hdid⟩ := exists_id_of_forwarded ha (forwarded_log h) (List.mem_of_mem_drop hp)
      have heq : s.id d = s.id c := hdid.symm.trans (of_decide_eq_true hid)
      exact hc (hconn.distinct d c (ha.accepted d hd) hacc heq ▸ hd)
    exact List.prefix_nil.mp (hanswers ▸ (hconn.streams.ok c hacc).inOrder)
  · rw [Conn.answered, hconn.streams.unread c hacc, List.filterMap_nil]

/-- The same, in one statement for all contexts. -/
theorem received_isPrefix_turn (h : Machine.Reaches (machine P success isTLS init) Steady s) (c : ℕ) :
    s.received c <+: (P.reply (P.serveAll s.id init (s.transmitted.takeWhile (· ≠ c))).2 c (s.id c)).1 := by
  by_cases hc : c ∈ s.transmitted
  · obtain ⟨l₁, l₂, heq, hnot⟩ := List.eq_append_cons_of_mem hc
    have hbefore : s.transmitted.takeWhile (· ≠ c) = l₁ := by
      have hne : ∀ d ∈ l₁, decide (d ≠ c) = true := by
        intro d hd
        refine decide_eq_true ?_
        rintro rfl
        exact hnot hd
      rw [heq, List.takeWhile_append_of_pos hne, List.takeWhile_cons_of_neg (by simp), List.append_nil]
    rw [hbefore]
    exact received_isPrefix h heq
  · rw [received_eq_nil h hc]
    exact List.nil_prefix

end

end ServedConn

end GoLdap
