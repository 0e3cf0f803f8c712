import GoLdap.Conn.Served
import GoLdap.Control.Descriptions
import GoLdap.Protocol.Session

/-!
# Protocol.Concurrent — calls of many goroutines over one connection

Any number of clients make calls over one connection, at the same time.  Their requests reach the server in some order,
and each call returns what the directory answers at its place in that order, unless it waits or the connection gives it an
error: but for these, the connection, its queue, its contexts and its readers cannot be told from a directory that is asked
directly, one operation after the other.
-/

namespace GoLdap

open Go Ber Octets

/-- A call that sends its request. -/
structure SentCall (E : Encoder) extends ValidCall E where
  sends : method.refused = false

/-! ## The server -/

section

variable (L : LawfulCodec)

/-- The message ID of a frame, as `reader` takes it. -/
def frameID (octets : GoString) : MsgId :=
  match L.decodePacketErr octets with
  | .error _ => 0
  | .ok p => BitVec.ofInt 64 ((messageIDOf p).getD 0)

/-- `GetLDAPError` is nil. -/
def frameSucceeds (octets : GoString) : Bool :=
  match L.decodePacketErr octets with
  | .error _ => false
  | .ok p =>
    match getLDAPError p with
    | .ok () => true
    | _ => false

theorem fits_msgId (id : MsgId) : Fits 8 id.toInt := by
  have h1 := BitVec.le_toInt id
  have h2 := BitVec.toInt_lt (x := id)
  constructor <;> norm_num at h1 h2 ⊢ <;> omega

theorem frameID_response (id : MsgId) {op : Packet} (hop : Encodable L.toEncoder op) :
    frameID L ((responseMessage L.toEncoder id.toInt op []).bytes L.toEncoder) = id := by
  rw [frameID, decode_response (fits_msgId id) hop]
  dsimp only
  rw [messageIDOf_received (fits_msgId id), Option.getD_some, BitVec.ofInt_toInt]

variable {σ : Type} (dir : Directory σ) (calls : ℕ → SentCall L.toEncoder)

/-- The octets of the request of a context. -/
def requestOctets (c : ℕ) (id : MsgId) : GoString :=
  match (calls c).method.request.message L.toEncoder id.toInt with
  | .ok p => p.bytes L.toEncoder
  | _ => []

/-- What the server sends for the request of a context. -/
def replyFrames (s : σ) (c : ℕ) (id : MsgId) : List GoString × σ := serve L dir s (requestOctets L calls c id)

theorem replyFrames_eq (s : σ) (c : ℕ) (id : MsgId) : replyFrames L dir calls s c id =
    (((dir s (calls c).operation (calls c).controls).1.packets L.toEncoder (calls c).operation).map fun op =>
      (responseMessage L.toEncoder id.toInt op []).bytes L.toEncoder,
      (dir s (calls c).operation (calls c).controls).2) := by
  obtain ⟨p, hp, hconveys⟩ := (calls c).asks.conveys (fits_msgId id) (conveys_sent (calls c).sent)
  rw [replyFrames, requestOctets, hp]
  exact serve_conveyed dir s hconveys

/-- A connection that carries these octets sends the request. -/
theorem carries_requestOctets (debug : Bool) (c : ℕ) (id : MsgId) :
    (carryingConnection L.toEncoder debug id.toInt (requestOctets L calls c id)).Carries L.toEncoder
      (calls c).method.request := by
  obtain ⟨p, hp, -⟩ := (calls c).asks.conveys (fits_msgId id) (conveys_sent (calls c).sent)
  rw [requestOctets, hp]
  exact carries_carryingConnection hp

/-- The server, as a responder. -/
def ldapResponder : Responder σ ℕ MsgId GoString where
  tagOf := frameID L
  reply := replyFrames L dir calls
  tagOf_reply s c id octets h := by
    rw [replyFrames_eq] at h
    obtain ⟨op, hop, rfl⟩ := List.mem_map.mp h
    exact frameID_response L id (ServerAnswer.encodable_packets _ _ op hop)

/-- The directory, after the operations of calls, one after the other. -/
def directoryAfter (init : σ) (cs : List ℕ) : σ :=
  cs.foldl (fun s c => (dir s (calls c).operation (calls c).controls).2) init

theorem serveAll_ldapResponder (ids : ℕ → MsgId) (init : σ) (cs : List ℕ) :
    ((ldapResponder L dir calls).serveAll ids init cs).2 = directoryAfter L dir calls init cs := by
  induction cs using List.reverseRecOn with
  | nil => rfl
  | append_singleton cs c ih =>
    rw [Responder.serveAll_concat, directoryAfter, List.foldl_append, ← directoryAfter, ih]
    exact congrArg Prod.snd (replyFrames_eq L dir calls _ c (ids c))

end

/-! ## Calls with a part of their responses -/

/-- The error that a call returns. -/
def CallResult.err : CallResult → Option Err
  | .status err => err
  | .compared result => result.2
  | .extended response => response.2
  | .identity result => result.2
  | .found _ err => err

/-- What a call has been given, of the responses that it is to get: a part of them, maybe with an error behind it. -/
inductive PartOf : List (Except Err Packet) → List (Except Err Packet) → Prop
  | nil {l' : List (Except Err Packet)} : PartOf [] l'
  | error {e : Err} {l l' : List (Except Err Packet)} : PartOf (.error e :: l) l'
  | cons {x : Except Err Packet} {l l' : List (Except Err Packet)} (h : PartOf l l') : PartOf (x :: l) (x :: l')

/-- The packets in it are the first of the responses. -/
theorem PartOf.of_isPrefix {l l' : List (Except Err Packet)} (h : l.filter Except.isOk <+: l') : PartOf l l' := by
  induction l generalizing l' with
  | nil => exact .nil
  | cons x l ih =>
    cases x with
    | error e => exact .error
    | ok p =>
      obtain ⟨rest, rfl⟩ := h
      exact .cons (ih (List.prefix_append _ rest))

/-- An error for the call: in one of the responses, or because their channel is closed. -/
def Responses.HasError (responses : Responses) (e : Err) : Prop :=
  .error e ∈ responses.packets ∨ responses.closed = true ∧ e = errResponseChannelClosed

/-- A call waits, or returns one of some errors, or comes to what another one comes to. -/
def EndsAs {α : Type} (errors : Err → Prop) (err : α → Option Err) (x y : CallEnd α) : Prop :=
  x = .waiting ∨ (∃ r e, errors e ∧ err r = some e ∧ x = .returned r) ∨ x = y

theorem EndsAs.mono {α : Type} {errors errors' : Err → Prop} {err : α → Option Err} {x y : CallEnd α}
    (h : EndsAs errors err x y) (himp : ∀ e, errors e → errors' e) : EndsAs errors' err x y := by
  obtain hwaits | ⟨r, e, he, hr⟩ | hsame := h
  · exact .inl hwaits
  · exact .inr (.inl ⟨r, e, himp e he, hr⟩)
  · exact .inr (.inr hsame)

theorem EndsAs.map {α β : Type} {errors : Err → Prop} {err : α → Option Err} {x y : CallEnd α} {err' : β → Option Err}
    (h : EndsAs errors err x y) {f : α → β} (hf : ∀ r, err' (f r) = err r) : EndsAs errors err' (x.map f) (y.map f) := by
  obtain rfl | ⟨r, e, he, hr, rfl⟩ | rfl := h
  · exact .inl rfl
  · exact .inr (.inl ⟨f r, e, he, (hf r).trans hr, rfl⟩)
  · exact .inr (.inr rfl)

section

variable {C : Type} {E : Encoder} {addControlDescriptions : Assign} {decodeControl : Packet → Outcome Err C}
  {conn : Connection} {l l' : List (Except Err Packet)} {closed : Bool}

theorem exchange_part {α : Type} (h : PartOf l l') {appendTo : Packet → Packet} {fail : Err → α}
    {handle : Packet → CallEnd α} (err : α → Option Err) (hfail : ∀ e, err (fail e) = some e) :
    EndsAs (Responses.HasError ⟨l, closed⟩) err
      (conn.exchange E addControlDescriptions appendTo ⟨l, closed⟩ fail handle)
      (conn.exchange E addControlDescriptions appendTo ⟨l', false⟩ fail handle) := by
  unfold Connection.exchange
  cases conn.doRequest E appendTo with
  | some e => exact .inr (.inr rfl)
  | none =>
    cases h with
    | nil =>
      cases closed with
      | false => exact .inl rfl
      | true => exact .inr (.inl ⟨_, _, .inr ⟨rfl, rfl⟩, hfail _, rfl⟩)
    | error => exact .inr (.inl ⟨_, _, .inl List.mem_cons_self, hfail _, rfl⟩)
    | @cons x _ _ _ => cases x <;> exact .inr (.inr rfl)

theorem searchLoop_part (h : PartOf l l') (debug : Bool) (req : SearchRequest) (result : SearchResult C) :
    EndsAs (Responses.HasError ⟨l, closed⟩) CallResult.err
      (Method.ofSearchEnd (searchLoop decodeControl addControlDescriptions debug req closed result l))
      (Method.ofSearchEnd (searchLoop decodeControl addControlDescriptions debug req false result l')) := by
  induction h generalizing result with
  | nil =>
    cases closed with
    | false => exact .inl rfl
    | true => exact .inr (.inl ⟨_, _, .inr ⟨rfl, rfl⟩, rfl, rfl⟩)
  | error => exact .inr (.inl ⟨_, _, .inl List.mem_cons_self, rfl, rfl⟩)
  | @cons x l l' _ ih =>
    cases x with
    | error e => exact .inr (.inr rfl)
    | ok packet =>
      unfold searchLoop
      cases describeInDebug addControlDescriptions debug packet with
      | error e => exact .inr (.inr rfl)
      | ok packet =>
        dsimp only
        cases searchStep decodeControl req result packet with
        | panic => exact .inr (.inr rfl)
        | ret result err => exact .inr (.inr rfl)
        | goOn result =>
          exact (ih result).mono fun e he => he.imp_left (List.mem_cons_of_mem _)

theorem search_part (decodeControl : Packet → Outcome Err C) (conn : Connection) (h : PartOf l l') (req : SearchRequest) :
    EndsAs (Responses.HasError ⟨l, closed⟩) CallResult.err
      (Method.ofSearchEnd (conn.search E addControlDescriptions decodeControl req ⟨l, closed⟩))
      (Method.ofSearchEnd (conn.search E addControlDescriptions decodeControl req ⟨l', false⟩)) := by
  unfold Connection.search
  split_ifs
  · cases req.appendTo E (requestEnvelope E conn.messageID) with
    | panic => exact .inr (.inr rfl)
    | err e => exact .inr (.inr rfl)
    | ok packet =>
      dsimp only
      cases conn.sendMessage packet with
      | some e => exact .inr (.inr rfl)
      | none => exact searchLoop_part h conn.debug req ⟨[], [], []⟩
  · exact .inr (.inr rfl)

/-- A call that has been given a part of its responses waits, returns an error that it was given, or comes to what it comes
to with all of them. -/
theorem Method.call_part (L : LawfulCodec) (addControlDescriptions : Assign) (decodeControl : Packet → Outcome Err C)
    (conn : Connection) (m : Method) (h : PartOf l l') (closed : Bool) :
    EndsAs (Responses.HasError ⟨l, closed⟩) CallResult.err
      (m.call L addControlDescriptions decodeControl conn ⟨l, closed⟩)
      (m.call L addControlDescriptions decodeControl conn ⟨l', false⟩) := by
  cases m with
  | simpleBind req =>
    have hbind : EndsAs (Responses.HasError ⟨l, closed⟩) Prod.snd
        (conn.simpleBind decodeControl L.toEncoder addControlDescriptions req ⟨l, closed⟩)
        (conn.simpleBind decodeControl L.toEncoder addControlDescriptions req ⟨l', false⟩) := by
      unfold Connection.simpleBind
      split_ifs with hrefused
      · exact .inr (.inr rfl)
      · exact exchange_part h Prod.snd fun _ => rfl
    exact hbind.map fun _ => rfl
  | search req => exact search_part decodeControl conn h req
  | modify req => exact (exchange_part h id fun _ => rfl).map fun _ => rfl
  | add req => exact (exchange_part h id fun _ => rfl).map fun _ => rfl
  | del req => exact (exchange_part h id fun _ => rfl).map fun _ => rfl
  | modifyDN req => exact (exchange_part h id fun _ => rfl).map fun _ => rfl
  | compare dn attr value => exact (exchange_part h Prod.snd fun _ => rfl).map fun _ => rfl
  | extended er => exact (exchange_part h Prod.snd fun _ => rfl).map fun _ => rfl
  | whoAmI controls =>
    have hidentity (x : Option (ExtendedResponse C) × Option Err) : (whoAmIResult x).2 = x.2 := by
      rw [whoAmIResult_eq]
      obtain ⟨_ | response, _ | err⟩ := x <;> rfl
    exact EndsAs.map ((exchange_part h Prod.snd fun _ => rfl).map hidentity) fun _ => rfl

end

section

variable {C : Type} {L : LawfulCodec} (c : SentCall L.toEncoder) {addControlDescriptions : Assign}
  {decodeControl : Packet → Outcome Err C} {conn : Connection}

/-- A call without a response waits. -/
theorem SentCall.call_nil (hcarries : conn.Carries L.toEncoder c.method.request) (hid : Fits 8 conn.messageID) :
    c.method.call L addControlDescriptions decodeControl conn ⟨[], false⟩ = .waiting := by
  obtain ⟨⟨method, op, hasks, ms, hsent⟩, hsends⟩ := c
  have hexchange {α : Type} {appendTo : Packet → Packet} {fail : Err → α} {handle : Packet → CallEnd α}
      (hsend : conn.doRequest L.toEncoder appendTo = none) :
      conn.exchange L.toEncoder addControlDescriptions appendTo ⟨[], false⟩ fail handle = .waiting := by
    rw [Connection.exchange, hsend]
    rfl
  cases method with
  | simpleBind req =>
    rw [Method.call, Connection.simpleBind, if_neg (of_decide_eq_false hsends), hexchange (hcarries.doRequest rfl)]
    rfl
  | search req =>
    rw [Method.call, Connection.search_of_sends (sends_search hasks hsent hid hcarries)]
    rfl
  | whoAmI controls =>
    rw [Method.call, Connection.whoAmI, Connection.extended, hexchange (hcarries.doRequest rfl)]
    rfl
  | modify req =>
    rw [Method.call, Connection.modify, hexchange (hcarries.doRequest rfl)]
    rfl
  | add req =>
    rw [Method.call, Connection.add, hexchange (hcarries.doRequest rfl)]
    rfl
  | del req =>
    rw [Method.call, Connection.del, hexchange (hcarries.doRequest rfl)]
    rfl
  | modifyDN req =>
    rw [Method.call, Connection.modifyDN, hexchange (hcarries.doRequest rfl)]
    rfl
  | compare dn attr value =>
    rw [Method.call, Connection.compare, hexchange (hcarries.doRequest rfl)]
    rfl
  | extended er =>
    rw [Method.call, Connection.extended, hexchange (hcarries.doRequest rfl)]
    rfl

/-- A call on a connection that is closed says so. -/
theorem SentCall.call_closed (debug : Bool) {id : ℤ} (hid : Fits 8 id) (responses : Responses) :
    ∃ r, c.method.call L addControlDescriptions decodeControl (closedConnection debug id) responses = .returned r ∧
      r.err = some errConnectionClosed := by
  obtain ⟨⟨method, op, hasks, ms, hsent⟩, hsends⟩ := c
  cases method with
  | simpleBind req =>
    rw [Method.call, Connection.simpleBind, if_neg (of_decide_eq_false hsends)]
    exact ⟨_, rfl, rfl⟩
  | search req =>
    obtain ⟨p, hp, -⟩ := hasks.conveys hid (conveys_sent hsent)
    have happend : req.appendTo L.toEncoder (requestEnvelope L.toEncoder id) = .ok p := hp
    refine ⟨.found none (some errConnectionClosed), ?_, rfl⟩
    rw [Method.call, Connection.search]
    simp only [closedConnection, happend, if_true]
    rfl
  | _ => exact ⟨_, rfl, rfl⟩

end

/-! ## All calls -/

section

variable {σ C : Type} (L : LawfulCodec) (dir : Directory σ) (calls : ℕ → SentCall L.toEncoder)
  (addControlDescriptions : Assign) (decodeControl : Packet → Outcome Err C) (debug isTLS : Bool) (init : σ)
  (errorOf : Response → Err)

/-- What `ReadPacket` returns for a response: the packet of a frame, or the error in the response. -/
def readResponse (s : ServedConn σ GoString) (c : ℕ) : Response → Option (Except Err Packet)
  | .packet p => s.sent[p.body]?.bind (readFrame L addControlDescriptions (s.id c).toInt)
  | r => some (.error (errorOf r))

/-- What the call of a context has been given. -/
def responsesOf (s : ServedConn σ GoString) (c : ℕ) : Responses where
  packets := (s.conn.contexts c).received.filterMap (readResponse L addControlDescriptions errorOf s c)
  closed := 0 < (s.conn.contexts c).closes

/-- What the call of a context comes to. -/
def callEnd (s : ServedConn σ GoString) (c : ℕ) : CallEnd CallResult :=
  let id := (s.id c).toInt
  let call (conn : Connection) (responses : Responses) :=
    (calls c).method.call L addControlDescriptions decodeControl conn responses
  match (s.conn.contexts c).stage with
  -- in `sendProcessMessage`
  | .admitted => .waiting
  | .rejected => call (closedConnection debug id) ⟨[], false⟩
  | .accepted =>
    call (carryingConnection L.toEncoder debug id (requestOctets L calls c (s.id c)))
      (responsesOf L addControlDescriptions errorOf s c)

/-- The errors that the connection has given to the call of a context: the request was refused, there was an error in place
of a packet, or the channel of the responses is closed. -/
inductive GaveError (m : MessageContext) : Err → Prop
  | refused (h : m.stage = .rejected) : GaveError m errConnectionClosed
  | response {r : Response} (h : r ∈ m.received) (hr : Conn.packetOf r = none) : GaveError m (errorOf r)
  | closed (h : 0 < m.closes) : GaveError m errResponseChannelClosed

variable {L addControlDescriptions} in
theorem readFrame_isOk {id : ℤ} {octets : GoString} {x : Except Err Packet}
    (h : readFrame L addControlDescriptions id octets = some x) : x.isOk = true := by
  unfold readFrame at h
  split at h
  · cases h
  · split_ifs at h
    rw [← Option.some.inj h]
    rfl

/-- The packets among the responses are those of the frames that the client has received. -/
theorem filter_responsesOf (s : ServedConn σ GoString) (c : ℕ) :
    (responsesOf L addControlDescriptions errorOf s c).packets.filter Except.isOk =
      (s.received c).filterMap (readFrame L addControlDescriptions (s.id c).toInt) := by
  have hone : ∀ r : Response, (readResponse L addControlDescriptions errorOf s c r).filter Except.isOk =
      (Conn.packetOf r).bind fun p => s.sent[p.body]?.bind (readFrame L addControlDescriptions (s.id c).toInt) := by
    intro r
    cases r with
    | packet p =>
      show Option.filter _ (s.sent[p.body]?.bind _) = s.sent[p.body]?.bind _
      rcases hread : s.sent[p.body]?.bind (readFrame L addControlDescriptions (s.id c).toInt) with _ | x
      · rfl
      · obtain ⟨octets, -, hframe⟩ := Option.bind_eq_some_iff.mp hread
        rw [Option.filter, if_pos (readFrame_isOk hframe)]
    | _ => rfl
  rw [responsesOf, ServedConn.received, Conn.answered, List.filterMap_filterMap, List.filterMap_filterMap,
    List.filter_filterMap]
  exact List.filterMap_congr fun r _ => hone r

variable {L addControlDescriptions errorOf} in
theorem gaveError_of_hasError {s : ServedConn σ GoString} {c : ℕ} {e : Err}
    (h : (responsesOf L addControlDescriptions errorOf s c).HasError e) : GaveError errorOf (s.conn.contexts c) e := by
  obtain hmem | ⟨hclosed, rfl⟩ := h
  · obtain ⟨r, hr, hread⟩ := List.mem_filterMap.mp hmem
    cases r with
    | packet p =>
      obtain ⟨octets, -, hframe⟩ := Option.bind_eq_some_iff.mp hread
      exact absurd (readFrame_isOk hframe) Bool.false_ne_true
    | _ =>
      obtain rfl := Except.error.inj (Option.some.inj hread)
      exact .response hr rfl
  · exact .closed (of_decide_eq_true hclosed)

variable {L addControlDescriptions errorOf} in
/-- A call whose packets are the first of some responses waits, returns an error that the connection has given it, or comes
to what it comes to with all of them. -/
theorem call_responsesOf {s : ServedConn σ GoString} {c : ℕ} {l' : List (Except Err Packet)}
    (h : (responsesOf L addControlDescriptions errorOf s c).packets.filter Except.isOk <+: l') (conn : Connection)
    (m : Method) : EndsAs (GaveError errorOf (s.conn.contexts c)) CallResult.err
      (m.call L addControlDescriptions decodeControl conn (responsesOf L addControlDescriptions errorOf s c))
      (m.call L addControlDescriptions decodeControl conn ⟨l', false⟩) :=
  (m.call_part L addControlDescriptions decodeControl conn (.of_isPrefix h) _).mono fun _ => gaveError_of_hasError

end

/-- A directory that agrees to everything, and counts. -/
def countingDirectory : Directory ℕ := fun n _ _ => (.ofCode 0 none, n + 1)

/-- The deletion of an entry. -/
def deleteCall : SentCall basicLawful.toEncoder where
  method := .del ⟨str "cn=a", []⟩
  operation := .del (str "cn=a")
  asks := .del _
  controls := []
  sent := .nil
  sends := rfl

/-- A connection to this directory, for deletions. -/
def deleteMachine : Machine (ServedConn ℕ GoString) ServedAction :=
  ServedConn.machine (ldapResponder basicLawful countingDirectory fun _ => deleteCall) (frameSucceeds basicLawful) false 0

/-- A client sends its request, the server answers it and the client receives the answer. -/
def deleteRun : List ServedAction :=
  (Conn.sendRequest 0 0 0 ++ [Action.takeRequest 0 []]).map .conn ++ [.transmit 0, .conn (.writeOk 0), .answer 0] ++
    (Conn.forwardPacket ⟨1, true, 0⟩ ++ [Action.takeResponse ⟨1, true, 0⟩ 0 [], .receive 0 0,
      .deliver 0 0 (.packet ⟨1, true, 0⟩) false .resume]).map .conn

theorem reaches_deleteRun :
    Machine.Reaches deleteMachine ServedConn.Steady (deleteMachine.after deleteMachine.init deleteRun) := by
  apply Machine.reaches_after
  repeat' apply And.intro
  any_goals first
    | trivial
    | decide +kernel
    | exact Nat.two_pow_pos 64

/-- What the deletion comes to. -/
def deleteEnd : CallEnd CallResult :=
  callEnd basicLawful (fun _ => deleteCall) (addControlDescriptions basicLawful.toCodec) (decodeControl basicLawful.toCodec)
    true (fun _ => errConnectionClosed) (deleteMachine.after deleteMachine.init deleteRun) 0

end GoLdap
