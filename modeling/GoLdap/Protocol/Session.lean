import GoLdap.Protocol.Replies
import GoLdap.Protocol.Requests

/-!
# Protocol.Session — calls over the wire

A server answers from a directory whose state may change with every operation.  A client program makes calls, one after
the other, and goes on with what they return.  Over the wire each call is a message that the server decodes and answers
with messages of its own; the client returns what it makes of them.

`run_onWire` says that nothing of this can be told from a program that asks the directory itself.
-/

namespace GoLdap

open Go Ber Octets

/-! ## The server -/

/-- A directory, by how it answers. -/
abbrev Directory (σ : Type) := σ → Operation → List MessageControl → ServerAnswer × σ

/-- What the server does with the octets of a message: what it does not understand is not answered. -/
def serve {σ : Type} (L : LawfulCodec) (dir : Directory σ) (s : σ) (octets : GoString) : List GoString × σ :=
  match L.decodePacketErr octets with
  | .error _ => ([], s)
  | .ok p =>
    match readMessage p with
    | none => ([], s)
    | some m =>
      let answer := dir s m.operation m.controls
      ((answer.1.packets L.toEncoder m.operation).map fun op => (responseMessage L.toEncoder m.id op []).bytes L.toEncoder,
        answer.2)

/-- A message that the server understands. -/
theorem serve_conveyed {σ : Type} {L : LawfulCodec} (dir : Directory σ) (s : σ) {p : Packet} {id : ℤ} {op : Operation}
    {cs : List MessageControl} (h : Conveys L readMessage p ⟨id, op, cs⟩) :
    serve L dir s (p.bytes L.toEncoder) =
      (((dir s op cs).1.packets L.toEncoder op).map fun op => (responseMessage L.toEncoder id op []).bytes L.toEncoder,
        (dir s op cs).2) := by
  obtain ⟨q, hq, hread⟩ := h.decode
  rw [serve, hq]
  dsimp only
  rw [hread]

/-! ## The calls -/

/-- The calls with one request. -/
inductive Method where
  | simpleBind (req : SimpleBindRequest)
  | search (req : SearchRequest)
  | modify (req : ModifyRequest)
  | add (req : AddRequest)
  | del (req : DelRequest)
  | modifyDN (req : ModifyDNRequest)
  | compare (dn attr value : GoString)
  | extended (er : ExtendedRequest)
  | whoAmI (controls : List Packet)

/-- What a caller sees of what a call returns. -/
inductive CallResult where
  | status (err : Option Err)
  | compared (result : Bool × Option Err)
  | extended (response : Option (GoString × Option GoString) × Option Err)
  | identity (result : Option GoString × Option Err)
  | found (result : Option (List Entry × List GoString)) (err : Option Err)

namespace Method

/-- The request of a call. -/
def request : Method → ClientRequest
  | .simpleBind req => .simpleBind req
  | .search req => .search req
  | .modify req => .modify req
  | .add req => .add req
  | .del req => .del req
  | .modifyDN req => .modifyDN req
  | .compare dn attr value => .compare ⟨dn, attr, value⟩
  | .extended er => .extended er
  | .whoAmI controls => .extended { newExtendedRequest controlTypeWhoAmI none with controls := controls }

/-- A simple bind without a password is refused by the client, unless it is told otherwise. -/
def refused : Method → Bool
  | .simpleBind req => req.password = [] ∧ req.allowEmptyPassword = false
  | _ => false

/-- The end of a search, as a call sees it. -/
def ofSearchEnd {C : Type} : SearchEnd C → CallEnd CallResult
  | .returned result err => .returned (.found (result.map fun r => (r.entries, r.referrals)) err)
  | .panicked => .panicked
  | .waiting => .waiting

section

variable {C : Type} (L : LawfulCodec) (addControlDescriptions : Assign) (decodeControl : Packet → Outcome Err C)
  (conn : Connection) (responses : Responses)

/-- The call of a method. -/
def call : Method → CallEnd CallResult
  | .simpleBind req =>
    (conn.simpleBind decodeControl L.toEncoder addControlDescriptions req responses).map fun x => .status x.2
  | .search req => ofSearchEnd (conn.search L.toEncoder addControlDescriptions decodeControl req responses)
  | .modify req => (conn.modify L.toEncoder addControlDescriptions req responses).map .status
  | .add req => (conn.add L.toEncoder addControlDescriptions (some req) responses).map .status
  | .del req => (conn.del L.toEncoder addControlDescriptions (some req) responses).map .status
  | .modifyDN req => (conn.modifyDN L.toEncoder addControlDescriptions req responses).map .status
  | .compare dn attr value =>
    (conn.compare L.toEncoder addControlDescriptions dn attr value responses).map .compared
  | .extended er =>
    (conn.extended decodeControl L.toEncoder addControlDescriptions (some er) responses).map fun x =>
      .extended (observeExtended x)
  | .whoAmI controls =>
    (conn.whoAmI decodeControl L.toEncoder addControlDescriptions controls responses).map .identity

end

/-- A call that is refused sends nothing, whatever the responses would be. -/
theorem call_refused {C : Type} {L : LawfulCodec} {addControlDescriptions : Assign}
    {decodeControl : Packet → Outcome Err C} {conn : Connection} {responses : Responses} (m : Method)
    (h : m.refused = true) : m.call L addControlDescriptions decodeControl conn responses =
      .returned (.status (some errEmptyPassword)) := by
  cases m with
  | simpleBind req => rw [call, Connection.simpleBind, if_pos (of_decide_eq_true h), CallEnd.map]
  | _ => cases h

/-- What a call comes to, by the answer of the directory. -/
def outcome (a : ServerAnswer) : Method → CallResult
  | .simpleBind _ | .modify _ | .add _ | .del _ | .modifyDN _ => .status a.result.err
  | .search req => .found (some (a.found req).1) (a.found req).2
  | .compare _ _ _ => .compared a.result.compared
  | .extended _ => .extended a.extendedResult
  | .whoAmI _ => .identity (identityOf a.extendedResult)

end Method

/-- A call that asks for an operation. -/
structure ValidCall (E : Encoder) where
  method : Method
  operation : Operation
  asks : method.request.Asks E operation
  controls : List MessageControl
  sent : List.Forall₂ (SentControl E) method.request.controls controls

/-! ## Both sides of a call -/

/-- A connection on which one message can be sent, the one with these octets; for any other it is closed. -/
def carryingConnection (E : Encoder) (debug : Bool) (messageID : ℤ) (octets : GoString) : Connection :=
  ⟨true, false, debug, messageID, fun p => if p.bytes E = octets then none else some errConnectionClosed⟩

/-- A connection on which nothing can be sent. -/
def closedConnection (debug : Bool) (messageID : ℤ) : Connection :=
  ⟨true, true, debug, messageID, fun _ => some errConnectionClosed⟩

/-- The connection sends the message of the request. -/
structure Connection.Carries (E : Encoder) (conn : Connection) (r : ClientRequest) : Prop where
  hasConn : conn.hasConn = true
  sends : ∀ p, r.message E conn.messageID = .ok p → conn.sendMessage p = none

theorem carries_carryingConnection {E : Encoder} {debug : Bool} {id : ℤ} {r : ClientRequest} {p : Packet}
    (h : r.message E id = .ok p) : (carryingConnection E debug id (p.bytes E)).Carries E r := by
  refine ⟨rfl, fun q hq => ?_⟩
  obtain rfl := Outcome.ok.inj (h.symm.trans hq)
  exact if_pos rfl

/-- `doRequest` succeeds with the message that the connection sends. -/
theorem Connection.Carries.doRequest {E : Encoder} {conn : Connection} {r : ClientRequest} (h : conn.Carries E r)
    {appendTo : Packet → Packet} (hmessage : r.message E conn.messageID = .ok (appendTo (requestEnvelope E conn.messageID))) :
    conn.doRequest E appendTo = none := by
  rw [Connection.doRequest, if_pos h.hasConn]
  exact h.sends _ hmessage

section

variable {C : Type} {L : LawfulCodec} {addControlDescriptions : Assign} {conn : Connection} {id : ℤ}

/-- A call with one response handles the response, but for descriptions. -/
theorem exchange_delivered {α : Type} {p : Packet} (hp : WellFormedReply p) {appendTo : Packet → Packet}
    (hsend : conn.doRequest L.toEncoder appendTo = none) {fail : Err → α} {handle : Packet → CallEnd α}
    {rest : List (Except Err Packet)} {closed : Bool} :
    ∃ q, q.undescribed = p.undescribed ∧
      conn.exchange L.toEncoder addControlDescriptions appendTo
        ⟨.ok (handOver addControlDescriptions p) :: rest, closed⟩ fail handle = handle q := by
  obtain ⟨q, hq, hsame⟩ := hp.delivered addControlDescriptions conn.debug
  refine ⟨q, hsame, ?_⟩
  have hread : conn.readPacket addControlDescriptions
      ⟨.ok (handOver addControlDescriptions p) :: rest, closed⟩ = some (.ok q) := congrArg some hq
  rw [Connection.exchange, hsend, hread]

/-- The operations with no result but a code. -/
theorem exchange_status (application : ℕ) {r : LDAPResult} (happ : application % 256 ≠ applicationSearchResultEntry)
    {appendTo : Packet → Packet} (hsend : conn.doRequest L.toEncoder appendTo = none) :
    conn.exchange L.toEncoder addControlDescriptions appendTo
      ⟨handedOver L addControlDescriptions id [resultResponse L.toEncoder application r []], false⟩ some
      (statusResponse application) = .returned r.err := by
  obtain ⟨q, hq, heq⟩ := exchange_delivered (wellFormed_result happ) hsend
  refine heq.trans ?_
  rw [eq_of_undescribed (statusResponse_undescribed application) hq, statusResponse_received]

theorem two_of_undescribed {p q : Packet} (hp : p.children.length = 2) (hq : q.undescribed = p.undescribed) :
    ∃ mid op, q.children = [mid, op] ∧ p.children[1]?.map Packet.undescribed = some op.undescribed := by
  obtain ⟨mid, op, hcs⟩ := List.length_eq_two.mp ((Packet.length_children_eq hq).trans hp)
  refine ⟨mid, op, hcs, ?_⟩
  rw [← List.getElem?_map, ← Packet.undescribed_children, ← hq, Packet.undescribed_children, hcs]
  rfl

theorem compare_answer {dn attr value : GoString}
    (hsend : conn.doRequest L.toEncoder (CompareRequest.appendTo L.toEncoder ⟨dn, attr, value⟩) = none) (r : LDAPResult) :
    conn.compare L.toEncoder addControlDescriptions dn attr value
      ⟨handedOver L addControlDescriptions id [resultResponse L.toEncoder applicationCompareResponse r []], false⟩ =
        .returned r.compared := by
  have hp : WellFormedReply (received L id (resultResponse L.toEncoder applicationCompareResponse r [])) :=
    wellFormed_result (by decide)
  obtain ⟨q, hq, heq⟩ := exchange_delivered hp hsend
  refine heq.trans ?_
  rw [eq_of_undescribed compareResponse_undescribed hq, compareResponse_received]

variable (decodeControl : Packet → Outcome Err C)

theorem simpleBind_answer {req : SimpleBindRequest} (hreq : ¬ (req.password = [] ∧ req.allowEmptyPassword = false))
    (hsend : conn.doRequest L.toEncoder (req.appendTo L.toEncoder) = none) (r : LDAPResult) (more : List Packet) :
    conn.simpleBind decodeControl L.toEncoder addControlDescriptions req
      ⟨handedOver L addControlDescriptions id [resultResponse L.toEncoder applicationBindResponse r more], false⟩ =
        .returned (some [], r.err) := by
  have hp : WellFormedReply (received L id (resultResponse L.toEncoder applicationBindResponse r more)) :=
    wellFormed_result (by decide)
  obtain ⟨q, hq, heq⟩ := exchange_delivered hp hsend
  rw [Connection.simpleBind, if_neg hreq]
  refine heq.trans ?_
  obtain ⟨mid, op, hcs, -⟩ := two_of_undescribed hp.length hq
  exact simpleBindResponse_of_two decodeControl hcs
    ((eq_of_undescribed getLDAPError_undescribed hq).trans getLDAPError_received)

theorem extended_answer {er : ExtendedRequest} (hsend : conn.doRequest L.toEncoder (er.appendTo L.toEncoder) = none)
    (a : ServerAnswer) :
    (conn.extended decodeControl L.toEncoder addControlDescriptions (some er)
      ⟨handedOver L addControlDescriptions id [a.extendedPacket L.toEncoder], false⟩).map observeExtended =
        .returned a.extendedResult := by
  have hp : WellFormedReply (received L id (a.extendedPacket L.toEncoder)) := wellFormed_result (by decide)
  obtain ⟨q, hq, heq⟩ := exchange_delivered hp hsend
  rw [Connection.extended]
  refine (congrArg _ heq).trans ?_
  obtain ⟨mid, op, hcs, hop⟩ := two_of_undescribed hp.length hq
  rw [children_received, List.getElem?_cons_succ, List.getElem?_cons_zero, Option.map_some, Option.some.injEq] at hop
  have hchildren : op.children.map Packet.undescribed =
      ((a.extendedPacket L.toEncoder).wire L.toPrimitives).children.map Packet.undescribed := by
    rw [← Packet.undescribed_children, ← hop, Packet.undescribed_children]
  have hlen : 3 ≤ op.children.length := by
    rw [← List.length_map Packet.undescribed, hchildren, List.length_map, ServerAnswer.extendedPacket, wire_resultResponse,
      children_constructedOf]
    simp
  rw [extendedResponse_of_two decodeControl hcs
    ((eq_of_undescribed getLDAPError_undescribed hq).trans getLDAPError_received) hlen,
    ← foldl_observeComponent_undescribed op.children, hchildren, foldl_observeComponent_undescribed,
    observe_extendedPacket]
  rfl

theorem whoAmI_answer {controls : List Packet} (hsend : conn.doRequest L.toEncoder
      (ExtendedRequest.appendTo L.toEncoder { newExtendedRequest controlTypeWhoAmI none with controls := controls }) = none)
    (a : ServerAnswer) :
    conn.whoAmI decodeControl L.toEncoder addControlDescriptions controls
      ⟨handedOver L addControlDescriptions id [a.extendedPacket L.toEncoder], false⟩ =
        .returned (identityOf a.extendedResult) := by
  rw [Connection.whoAmI, funext whoAmIResult_eq, ← CallEnd.map_map, extended_answer decodeControl hsend]
  rfl

/-- A search with a filter that is accepted sends its request. -/
theorem sends_search {req : SearchRequest} {op : Operation} (hasks : (ClientRequest.search req).Asks L.toEncoder op)
    {ms : List MessageControl} (hsent : List.Forall₂ (SentControl L.toEncoder) req.controls ms)
    (hid : Fits 8 conn.messageID) (hcarries : conn.Carries L.toEncoder (.search req)) :
    conn.sends L.toEncoder req = true := by
  obtain ⟨p, hp, -⟩ := hasks.conveys hid (conveys_sent hsent)
  have happend : req.appendTo L.toEncoder (requestEnvelope L.toEncoder conn.messageID) = .ok p := hp
  rw [Connection.sends, happend, hcarries.hasConn]
  dsimp only
  rw [hcarries.sends p hp]
  rfl

/-- The call of a method returns what the answer comes to. -/
theorem ValidCall.call_answer (c : ValidCall L.toEncoder) (hsends : c.method.refused = false)
    (hcarries : conn.Carries L.toEncoder c.method.request) (hid : Fits 8 conn.messageID) (a : ServerAnswer) :
    c.method.call L addControlDescriptions decodeControl conn
      ⟨handedOver L addControlDescriptions conn.messageID (a.packets L.toEncoder c.operation), false⟩ =
        .returned (c.method.outcome a) := by
  obtain ⟨method, op, hasks, ms, hsent⟩ := c
  cases method with
  | simpleBind req =>
    cases hasks
    exact congrArg (CallEnd.map fun x => CallResult.status x.2)
      (simpleBind_answer decodeControl (of_decide_eq_false hsends) (hcarries.doRequest rfl) a.result _)
  | search req =>
    have hsend := sends_search hasks hsent hid hcarries
    cases hasks
    rw [Method.call, Connection.search_of_sends hsend]
    exact congrArg Method.ofSearchEnd (searchLoop_answer a)
  | modify req =>
    cases hasks
    exact congrArg (CallEnd.map CallResult.status)
      (exchange_status applicationModifyResponse (by decide) (hcarries.doRequest rfl))
  | add req =>
    cases hasks
    exact congrArg (CallEnd.map CallResult.status)
      (exchange_status applicationAddResponse (by decide) (hcarries.doRequest rfl))
  | del req =>
    cases hasks
    exact congrArg (CallEnd.map CallResult.status)
      (exchange_status applicationDelResponse (by decide) (hcarries.doRequest rfl))
  | modifyDN req =>
    cases hasks
    exact congrArg (CallEnd.map CallResult.status)
      (exchange_status applicationModifyDNResponse (by decide) (hcarries.doRequest rfl))
  | compare dn attr value =>
    cases hasks
    exact congrArg (CallEnd.map CallResult.compared) (compare_answer (hcarries.doRequest rfl) a.result)
  | extended er =>
    cases hasks
    exact (CallEnd.map_map _ _ _).symm.trans
      (congrArg (CallEnd.map CallResult.extended) (extended_answer decodeControl (hcarries.doRequest rfl) a))
  | whoAmI controls =>
    cases hasks
    exact congrArg (CallEnd.map CallResult.identity) (whoAmI_answer decodeControl (hcarries.doRequest rfl) a)

end

/-! ## Octets both ways -/

/-- The message ID of a packet, as `reader` takes it. -/
def messageIDOf (p : Packet) : Option ℤ := p.children[0]?.bind fun c => c.value.int?

/-- What a call gets of a frame off the wire: packets with another message ID are for other calls. -/
def readFrame (L : LawfulCodec) (addControlDescriptions : Assign) (id : ℤ) (octets : GoString) :
    Option (Except Err Packet) :=
  match L.decodePacketErr octets with
  | .error _ => none
  | .ok p => if messageIDOf p = some id then some (.ok (handOver addControlDescriptions p)) else none

section

variable {L : LawfulCodec} {addControlDescriptions : Assign} {id : ℤ}

theorem encodable_strings {cls : Ber.Class} {tag : ℕ} {d : GoString} (ss : List GoString) :
    Encodable L.toEncoder (constructedOf L.toEncoder cls tag d
      (ss.map (newString .universal .primitive tagOctetString · []))) := by
  refine encodable_constructedOf fun c hc => ?_
  obtain ⟨s, -, rfl⟩ := List.mem_map.mp hc
  exact (conveys_string s).encodable

theorem encodable_optionalComponent (tag : ℕ) (s : Option GoString) :
    ∀ c ∈ optionalComponent tag s, Encodable L.toEncoder c := by
  intro c hc
  obtain ⟨s, -, rfl⟩ := List.mem_map.mp hc
  exact (conveys_context s).encodable

theorem DirectoryEntry.encodable (e : DirectoryEntry) : Encodable L.toEncoder (e.packet L.toEncoder) := by
  have hattr (a : AttributeValues) : Encodable L.toEncoder (a.packet L.toEncoder) :=
    encodable_constructedOf (List.forall_mem_cons.mpr ⟨(conveys_string a.type).encodable,
      List.forall_mem_singleton.mpr (encodable_strings a.vals)⟩)
  refine encodable_constructedOf (List.forall_mem_cons.mpr ⟨(conveys_string e.dn).encodable,
    List.forall_mem_singleton.mpr (encodable_constructedOf fun c hc => ?_)⟩)
  obtain ⟨a, -, rfl⟩ := List.mem_map.mp hc
  exact hattr a

theorem ServerAnswer.encodable_packets (a : ServerAnswer) (op : Operation) :
    ∀ p ∈ a.packets L.toEncoder op, Encodable L.toEncoder p := by
  have hresult (application : ℕ) : ∀ p ∈ [resultResponse L.toEncoder application a.result []], Encodable L.toEncoder p :=
    List.forall_mem_singleton.mpr (encodable_resultResponse (List.forall_mem_nil _))
  cases op with
  | unbind => exact List.forall_mem_nil _
  | bind version name authentication =>
    exact List.forall_mem_singleton.mpr (encodable_resultResponse (encodable_optionalComponent _ _))
  | search parameters =>
    intro p hp
    simp only [ServerAnswer.packets, List.mem_append, List.mem_map] at hp
    obtain (⟨e, -, rfl⟩ | ⟨uris, -, rfl⟩) | hp := hp
    · exact e.encodable
    · exact encodable_strings (uris.1 :: uris.2)
    · exact hresult _ p hp
  | extended name value =>
    refine List.forall_mem_singleton.mpr (encodable_resultResponse fun c hc => ?_)
    obtain hc | hc := List.mem_append.mp hc
    · exact encodable_optionalComponent _ _ c hc
    · exact encodable_optionalComponent _ _ c hc
  | _ => exact hresult _

theorem decode_response (hid : Fits 8 id) {op : Packet} (hop : Encodable L.toEncoder op) :
    L.decodePacketErr ((responseMessage L.toEncoder id op []).bytes L.toEncoder) = .ok (received L id op) := by
  have hencodable : Encodable L.toEncoder (responseMessage L.toEncoder id op []) :=
    encodable_constructedOf (List.forall_mem_cons.mpr ⟨(conveys_number (.inl rfl) hid).encodable,
      List.forall_mem_singleton.mpr hop⟩)
  rw [L.decode_bytes _ hencodable]
  rfl

theorem messageIDOf_received (hid : Fits 8 id) (op : Packet) : messageIDOf (received L id op) = some id := by
  rw [messageIDOf, children_received, wire_number L (.inl rfl) hid]
  rfl

theorem readFrame_response (hid : Fits 8 id) {op : Packet} (hop : Encodable L.toEncoder op) :
    readFrame L addControlDescriptions id ((responseMessage L.toEncoder id op []).bytes L.toEncoder) =
      some (.ok (handOver addControlDescriptions (received L id op))) := by
  rw [readFrame, decode_response hid hop]
  exact if_pos (messageIDOf_received hid op)

/-- All the frames of an answer come to the call. -/
theorem filterMap_readFrame (hid : Fits 8 id) {ops : List Packet} (hops : ∀ op ∈ ops, Encodable L.toEncoder op) :
    (ops.map fun op => (responseMessage L.toEncoder id op []).bytes L.toEncoder).filterMap
      (readFrame L addControlDescriptions id) = handedOver L addControlDescriptions id ops := by
  induction ops with
  | nil => rfl
  | cons op ops ih =>
    obtain ⟨hop, hops⟩ := List.forall_mem_cons.mp hops
    rw [List.map_cons, List.filterMap_cons, readFrame_response hid hop, ih hops]
    rfl

end

/-! ## Sessions -/

section

variable {σ C : Type} (L : LawfulCodec) (dir : Directory σ)

/-- The directory, asked for the operations themselves. -/
def directly : Dialog.Peer (ValidCall L.toEncoder) (fun _ => CallEnd CallResult) σ := fun s c =>
  if c.method.refused then (some (.returned (.status (some errEmptyPassword))), s)
  else
    let answer := dir s c.operation c.controls
    (some (.returned (c.method.outcome answer.1)), answer.2)

variable (addControlDescriptions : Assign) (decodeControl : Packet → Outcome Err C) (debug : Bool) (ids : ℕ → Int64)

/-- The server behind a connection; the state has the number of messages sent, which the message IDs depend on.  The
server gets the octets of a message, and the call goes over a connection that sends these octets and no others; where no
message is to be sent, nothing can be. -/
def onWire : Dialog.Peer (ValidCall L.toEncoder) (fun _ => CallEnd CallResult) (σ × ℕ) := fun s c =>
  let id := (ids s.2).toInt
  let call (conn : Connection) (frames : List GoString) :=
    c.method.call L addControlDescriptions decodeControl conn
      ⟨frames.filterMap (readFrame L addControlDescriptions id), false⟩
  if c.method.refused then (some (call (closedConnection debug id) []), s)
  else
    match c.method.request.message L.toEncoder id with
    | .ok p =>
      let octets := p.bytes L.toEncoder
      let served := serve L dir s.1 octets
      (some (call (carryingConnection L.toEncoder debug id octets) served.1), (served.2, s.2 + 1))
    | _ => (some (call (closedConnection debug id) []), s)

/-- One call. -/
theorem onWire_simulates : Dialog.Simulates (fun (s : σ × ℕ) t => s.1 = t)
    (onWire L dir addControlDescriptions decodeControl debug ids) (directly L dir) := by
  rintro ⟨s, n⟩ _ c rfl
  have hid : Fits 8 (ids n).toInt := fits_toInt _
  unfold onWire directly
  cases hrefused : c.method.refused with
  | true =>
    simp only [c.method.call_refused hrefused, if_true, and_self]
  | false =>
    obtain ⟨p, hp, hconveys⟩ := c.asks.conveys hid (conveys_sent c.sent)
    simp only [hp, serve_conveyed dir s hconveys, Bool.false_eq_true, if_false, and_true, Option.some.injEq]
    rw [filterMap_readFrame hid (ServerAnswer.encodable_packets _ _)]
    exact c.call_answer decodeControl hrefused (carries_carryingConnection hp) hid _

end

end GoLdap
