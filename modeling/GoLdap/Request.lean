import GoLdap.Descriptions.Model

/-!
# Request — a request on a connection (`request.go`, `conn.go`, `control.go`)

What the operations that wait for responses see of a connection: whether it is closing, what comes of sending the
request, and the responses to it until the channel of the message is closed.  `exchange` is the way the operations with
one response begin: `doRequest`, then `readPacket`.
-/

namespace GoLdap

open Go Ber

/-- `encodeControls`, on the controls as their `Encode` gives them. -/
def encodeControls (E : Encoder) (controls : List Packet) : Packet :=
  controls.foldl (Packet.appendChild E) (encode .context .constructed 0 (str "Controls"))

/-- The envelope of a request: the sequence with the message ID. -/
def requestEnvelope (E : Encoder) (messageID : ℤ) : Packet :=
  (encode .universal .constructed tagSequence (str "LDAP Request")).appendChild E
    (newInteger E .universal .primitive tagInteger messageID (str "MessageID"))

/-- A connection at the time of a call. -/
structure Connection where
  /-- `Conn.conn` is not nil. -/
  hasConn : Bool
  /-- `IsClosing`. -/
  closing : Bool
  debug : Bool
  /-- The next message ID. -/
  messageID : ℤ
  /-- The error of `sendMessage`, if any, on a connection that was not closing when it was called. -/
  transmit : Packet → Option Err

def errNilConnection : Err := .plain (.new "ldap: conn is nil, expected net.Conn")

def errConnectionClosed : Err := newError errorNetwork (.new "ldap: connection closed")

def errResponseChannelClosed : Err := newError errorNetwork (.new "ldap: response channel closed")

/-- `sendMessage`: its error, if any. -/
def Connection.sendMessage (conn : Connection) (packet : Packet) : Option Err :=
  if conn.closing then some errConnectionClosed else conn.transmit packet

/-- The responses to a request: what `ReadPacket` returns for one after the other, and whether the channel is closed
after them. -/
structure Responses where
  packets : List (Except Err Packet)
  closed : Bool

/-! ## Operations with one response -/

/-- How a call ends: it returns, it panics, or it waits for a response. -/
inductive CallEnd (α : Type) where
  | returned (a : α)
  | panicked
  | waiting
  deriving DecidableEq, Repr

/-- `doRequest`, with a request whose `appendTo` does not fail: its error, if any. -/
def Connection.doRequest (E : Encoder) (conn : Connection) (appendTo : Packet → Packet) : Option Err :=
  if conn.hasConn then conn.sendMessage (appendTo (requestEnvelope E conn.messageID)) else some errNilConnection

/-- `readPacket`: nothing, as long as no response has come. -/
def Connection.readPacket (addControlDescriptions : Assign) (conn : Connection) (responses : Responses) :
    Option (Except Err Packet) :=
  match responses.packets with
  | [] => if responses.closed then some (.error errResponseChannelClosed) else none
  | .error e :: _ => some (.error e)
  | .ok packet :: _ => some (describeInDebug addControlDescriptions conn.debug packet)

/-- A request is sent and a response is read; an error in that is returned, and the response is handled. -/
def Connection.exchange {α : Type} (E : Encoder) (addControlDescriptions : Assign) (conn : Connection)
    (appendTo : Packet → Packet) (responses : Responses) (fail : Err → α) (handle : Packet → CallEnd α) : CallEnd α :=
  match conn.doRequest E appendTo with
  | some e => .returned (fail e)
  | none =>
    match conn.readPacket addControlDescriptions responses with
    | none => .waiting
    | some (.error e) => .returned (fail e)
    | some (.ok packet) => handle packet

/-- A call that did not fail on the way has handled the packet that was read. -/
theorem Connection.exchange_cases {α : Type} (E : Encoder) (addControlDescriptions : Assign) (conn : Connection)
    (appendTo : Packet → Packet) (responses : Responses) :
    (∃ e, ∀ (fail : Err → α) handle,
      conn.exchange E addControlDescriptions appendTo responses fail handle = .returned (fail e)) ∨
    (∀ (fail : Err → α) handle, conn.exchange E addControlDescriptions appendTo responses fail handle = .waiting) ∨
    ∃ packet, conn.doRequest E appendTo = none ∧ conn.readPacket addControlDescriptions responses = some (.ok packet) ∧
      ∀ (fail : Err → α) handle,
        conn.exchange E addControlDescriptions appendTo responses fail handle = handle packet := by
  unfold Connection.exchange
  cases conn.doRequest E appendTo with
  | some e => exact .inl ⟨e, fun _ _ => rfl⟩
  | none =>
    cases conn.readPacket addControlDescriptions responses with
    | none => exact .inr (.inl fun _ _ => rfl)
    | some r =>
      cases r with
      | error e => exact .inl ⟨e, fun _ _ => rfl⟩
      | ok packet => exact .inr (.inr ⟨packet, rfl, rfl, fun _ _ => rfl⟩)

/-! ## Parts of a response -/

/-- The type assertion to a string, with its result. -/
def asString : Value → Option GoString
  | .string s => some s
  | _ => none

/-- The loop over the controls of a response: the controls decoded so far, and how it ended. -/
def decodeControls {C : Type} (decodeControl : Packet → Outcome Err C) (wrap : Err → Err) :
    List Packet → List C × Outcome Err Unit
  | [] => ([], .ok ())
  | child :: rest =>
    match decodeControl child with
    | .ok c => (c :: (decodeControls decodeControl wrap rest).1, (decodeControls decodeControl wrap rest).2)
    | .err e => ([], .err (wrap e))
    | .panic => ([], .panic)

/-- Controls are decoded, or there is the error of the first that is not. -/
theorem decodeControls_cases {C : Type} {decodeControl : Packet → Outcome Err C}
    (hdecode : ∀ p, decodeControl p ≠ .panic) (wrap : Err → Err) (cs : List Packet) :
    (∃ decoded, decodeControls decodeControl wrap cs = (decoded, .ok ())) ∨
      ∃ decoded err, decodeControls decodeControl wrap cs = (decoded, .err (wrap err)) := by
  induction cs with
  | nil => exact .inl ⟨[], rfl⟩
  | cons c cs ih =>
    rw [decodeControls]
    cases hc : decodeControl c with
    | panic => exact absurd hc (hdecode c)
    | err err => exact .inr ⟨[], err, rfl⟩
    | ok d =>
      obtain ⟨decoded, h⟩ | ⟨decoded, err, h⟩ := ih
      · exact .inl ⟨d :: decoded, by rw [h]⟩
      · exact .inr ⟨d :: decoded, err, by rw [h]⟩

/-- The error for a packet without an operation. -/
def errMalformedResponse (packet : Packet) : Err :=
  .plain (.fmtNum "ldap: malformed response: expected at least 2 children, got %d" packet.children.length)

/-- An open connection that sends whatever it is given. -/
def openConnection : Connection := ⟨true, false, false, 1, fun _ => none⟩

/-- A response with a result code, as it is read off the wire. -/
def resultMessage (application : ℕ) (code : ℤ) (content : GoString) : Packet :=
  readConstructed shortEncoder .universal tagSequence
    [readPrimitive .universal tagInteger (.int 1) [1],
      readConstructed shortEncoder .application application
        [readPrimitive .universal tagEnumerated (.int code) content,
          readPrimitive .universal tagOctetString (.string []) [],
          readPrimitive .universal tagOctetString (.string []) []]]

theorem asRead_resultMessage (application : ℕ) (code : ℤ) (content : GoString) :
    AsRead (resultMessage application code content) := by
  have hstring : AsRead (readPrimitive .universal tagOctetString (.string []) []) :=
    asRead_readPrimitive [] (.inl ⟨rfl, [], rfl⟩)
  have hnumber {tag : ℕ} (htag : tag = tagInteger ∨ tag = tagEnumerated) (n : ℤ) (content : GoString) :
      AsRead (readPrimitive .universal tag (.int n) content) :=
    asRead_readPrimitive content (.inr ⟨htag, n, rfl⟩)
  refine asRead_readConstructed _ _ _ (List.forall_mem_cons.mpr
    ⟨hnumber (.inl rfl) 1 [1], List.forall_mem_singleton.mpr ?_⟩)
  refine asRead_readConstructed _ _ _ (List.forall_mem_cons.mpr ⟨hnumber (.inr rfl) code content, ?_⟩)
  exact List.forall_mem_cons.mpr ⟨hstring, List.forall_mem_singleton.mpr hstring⟩

end GoLdap
