import GoLdap.Extended

/-!
# Bind.Simple — bind operations with one exchange, and unbind (`bind.go`, `unbind.go`)

`SimpleBind` refuses an empty password unless it is told to allow one, so that a missing password is not taken for an
unauthenticated bind by the server.  The controls of the response are decoded before its result code is looked at.
-/

namespace GoLdap

open Go Ber

/-! ## `SimpleBind` -/

structure SimpleBindRequest where
  username : GoString
  password : GoString
  /-- The controls, encoded. -/
  controls : List Packet
  allowEmptyPassword : Bool

/-- `NewSimpleBindRequest`. -/
def newSimpleBindRequest (username password : GoString) (controls : List Packet) : SimpleBindRequest :=
  ⟨username, password, controls, false⟩

/-- `(*SimpleBindRequest).appendTo`. -/
def SimpleBindRequest.appendTo (E : Encoder) (req : SimpleBindRequest) (envelope : Packet) : Packet :=
  let pkt := encode .application .constructed applicationBindRequest (str "Bind Request")
  let pkt := pkt.appendChild E (newInteger E .universal .primitive tagInteger 3 (str "Version"))
  let pkt := pkt.appendChild E (newString .universal .primitive tagOctetString req.username (str "User Name"))
  let pkt := pkt.appendChild E (newString .context .primitive 0 req.password (str "Password"))
  let envelope := envelope.appendChild E pkt
  if 0 < req.controls.length then envelope.appendChild E (encodeControls E req.controls) else envelope

def errEmptyPassword : Err := newError errorEmptyPassword (.new "ldap: empty password not allowed by the client")

section

variable {C : Type} (decodeControl : Packet → Outcome Err C)

/-- What `SimpleBind` makes of the response: the controls, and an error.  The application code is not looked at. -/
def simpleBindResponse (packet : Packet) : CallEnd (Option (List C) × Option Err) :=
  let result (controls : List C) : CallEnd (Option (List C) × Option Err) :=
    match getLDAPError packet with
    | .panic => .panicked
    | .err err => .returned (some controls, some err)
    | .ok () => .returned (some controls, none)
  match packet.children with
  | [_, _, controls] =>
    match decodeControls decodeControl (.wrapped "failed to decode child control: %s") controls.children with
    | (_, .panic) => .panicked
    | (_, .err err) => .returned (none, some err)
    | (cs, .ok ()) => result cs
  | _ => result []

variable (E : Encoder) (addControlDescriptions : Assign) (conn : Connection)

/-- `SimpleBind`. -/
def Connection.simpleBind (req : SimpleBindRequest) (responses : Responses) : CallEnd (Option (List C) × Option Err) :=
  if req.password = [] ∧ req.allowEmptyPassword = false then .returned (none, some errEmptyPassword)
  else conn.exchange E addControlDescriptions (req.appendTo E) responses (fun err => (none, some err))
    (simpleBindResponse decodeControl)

/-- `Bind`. -/
def Connection.bind (username password : GoString) (responses : Responses) : CallEnd (Option Err) :=
  (conn.simpleBind decodeControl E addControlDescriptions ⟨username, password, [], false⟩ responses).map Prod.snd

/-- `UnauthenticatedBind`. -/
def Connection.unauthenticatedBind (username : GoString) (responses : Responses) : CallEnd (Option Err) :=
  (conn.simpleBind decodeControl E addControlDescriptions ⟨username, [], [], true⟩ responses).map Prod.snd

end

/-! ## `ExternalBind` -/

/-- The authentication choice of a SASL bind, before the name of the mechanism is appended. -/
def saslAuthentication : Packet := { encode .context .constructed 3 (str "authentication") with value := .string [] }

/-- `externalBindRequest`. -/
def externalBindRequest (E : Encoder) (envelope : Packet) : Packet :=
  let pkt := encode .application .constructed applicationBindRequest (str "Bind Request")
  let pkt := pkt.appendChild E (newInteger E .universal .primitive tagInteger 3 (str "Version"))
  let pkt := pkt.appendChild E (newString .universal .primitive tagOctetString [] (str "User Name"))
  let saslAuth := saslAuthentication
  let saslAuth := saslAuth.appendChild E
    (newString .universal .primitive tagOctetString (str "EXTERNAL") (str "SASL Mech"))
  let saslAuth := saslAuth.appendChild E (newString .universal .primitive tagOctetString [] (str "SASL Cred"))
  envelope.appendChild E (pkt.appendChild E saslAuth)

/-- What a call returns that hands the result of `GetLDAPError` on. -/
def resultOnly (packet : Packet) : CallEnd (Option Err) :=
  match getLDAPError packet with
  | .panic => .panicked
  | .err err => .returned (some err)
  | .ok () => .returned none

section

variable (E : Encoder) (addControlDescriptions : Assign) (conn : Connection)

/-- `ExternalBind`. -/
def Connection.externalBind (responses : Responses) : CallEnd (Option Err) :=
  conn.exchange E addControlDescriptions (externalBindRequest E) responses some resultOnly

end

/-! ## `Unbind` -/

/-- `unbindRequest.appendTo`. -/
def unbindRequest (E : Encoder) (envelope : Packet) : Packet :=
  envelope.appendChild E
    (encode .application .primitive applicationUnbindRequest (applicationMap applicationUnbindRequest))

def errConnUnbound : Err := newError errorNetwork (.new "ldap: connection is closed")

/-- `Unbind`: its error, if any; without one the connection has been closed. -/
def Connection.unbind (E : Encoder) (conn : Connection) : Option Err :=
  if conn.closing then some errConnUnbound else conn.doRequest E (unbindRequest E)

end GoLdap
