import GoLdap.Modify

/-!
# Extended — extended operations (`extended.go`, `whoami.go`, `passwdmodify.go`)

`Extended` hands over the name and the value of the response; `WhoAmI` is an extended operation whose value is an
authorization identity.  `PasswordModify` sends its own extended request and decodes the value of the response.

`Extended` does not look at the application code of the response, unlike `PasswordModify`.
-/

namespace GoLdap

open Go Ber

/-! ## `Extended` -/

structure ExtendedRequest where
  name : GoString
  /-- The request value, a packet that the caller has built. -/
  value : Option Packet
  /-- The controls, encoded. -/
  controls : List Packet

/-- `NewExtendedRequest`. -/
def newExtendedRequest (name : GoString) (value : Option Packet) : ExtendedRequest := ⟨name, value, []⟩

/-- `(ExtendedRequest).appendTo`. -/
def ExtendedRequest.appendTo (E : Encoder) (er : ExtendedRequest) (envelope : Packet) : Packet :=
  let pkt := encode .application .constructed applicationExtendedRequest (str "Extended Request")
  let pkt := pkt.appendChild E (newString .context .primitive tagEOC er.name (str "Extended Request Name"))
  let pkt := match er.value with
    | some value => pkt.appendChild E value
    | none => pkt
  let envelope := envelope.appendChild E pkt
  if 0 < er.controls.length then envelope.appendChild E (encodeControls E er.controls) else envelope

structure ExtendedResponse (C : Type) where
  name : GoString
  value : Option Packet
  controls : List C

def errNilExtendedRequest : Err := newError errorNetwork (.new "ExtendedRequest cannot be nil")

section

variable {C : Type}

/-- One turn of the loop over the components of the response: `responseName` and `responseValue` are context-class. -/
def ExtendedResponse.component (response : ExtendedResponse C) (child : Packet) : ExtendedResponse C :=
  if child.classType ≠ .context then response
  else if child.tag = tagEnumerated then { response with name := child.data }
  else if child.tag = tagEmbeddedPDV then { response with value := some child }
  else response

variable (decodeControl : Packet → Outcome Err C)

/-- What `Extended` makes of the response. -/
def extendedResponse (packet : Packet) : CallEnd (Option (ExtendedResponse C) × Option Err) :=
  match getLDAPError packet with
  | .panic => .panicked
  | .err err => .returned (none, some err)
  | .ok () =>
    match packet.children[1]? with
    | none => .panicked
    | some extResp =>
      if extResp.children.length < 3 then
        .returned (none, some (.plain (.fmtNum
          "ldap: malformed extended response: expected at least 3 children, got %d" packet.children.length)))
      else
        let response := extResp.children.foldl ExtendedResponse.component ⟨[], none, []⟩
        match packet.children with
        | [_, _, controls] =>
          match decodeControls decodeControl (.wrapped "failed to decode child control: %s") controls.children with
          | (_, .panic) => .panicked
          | (_, .err err) => .returned (none, some err)
          | (cs, .ok ()) => .returned (some { response with controls := cs }, none)
        | _ => .returned (some response, none)

variable (E : Encoder) (addControlDescriptions : Assign) (conn : Connection)

/-- `Extended`; the request may be nil. -/
def Connection.extended (er : Option ExtendedRequest) (responses : Responses) :
    CallEnd (Option (ExtendedResponse C) × Option Err) :=
  match er with
  | none => .returned (none, some errNilExtendedRequest)
  | some er => conn.exchange E addControlDescriptions (er.appendTo E) responses (fun err => (none, some err))
      (extendedResponse decodeControl)

/-! ## `WhoAmI` -/

def controlTypeWhoAmI : GoString := str "1.3.6.1.4.1.4203.1.11.3"

/-- What `WhoAmI` returns for what `Extended` returned: an identity, which is empty if there was no value, or an error. -/
def whoAmIResult : Option (ExtendedResponse C) × Option Err → Option GoString × Option Err
  | (_, some err) => (none, some err)
  | (some resp, none) =>
    match resp.value with
    | some value => (some value.data, none)
    | none => (some [], none)
  -- a nil response is dereferenced, which does not happen
  | (none, none) => (none, none)

def CallEnd.map {α β : Type} (f : α → β) : CallEnd α → CallEnd β
  | .returned a => .returned (f a)
  | .panicked => .panicked
  | .waiting => .waiting

theorem CallEnd.map_map {α β γ : Type} (f : α → β) (g : β → γ) (x : CallEnd α) :
    (x.map f).map g = x.map fun a => g (f a) := by cases x <;> rfl

/-- `WhoAmI`. -/
def Connection.whoAmI (controls : List Packet) (responses : Responses) : CallEnd (Option GoString × Option Err) :=
  (conn.extended decodeControl E addControlDescriptions
    (some { newExtendedRequest controlTypeWhoAmI none with controls := controls }) responses).map whoAmIResult

end

/-! ## `PasswordModify` -/

def passwordModifyOID : GoString := str "1.3.6.1.4.1.4203.1.11.1"

structure PasswordModifyRequest where
  userIdentity : GoString
  oldPassword : GoString
  newPassword : GoString

structure PasswordModifyResult where
  generatedPassword : GoString
  referral : GoString
  deriving DecidableEq, Repr

/-- The sequence in the value of the request; what is empty is left out. -/
def PasswordModifyRequest.sequence (E : Encoder) (req : PasswordModifyRequest) : Packet :=
  let seq := encode .universal .constructed tagSequence (str "Password Modify Request")
  let seq := if req.userIdentity ≠ [] then
      seq.appendChild E (newString .context .primitive 0 req.userIdentity (str "User Identity"))
    else seq
  let seq := if req.oldPassword ≠ [] then
      seq.appendChild E (newString .context .primitive 1 req.oldPassword (str "Old Password"))
    else seq
  if req.newPassword ≠ [] then
    seq.appendChild E (newString .context .primitive 2 req.newPassword (str "New Password"))
  else seq

/-- `(*PasswordModifyRequest).appendTo`. -/
def PasswordModifyRequest.appendTo (E : Encoder) (req : PasswordModifyRequest) (envelope : Packet) : Packet :=
  let pkt := encode .application .constructed applicationExtendedRequest (str "Password Modify Extended Operation")
  let pkt := pkt.appendChild E
    (newString .context .primitive 0 passwordModifyOID (str "Extended Request Name: Password Modify OID"))
  let value := encode .context .primitive 1 (str "Extended Request Value: Password Modify Request")
  let value := value.appendChild E (req.sequence E)
  envelope.appendChild E (pkt.appendChild E value)

section

variable (L : Codec)

/-- The loop over the components of the response: the password in the last `responseValue` that has one. -/
def generatedPassword : GoString → List Packet → Except Err GoString
  | generated, [] => .ok generated
  | generated, child :: rest =>
    if child.tag = tagEmbeddedPDV then
      match L.decodePacketErr child.data with
      | .error e => .error (.wrapped "ldap: failed to decode PasswordModifyResponseValue: %s" (.plain e))
      | .ok value =>
        match value.children with
        | [password] => generatedPassword (if password.tag = tagEOC then password.data else generated) rest
        | _ => generatedPassword generated rest
    else generatedPassword generated rest

/-- What `PasswordModify` makes of the response. -/
def passwordModifyResponse (packet : Packet) : CallEnd (Option PasswordModifyResult × Option Err) :=
  match packet.children[1]? with
  | none => .returned (none, some (errMalformedResponse packet))
  | some extendedResponse =>
    if extendedResponse.tag = applicationExtendedResponse then
      match getLDAPError packet with
      | .panic => .panicked
      | .err err => .returned (some ⟨[], getReferral err packet⟩, some err)
      | .ok () =>
        match generatedPassword L [] extendedResponse.children with
        | .error err => .returned (none, some err)
        | .ok password => .returned (some ⟨password, []⟩, none)
    else
      .returned (none, some (newError errorUnexpectedResponse (.fmtNum "unexpected Response: %d" extendedResponse.tag)))

/-- `PasswordModify`. -/
def Connection.passwordModify (addControlDescriptions : Assign) (conn : Connection) (req : PasswordModifyRequest)
    (responses : Responses) : CallEnd (Option PasswordModifyResult × Option Err) :=
  conn.exchange L.toEncoder addControlDescriptions (req.appendTo L.toEncoder) responses (fun err => (none, some err))
    (passwordModifyResponse L)

end

end GoLdap
