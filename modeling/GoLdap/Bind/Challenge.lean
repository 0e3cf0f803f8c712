import GoLdap.Bind.Digest
import GoLdap.Bind.Simple
import GoLdap.Lib.Dialog

/-!
# Bind.Challenge — challenge and response (`bind.go`)

`DigestMD5Bind` and `NTLMChallengeBind` are dialogs with the server: a first bind request, a challenge in the response, a
second request with the answer to it.  `DigestMD5Bind` sends its first request again if the server is still not done.  A
question is a message, which is built when it gets its ID; an answer is what comes of it.
-/

namespace GoLdap

open Go Ber

/-! ## Exchanges -/

/-- What comes of a message: it is not sent, the channel of its responses is closed without one, or there is a response,
which may be an error. -/
inductive Reply where
  | unsent (err : Err)
  | closed
  | failed (err : Err)
  | packet (p : Packet)

/-- A message to be sent, by its ID.  An error in building it is what `doRequest` returns. -/
abbrev Question := ℤ → Except Err Packet

/-- A bind with several exchanges; it ends with whether there is a result, and an error.  The controls of the result are
never filled in. -/
abbrev BindDialog := Dialog Question (fun _ => Reply) (CallEnd (Bool × Option Err))

/-- The end of a bind: an error without a result. -/
def failBind (err : Err) : BindDialog := .done (.returned (false, some err))

/-- The end of a bind: a result, with the error in the packet if there is one. -/
def finishBind (packet : Packet) : BindDialog :=
  match getLDAPError packet with
  | .panic => .done .panicked
  | .err err => .done (.returned (true, some err))
  | .ok () => .done (.returned (true, none))

/-- The first response, as `readPacket` returns it; in debug mode it is described once more. -/
def Reply.first (addControlDescriptions : Assign) (debug : Bool) : Reply → Except Err Packet
  | .unsent err => .error err
  | .closed => .error errResponseChannelClosed
  | .failed err => .error err
  | .packet p => describeInDebug addControlDescriptions debug p >>= describeInDebug addControlDescriptions debug

/-- A later response, by the text around an error in sending the request. -/
def Reply.later (wrapSend : Err → Err) : Reply → Except Err Packet
  | .unsent err => .error (wrapSend err)
  | .closed => .error errResponseChannelClosed
  | .failed err => .error (.wrapped "read packet: %s" err)
  | .packet p => .ok p

/-- The SASL bind request without the authentication choice. -/
def bindRequestPacket (E : Encoder) : Packet :=
  let request := encode .application .constructed applicationBindRequest (str "Bind Request")
  let request := request.appendChild E (newInteger E .universal .primitive tagInteger 3 (str "Version"))
  request.appendChild E (newString .universal .primitive tagOctetString [] (str "User Name"))

/-! ## `DigestMD5Bind` -/

structure DigestMD5BindRequest where
  host : GoString
  username : GoString
  password : GoString
  /-- The controls, encoded. -/
  controls : List Packet

/-- `(*DigestMD5BindRequest).appendTo`. -/
def DigestMD5BindRequest.appendTo (E : Encoder) (req : DigestMD5BindRequest) (envelope : Packet) : Packet :=
  let auth := saslAuthentication.appendChild E
    (newString .universal .primitive tagOctetString (str "DIGEST-MD5") (str "SASL Mech"))
  let envelope := envelope.appendChild E ((bindRequestPacket E).appendChild E auth)
  if 0 < req.controls.length then envelope.appendChild E (encodeControls E req.controls) else envelope

/-- The first request. -/
def DigestMD5BindRequest.question (E : Encoder) (req : DigestMD5BindRequest) : Question :=
  fun messageID => .ok (req.appendTo E (requestEnvelope E messageID))

/-- The request with the response to the challenge. -/
def digestResponseRequest (E : Encoder) (resp : GoString) (messageID : ℤ) : Packet :=
  let auth := saslAuthentication.appendChild E
    (newString .universal .primitive tagOctetString (str "DIGEST-MD5") (str "SASL Mech"))
  let auth := auth.appendChild E (newString .universal .primitive tagOctetString resp (str "Credentials"))
  (requestEnvelope E messageID).appendChild E ((bindRequestPacket E).appendChild E auth)

/-- What is found in the first response. -/
inductive Challenge where
  | none
  /-- The response is not a challenge, and the call returns. -/
  | refused
  | panic
  | invalid (err : Error)
  | params (m : Params)

/-- The directives of the challenge.  The map is never empty: the last turn of the loop in `parseParams` assigns to it. -/
def digestChallenge (packet : Packet) : Challenge :=
  match packet.children with
  | [_, op] =>
    match op.children with
    | [code, _, _, creds] =>
      if code.tag ≠ tagEnumerated then .refused
      else
        match code.value with
        | .int n =>
          if n ≠ 14 then .refused
          else if creds.tag ≠ tagObjectDescriptor then .refused
          else
            match parseParams creds.data with
            | .error e => .invalid e
            | .ok m => .params m
        | _ => .panic
    | _ => .none
  | _ => .none

/-- The second response asks for another exchange; the type assertion on the result code can panic. -/
def digestInProgress (packet : Packet) : Option Bool :=
  match packet.children with
  | [_, response] =>
    if response.classType = .application ∧ response.tagType = .constructed then
      match response.children with
      | code :: _ :: _ :: _ =>
        if typeOfTag code.tag = tagInteger ∨ typeOfTag code.tag = tagEnumerated then
          match code.value with
          | .int n => some (n % 65536 = 14)
          | _ => none
        else some false
      | _ => some false
    else some false
  | _ => some false

section

variable (E : Encoder) (addControlDescriptions : Assign) (debug : Bool) (req : DigestMD5BindRequest)

/-- `DigestMD5Bind` after the second exchange. -/
def digestAfterResponse (packet : Packet) : BindDialog :=
  match digestInProgress packet with
  | none => .done .panicked
  | some false => finishBind packet
  | some true =>
    .ask (req.question E) fun reply =>
      match reply.later id with
      | .error err => failBind err
      | .ok packet => finishBind packet

variable (md5Hash : GoString → GoString) (randomBytes : ℕ → Except Error GoString) (toLower : GoString → GoString)

/-- `DigestMD5Bind` after the first exchange. -/
def digestAfterChallenge (packet : Packet) : BindDialog :=
  match digestChallenge packet with
  | .panic => .done .panicked
  | .invalid e => .done (.returned (true, some (.wrapped "parsing digest-challenge: %s" (.plain e))))
  | .refused | .none => finishBind packet
  | .params m =>
    match computeResponse md5Hash randomBytes m (str "ldap/" ++ toLower req.host) req.username req.password with
    | .error e => failBind (.wrapped "compute digest-md5 response: %s" (.plain e))
    | .ok resp =>
      .ask (fun messageID => .ok (digestResponseRequest E resp messageID)) fun reply =>
        match reply.later (.wrapped "send message: %s") with
        | .error err => failBind err
        | .ok packet => digestAfterResponse E req packet

/-- `DigestMD5Bind`.  The hash, the random bytes and `strings.ToLower` are those of the Go library. -/
def digestMD5Bind : BindDialog :=
  if req.password = [] then failBind errEmptyPassword
  else
    .ask (req.question E) fun reply =>
      match reply.first addControlDescriptions debug with
      | .error err => failBind err
      | .ok packet => digestAfterChallenge E req md5Hash randomBytes toLower packet

end

/-! ## `NTLMChallengeBind` -/

/-- `NTLMNegotiator`. -/
structure NTLMNegotiator where
  negotiate : (domain workstation : GoString) → Except Error GoString
  challengeResponse : (challenge username hash : GoString) → Except Error GoString

/-- The functions of the NTLM library. -/
structure Ntlmssp where
  newNegotiateMessage : (domain workstation : GoString) → Except Error GoString
  processChallenge : (challenge username password : GoString) → (domainNeeded : Bool) → Except Error GoString
  processChallengeWithHash : (challenge username hash : GoString) → Except Error GoString
  /-- The third result of `GetDomain`. -/
  domainNeeded : GoString → Bool

structure NTLMBindRequest where
  domain : GoString
  username : GoString
  password : GoString
  allowEmptyPassword : Bool
  hash : GoString
  /-- The controls, encoded. -/
  controls : List Packet
  negotiator : Option NTLMNegotiator

/-- An authentication choice with a token as its contents, as `ber.Encode` writes it for the context tags 10 and 11. -/
def tokenAuthentication (tag : ℕ) (token : GoString) : Packet :=
  { encode .context .primitive tag (str "authentication") with value := .bytes token, data := token }

section

variable (E : Encoder) (ntlmssp : Ntlmssp) (req : NTLMBindRequest)

/-- The negotiate message. -/
def NTLMBindRequest.negotiateMessage : Except Err GoString :=
  match req.negotiator with
  | none =>
    match ntlmssp.newNegotiateMessage req.domain [] with
    | .error e => .error (.wrapped "create NTLM negotiate message: %s" (.plain e))
    | .ok token => .ok token
  | some negotiator =>
    match negotiator.negotiate req.domain [] with
    | .error e => .error (.wrapped "create NTLM negotiate message with custom negotiator: %s" (.plain e))
    | .ok token => .ok token

/-- `(*NTLMBindRequest).appendTo`. -/
def NTLMBindRequest.appendTo (envelope : Packet) : Except Err Packet := do
  let negMessage ← req.negotiateMessage ntlmssp
  let request := (bindRequestPacket E).appendChild E (tokenAuthentication tagEnumerated negMessage)
  let envelope := envelope.appendChild E request
  return if 0 < req.controls.length then envelope.appendChild E (encodeControls E req.controls) else envelope

/-- The first request. -/
def NTLMBindRequest.question : Question := fun messageID => req.appendTo E ntlmssp (requestEnvelope E messageID)

/-- The request with the response to the challenge. -/
def ntlmResponseRequest (responseMessage : GoString) (messageID : ℤ) : Packet :=
  (requestEnvelope E messageID).appendChild E
    ((bindRequestPacket E).appendChild E (tokenAuthentication tagEmbeddedPDV responseMessage))

variable (ntHash : GoString → GoString)

/-- The response to a challenge. -/
def NTLMBindRequest.responseMessage (challenge : GoString) : Except Error GoString :=
  -- this case was excluded before the first request
  if req.hash = [] ∧ req.password = [] ∧ req.allowEmptyPassword = false then
    .error (.new "need a password or hash to generate reply")
  else
    match req.negotiator with
    | none =>
      if req.hash ≠ [] then ntlmssp.processChallengeWithHash challenge req.username req.hash
      else ntlmssp.processChallenge challenge req.username req.password (ntlmssp.domainNeeded req.username)
    | some negotiator =>
      let hash := if req.hash.length = 0 then ntHash req.password else req.hash
      negotiator.challengeResponse challenge req.username hash

/-- The challenge in the first response: none if the response has another shape, and an error if it does not start as a
challenge does. -/
def ntlmChallenge (packet : Packet) : Option (Except Unit GoString) :=
  match packet.children with
  | [_, op] =>
    match op.children with
    | [_, token, _] => if str "NTLMSSP" <+: token.byteValue then some (.ok token.byteValue) else some (.error ())
    | _ => none
  | _ => none

variable (addControlDescriptions : Assign) (debug : Bool)

/-- `NTLMChallengeBind` after the first exchange. -/
def ntlmAfterChallenge (packet : Packet) : BindDialog :=
  match ntlmChallenge packet with
  | none | some (.error ()) => finishBind packet
  | some (.ok challenge) =>
    match req.responseMessage ntlmssp ntHash challenge with
    | .error e => .done (.returned (true, some (.wrapped "process NTLM challenge: %s" (.plain e))))
    | .ok responseMessage =>
      .ask (fun messageID => .ok (ntlmResponseRequest E responseMessage messageID)) fun reply =>
        match reply.later (.wrapped "send message: %s") with
        | .error err => failBind err
        | .ok packet => finishBind packet

/-- `NTLMChallengeBind`. -/
def ntlmChallengeBind : BindDialog :=
  if req.allowEmptyPassword = false ∧ req.password = [] ∧ req.hash = [] then failBind errEmptyPassword
  else
    .ask (req.question E ntlmssp) fun reply =>
      match reply.first addControlDescriptions debug with
      | .error err => failBind err
      | .ok packet => ntlmAfterChallenge E ntlmssp req ntHash packet

end

end GoLdap
