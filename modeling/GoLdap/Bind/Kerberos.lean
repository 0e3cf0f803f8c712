import GoLdap.Bind.Gssapi
import GoLdap.Bind.WrapToken

/-!
# Bind.Kerberos — the GSSAPI handshake with the Kerberos client (`gssapi/client.go`)

`gssapi.Client` is the repository's own `GSSAPIClient`.  It asks for a new ticket whenever `InitSecContextWithOptions` is
called with a nil slice, so the handshake is modelled once more here, on slices that may be nil.

* `handshake_octets`: for a client that does not tell nil from the empty slice this is the loop of `Bind.Gssapi`.
* `kerberosBind_sound`: whatever the server answers, the handshake succeeds only if the server has sent an AP-REP that
  decrypts under the key of the ticket in an AP-REQ of the client; the security layer is negotiated, as "none", only with
  tokens that verify under one of the keys; and no key is left when the call is over.
-/

namespace GoLdap

open Go Ber

/-- A slice of octets that may be nil. -/
abbrev Slice := Option GoString

/-! ## Tokens that may be nil -/

/-- The case of a bind in progress. -/
def inProgressSlice (protocolOp : Packet) (fallThrough : Outcome Err Slice) : Outcome Err Slice :=
  if protocolOp.children.length < 3 then fallThrough
  else
    match protocolOp.children[3]? with
    | none => .panic
    | some referral =>
      if referral.description = str "Referral" then
        if referral.classType ≠ .context ∨ referral.tag ≠ tagObjectDescriptor then fallThrough
        -- the slice that `ioutil.ReadAll` returns is not nil, also if it is empty
        else .ok (some referral.data)
      else fallThrough

/-- What `saslBindTokenExchange` makes of the packet it has read. -/
def bindSlice (packet : Packet) : Outcome Err Slice :=
  match packet.children with
  | [_, protocolOp] =>
    let fallThrough : Outcome Err Slice := getLDAPError packet >>= fun _ => .ok none
    if protocolOp.description = str "Bind Response" then
      match protocolOp.children with
      | [] => .panic
      | resultCode :: _ =>
        if resultCode.tag ≠ tagEnumerated then fallThrough
        else
          match resultCode.value with
          | .int code =>
            if code = 14 then inProgressSlice protocolOp fallThrough
            else if code = 0 then .ok none
            else fallThrough
          | _ => .panic
    else fallThrough
  | _ => .err (.plain (.new "bad bind response"))

/-- The token in a reply off the wire. -/
def replySlice (addControlDescriptions : Assign) (debug : Bool) (wire : Packet) : Outcome Err Slice := do
  let packet ← .ofExcept (describeInDebug addControlDescriptions debug (handOver addControlDescriptions wire))
  let packet ← .ofExcept (describeInDebug addControlDescriptions debug packet)
  bindSlice packet

theorem inProgressSlice_octets (protocolOp : Packet) (r : Outcome Err Slice) :
    (·.getD []) <$> inProgressSlice protocolOp r = inProgressToken protocolOp ((·.getD []) <$> r) := by
  unfold inProgressSlice inProgressToken
  by_cases hlen : protocolOp.children.length < 3
  · rw [if_pos hlen, if_pos hlen]
  rw [if_neg hlen, if_neg hlen]
  cases protocolOp.children[3]? with
  | none => rfl
  | some referral =>
    dsimp only
    split
    · split <;> rfl
    · rfl

theorem bindSlice_octets (packet : Packet) : (·.getD []) <$> bindSlice packet = bindToken packet := by
  have hfall : ((·.getD []) <$> (getLDAPError packet >>= fun _ => Outcome.ok (none : Slice)) : Outcome Err GoString) =
      (getLDAPError packet >>= fun _ => .ok []) := by
    cases getLDAPError packet <;> rfl
  unfold bindSlice bindToken
  rcases packet.children with _ | ⟨_, _ | ⟨protocolOp, _ | _⟩⟩
  case cons.cons.nil =>
    by_cases hop : protocolOp.description = str "Bind Response"
    swap
    · simpa only [if_neg hop] using hfall
    simp only [if_pos hop]
    rcases protocolOp.children with _ | ⟨resultCode, _⟩
    · rfl
    by_cases htag : resultCode.tag ≠ tagEnumerated
    · simpa only [if_pos htag] using hfall
    simp only [if_neg htag]
    cases resultCode.value with
    | int code =>
      by_cases h14 : code = 14
      · simp only [if_pos h14, inProgressSlice_octets, hfall]
      by_cases h0 : code = 0
      · simp only [if_neg h14, if_pos h0]
        rfl
      · simpa only [if_neg h14, if_neg h0] using hfall
    | _ => rfl
  all_goals rfl

theorem replySlice_octets (addControlDescriptions : Assign) (debug : Bool) (wire : Packet) :
    (·.getD []) <$> replySlice addControlDescriptions debug wire = replyToken addControlDescriptions debug wire := by
  unfold replySlice replyToken
  cases Outcome.ofExcept (describeInDebug addControlDescriptions debug (handOver addControlDescriptions wire)) with
  | err e => rfl
  | panic => rfl
  | ok packet =>
    rw [Outcome.ok_bind, Outcome.ok_bind]
    cases Outcome.ofExcept (describeInDebug addControlDescriptions debug packet) with
    | err e => rfl
    | panic => rfl
    | ok packet => exact bindSlice_octets packet

/-! ## The handshake -/

/-- `GSSAPIClient`, with slices that may be nil. -/
structure SecContextClient (σ : Type) where
  initSecContextWithOptions : GoString → Slice → List ℤ → Stateful σ Err (Slice × Bool)
  negotiateSaslAuth : Slice → GoString → Stateful σ Err Slice
  deleteSecContext : σ → σ

/-- One turn of the loop: `needInit` and the token at its beginning, the token it sends, and what comes back. -/
structure Turn where
  needInit : Bool
  input : Slice
  sent : Slice
  reply : Option (Except Err Packet)

/-- A handshake: its turns, how the call ends, and what the client holds then. -/
structure Handshake (σ : Type) where
  turns : List Turn
  result : CallEnd (Option Err)
  client : σ

section Loop

variable {σ : Type} (E : Encoder) (addControlDescriptions : Assign) (debug : Bool) (client : SecContextClient σ)
  (req : GSSAPIBindRequest) (options : List ℤ)

/-- The token of the next request and the new `needInit`. -/
def nextSlice (needInit : Bool) (recvToken : Slice) : Stateful σ Err (Slice × Bool) :=
  if needInit then client.initSecContextWithOptions req.servicePrincipalName recvToken options
  else do
    let reqToken ← client.negotiateSaslAuth recvToken req.authZID
    pure (reqToken, false)

/-- `saslBindTokenExchange`: what comes back for the request, and the result. -/
def exchangeSlice (x : Exchange) (reqToken : Slice) : Except Err Packet × Outcome Err Slice :=
  let reply := x.reply (saslBindRequest E x.messageID req.controls (reqToken.getD []))
  (reply, .ofExcept reply >>= replySlice addControlDescriptions debug)

/-- The loop, with the deferred `DeleteSecContext` when the call is over. -/
def handshake (needInit : Bool) (recvToken : Slice) (s : σ) (exchanges : List Exchange) : Handshake σ :=
  match (nextSlice client req options needInit recvToken).run s with
  | (.err e, s) => ⟨[], .returned (some e), client.deleteSecContext s⟩
  | (.panic, s) => ⟨[], .panicked, client.deleteSecContext s⟩
  | (.ok (reqToken, more), s) =>
    match exchanges with
    | [] => ⟨[⟨needInit, recvToken, reqToken, none⟩], .waiting, s⟩
    | x :: xs =>
      let answer := exchangeSlice E addControlDescriptions debug req x reqToken
      let turn : Turn := ⟨needInit, recvToken, reqToken, some answer.1⟩
      match answer.2 with
      | .err e => ⟨[turn], .returned (some e), client.deleteSecContext s⟩
      | .panic => ⟨[turn], .panicked, client.deleteSecContext s⟩
      | .ok token =>
        if more = false ∧ (token.getD []).length = 0 then ⟨[turn], .returned none, client.deleteSecContext s⟩
        else
          let rest := handshake more token s xs
          ⟨turn :: rest.turns, rest.result, rest.client⟩

end Loop

/-- How the call ends, as `bindLoop` says it. -/
def CallEnd.outcome : CallEnd (Option Err) → Option (Outcome Err Unit)
  | .returned none => some (.ok ())
  | .returned (some e) => some (.err e)
  | .panicked => some .panic
  | .waiting => none

/-- A client that takes nil for the empty slice. -/
def GSSAPIClient.onSlices {σ : Type} (client : GSSAPIClient σ) : SecContextClient σ where
  initSecContextWithOptions target input options :=
    ⟨fun s =>
      let (r, s) := client.initSecContextWithOptions target (input.getD []) options s
      (.ofExcept (r.map fun a => (some a.1, a.2)), s)⟩
  negotiateSaslAuth input authzid :=
    ⟨fun s =>
      let (r, s) := client.negotiateSaslAuth (input.getD []) authzid s
      (.ofExcept (r.map some), s)⟩
  deleteSecContext s := s

section Octets

variable {σ : Type} {E : Encoder} {addControlDescriptions : Assign} {debug : Bool} (client : GSSAPIClient σ)
  {req : GSSAPIBindRequest} {options : List ℤ}

theorem nextSlice_onSlices (needInit : Bool) (recvToken : Slice) (s : σ) :
    (nextSlice client.onSlices req options needInit recvToken).run s =
      (.ofExcept ((nextToken client req options needInit (recvToken.getD []) s).1.map fun a => (some a.1, a.2)),
        (nextToken client req options needInit (recvToken.getD []) s).2) := by
  unfold nextSlice nextToken
  cases needInit with
  | true => rfl
  | false =>
    show (Stateful.bind _ _).run s = _
    rcases h : client.negotiateSaslAuth (recvToken.getD []) req.authZID s with ⟨e | token, t⟩
    · simp [Stateful.bind, GSSAPIClient.onSlices, h, Outcome.ofExcept, Except.map]
    · simp [Stateful.bind, GSSAPIClient.onSlices, h, Outcome.ofExcept, Except.map]
      rfl

theorem handshake_octets (needInit : Bool) (recvToken : Slice) (s : σ) (exchanges : List Exchange) :
    (handshake E addControlDescriptions debug client.onSlices req options needInit recvToken s exchanges).result.outcome =
      (bindLoop E addControlDescriptions debug client req options needInit (recvToken.getD []) s exchanges).2 := by
  induction exchanges generalizing needInit recvToken s with
  | nil =>
    rw [handshake, bindLoop, nextSlice_onSlices]
    rcases nextToken client req options needInit (recvToken.getD []) s with ⟨e | ⟨reqToken, more⟩, t⟩ <;> rfl
  | cons x xs ih =>
    rw [handshake, bindLoop, nextSlice_onSlices]
    rcases nextToken client req options needInit (recvToken.getD []) s with ⟨e | ⟨reqToken, more⟩, t⟩
    · rfl
    simp only [Except.map, Outcome.ofExcept, exchangeSlice, saslBindTokenExchange, Option.getD_some]
    cases x.reply (saslBindRequest E x.messageID req.controls reqToken) with
    | error e => rfl
    | ok wire =>
      simp only [Outcome.ok_bind, ← replySlice_octets]
      cases replySlice addControlDescriptions debug wire with
      | err e => rfl
      | panic => rfl
      | ok token =>
        simp only [Outcome.map_ok]
        by_cases hend : more = false ∧ (token.getD []).length = 0
        · rw [if_pos hend, if_pos hend]
          rfl
        · rw [if_neg hend, if_neg hend]
          exact ih more token t

end Octets

/-! ## The Kerberos client -/

/-- `spnego.KRB5Token`: the kind of message in it, with what the client reads of it. -/
inductive KRB5Token where
  | apReq
  | apRep (encPart : GoString)
  | krbError (e : Err)

/-- The context flags of a token that asks for a service. -/
inductive ContextFlag where
  | integ
  | conf
  | mutual
  deriving DecidableEq, Repr

/-- The key usage numbers: `AP_REP_ENCPART`, `GSSAPI_ACCEPTOR_SEAL` and `GSSAPI_INITIATOR_SEAL`. -/
inductive KeyUsage where
  | apRepEncPart
  | acceptorSeal
  | initiatorSeal
  deriving DecidableEq, Repr

/-- The Kerberos library, on tickets, keys and what its own client holds. -/
structure Krb5 (T K σ : Type) where
  /-- `types.EncryptionKey{}`. -/
  zeroKey : K
  getServiceTicket : GoString → σ → Except Err (T × K) × σ
  /-- `NewKRB5TokenAPREQ`, and `Marshal` of the token. -/
  newKRB5TokenAPREQ : T → K → List ContextFlag → List ℤ → σ → Except Err GoString × σ
  unmarshalToken : GoString → Except Err KRB5Token
  decryptEncPart : GoString → K → KeyUsage → Except Err GoString
  /-- `EncAPRepPart.Unmarshal`, of which the client keeps the subkey. -/
  unmarshalEncAPRepPart : GoString → Except Err K
  verify : WrapToken → K → KeyUsage → Except Err Unit
  /-- `GetEtype` of the key, and `GetHMACBitLength`. -/
  getHMACBitLength : K → Except Err ℕ
  setCheckSum : WrapToken → K → KeyUsage → Except Err WrapToken
  marshalWrapToken : WrapToken → Except Err GoString

namespace Gssapi

/-- `gssapi.Client`. -/
structure Client (K σ : Type) where
  lib : σ
  ekey : K
  subkey : K

section Calls

variable {T K σ : Type} (krb5 : Krb5 T K σ)

/-- A call of the library's client. -/
def Client.call {α : Type} (f : σ → Except Err α × σ) : Stateful (Client K σ) Err α :=
  ⟨fun client => (.ofExcept (f client.lib).1, { client with lib := (f client.lib).2 })⟩

def deleteSecContext (client : Client K σ) : Client K σ :=
  { client with ekey := krb5.zeroKey, subkey := krb5.zeroKey }

def initSecContextWithOptions (target : GoString) (input : Slice) (apOptions : List ℤ) :
    Stateful (Client K σ) Err (Slice × Bool) :=
  match input with
  | none => do
    let (tkt, ekey) ← Client.call (krb5.getServiceTicket target)
    .modify fun client => { client with ekey := ekey }
    let output ← Client.call (krb5.newKRB5TokenAPREQ tkt ekey [.integ, .conf, .mutual] apOptions)
    pure (some output, true)
  | some input => do
    match ← .lift (.ofExcept (krb5.unmarshalToken input)) with
    | .apReq => pure (some [], true)
    | .apRep encPart =>
      let client ← .get
      let encpart ← .lift (.ofExcept (krb5.decryptEncPart encPart client.ekey .apRepEncPart))
      let subkey ← .lift (.ofExcept (krb5.unmarshalEncAPRepPart encpart))
      .modify fun client => { client with subkey := subkey }
      pure (some [], false)
    | .krbError e => .fail e

/-- `UnmarshalWrapToken` with a new token, from the acceptor. -/
def receivedWrapToken (input : GoString) : Outcome Err WrapToken :=
  match (unmarshalWrapToken input true).run ⟨0, 0, 0, 0, [], []⟩ with
  | (.ok (), token) => .ok token
  | (.err e, _) => .err (.plain e)
  | (.panic, _) => .panic

/-- The token of the last step, before it has its checksum: no security layer, and the authorisation identity. -/
def noSecurityLayer (hmacBitLength : ℕ) (authzid : GoString) : WrapToken where
  flags := 0b100
  ec := UInt16.ofNat (hmacBitLength / 8)
  rrc := 0
  sndSeqNum := 1
  payload := [0, 0, 0, 0] ++ authzid
  checkSum := []

def negotiateSaslAuth (input : Slice) (authzid : GoString) : Stateful (Client K σ) Err Slice := do
  let token ← .lift (receivedWrapToken (input.getD []))
  .failIf (token.flags &&& 0b1 = 0) (.plain (.new "got a Wrapped token that's not from the server"))
  let client ← .get
  let key := if token.flags &&& 0b100 ≠ 0 then client.subkey else client.ekey
  .lift (.ofExcept (krb5.verify token key .acceptorSeal))
  .failIf (token.payload.length ≠ 4) (.plain (.new "server send bad final token for SASL GSSAPI Handshake"))
  let hmacBitLength ← .lift (.ofExcept (krb5.getHMACBitLength key))
  let token ← .lift (.ofExcept (krb5.setCheckSum (noSecurityLayer hmacBitLength authzid) key .initiatorSeal))
  let output ← .lift (.ofExcept (krb5.marshalWrapToken token))
  pure (some output)

/-- The client as the handshake sees it. -/
def secContextClient : SecContextClient (Client K σ) where
  initSecContextWithOptions := initSecContextWithOptions krb5
  negotiateSaslAuth := negotiateSaslAuth krb5
  deleteSecContext := deleteSecContext krb5

end Calls

end Gssapi

/-! ## What a handshake has established -/

section Established

variable {T K σ : Type} (krb5 : Krb5 T K σ) (addControlDescriptions : Assign) (debug : Bool)

/-- The token is an AP-REQ for the service, made with the ticket and the key that one call of `GetServiceTicket` gave. -/
def Requests (target : GoString) (options : List ℤ) (ekey : K) (sent : Slice) : Prop :=
  ∃ lib lib' tkt output, krb5.getServiceTicket target lib = (.ok (tkt, ekey), lib') ∧
    (krb5.newKRB5TokenAPREQ tkt ekey [.integ, .conf, .mutual] options lib').1 = .ok output ∧ sent = some output

/-- One of the turns has asked for the service, with a ticket that has this key. -/
def Requested (target : GoString) (options : List ℤ) (turns : List Turn) (ekey : K) : Prop :=
  ∃ turn ∈ turns, turn.input = none ∧ Requests krb5 target options ekey turn.sent

/-- The reply of the turn carries the token. -/
def Turn.Received (turn : Turn) (input : GoString) : Prop :=
  ∃ wire, turn.reply = some (.ok wire) ∧ replySlice addControlDescriptions debug wire = .ok (some input)

/-- The client has asked for the service, and the server has answered with an AP-REP under the key of that ticket, which
gives the subkey. -/
structure Established (target : GoString) (options : List ℤ) (turns : List Turn) (ekey subkey : K) : Prop where
  requested : Requested krb5 target options turns ekey
  confirmed : ∃ turn ∈ turns, ∃ input encPart plain, turn.Received addControlDescriptions debug input ∧
    krb5.unmarshalToken input = .ok (.apRep encPart) ∧
    krb5.decryptEncPart encPart ekey .apRepEncPart = .ok plain ∧ krb5.unmarshalEncAPRepPart plain = .ok subkey

/-- The token of a turn that establishes the context: the request for the service, or no octets. -/
def Initiates (target : GoString) (options : List ℤ) (input sent : Slice) : Prop :=
  (input = none ∧ ∃ ekey, Requests krb5 target options ekey sent) ∨ (input.isSome = true ∧ sent = some [])

/-- The token of the last step: it answers a wrap token of the acceptor that verifies under one of the keys, and offers no
security layer under the same key. -/
def Negotiates (authzid : GoString) (ekey subkey : K) (input : GoString) (sent : Slice) : Prop :=
  ∃ token key hmacBitLength signed output, IsWrapToken input true ∧ token.octets = input ∧
    token.checkSum.length = token.ec.toNat ∧ key = (if token.flags &&& 0b100 ≠ 0 then subkey else ekey) ∧
    krb5.verify token key .acceptorSeal = .ok () ∧ token.payload.length = 4 ∧
    krb5.getHMACBitLength key = .ok hmacBitLength ∧
    krb5.setCheckSum (Gssapi.noSecurityLayer hmacBitLength authzid) key .initiatorSeal = .ok signed ∧
    krb5.marshalWrapToken signed = .ok output ∧ sent = some output

end Established

section Sound

variable {T K σ : Type} {krb5 : Krb5 T K σ} {E : Encoder} {addControlDescriptions : Assign} {debug : Bool}
  {req : GSSAPIBindRequest} {options : List ℤ}

theorem Requested.mono {target : GoString} {turns all : List Turn} {ekey : K}
    (h : Requested krb5 target options turns ekey) (hsub : turns ⊆ all) : Requested krb5 target options all ekey := by
  obtain ⟨turn, hmem, hturn⟩ := h
  exact ⟨turn, hsub hmem, hturn⟩

theorem Established.mono {target : GoString} {turns all : List Turn} {ekey subkey : K}
    (h : Established krb5 addControlDescriptions debug target options turns ekey subkey) (hsub : turns ⊆ all) :
    Established krb5 addControlDescriptions debug target options all ekey subkey := by
  obtain ⟨turn, hmem, hturn⟩ := h.confirmed
  exact ⟨h.requested.mono hsub, turn, hsub hmem, hturn⟩

theorem call_bind_eq_ok {α β : Type} {f : σ → Except Err α × σ} {g : α → Stateful (Gssapi.Client K σ) Err β} {b : β}
    {client client' : Gssapi.Client K σ} : (Gssapi.Client.call f >>= g).run client = (.ok b, client') ↔
      ∃ a, (f client.lib).1 = .ok a ∧ (g a).run { client with lib := (f client.lib).2 } = (.ok b, client') := by
  simp [Stateful.run_bind_eq_ok, Gssapi.Client.call, Outcome.ofExcept_eq_ok]

/-- A new ticket: the client holds its key. -/
theorem initSecContext_none {target : GoString} {client client' : Gssapi.Client K σ} {sent : Slice} {more : Bool}
    (h : (Gssapi.initSecContextWithOptions krb5 target none options).run client = (.ok (sent, more), client')) :
    more = true ∧ Requests krb5 target options client'.ekey sent := by
  obtain ⟨⟨tkt, ekey⟩, hticket, h⟩ := call_bind_eq_ok.mp h
  rw [Stateful.run_modify_bind] at h
  obtain ⟨output, houtput, h⟩ := call_bind_eq_ok.mp h
  cases h
  exact ⟨rfl, client.lib, _, tkt, output, Prod.ext hticket rfl, houtput, rfl⟩

/-- A token of the server: the context is established by an AP-REP, and the key is the one the client had. -/
theorem initSecContext_some {target input : GoString} {client client' : Gssapi.Client K σ} {sent : Slice} {more : Bool}
    (h : (Gssapi.initSecContextWithOptions krb5 target (some input) options).run client = (.ok (sent, more), client')) :
    client'.ekey = client.ekey ∧ sent = some [] ∧ (more = false → ∃ encPart plain,
      krb5.unmarshalToken input = .ok (.apRep encPart) ∧
      krb5.decryptEncPart encPart client.ekey .apRepEncPart = .ok plain ∧
      krb5.unmarshalEncAPRepPart plain = .ok client'.subkey) := by
  obtain ⟨token, htoken, h⟩ := Stateful.run_lift_bind_eq_ok.mp h
  rw [Outcome.ofExcept_eq_ok] at htoken
  cases token with
  | apReq =>
    cases h
    exact ⟨rfl, rfl, by rintro ⟨⟩⟩
  | krbError e => cases h
  | apRep encPart =>
    rw [Stateful.run_get_bind] at h
    obtain ⟨plain, hplain, h⟩ := Stateful.run_lift_bind_eq_ok.mp h
    obtain ⟨subkey, hsubkey, h⟩ := Stateful.run_lift_bind_eq_ok.mp h
    rw [Stateful.run_modify_bind] at h
    cases h
    exact ⟨rfl, rfl, fun _ => ⟨encPart, plain, htoken, Outcome.ofExcept_eq_ok.mp hplain, Outcome.ofExcept_eq_ok.mp hsubkey⟩⟩

theorem receivedWrapToken_eq_ok {input : GoString} {token : WrapToken} (h : Gssapi.receivedWrapToken input = .ok token) :
    IsWrapToken input true ∧ token.octets = input ∧ token.checkSum.length = token.ec.toNat := by
  have hsplits := splits_unmarshalWrapToken input true ⟨0, 0, 0, 0, [], []⟩
  unfold Gssapi.receivedWrapToken at h
  generalize (unmarshalWrapToken input true).run ⟨0, 0, 0, 0, [], []⟩ = r at hsplits h
  cases hsplits with
  | split hb hoctets hlen =>
    cases h
    exact ⟨hb, hoctets, hlen⟩
  | refused hb => cases h

/-- The last step is made with a token of the server, and the client stays as it is. -/
theorem negotiateSaslAuth_eq_ok {input sent : Slice} {authzid : GoString} {client client' : Gssapi.Client K σ}
    (h : (Gssapi.negotiateSaslAuth krb5 input authzid).run client = (.ok sent, client')) :
    client' = client ∧ ∃ octets, input = some octets ∧ Negotiates krb5 authzid client.ekey client.subkey octets sent := by
  obtain ⟨token, htoken, h⟩ := Stateful.run_lift_bind_eq_ok.mp h
  obtain ⟨-, h⟩ := Stateful.run_failIf_bind_eq_ok.mp h
  rw [Stateful.run_get_bind] at h
  obtain ⟨_, hverify, h⟩ := Stateful.run_lift_bind_eq_ok.mp h
  obtain ⟨hlen, h⟩ := Stateful.run_failIf_bind_eq_ok.mp h
  obtain ⟨hmacBitLength, hhmac, h⟩ := Stateful.run_lift_bind_eq_ok.mp h
  obtain ⟨signed, hsigned, h⟩ := Stateful.run_lift_bind_eq_ok.mp h
  obtain ⟨output, houtput, h⟩ := Stateful.run_lift_bind_eq_ok.mp h
  cases h
  obtain ⟨hwrap, hoctets, hsum⟩ := receivedWrapToken_eq_ok htoken
  refine ⟨rfl, ?_⟩
  cases input with
  | none => exact absurd hwrap.header (by decide)
  | some octets =>
    exact ⟨octets, rfl, token, _, hmacBitLength, signed, output, hwrap, hoctets, hsum, rfl,
      Outcome.ofExcept_eq_ok.mp hverify, not_ne_iff.mp hlen, Outcome.ofExcept_eq_ok.mp hhmac,
      Outcome.ofExcept_eq_ok.mp hsigned, Outcome.ofExcept_eq_ok.mp houtput, rfl⟩

variable (krb5 addControlDescriptions debug req options) in
/-- What a turn does, after the turns before it. -/
structure Justified (past : List Turn) (turn : Turn) : Prop where
  received : ∀ input, turn.input = some input → ∃ last ∈ past.getLast?, last.Received addControlDescriptions debug input
  initiates : turn.needInit = true → Initiates krb5 req.servicePrincipalName options turn.input turn.sent
  negotiates : turn.needInit = false → ∃ input ekey subkey, turn.input = some input ∧
    Established krb5 addControlDescriptions debug req.servicePrincipalName options past ekey subkey ∧
    Negotiates krb5 req.authZID ekey subkey input turn.sent

variable (krb5 addControlDescriptions debug req options) in
/-- The invariant at the head of the loop. -/
structure Progress (past : List Turn) (needInit : Bool) (recvToken : Slice) (client : Gssapi.Client K σ) : Prop where
  received : ∀ input, recvToken = some input → ∃ last ∈ past.getLast?, last.Received addControlDescriptions debug input
  requested : recvToken.isSome = true → Requested krb5 req.servicePrincipalName options past client.ekey
  established : needInit = false →
    Established krb5 addControlDescriptions debug req.servicePrincipalName options past client.ekey client.subkey

section Step

variable {past : List Turn} {needInit more : Bool} {recvToken sent : Slice} {client client' : Gssapi.Client K σ}

/-- The token a turn sends is justified, and the client holds the key of a ticket it has used then. -/
theorem Progress.next (h : Progress krb5 addControlDescriptions debug req options past needInit recvToken client)
    (hnext : (nextSlice (Gssapi.secContextClient krb5) req options needInit recvToken).run client =
      (.ok (sent, more), client')) (reply : Option (Except Err Packet)) :
    Justified krb5 addControlDescriptions debug req options past ⟨needInit, recvToken, sent, reply⟩ ∧
    Requested krb5 req.servicePrincipalName options (past ++ [⟨needInit, recvToken, sent, reply⟩]) client'.ekey ∧
    (more = false →
      Established krb5 addControlDescriptions debug req.servicePrincipalName options past client'.ekey client'.subkey) := by
  cases needInit with
  | false =>
    obtain ⟨sent', u, hnegotiate, hpure⟩ := Stateful.run_bind_eq_ok.mp hnext
    cases hpure
    obtain ⟨rfl, input, hinput, hsent⟩ := negotiateSaslAuth_eq_ok hnegotiate
    have hestablished := h.established rfl
    exact ⟨⟨h.received, by rintro ⟨⟩, fun _ => ⟨input, _, _, hinput, hestablished, hsent⟩⟩,
      hestablished.requested.mono (List.subset_append_left _ _), fun _ => hestablished⟩
  | true =>
    have hinit : (Gssapi.initSecContextWithOptions krb5 req.servicePrincipalName recvToken options).run client =
      (.ok (sent, more), client') := hnext
    cases recvToken with
    | none =>
      obtain ⟨rfl, hsent⟩ := initSecContext_none hinit
      exact ⟨⟨h.received, fun _ => .inl ⟨rfl, _, hsent⟩, by rintro ⟨⟩⟩, ⟨_, List.mem_concat_self, rfl, hsent⟩, by rintro ⟨⟩⟩
    | some input =>
      obtain ⟨hekey, rfl, hmore⟩ := initSecContext_some hinit
      have hrequested : Requested krb5 req.servicePrincipalName options past client'.ekey := hekey ▸ h.requested rfl
      refine ⟨⟨h.received, fun _ => .inr ⟨rfl, rfl⟩, by rintro ⟨⟩⟩, hrequested.mono (List.subset_append_left _ _),
        fun hdone => ⟨hrequested, ?_⟩⟩
      obtain ⟨last, hlast, hreceived⟩ := h.received input rfl
      obtain ⟨encPart, plain, htoken, hplain, hsubkey⟩ := hmore hdone
      exact ⟨last, List.mem_of_getLast? hlast, input, encPart, plain, hreceived, htoken, hekey ▸ hplain, hsubkey⟩

theorem justified_cons {turn : Turn} {rest : List Turn}
    (hturn : Justified krb5 addControlDescriptions debug req options past turn)
    (hrest : ∀ before t after, rest = before ++ t :: after →
      Justified krb5 addControlDescriptions debug req options (past ++ [turn] ++ before) t) (before : List Turn) (t : Turn)
    (after : List Turn) (h : turn :: rest = before ++ t :: after) :
    Justified krb5 addControlDescriptions debug req options (past ++ before) t := by
  cases before with
  | nil =>
    obtain ⟨rfl, -⟩ := List.cons.inj h
    rwa [List.append_nil]
  | cons b before =>
    obtain ⟨rfl, htail⟩ := List.cons.inj h
    have ht := hrest before t after htail
    rwa [List.append_assoc, List.singleton_append] at ht

theorem justified_single {turn : Turn} (hturn : Justified krb5 addControlDescriptions debug req options past turn) :
    ∀ before t after, [turn] = before ++ t :: after →
      Justified krb5 addControlDescriptions debug req options (past ++ before) t :=
  justified_cons hturn fun before t after h => absurd h (by simp)

end Step

/-- The run lemma. -/
theorem handshake_justified {past : List Turn} {needInit : Bool} {recvToken : Slice} {client : Gssapi.Client K σ}
    (h : Progress krb5 addControlDescriptions debug req options past needInit recvToken client) (exchanges : List Exchange)
    {run : Handshake (Gssapi.Client K σ)}
    (hrun : handshake E addControlDescriptions debug (Gssapi.secContextClient krb5) req options needInit recvToken client
      exchanges = run) :
    (∀ before turn after, run.turns = before ++ turn :: after →
      Justified krb5 addControlDescriptions debug req options (past ++ before) turn) ∧
    (run.result = .returned none → ∃ ekey subkey,
      Established krb5 addControlDescriptions debug req.servicePrincipalName options (past ++ run.turns) ekey subkey) ∧
    (run.result ≠ .waiting → run.client.ekey = krb5.zeroKey ∧ run.client.subkey = krb5.zeroKey) := by
  induction exchanges generalizing past needInit recvToken client run with
  | nil =>
    unfold handshake at hrun
    rcases hnext : (nextSlice (Gssapi.secContextClient krb5) req options needInit recvToken).run client with
      ⟨⟨sent, more⟩ | e | _, client'⟩ <;> rw [hnext] at hrun <;> subst hrun
    · exact ⟨justified_single (h.next hnext none).1, by rintro ⟨⟩, fun hwait => absurd rfl hwait⟩
    · exact ⟨fun before t after hnil => absurd hnil (by simp), by rintro ⟨⟩, fun _ => ⟨rfl, rfl⟩⟩
    · exact ⟨fun before t after hnil => absurd hnil (by simp), by rintro ⟨⟩, fun _ => ⟨rfl, rfl⟩⟩
  | cons x xs ih =>
    unfold handshake at hrun
    rcases hnext : (nextSlice (Gssapi.secContextClient krb5) req options needInit recvToken).run client with
      ⟨⟨sent, more⟩ | e | _, client'⟩ <;> rw [hnext] at hrun
    rotate_left
    · subst hrun
      exact ⟨fun before t after hnil => absurd hnil (by simp), by rintro ⟨⟩, fun _ => ⟨rfl, rfl⟩⟩
    · subst hrun
      exact ⟨fun before t after hnil => absurd hnil (by simp), by rintro ⟨⟩, fun _ => ⟨rfl, rfl⟩⟩
    dsimp only at hrun
    obtain ⟨hturn, hrequested, hdone⟩ := h.next hnext (some (exchangeSlice E addControlDescriptions debug req x sent).1)
    rcases htoken : (exchangeSlice E addControlDescriptions debug req x sent).2 with token | e | _ <;> rw [htoken] at hrun
    rotate_left
    · subst hrun
      exact ⟨justified_single hturn, by rintro ⟨⟩, fun _ => ⟨rfl, rfl⟩⟩
    · subst hrun
      exact ⟨justified_single hturn, by rintro ⟨⟩, fun _ => ⟨rfl, rfl⟩⟩
    dsimp only at hrun
    split at hrun
    · rename_i hend
      subst hrun
      exact ⟨justified_single hturn, fun _ => ⟨_, _, (hdone hend.1).mono (List.subset_append_left _ _)⟩, fun _ => ⟨rfl, rfl⟩⟩
    · have hprogress : Progress krb5 addControlDescriptions debug req options
          (past ++ [⟨needInit, recvToken, sent, some (exchangeSlice E addControlDescriptions debug req x sent).1⟩]) more token
          client' := by
        refine ⟨fun input hinput => ⟨_, List.getLast?_concat, ?_⟩, fun _ => hrequested, fun hmore =>
          (hdone hmore).mono (List.subset_append_left _ _)⟩
        obtain ⟨wire, hwire, hslice⟩ := Outcome.bind_eq_ok.mp htoken
        exact ⟨wire, congrArg some (Outcome.ofExcept_eq_ok.mp hwire), hinput ▸ hslice⟩
      obtain ⟨hturns, hresult, hclient⟩ := ih hprogress rfl
      subst hrun
      refine ⟨justified_cons hturn hturns, fun hnone => ?_, hclient⟩
      obtain ⟨ekey, subkey, hestablished⟩ := hresult hnone
      rw [List.append_assoc, List.singleton_append] at hestablished
      exact ⟨ekey, subkey, hestablished⟩

end Sound

/-- `GSSAPIBindRequestWithAPOptions` with the Kerberos client. -/
def kerberosBind {T K σ : Type} (E : Encoder) (addControlDescriptions : Assign) (debug : Bool) (krb5 : Krb5 T K σ)
    (req : GSSAPIBindRequest) (options : List ℤ) (client : Gssapi.Client K σ) (exchanges : List Exchange) :
    Handshake (Gssapi.Client K σ) :=
  handshake E addControlDescriptions debug (Gssapi.secContextClient krb5) req options true none client exchanges

/-- Whatever the library and the server do: each token that is sent is the request for the service, is empty, or offers no
security layer in answer to a token that verifies once the server has proved that it knows the key of the ticket; the bind
succeeds only after that proof; and the keys are erased when the call is over. -/
theorem kerberosBind_sound {T K σ : Type} (E : Encoder) (addControlDescriptions : Assign) (debug : Bool)
    (krb5 : Krb5 T K σ) (req : GSSAPIBindRequest) (options : List ℤ) (client : Gssapi.Client K σ)
    (exchanges : List Exchange) :
    let run := kerberosBind E addControlDescriptions debug krb5 req options client exchanges
    (∀ past turn later, run.turns = past ++ turn :: later →
      Justified krb5 addControlDescriptions debug req options past turn) ∧
    (run.result = .returned none → ∃ ekey subkey,
      Established krb5 addControlDescriptions debug req.servicePrincipalName options run.turns ekey subkey) ∧
    (run.result ≠ .waiting → run.client.ekey = krb5.zeroKey ∧ run.client.subkey = krb5.zeroKey) := by
  have hstart : Progress krb5 addControlDescriptions debug req options [] true none client :=
    ⟨by rintro _ ⟨⟩, by rintro ⟨⟩, by rintro ⟨⟩⟩
  exact handshake_justified hstart exchanges rfl

/-! ## A handshake that succeeds -/

/-- A library with one key of one octet, which seals by putting the key in front. -/
def toyKrb5 : Krb5 Unit UInt8 Unit where
  zeroKey := 0
  getServiceTicket _ s := (.ok ((), 7), s)
  newKRB5TokenAPREQ _ ekey _ _ s := (.ok [1, ekey], s)
  unmarshalToken b := .ok (if b.head? = some 2 then .apRep b.tail else .apReq)
  decryptEncPart b key _ := if b.head? = some key then .ok b.tail else .error (.plain (.new "decryption failed"))
  unmarshalEncAPRepPart b := .ok (b.headD 0)
  verify token key _ := if token.checkSum = [key] then .ok () else .error (.plain (.new "checksum mismatch"))
  getHMACBitLength _ := .ok 8
  setCheckSum token key _ := .ok { token with checkSum := [key] }
  marshalWrapToken token := .ok token.octets

/-- The AP-REP, the offer of security layers, and the success. -/
def kerberosExchanges : List Exchange :=
  [⟨1, fun _ => .ok (bindResponse 14 [2, 7, 9])⟩,
   ⟨2, fun _ => .ok (bindResponse 14 (WrapToken.octets ⟨0b101, 1, 0, 0, [7, 0, 0, 0], [9]⟩))⟩,
   ⟨3, fun _ => .ok (bindResponse 0 [])⟩]

example :
    let run := kerberosBind shortEncoder .skip false toyKrb5 ⟨str "ldap/host", str "u", []⟩ [] ⟨(), 0, 0⟩ kerberosExchanges
    run.result = .returned none ∧ run.turns.map Turn.sent =
      [some [1, 7], some [], some (WrapToken.octets ⟨0b100, 1, 0, 1, [0, 0, 0, 0] ++ str "u", [9]⟩)] := by
  decide +kernel

end GoLdap
