import GoLdap.Request
import GoLdap.Descriptions.Described

/-!
# Bind.Gssapi — the GSSAPI handshake (`bind.go`)

`GSSAPIBindRequestWithAPOptions` sends one bind request after the other.  Until the client says that the security context
is established the tokens come from `InitSecContextWithOptions`, afterwards from `NegotiateSaslAuth`.  The call returns
nil once the context is established and the server's token is empty: the result code of the reply is not looked at in the
loop, only in `saslBindTokenExchange`, and that function has several ways to return an empty token.
-/

namespace GoLdap

open Go Ber

/-! ## One exchange -/

/-- The envelope `saslBindTokenExchange` sends. -/
def saslBindRequest (E : Encoder) (messageID : ℤ) (reqControls : List Packet) (reqToken : GoString) : Packet :=
  let auth : Packet := { encode .context .constructed 3 (str "authentication") with value := .string [] }
  let auth := auth.appendChild E (newString .universal .primitive tagOctetString (str "GSSAPI") (str "SASL Mech"))
  let auth :=
    if 0 < reqToken.length then
      auth.appendChild E (newString .universal .primitive tagOctetString reqToken (str "Credentials"))
    else auth
  let request := encode .application .constructed applicationBindRequest (str "Bind Request")
  let request := request.appendChild E (newInteger E .universal .primitive tagInteger 3 (str "Version"))
  let request := request.appendChild E (newString .universal .primitive tagOctetString [] (str "User Name"))
  let request := request.appendChild E auth
  let envelope := encode .universal .constructed tagSequence (str "LDAP Request")
  let envelope := envelope.appendChild E (newInteger E .universal .primitive tagInteger messageID (str "MessageID"))
  let envelope := envelope.appendChild E request
  if 0 < reqControls.length then envelope.appendChild E (encodeControls E reqControls) else envelope

/-- The case of a bind in progress: the token is in the fourth component. -/
def inProgressToken (protocolOp : Packet) (fallThrough : Outcome Err GoString) : Outcome Err GoString :=
  if protocolOp.children.length < 3 then fallThrough
  else
    -- the index is out of range for exactly three children
    match protocolOp.children[3]? with
    | none => .panic
    | some referral =>
      if referral.description = str "Referral" then
        if referral.classType ≠ .context ∨ referral.tag ≠ tagObjectDescriptor then fallThrough
        else .ok referral.data
      else fallThrough

/-- What `saslBindTokenExchange` makes of the packet it has read. -/
def bindToken (packet : Packet) : Outcome Err GoString :=
  match packet.children with
  | [_, protocolOp] =>
    -- the last line of the function: the token is nil, and the error may be nil as well
    let fallThrough : Outcome Err GoString := getLDAPError packet >>= fun _ => .ok []
    if protocolOp.description = str "Bind Response" then
      match protocolOp.children with
      | [] => .panic
      | resultCode :: _ =>
        if resultCode.tag ≠ tagEnumerated then fallThrough
        else
          match resultCode.value with
          | .int code =>
            if code = 14 then inProgressToken protocolOp fallThrough
            else if code = 0 then .ok []
            else fallThrough
          | _ => .panic
    else fallThrough
  | _ => .err (.plain (.new "bad bind response"))

/-- One exchange as the connection sees it: the message ID, and what `sendMessage` and `readPacket` come back with for an
envelope. -/
structure Exchange where
  messageID : ℤ
  reply : Packet → Except Err Packet

section

variable (E : Encoder) (addControlDescriptions : Assign) (debug : Bool)

/-- The token in a reply off the wire.  In debug mode `readPacket` describes the packet, and then so does
`saslBindTokenExchange`. -/
def replyToken (wire : Packet) : Outcome Err GoString := do
  let packet ← .ofExcept (describeInDebug addControlDescriptions debug (handOver addControlDescriptions wire))
  let packet ← .ofExcept (describeInDebug addControlDescriptions debug packet)
  bindToken packet

/-- `saslBindTokenExchange`: the reply it has read, if any, and its result. -/
def saslBindTokenExchange (x : Exchange) (reqControls : List Packet) (reqToken : GoString) :
    Option Packet × Outcome Err GoString :=
  match x.reply (saslBindRequest E x.messageID reqControls reqToken) with
  | .error e => (none, .err e)
  | .ok wire => (some wire, replyToken addControlDescriptions debug wire)

end

/-! ## The handshake -/

/-- `GSSAPIClient`: the calls a handshake makes, on a state of the client's own. -/
structure GSSAPIClient (σ : Type) where
  /-- Service principal, token and options; the answer is the token to send and `needContinue`. -/
  initSecContextWithOptions : GoString → GoString → List ℤ → σ → Except Err (GoString × Bool) × σ
  negotiateSaslAuth : GoString → GoString → σ → Except Err GoString × σ

structure GSSAPIBindRequest where
  servicePrincipalName : GoString
  authZID : GoString
  /-- The controls, encoded. -/
  controls : List Packet

/-- A reply that was read, and whether the client still needed to go on with the security context. -/
structure Round where
  needInit : Bool
  reply : Packet

section

variable {σ : Type} (E : Encoder) (addControlDescriptions : Assign) (debug : Bool) (client : GSSAPIClient σ)
  (req : GSSAPIBindRequest) (options : List ℤ)

/-- The token of the next request and the new `needInit`. -/
def nextToken (needInit : Bool) (recvToken : GoString) (s : σ) : Except Err (GoString × Bool) × σ :=
  if needInit then client.initSecContextWithOptions req.servicePrincipalName recvToken options s
  else
    match client.negotiateSaslAuth recvToken req.authZID s with
    | (.ok reqToken, s) => (.ok (reqToken, false), s)
    | (.error e, s) => (.error e, s)

/-- The loop: the replies that are read, and the result unless the call waits for a reply that does not come. -/
def bindLoop (needInit : Bool) (recvToken : GoString) (s : σ) : List Exchange → List Round × Option (Outcome Err Unit)
  | [] =>
    match nextToken client req options needInit recvToken s with
    | (.error e, _) => ([], some (.err e))
    | (.ok _, _) => ([], none)
  | x :: xs =>
    match nextToken client req options needInit recvToken s with
    | (.error e, _) => ([], some (.err e))
    | (.ok (reqToken, needInit), s) =>
      let (reply, token) := saslBindTokenExchange E addControlDescriptions debug x req.controls reqToken
      let read := (reply.map (Round.mk needInit)).toList
      match token with
      | .err e => (read, some (.err e))
      | .panic => (read, some .panic)
      | .ok recvToken =>
        if needInit = false ∧ recvToken.length = 0 then (read, some (.ok ()))
        else (read ++ (bindLoop needInit recvToken s xs).1, (bindLoop needInit recvToken s xs).2)

/-- `GSSAPIBindRequestWithAPOptions`.  The deferred `DeleteSecContext` has no effect on the result. -/
def gssapiBindRequestWithAPOptions (s : σ) (exchanges : List Exchange) : List Round × Option (Outcome Err Unit) :=
  bindLoop E addControlDescriptions debug client req options true [] s exchanges

end

/-! ## Replies that give an empty token -/

/-- A BindResponse with the result code success. -/
def IsBindSuccess (p : Packet) : Prop :=
  ∃ op ∈ p.children[1]?, op.classType = .application ∧ op.tag = applicationBindResponse ∧
    ∃ code ∈ op.children[0]?, code.value = .int 0

/-- A reply named `Bind Response` with an enumerated result code. -/
def HasBindCode (n : ℤ) (p : Packet) : Prop :=
  ∃ op ∈ p.children[1]?, op.tag % 256 = applicationBindResponse ∧
    ∃ code ∈ op.children[0]?, code.tag = tagEnumerated ∧ code.value = .int n

/-- The fourth component of the reply is a `serverSaslCreds` without contents. -/
def HasEmptyCredentials (p : Packet) : Prop :=
  ∃ op ∈ p.children[1]?, ∃ creds ∈ op.children[3]?,
    creds.classType = .context ∧ creds.tag = tagObjectDescriptor ∧ creds.data = []

theorem hasBindCode_undescribed {n : ℤ} {p : Packet} : HasBindCode n p.undescribed ↔ HasBindCode n p := by
  simp [HasBindCode]

theorem hasEmptyCredentials_undescribed {p : Packet} : HasEmptyCredentials p.undescribed ↔ HasEmptyCredentials p := by
  simp [HasEmptyCredentials]

theorem applicationMap_eq_bindResponse {n : ℕ} : applicationMap n = str "Bind Response" ↔ n = applicationBindResponse := by
  constructor
  · intro h
    unfold applicationMap at h
    split at h
    all_goals first | rfl | exact absurd h (by decide)
  · rintro rfl
    rfl

/-- The last line of `saslBindTokenExchange`. -/
theorem fallThrough_eq_ok {p : Packet} {token : GoString} :
    (getLDAPError p >>= fun _ => Outcome.ok []) = .ok token ↔ getLDAPError p = .ok () ∧ token = [] := by
  cases getLDAPError p with
  | ok _ => simp [eq_comm]
  | err _ => simp
  | panic => simp

/-- A bind in progress gives an empty token if there are empty credentials, and the reader could name them. -/
theorem inProgressToken_eq_ok_nil {p q op : Packet} {r : Outcome Err GoString} (h : Described p q) (hr : r ≠ .ok [])
    (hop : q.children[1]? = some op) (hone : op.tag % 256 = applicationBindResponse) :
    inProgressToken op r = .ok [] ↔ HasEmptyCredentials q ∧ getLDAPError p ≠ .panic := by
  have hcreds : HasEmptyCredentials q ↔ ∃ creds ∈ op.children[3]?,
      creds.classType = .context ∧ creds.tag = tagObjectDescriptor ∧ creds.data = [] := by
    simp [HasEmptyCredentials, hop]
  rw [hcreds]
  unfold inProgressToken
  cases hc : op.children[3]? with
  | none =>
    split
    · simp [hr]
    · simp
  | some c =>
    have hlen : ¬ op.children.length < 3 := by
      have := (List.getElem?_eq_some_iff.mp hc).1
      omega
    have hname := h.fourth hop hone hc
    rw [if_neg hlen]
    by_cases hpanic : getLDAPError p = .panic
    · have hne : c.description ≠ str "Referral" := by
        rw [hname, if_pos hpanic]
        decide
      simp [hne, hr, hpanic]
    · rw [if_neg hpanic] at hname
      simp only [hname, if_true]
      split
      · rename_i hwrong
        simp only [hr, false_iff]
        rintro ⟨⟨_, hmem, hcls, htag, -⟩, -⟩
        obtain rfl := Option.mem_some_iff.mp hmem
        exact hwrong.elim (absurd hcls) (absurd htag)
      · rename_i hright
        rw [not_or, not_not, not_not] at hright
        simp [hright, hpanic]

/-- The replies with an empty token and no error. -/
theorem bindToken_eq_ok_nil {p q : Packet} (h2 : p.children.length = 2) (h : Described p q) : bindToken q = .ok [] ↔
    (HasBindCode 14 p ∧ HasEmptyCredentials p ∧ getLDAPError p ≠ .panic) ∨ HasBindCode 0 p ∨
      getLDAPError p = .ok () := by
  have herr : getLDAPError q = getLDAPError p := by
    rw [← getLDAPError_undescribed q, h.same, getLDAPError_undescribed]
  have hlen : q.children.length = 2 := by rw [Packet.length_children_eq h.same, h2]
  have hcode (n : ℤ) : HasBindCode n p ↔ HasBindCode n q := by
    rw [← hasBindCode_undescribed, ← h.same, hasBindCode_undescribed]
  have hcreds : HasEmptyCredentials p ↔ HasEmptyCredentials q := by
    rw [← hasEmptyCredentials_undescribed, ← h.same, hasEmptyCredentials_undescribed]
  rw [hcode, hcode, hcreds]
  obtain ⟨mid, op, hq⟩ := List.length_eq_two.mp hlen
  have hop : q.children[1]? = some op := by rw [hq]; rfl
  unfold bindToken
  simp only [hq, h.operation hop, applicationMap_eq_bindResponse, herr]
  by_cases hone : op.tag % 256 = applicationBindResponse
  · rw [if_pos hone]
    cases hcs : op.children with
    | nil => simp [HasBindCode, hop, hcs, ← herr, getLDAPError_eq_ok]
    | cons code rest =>
      have hHasCode (n : ℤ) : HasBindCode n q ↔ code.tag = tagEnumerated ∧ code.value = .int n := by
        simp [HasBindCode, hop, hone, hcs]
      have hok : getLDAPError p = .ok () → ∃ n, code.value = .int n ∧ n % 65536 = 0 :=
        herr ▸ code_of_getLDAPError hop (by rw [hcs]; rfl)
      by_cases htag : code.tag = tagEnumerated
      · cases hv : code.value with
        | int n =>
          rw [hv] at hok
          by_cases h14 : n = 14
          · have hnok : getLDAPError p ≠ .ok () := by
              intro hp
              obtain ⟨m, hm, hmod⟩ := hok hp
              rw [← Value.int.inj hm, h14] at hmod
              exact absurd hmod (by decide)
            have hr : (getLDAPError p >>= fun _ => Outcome.ok ([] : GoString)) ≠ .ok [] := by
              simp [fallThrough_eq_ok, hnok]
            simp [htag, h14, hHasCode, hv, hnok, inProgressToken_eq_ok_nil h hr hop hone]
          · by_cases h0 : n = 0
            · simp [htag, hv, h0, hHasCode]
            · simp [htag, hv, h14, h0, hHasCode, fallThrough_eq_ok]
        | _ =>
          have hnok : getLDAPError p ≠ .ok () := by
            intro hp
            simpa [hv] using hok hp
          simp [htag, hHasCode, hv, hnok]
      · simp [htag, hHasCode, fallThrough_eq_ok]
  · rw [if_neg hone, fallThrough_eq_ok]
    simp [HasBindCode, hop, hone]

section

variable {addControlDescriptions : Assign} {debug : Bool} {p : Packet}

/-- Replies whose token is empty, without an error: in debug mode the packet can be described, and it says `Bind Response`
with the code 14 and empty credentials or with the code 0, or else `GetLDAPError` finds nothing wrong. -/
def GivesEmptyToken (addControlDescriptions : Assign) (debug : Bool) (p : Packet) : Prop :=
  p.children.length = 2 ∧ (debug = true → (addLDAPDescriptions addControlDescriptions p).2 = none) ∧
    ((HasBindCode 14 p ∧ HasEmptyCredentials p ∧ getLDAPError p ≠ .panic) ∨ HasBindCode 0 p ∨
      getLDAPError p = .ok ())

/-- A packet with controls is no bind response for `saslBindTokenExchange`. -/
theorem length_of_replyToken {token : GoString} (h : replyToken addControlDescriptions debug p = .ok token) :
    p.children.length = 2 := by
  obtain ⟨q, hq, h⟩ := Outcome.bind_eq_ok.mp h
  obtain ⟨q', hq', h⟩ := Outcome.bind_eq_ok.mp h
  have h2 : q'.children.length = 2 := by
    unfold bindToken at h
    split at h
    · rename_i hcs
      rw [hcs]
      rfl
    · cases h
  rw [← length_handOver, ← length_describeInDebug (Outcome.ofExcept_eq_ok.mp hq),
    ← length_describeInDebug (Outcome.ofExcept_eq_ok.mp hq'), h2]

theorem replyToken_eq_ok_nil : replyToken addControlDescriptions debug p = .ok [] ↔
    GivesEmptyToken addControlDescriptions debug p := by
  by_cases h2 : p.children.length = 2
  · have hd : Described p (handOver addControlDescriptions p) := described_handOver h2
    unfold replyToken GivesEmptyToken
    obtain ⟨hdebug, e, he, hfail⟩ | ⟨hnone, q, hq, hok⟩ := @Described.inDebug addControlDescriptions _ _ h2 hd debug
    · subst hdebug
      simp [hfail, Outcome.ofExcept, he]
    · obtain ⟨hdebug, e, he, -⟩ | ⟨-, q', hq', hok'⟩ := @Described.inDebug addControlDescriptions _ _ h2 hq debug
      · rw [hnone hdebug] at he
        cases he
      · simp only [hok, hok', Outcome.ofExcept, Outcome.ok_bind, bindToken_eq_ok_nil h2 hq']
        exact ⟨fun h => ⟨h2, hnone, h⟩, fun h => h.2.2⟩
  · exact ⟨fun h => absurd (length_of_replyToken h) h2, fun h => absurd h.1 h2⟩

end

/-! ## The handshake succeeds only on success -/

/-- Replies that end the handshake although they are not a BindResponse with the code success: the bind is in progress
and the credentials are empty; it says success but is not `[APPLICATION 1]`; or `GetLDAPError` finds nothing wrong with
another operation, or with a code that is a multiple of 65536. -/
def TakenForSuccess (addControlDescriptions : Assign) (debug : Bool) (p : Packet) : Prop :=
  p.children.length = 2 ∧ (debug = true → (addLDAPDescriptions addControlDescriptions p).2 = none) ∧
    ((HasBindCode 14 p ∧ HasEmptyCredentials p ∧ getLDAPError p ≠ .panic) ∨
      (HasBindCode 0 p ∧ ∃ op ∈ p.children[1]?, ¬ (op.classType = .application ∧ op.tag = applicationBindResponse)) ∨
      (getLDAPError p = .ok () ∧ ∃ op ∈ p.children[1]?, op.tag ≠ applicationBindResponse ∨
        ∃ code ∈ op.children[0]?, code.value ≠ .int 0))

theorem takenForSuccess_iff {addControlDescriptions : Assign} {debug : Bool} {p : Packet} :
    TakenForSuccess addControlDescriptions debug p ↔
      GivesEmptyToken addControlDescriptions debug p ∧ ¬ IsBindSuccess p := by
  have hsuccess {op : Packet} (hop : p.children[1]? = some op) : IsBindSuccess p ↔
      (op.classType = .application ∧ op.tag = applicationBindResponse) ∧ ∃ code ∈ op.children[0]?, code.value = .int 0 := by
    simp [IsBindSuccess, hop, and_assoc]
  constructor
  · rintro ⟨h2, hdebug, ⟨hcode, hcreds, hpanic⟩ | ⟨hcode, op, hop, hwrong⟩ | ⟨herr, op, hop, hother⟩⟩
    · refine ⟨⟨h2, hdebug, .inl ⟨hcode, hcreds, hpanic⟩⟩, fun h => ?_⟩
      obtain ⟨op, hop, -, code, hc, -, hv⟩ := hcode
      obtain ⟨-, _, hc', hv'⟩ := (hsuccess hop).mp h
      rw [Option.mem_unique hc hc', hv'] at hv
      cases hv
    · exact ⟨⟨h2, hdebug, .inr (.inl hcode)⟩, fun h => hwrong ((hsuccess hop).mp h).1⟩
    · refine ⟨⟨h2, hdebug, .inr (.inr herr)⟩, fun h => ?_⟩
      obtain ⟨⟨-, htag⟩, _, hc, hv⟩ := (hsuccess hop).mp h
      obtain htag' | ⟨_, hc', hv'⟩ := hother
      · exact htag' htag
      · rw [Option.mem_unique hc' hc] at hv'
        exact hv' hv
  · rintro ⟨⟨h2, hdebug, hcases⟩, hnot⟩
    refine ⟨h2, hdebug, ?_⟩
    obtain h | hcode | herr := hcases
    · exact .inl h
    · obtain ⟨op, hop, -, code, hc, -, hv⟩ := id hcode
      refine .inr (.inl ⟨hcode, op, hop, fun hright => hnot ?_⟩)
      exact (hsuccess hop).mpr ⟨hright, code, hc, hv⟩
    · obtain ⟨op, hop, hcls, -, -, code, hc, -⟩ := getLDAPError_eq_ok.mp herr
      refine .inr (.inr ⟨herr, op, hop, ?_⟩)
      by_contra hcon
      push Not at hcon
      exact hnot ((hsuccess hop).mpr ⟨⟨hcls, hcon.1⟩, code, hc, hcon.2 code hc⟩)

/-- What the loop does with an exchange that comes next. -/
inductive LoopStep {σ : Type} (addControlDescriptions : Assign) (debug : Bool)
    (rest : Bool → GoString → σ → List Round × Option (Outcome Err Unit)) :
    List Round × Option (Outcome Err Unit) → Prop
  | failed (e : Err) : LoopStep addControlDescriptions debug rest ([], some (.err e))
  | refused (needInit : Bool) (wire : Packet) (r : Outcome Err Unit) (hr : r ≠ .ok ())
      (htoken : ∀ token, replyToken addControlDescriptions debug wire ≠ .ok token) :
      LoopStep addControlDescriptions debug rest ([⟨needInit, wire⟩], some r)
  | finished (wire : Packet) (htoken : replyToken addControlDescriptions debug wire = .ok []) :
      LoopStep addControlDescriptions debug rest ([⟨false, wire⟩], some (.ok ()))
  | again (needInit : Bool) (wire : Packet) (token : GoString) (s : σ)
      (htoken : replyToken addControlDescriptions debug wire = .ok token) (hmore : needInit = false → token ≠ []) :
      LoopStep addControlDescriptions debug rest
        (⟨needInit, wire⟩ :: (rest needInit token s).1, (rest needInit token s).2)

section

variable {σ : Type} {E : Encoder} {addControlDescriptions : Assign} {debug : Bool} {client : GSSAPIClient σ}
  {req : GSSAPIBindRequest} {options : List ℤ}

theorem bindLoop_cons (needInit : Bool) (recvToken : GoString) (s : σ) (x : Exchange) (xs : List Exchange) :
    LoopStep addControlDescriptions debug
      (fun needInit token s => bindLoop E addControlDescriptions debug client req options needInit token s xs)
      (bindLoop E addControlDescriptions debug client req options needInit recvToken s (x :: xs)) := by
  rw [bindLoop]
  split
  · exact .failed _
  · rename_i reqToken needInit' s' _
    cases hreply : x.reply (saslBindRequest E x.messageID req.controls reqToken) with
    | error e =>
      simp only [saslBindTokenExchange, hreply]
      exact .failed e
    | ok wire =>
      simp only [saslBindTokenExchange, hreply, Option.map_some, Option.toList_some]
      cases htoken : replyToken addControlDescriptions debug wire with
      | err e => exact .refused needInit' wire _ nofun (by simp [htoken])
      | panic => exact .refused needInit' wire _ nofun (by simp [htoken])
      | ok token =>
        by_cases hend : needInit' = false ∧ token.length = 0
        · obtain ⟨rfl, hnil⟩ := hend
          rw [List.length_eq_zero_iff.mp hnil] at htoken ⊢
          exact .finished wire htoken
        · simp only [hend, if_false]
          refine .again needInit' wire token s' htoken fun hinit hnil => hend ⟨hinit, ?_⟩
          rw [hnil, List.length_nil]

/-- The call does not return nil before it has read a reply. -/
theorem bindLoop_reads (needInit : Bool) (recvToken : GoString) (s : σ) (xs : List Exchange)
    (h : (bindLoop E addControlDescriptions debug client req options needInit recvToken s xs).2 = some (.ok ())) :
    (bindLoop E addControlDescriptions debug client req options needInit recvToken s xs).1 ≠ [] := by
  cases xs with
  | nil =>
    rw [bindLoop] at h
    split at h <;> cases h
  | cons x xs =>
    have hstep := @bindLoop_cons σ E addControlDescriptions debug client req options needInit recvToken s x xs
    generalize bindLoop E addControlDescriptions debug client req options needInit recvToken s (x :: xs) = r at hstep h
    cases hstep with
    | failed e => cases h
    | refused | finished | again => exact List.cons_ne_nil _ _

/-- The run lemma: the condition is one on every reply that is read once the security context is established. -/
theorem bindLoop_success_iff (needInit : Bool) (recvToken : GoString) (s : σ) (xs : List Exchange) :
    ((bindLoop E addControlDescriptions debug client req options needInit recvToken s xs).2 = some (.ok ()) →
      ∃ r ∈ (bindLoop E addControlDescriptions debug client req options needInit recvToken s xs).1.getLast?,
        IsBindSuccess r.reply) ↔
    ∀ r ∈ (bindLoop E addControlDescriptions debug client req options needInit recvToken s xs).1,
      r.needInit = false → ¬ TakenForSuccess addControlDescriptions debug r.reply := by
  induction xs generalizing needInit recvToken s with
  | nil =>
    rw [bindLoop]
    split <;> simp
  | cons x xs ih =>
    have hstep := @bindLoop_cons σ E addControlDescriptions debug client req options needInit recvToken s x xs
    generalize bindLoop E addControlDescriptions debug client req options needInit recvToken s (x :: xs) = r at hstep
    have hnot {wire : Packet} (h : replyToken addControlDescriptions debug wire ≠ .ok []) :
        ¬ TakenForSuccess addControlDescriptions debug wire :=
      fun ht => h (replyToken_eq_ok_nil.mpr (takenForSuccess_iff.mp ht).1)
    cases hstep with
    | failed e => simp
    | refused needInit' wire r hr htoken => simpa [hr] using fun _ => hnot (htoken [])
    | finished wire htoken =>
      have hgives := replyToken_eq_ok_nil.mp htoken
      simp [takenForSuccess_iff, hgives]
    | again needInit' wire token s' htoken hmore =>
      have hfirst : needInit' = false → ¬ TakenForSuccess addControlDescriptions debug wire := by
        intro hinit
        refine hnot fun h => hmore hinit ?_
        rw [htoken] at h
        exact Outcome.ok.inj h
      rw [List.forall_mem_cons, ← ih needInit' token s', and_iff_right hfirst]
      refine imp_congr_right fun hok => ?_
      -- something was read after this reply, so the last reply is the last one of the rest
      obtain ⟨r, rs, hrs⟩ := List.exists_cons_of_ne_nil (bindLoop_reads needInit' token s' xs hok)
      rw [hrs, List.getLast?_cons_cons]

/-- A handshake returns nil only on a BindResponse with the code success, if and only if no reply that is read once the
security context is established is taken for one. -/
theorem gssapiBind_success_iff (E : Encoder) (addControlDescriptions : Assign) (debug : Bool) (client : GSSAPIClient σ)
    (req : GSSAPIBindRequest) (options : List ℤ) (s : σ) (exchanges : List Exchange) :
    let run := gssapiBindRequestWithAPOptions E addControlDescriptions debug client req options s exchanges
    (run.2 = some (.ok ()) → ∃ r ∈ run.1.getLast?, IsBindSuccess r.reply) ↔
      ∀ r ∈ run.1, r.needInit = false → ¬ TakenForSuccess addControlDescriptions debug r.reply :=
  bindLoop_success_iff true [] s exchanges

/-! ## A bind in progress that is reported as a success -/

/-- A client whose security context is established with its first token. -/
def oneTokenClient : GSSAPIClient Unit where
  initSecContextWithOptions _ _ _ s := (.ok (str "token", false), s)
  negotiateSaslAuth _ _ s := (.ok (str "token"), s)

/-- A BindResponse with a result code and `serverSaslCreds`. -/
def bindResponse (code : ℤ) (creds : GoString) : Packet :=
  readConstructed shortEncoder .universal tagSequence
    [readPrimitive .universal tagInteger (.int 1) [1],
     readConstructed shortEncoder .application applicationBindResponse
      [readPrimitive .universal tagEnumerated (.int code) (shortEncoder.integer code),
       readPrimitive .universal tagOctetString (.string []) [],
       readPrimitive .universal tagOctetString (.string []) [],
       readPrimitive .context tagObjectDescriptor .nil creds]]

/-- A bind in progress (14) with empty credentials makes the call return nil. -/
theorem gssapiBind_in_progress : gssapiBindRequestWithAPOptions shortEncoder .skip false oneTokenClient
      ⟨str "ldap/host", [], []⟩ [] () [⟨1, fun _ => .ok (bindResponse 14 [])⟩] =
        ([⟨false, bindResponse 14 []⟩], some (.ok ())) ∧
    HasBindCode 14 (bindResponse 14 []) ∧ ¬ IsBindSuccess (bindResponse 14 []) := by
  refine ⟨rfl, ?_, ?_⟩
  · exact ⟨_, rfl, rfl, _, rfl, rfl, rfl⟩
  · rintro ⟨op, hop, -, -, code, hcode, hv⟩
    obtain rfl := Option.mem_some_iff.mp hop
    obtain rfl := Option.mem_some_iff.mp hcode
    cases hv

end

end GoLdap
