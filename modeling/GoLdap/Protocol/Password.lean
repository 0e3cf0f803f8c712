import GoLdap.Protocol.Session

/-!
# Protocol.Password — password modification over the wire (`passwdmodify.go`)

The password modification is an extended operation whose request value and response value are packets of their own.  The
server decodes the one, and the client the other.
-/

namespace GoLdap

open Go Ber Octets

/-! ## The server -/

/-- What the server is asked to do; what is absent is empty. -/
structure PasswordChange where
  userIdentity : GoString
  oldPassword : GoString
  newPassword : GoString
  deriving DecidableEq, Repr

def readPasswordElements (ps : List Packet) : Option PasswordChange :=
  let user := takeContext 0 ps
  let old := takeContext 1 user.2
  let new := takeContext 2 old.2
  if new.2 = [] then some ⟨user.1, old.1, new.1⟩ else none

/-- The value of a request. -/
def readPasswordChange (p : Packet) : Option PasswordChange :=
  readElements .universal tagSequence p >>= readPasswordElements

/-- How the server changes passwords: the result, and the password if it has generated one. -/
abbrev PasswordStore (σ : Type) := σ → PasswordChange → (LDAPResult × Option GoString) × σ

/-- The value of a response. -/
def generatedValue (E : Encoder) (password : GoString) : GoString :=
  (constructedOf E .universal tagSequence [] [newString .context .primitive 0 password []]).bytes E

/-- The answer to a password modification that was understood. -/
def passwordAnswer (E : Encoder) (r : LDAPResult × Option GoString) : ServerAnswer :=
  ⟨r.1, none, [], [], none, r.2.map (generatedValue E)⟩

/-- A server that changes passwords and does nothing else. -/
def PasswordStore.directory {σ : Type} (L : LawfulCodec) (store : PasswordStore σ) : Directory σ := fun s op _ =>
  match op with
  | .extended name (some value) =>
    if name = passwordModifyOID then
      match L.decodePacketErr value with
      | .error _ => (.ofCode 2 none, s)
      | .ok p =>
        match readPasswordChange p with
        | none => (.ofCode 2 none, s)
        | some change => (passwordAnswer L.toEncoder (store s change).1, (store s change).2)
    else (.ofCode 53 none, s)
  | _ => (.ofCode 53 none, s)

/-! ## The request -/

section

variable {L : LawfulCodec}

theorem PasswordModifyRequest.sequence_eq (E : Encoder) (req : PasswordModifyRequest) : req.sequence E =
    constructedOf E .universal tagSequence (str "Password Modify Request")
      (optionalPacket 0 (str "User Identity") req.userIdentity ++ optionalPacket 1 (str "Old Password") req.oldPassword ++
        optionalPacket 2 (str "New Password") req.newPassword) := by
  obtain ⟨user, old, new⟩ := req
  cases user <;> cases old <;> cases new <;> rfl

theorem PasswordModifyRequest.conveys_sequence (req : PasswordModifyRequest) :
    Conveys L readPasswordChange (req.sequence L.toEncoder) ⟨req.userIdentity, req.oldPassword, req.newPassword⟩ := by
  rw [req.sequence_eq]
  refine Conveys.bind _ ?_ ?_
  · simp only [List.forall_mem_append]
    exact ⟨⟨encodable_optionalPacket _ _ _, encodable_optionalPacket _ _ _⟩, encodable_optionalPacket _ _ _⟩
  · obtain ⟨user, old, new⟩ := req
    -- which of the components there are
    rcases user with _ | ⟨u, user⟩ <;> rcases old with _ | ⟨o, old⟩ <;> rcases new with _ | ⟨n, new⟩ <;>
      simp [optionalPacket, wire_context, readPasswordElements, takeContext, Packet.Is, readPrimitive]

end

/-! ## The response -/

section

variable {L : LawfulCodec}

theorem generatedPassword_undescribed (generated : GoString) (cs : List Packet) :
    generatedPassword L.toCodec generated (cs.map Packet.undescribed) = generatedPassword L.toCodec generated cs := by
  induction cs generalizing generated with
  | nil => rfl
  | cons c cs ih => simp only [List.map_cons, generatedPassword, Packet.undescribed_tag, Packet.undescribed_data, ih]

theorem firstReferral_undescribed (cs : List Packet) : firstReferral (cs.map Packet.undescribed) = firstReferral cs := by
  induction cs with
  | nil => rfl
  | cons c cs ih =>
    simp only [List.map_cons, firstReferral, Packet.undescribed_tag, Packet.undescribed_tagType,
      Packet.undescribed_classType, Packet.undescribed_children, ih]
    cases c.children <;> simp

theorem passwordModifyResponse_undescribed (p : Packet) :
    passwordModifyResponse L.toCodec p.undescribed = passwordModifyResponse L.toCodec p := by
  have hreferral (err : Err) : getReferral err p.undescribed = getReferral err p := by
    unfold getReferral
    rw [Packet.undescribed_children, List.getElem?_map]
    cases p.children[1]? <;> simp [firstReferral_undescribed]
  unfold passwordModifyResponse errMalformedResponse
  simp only [getLDAPError_undescribed, hreferral]
  rw [Packet.undescribed_children, List.getElem?_map, List.length_map]
  cases p.children[1]? <;> simp [generatedPassword_undescribed]

/-- Without constructed components there is no referral. -/
theorem firstReferral_primitive {cs : List Packet} (h : ∀ c ∈ cs, c.tagType = .primitive) : firstReferral cs = [] := by
  induction cs with
  | nil => rfl
  | cons c cs ih =>
    obtain ⟨hc, hcs⟩ := List.forall_mem_cons.mp h
    rw [firstReferral, if_pos (.inr (.inl (by rw [hc]; rintro ⟨⟩))), ih hcs]

/-- What `PasswordModify` is to return. -/
def passwordResult (r : LDAPResult × Option GoString) : Option PasswordModifyResult × Option Err :=
  (some ⟨r.1.err.elim (r.2.getD []) fun _ => [], []⟩, r.1.err)

theorem generatedPassword_wire (r : LDAPResult × Option GoString) (application : ℕ) :
    generatedPassword L.toCodec [] ((resultResponse L.toEncoder application r.1
      (optionalComponent 11 (r.2.map (generatedValue L.toEncoder)))).wire L.toPrimitives).children =
        .ok (r.2.getD []) := by
  rw [wire_resultResponse, children_constructedOf]
  obtain ⟨result, _ | password⟩ := r
  · rfl
  · have hdecode : L.decodePacketErr (generatedValue L.toEncoder password) =
        .ok (constructedOf L.toEncoder .universal tagSequence [] [readPrimitive .context 0 .nil password]) := by
      rw [generatedValue, L.decode_constructedOf (List.forall_mem_singleton.mpr (conveys_context password).encodable),
        List.map_cons, List.map_nil, wire_context]
    rw [Option.map_some, optionalComponent, Option.toList_some, List.map_cons, List.map_nil, List.map_cons, List.map_nil,
      wire_context]
    simp [generatedPassword, readPrimitive, tagEnumerated, tagEmbeddedPDV, tagOctetString, tagEOC, hdecode,
      children_constructedOf]

theorem passwordModifyResponse_received {id : ℤ} (r : LDAPResult × Option GoString) :
    passwordModifyResponse L.toCodec (received L id ((passwordAnswer L.toEncoder r).extendedPacket L.toEncoder)) =
      .returned (passwordResult r) := by
  have hpacket : (passwordAnswer L.toEncoder r).extendedPacket L.toEncoder =
      resultResponse L.toEncoder applicationExtendedResponse r.1
        (optionalComponent 11 (r.2.map (generatedValue L.toEncoder))) := rfl
  -- the components of the response are all primitive
  have hprimitive : ∀ c ∈ (((passwordAnswer L.toEncoder r).extendedPacket L.toEncoder).wire L.toPrimitives).children,
      c.tagType = .primitive := by
    rw [hpacket, wire_resultResponse, children_constructedOf]
    cases r.2 <;> simp [optionalComponent, wire_context, readPrimitive]
  have hreferral (err : Err) : getReferral err (received L id
      ((passwordAnswer L.toEncoder r).extendedPacket L.toEncoder)) = [] := by
    unfold getReferral
    rw [children_received]
    simp only [List.getElem?_cons_succ, List.getElem?_cons_zero, firstReferral_primitive hprimitive, ite_self]
  unfold passwordModifyResponse passwordResult
  simp only [hreferral]
  rw [hpacket, getLDAPError_received, children_received, LDAPResult.outcome]
  simp only [List.getElem?_cons_succ, List.getElem?_cons_zero, generatedPassword_wire]
  rw [wire_resultResponse, tag_constructedOf, if_pos rfl]
  cases r.1.err <;> rfl

theorem passwordModify_answer {addControlDescriptions : Assign} {conn : Connection} {id : ℤ} {req : PasswordModifyRequest}
    (hsend : conn.doRequest L.toEncoder (req.appendTo L.toEncoder) = none) (r : LDAPResult × Option GoString) :
    conn.passwordModify L.toCodec addControlDescriptions req
      ⟨handedOver L addControlDescriptions id [(passwordAnswer L.toEncoder r).extendedPacket L.toEncoder], false⟩ =
        .returned (passwordResult r) := by
  have hp : WellFormedReply (received L id ((passwordAnswer L.toEncoder r).extendedPacket L.toEncoder)) :=
    wellFormed_result (by decide)
  obtain ⟨q, hq, heq⟩ := exchange_delivered hp hsend
  refine heq.trans ?_
  rw [eq_of_undescribed passwordModifyResponse_undescribed hq, passwordModifyResponse_received]

end

/-! ## Both sides -/

end GoLdap
