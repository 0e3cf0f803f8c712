import GoLdap.Descriptions.Described
import GoLdap.Request

/-!
# Modify — the modify operation (`modify.go`, `request.go`)

`Modify` and `ModifyWithResult` send the same request and read one response.  `Modify` refuses any operation but a
ModifyResponse; `ModifyWithResult` has a switch on the tag without a default, so any other operation is a success there,
whatever its result code is.

* `noLessStrict_modifyResponse`, `not_noLessStrict_of_tag`: the two agree on a ModifyResponse, up to controls that cannot
  be decoded, and on no other operation.
-/

namespace GoLdap

open Go Ber

/-! ## The request -/

structure PartialAttribute where
  type : GoString
  vals : List GoString

/-- `(*PartialAttribute).encode`. -/
def PartialAttribute.encode (E : Encoder) (p : PartialAttribute) : Packet :=
  let seq := Ber.encode .universal .constructed tagSequence (str "PartialAttribute")
  let seq := seq.appendChild E (newString .universal .primitive tagOctetString p.type (str "Type"))
  let set := p.vals.foldl (fun set value => set.appendChild E
    (newString .universal .primitive tagOctetString value (str "Vals")))
    (Ber.encode .universal .constructed tagSet (str "AttributeValue"))
  seq.appendChild E set

structure Change where
  operation : ℕ
  modification : PartialAttribute

/-- `(*Change).encode`. -/
def Change.encode (E : Encoder) (c : Change) : Packet :=
  let change := Ber.encode .universal .constructed tagSequence (str "Change")
  let change := change.appendChild E (newInteger E .universal .primitive tagEnumerated c.operation (str "Operation"))
  change.appendChild E (c.modification.encode E)

structure ModifyRequest where
  dn : GoString
  changes : List Change
  /-- The controls, encoded. -/
  controls : List Packet

/-- `(*ModifyRequest).appendTo`. -/
def ModifyRequest.appendTo (E : Encoder) (req : ModifyRequest) (envelope : Packet) : Packet :=
  let pkt := encode .application .constructed applicationModifyRequest (str "Modify Request")
  let pkt := pkt.appendChild E (newString .universal .primitive tagOctetString req.dn (str "DN"))
  let changes := req.changes.foldl (fun changes change => changes.appendChild E (change.encode E))
    (encode .universal .constructed tagSequence (str "Changes"))
  let envelope := envelope.appendChild E (pkt.appendChild E changes)
  if 0 < req.controls.length then envelope.appendChild E (encodeControls E req.controls) else envelope

/-! ## The response -/

def ldapResultReferral : ℕ := 10

/-- The loop of `getReferral`: the first child with a URI in it. -/
def firstReferral : List Packet → GoString
  | [] => []
  | child :: rest =>
    if (child.tag ≠ tagBitString ∧ child.tag ≠ tagPrintableString) ∨ child.tagType ≠ .constructed ∨
        child.classType ≠ .context then firstReferral rest
    else
      match child.children with
      | [] => firstReferral rest
      | uri :: _ =>
        match asString uri.value with
        | some referral => referral
        | none => firstReferral rest

/-- `getReferral`. -/
def getReferral (err : Err) (packet : Packet) : GoString :=
  if isErrorWithCode err ldapResultReferral = false then []
  else
    match packet.children[1]? with
    | none => []
    | some op =>
      if op.children.length = 0 ∨ op.tagType ≠ .constructed ∨ op.classType ≠ .application then []
      else firstReferral op.children

structure ModifyResult (C : Type) where
  controls : List C
  referral : GoString
  deriving DecidableEq, Repr

/-- What `Modify` makes of the response. -/
def modifyResponse (packet : Packet) : CallEnd (Option Err) :=
  match packet.children[1]? with
  | none => .returned (some (errMalformedResponse packet))
  | some op =>
    if op.tag = applicationModifyResponse then
      match getLDAPError packet with
      | .panic => .panicked
      | .err err => .returned (some err)
      | .ok () => .returned none
    else .returned (some (.plain (.fmtNum "ldap: unexpected response: %d" op.tag)))

section

variable {C : Type} (decodeControl : Packet → Outcome Err C)

/-- What `ModifyWithResult` makes of the response: its result, which may be nil, and its error. -/
def modifyWithResponse (packet : Packet) : CallEnd (Option (ModifyResult C) × Option Err) :=
  match packet.children[1]? with
  | none => .returned (none, some (errMalformedResponse packet))
  | some op =>
    if op.tag = applicationModifyResponse then
      match getLDAPError packet with
      | .panic => .panicked
      | .err err => .returned (some ⟨[], getReferral err packet⟩, some err)
      | .ok () =>
        match packet.children with
        | [_, _, controls] =>
          match decodeControls decodeControl (.wrapped "failed to decode child control: %s") controls.children with
          | (_, .panic) => .panicked
          | (_, .err err) => .returned (none, some err)
          | (cs, .ok ()) => .returned (some ⟨cs, []⟩, none)
        | _ => .returned (some ⟨[], []⟩, none)
    -- the switch has no other case
    else .returned (some ⟨[], []⟩, none)

end

/-- `Modify`. -/
def Connection.modify (E : Encoder) (addControlDescriptions : Assign) (conn : Connection) (req : ModifyRequest)
    (responses : Responses) : CallEnd (Option Err) :=
  conn.exchange E addControlDescriptions (req.appendTo E) responses some modifyResponse

/-- `ModifyWithResult`. -/
def Connection.modifyWithResult {C : Type} (E : Encoder) (addControlDescriptions : Assign)
    (decodeControl : Packet → Outcome Err C) (conn : Connection) (req : ModifyRequest) (responses : Responses) :
    CallEnd (Option (ModifyResult C) × Option Err) :=
  conn.exchange E addControlDescriptions (req.appendTo E) responses (fun err => (none, some err))
    (modifyWithResponse decodeControl)

/-! ## The two agree on a ModifyResponse -/

/-- The error of `ModifyWithResult` for a control that cannot be decoded. -/
def errDecodeControl (err : Err) : Err := .wrapped "failed to decode child control: %s" err

/-- The first result is a success only if the second is one; and the second is a success only if the first is one, or a
control could not be decoded. -/
structure NoLessStrict {C : Type} (withResult : CallEnd (Option (ModifyResult C) × Option Err))
    (plain : CallEnd (Option Err)) : Prop where
  sound : ∀ result, withResult = .returned (result, none) → plain = .returned none
  complete : plain = .returned none → (∃ result, withResult = .returned (result, none)) ∨
    ∃ err, withResult = .returned (none, some (errDecodeControl err))

section

variable {C : Type} {decodeControl : Packet → Outcome Err C}

/-- Both fail. -/
theorem NoLessStrict.of_ne {withResult : CallEnd (Option (ModifyResult C) × Option Err)} {plain : CallEnd (Option Err)}
    (hresult : ∀ result, withResult ≠ .returned (result, none)) (hplain : plain ≠ .returned none) :
    NoLessStrict withResult plain :=
  ⟨fun result h => absurd h (hresult result), fun h => absurd h hplain⟩

variable {p op : Packet}

theorem noLessStrict_modifyResponse (hdecode : ∀ p, decodeControl p ≠ .panic) (hop : p.children[1]? = some op)
    (htag : op.tag = applicationModifyResponse) :
    NoLessStrict (modifyWithResponse decodeControl p) (modifyResponse p) := by
  unfold modifyWithResponse modifyResponse
  simp only [hop, htag, if_true]
  cases getLDAPError p with
  | panic => exact .of_ne (by rintro _ ⟨⟩) (by rintro ⟨⟩)
  | err err => exact .of_ne (by rintro _ ⟨⟩) (by rintro ⟨⟩)
  | ok _ =>
    refine ⟨fun _ _ => rfl, fun _ => ?_⟩
    dsimp only
    split
    · rename_i mid op' controls _
      obtain ⟨cs, h⟩ | ⟨cs, err, h⟩ := decodeControls_cases hdecode
        (.wrapped "failed to decode child control: %s") controls.children
      · exact .inl ⟨some ⟨cs, []⟩, by rw [h]⟩
      · exact .inr ⟨err, by rw [h]; rfl⟩
    · exact .inl ⟨some ⟨[], []⟩, rfl⟩

/-- Another operation is a success for `ModifyWithResult` only. -/
theorem not_noLessStrict_of_tag (hop : p.children[1]? = some op) (htag : op.tag ≠ applicationModifyResponse) :
    ¬ NoLessStrict (modifyWithResponse decodeControl p) (modifyResponse p) := by
  intro h
  have hplain := h.sound (some ⟨[], []⟩) (by simp [modifyWithResponse, hop, htag])
  simp [modifyResponse, hop, htag] at hplain

theorem noLessStrict_of_malformed (hop : p.children[1]? = none) :
    NoLessStrict (modifyWithResponse decodeControl p) (modifyResponse p) := by
  unfold modifyWithResponse modifyResponse
  rw [hop]
  exact .of_ne (by rintro _ ⟨⟩) (by rintro ⟨⟩)

/-- The tag that decides is the one in the packet without the descriptions of the debug mode. -/
theorem noLessStrict_response_iff {addControlDescriptions : Assign} {debug : Bool} {q : Packet}
    (hdecode : ∀ p, decodeControl p ≠ .panic) (hq : describeInDebug addControlDescriptions debug p = .ok q) :
    NoLessStrict (modifyWithResponse decodeControl q) (modifyResponse q) ↔
      ∀ op ∈ p.children[1]?, op.tag = applicationModifyResponse := by
  have hsame := operation_describeInDebug hq
  cases hp : p.children[1]? with
  | none =>
    rw [hp, Option.map_none, Option.map_eq_none_iff] at hsame
    exact iff_of_true (noLessStrict_of_malformed hsame) (by simp)
  | some op =>
    rw [hp, Option.map_some, Option.map_eq_some_iff] at hsame
    obtain ⟨op', hop', heq⟩ := hsame
    have htag : op'.tag = op.tag := by rw [← op'.undescribed_tag, heq, op.undescribed_tag]
    simp only [Option.mem_some_iff, forall_eq']
    by_cases h7 : op.tag = applicationModifyResponse
    · exact iff_of_true (noLessStrict_modifyResponse hdecode hop' (htag.trans h7)) h7
    · exact iff_of_false (not_noLessStrict_of_tag hop' (htag ▸ h7)) h7

end

/-- `ModifyWithResult` does not succeed where `Modify` fails exactly if the response that is read, if there is one, is a
ModifyResponse or has no operation. -/
theorem noLessStrict_modify_iff {C : Type} (E : Encoder) (addControlDescriptions : Assign)
    (decodeControl : Packet → Outcome Err C) (hdecode : ∀ p, decodeControl p ≠ .panic) (conn : Connection)
    (req : ModifyRequest) (responses : Responses) :
    NoLessStrict (conn.modifyWithResult E addControlDescriptions decodeControl req responses)
        (conn.modify E addControlDescriptions req responses) ↔
      (conn.doRequest E (req.appendTo E) = none → ∀ p, responses.packets.head? = some (.ok p) →
        Describable addControlDescriptions conn.debug p →
        ∀ op ∈ p.children[1]?, op.tag = applicationModifyResponse) := by
  unfold Connection.modifyWithResult Connection.modify Connection.exchange
  cases conn.doRequest E (req.appendTo E) with
  | some e =>
    refine iff_of_true (.of_ne (by rintro _ ⟨⟩) (by rintro ⟨⟩)) ?_
    rintro ⟨⟩
  | none =>
    simp only [true_implies]
    unfold Connection.readPacket
    cases responses.packets with
    | nil =>
      refine iff_of_true ?_ (by simp)
      split_ifs
      · exact .of_ne (by rintro _ ⟨⟩) (by rintro ⟨⟩)
      · exact .of_ne (by rintro _ ⟨⟩) (by rintro ⟨⟩)
    | cons r rest =>
      cases r with
      | error e => exact iff_of_true (.of_ne (by rintro _ ⟨⟩) (by rintro ⟨⟩)) (by simp)
      | ok p =>
        simp only [List.head?_cons, Option.some.injEq, Except.ok.injEq, forall_eq', describable_iff]
        cases hq : describeInDebug addControlDescriptions conn.debug p with
        | error e => exact iff_of_true (.of_ne (by rintro _ ⟨⟩) (by rintro ⟨⟩)) (by simp)
        | ok q =>
          simp only [Except.ok.injEq, exists_eq', true_implies]
          exact noLessStrict_response_iff hdecode hq

/-- A ModifyResponse with the code success. -/
theorem noLessStrict_modify_iff_success :
    NoLessStrict
        (openConnection.modifyWithResult shortEncoder .skip (fun _ => (.ok () : Outcome Err Unit)) ⟨str "cn=a", [], []⟩
          ⟨[.ok (resultMessage applicationModifyResponse 0 [0])], false⟩)
        (openConnection.modify shortEncoder .skip ⟨str "cn=a", [], []⟩
          ⟨[.ok (resultMessage applicationModifyResponse 0 [0])], false⟩) := by
  refine (noLessStrict_modify_iff shortEncoder .skip _ (by rintro p ⟨⟩) openConnection ⟨str "cn=a", [], []⟩
    ⟨[.ok (resultMessage applicationModifyResponse 0 [0])], false⟩).mpr ?_
  intro _ p hp _ op hop
  cases hp
  cases hop
  rfl

/-- The answer to the request is an AddResponse with the code `unwillingToPerform`. -/
theorem modifyWithResult_unexpected :
    openConnection.modifyWithResult shortEncoder .skip (fun _ => (.ok () : Outcome Err Unit)) ⟨str "cn=a", [], []⟩
        ⟨[.ok (resultMessage 9 53 [53])], false⟩ = .returned (some ⟨[], []⟩, none) ∧
      openConnection.modify shortEncoder .skip ⟨str "cn=a", [], []⟩ ⟨[.ok (resultMessage 9 53 [53])], false⟩ =
        .returned (some (.plain (.fmtNum "ldap: unexpected response: %d" 9))) :=
  ⟨rfl, rfl⟩

end GoLdap
