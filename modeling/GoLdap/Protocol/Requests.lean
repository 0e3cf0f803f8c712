import GoLdap.Bind.Challenge
import GoLdap.Bind.Gssapi
import GoLdap.Compare
import GoLdap.Control.RoundTrip
import GoLdap.Extended
import GoLdap.Protocol.Message
import GoLdap.Search.Model
import GoLdap.Update

/-!
# Protocol.Requests — what the server reads of a request

For every request of the client, the server that gets the octets of its message reads the operation that was asked for,
with the message ID and the controls.
-/

namespace GoLdap

open Go Ber Octets

/-! ## The message -/

/-- An operation and its controls, appended to an envelope. -/
def appendOperation (E : Encoder) (pkt : Packet) (controls : List Packet) (envelope : Packet) : Packet :=
  let envelope := envelope.appendChild E pkt
  if 0 < controls.length then envelope.appendChild E (encodeControls E controls) else envelope

section

variable {L : LawfulCodec} {id : ℤ}

theorem conveys_request (hid : Fits 8 id) {pkt : Packet} {op : Operation} (hop : Conveys L readOperation pkt op)
    {controls : List Packet} {cs : List MessageControl} (hcs : List.Forall₂ (Conveys L readControl) controls cs) :
    Conveys L readMessage (appendOperation L.toEncoder pkt controls (requestEnvelope L.toEncoder id)) ⟨id, op, cs⟩ := by
  have hnumber : Conveys L (readNumber tagInteger) _ id := conveys_number (d := str "MessageID") (.inl rfl) hid
  cases hcs with
  | nil =>
    refine Conveys.bind [_, pkt] (List.forall_mem_cons.mpr ⟨hnumber.encodable,
      List.forall_mem_singleton.mpr hop.encodable⟩) ?_
    rw [List.map_cons, List.map_cons, List.map_nil, readMessageElements, hnumber.reads, hop.reads]
    rfl
  | @cons c m controls cs hc hcs =>
    have hlist : Conveys L (readListOf .context 0 readControl) (encodeControls L.toEncoder (c :: controls)) (m :: cs) :=
      conveys_listOf (.cons hc hcs)
    refine Conveys.bind [_, pkt, _] (List.forall_mem_cons.mpr ⟨hnumber.encodable,
      List.forall_mem_cons.mpr ⟨hop.encodable, List.forall_mem_singleton.mpr hlist.encodable⟩⟩) ?_
    rw [List.map_cons, List.map_cons, List.map_cons, List.map_nil, readMessageElements, hnumber.reads, hop.reads, readLast,
      hlist.reads]
    rfl

/-- A constructed operation, by what is read of its elements. -/
theorem conveys_operation {tag : ℕ} {d : GoString} (read : List Packet → Option Operation)
    (htag : readConstructedOperation tag = read) (cs : List Packet) (hcs : ∀ c ∈ cs, Encodable L.toEncoder c)
    {op : Operation} (h : read (cs.map (Packet.wire L.toPrimitives)) = some op) :
    Conveys L readOperation (constructedOf L.toEncoder .application tag d cs) op := by
  refine ⟨encodable_constructedOf hcs, ?_⟩
  rw [wire_constructedOf, constructedOf_eq, readOperation, if_neg (by simp [Packet.Is]), if_neg (by simp [Packet.Is]),
    if_pos ⟨rfl, rfl⟩]
  exact (congrFun htag _).trans h

end

/-! ## Controls -/

/-- What the server is to see of a control; there is nothing to see of those that only a server sends. -/
def Control.messageControl (E : Encoder) : Control → Option MessageControl
  | .string c => some ⟨c.controlType, c.criticality, if c.controlValue = [] then none else some c.controlValue⟩
  | .paging c => some ⟨controlTypePaging, false, some ((c.sequence E).bytes E)⟩
  | .manageDsaIT criticality => some ⟨controlTypeManageDsaIT, criticality, none⟩
  | .dirSync c => some ⟨controlTypeDirSync, c.criticality, some ((c.sequence E).bytes E)⟩
  | .serverSideSorting sortKeys => some ⟨controlTypeServerSideSorting, false, some ((sortKeyList E sortKeys).bytes E)⟩
  | .syncRequest c => some ⟨controlTypeSyncRequest, c.criticality, some ((c.sequence E).bytes E)⟩
  | .beheraPasswordPolicy _ => some ⟨controlTypeBeheraPasswordPolicy, false, none⟩
  | .microsoftNotification => some ⟨controlTypeMicrosoftNotification, false, none⟩
  | .microsoftSDFlags c => some ⟨controlTypeMicrosoftSDFlags, c.criticality, some ((c.sequence E).bytes E)⟩
  | .microsoftShowDeleted => some ⟨controlTypeMicrosoftShowDeleted, false, none⟩
  | .microsoftServerLinkTTL => some ⟨controlTypeMicrosoftServerLinkTTL, false, none⟩
  | .subtreeDelete => some ⟨controlTypeSubtreeDelete, false, none⟩
  | .serverSideSortingResult _ | .vChuPasswordMustChange _ | .vChuPasswordWarning _ | .syncState _ | .syncDone _
  | .syncInfo _ => none

section

variable {L : LawfulCodec} {t : Packet} {ct : GoString}

/-- A control is a sequence of its type and what follows it. -/
theorem conveys_control {d : GoString} {rest : List Packet} (ht : Conveys L readString t ct)
    (hrest : ∀ c ∈ rest, Encodable L.toEncoder c) {m : MessageControl}
    (h : readControlRest ct (rest.map (Packet.wire L.toPrimitives)) = some m) :
    Conveys L readControl (constructedOf L.toEncoder .universal tagSequence d (t :: rest)) m := by
  refine Conveys.bind _ (List.forall_mem_cons.mpr ⟨ht.encodable, hrest⟩) ?_
  rw [List.map_cons, readControlElements, ht.reads]
  exact h

theorem conveys_control_type {d : GoString} (ht : Conveys L readString t ct) :
    Conveys L readControl (constructedOf L.toEncoder .universal tagSequence d [t]) ⟨ct, false, none⟩ :=
  conveys_control ht (by simp) rfl

theorem conveys_control_critical {d : GoString} (ht : Conveys L readString t ct) {c : Packet} {b : Bool}
    (hc : Conveys L readBoolean c b) :
    Conveys L readControl (constructedOf L.toEncoder .universal tagSequence d [t, c]) ⟨ct, b, none⟩ := by
  refine conveys_control ht (by simp [hc.encodable]) ?_
  rw [List.map_cons, List.map_nil, readControlRest, hc.reads]

/-- An octet string is not taken for a criticality. -/
theorem readBoolean_wire_string {v : Packet} (htype : v.tagType = .primitive) (htag : v.tag = tagOctetString)
    (P : Primitives) : readBoolean (v.wire P) = none := by
  rw [wire_primitive _ htype, htag]
  exact if_neg fun h => absurd h.2.2 (by show tagOctetString ≠ tagBoolean; decide)

theorem conveys_control_value {d : GoString} (ht : Conveys L readString t ct) {v : Packet}
    (htype : v.tagType = .primitive) (hcls : v.classType = .universal) (htag : v.tag = tagOctetString) :
    Conveys L readControl (constructedOf L.toEncoder .universal tagSequence d [t, v]) ⟨ct, false, some v.data⟩ := by
  have hv : Conveys L readString v v.data := conveys_string_of htype hcls htag
  refine conveys_control ht (by simp [hv.encodable]) ?_
  rw [List.map_cons, List.map_nil, readControlRest, readBoolean_wire_string htype htag, hv.reads]
  rfl

theorem conveys_control_full {d : GoString} (ht : Conveys L readString t ct) {c v : Packet} {b : Bool}
    (hc : Conveys L readBoolean c b) (htype : v.tagType = .primitive) (hcls : v.classType = .universal)
    (htag : v.tag = tagOctetString) :
    Conveys L readControl (constructedOf L.toEncoder .universal tagSequence d [t, c, v]) ⟨ct, b, some v.data⟩ := by
  have hv : Conveys L readString v v.data := conveys_string_of htype hcls htag
  refine conveys_control ht (by simp [hc.encodable, hv.encodable]) ?_
  rw [List.map_cons, List.map_cons, List.map_nil, readControlRest, hc.reads, hv.reads]
  rfl

theorem conveys_controlTypePacket (ct : GoString) : Conveys L readString (controlTypePacket ct) ct :=
  conveys_string ct

theorem conveys_criticality (b : Bool) : Conveys L readBoolean (criticalityPacket L.toEncoder b) b := conveys_boolean b

theorem conveys_ldapBoolean {d : GoString} (b : Bool) :
    Conveys L readBoolean (newLDAPBoolean .universal .primitive tagBoolean b d) b := by
  cases b
  · exact conveys_boolean_of (x := 0) rfl rfl rfl rfl (by simp)
  · exact conveys_boolean_of (x := 0xFF) rfl rfl rfl rfl (by decide)

theorem ControlString.conveys (c : ControlString) : Conveys L readControl (c.encode L.toEncoder)
    ⟨c.controlType, c.criticality, if c.controlValue = [] then none else some c.controlValue⟩ := by
  have ht := conveys_controlTypePacket (L := L) c.controlType
  unfold ControlString.encode appendCriticality
  cases hcrit : c.criticality <;> by_cases hvalue : c.controlValue = [] <;>
    simp only [hvalue, ne_eq, not_true_eq_false, not_false_eq_true, if_true, if_false, Bool.false_eq_true]
  · exact conveys_control_type ht
  · exact conveys_control_value ht rfl rfl rfl
  · exact conveys_control_critical ht (conveys_criticality true)
  · exact conveys_control_full ht (conveys_criticality true) rfl rfl rfl

/-- The server reads the type, the criticality and the value of every control the client sends. -/
theorem Control.conveys {c : Control} {p : Packet} {m : MessageControl} (hp : c.encode L.toEncoder = some p)
    (hm : c.messageControl L.toEncoder = some m) : Conveys L readControl p m := by
  cases c with
  | string c =>
    obtain rfl := Option.some.inj hp
    obtain rfl := Option.some.inj hm
    exact c.conveys
  | paging c =>
    obtain rfl := Option.some.inj hp
    obtain rfl := Option.some.inj hm
    exact conveys_control_value (conveys_controlTypePacket _) rfl rfl rfl
  | manageDsaIT b =>
    obtain rfl := Option.some.inj hp
    obtain rfl := Option.some.inj hm
    cases b
    · exact conveys_control_type (conveys_controlTypePacket _)
    · exact conveys_control_critical (conveys_controlTypePacket _) (conveys_criticality true)
  | microsoftSDFlags c =>
    obtain rfl := Option.some.inj hp
    obtain rfl := Option.some.inj hm
    obtain ⟨b, flags⟩ := c
    cases b
    · exact conveys_control_value (conveys_controlTypePacket _) rfl rfl rfl
    · exact conveys_control_full (conveys_controlTypePacket _) (conveys_criticality true) rfl rfl rfl
  | dirSync c =>
    obtain rfl := Option.some.inj hp
    obtain rfl := Option.some.inj hm
    exact conveys_control_full (conveys_controlTypePacket _) (conveys_ldapBoolean c.criticality) rfl rfl rfl
  | serverSideSorting ks =>
    obtain rfl := Option.some.inj hp
    obtain rfl := Option.some.inj hm
    exact conveys_control_value (conveys_string _) rfl rfl rfl
  | syncRequest c =>
    obtain rfl := Option.some.inj hp
    obtain rfl := Option.some.inj hm
    exact conveys_control_full (conveys_controlTypePacket _) (conveys_criticality c.criticality) rfl rfl rfl
  | beheraPasswordPolicy | microsoftNotification | microsoftShowDeleted | microsoftServerLinkTTL | subtreeDelete =>
    obtain rfl := Option.some.inj hp
    obtain rfl := Option.some.inj hm
    exact conveys_control_type (conveys_controlTypePacket _)
  | serverSideSortingResult | vChuPasswordMustChange | vChuPasswordWarning | syncState | syncDone | syncInfo => cases hm

end

/-! ## Updates -/

section

variable {L : LawfulCodec}

theorem conveys_values {d d' : GoString} (vals : List GoString) :
    Conveys L (readListOf .universal tagSet readString)
      (vals.foldl (fun set value => set.appendChild L.toEncoder (newString .universal .primitive tagOctetString value d))
        (encode .universal .constructed tagSet d')) vals := by
  rw [foldl_appendChild_map]
  exact (conveys_map fun value _ => conveys_string value).of_eq (List.map_id vals)

/-- A sequence of a type and a set of values. -/
theorem conveys_attribute {d : GoString} {t v : Packet} {type : GoString} {vals : List GoString}
    (ht : Conveys L readString t type) (hv : Conveys L (readListOf .universal tagSet readString) v vals) :
    Conveys L readPartialAttribute (constructedOf L.toEncoder .universal tagSequence d [t, v]) ⟨type, vals⟩ := by
  refine Conveys.bind _ (by simp [ht.encodable, hv.encodable]) ?_
  rw [List.map_cons, List.map_cons, List.map_nil, readPartialAttributeElements, ht.reads, hv.reads]
  rfl

theorem Attribute.conveys (a : Attribute) : Conveys L readPartialAttribute (a.encode L.toEncoder) ⟨a.type, a.vals⟩ :=
  conveys_attribute (conveys_string a.type) (conveys_values a.vals)

theorem PartialAttribute.conveys (p : PartialAttribute) :
    Conveys L readPartialAttribute (p.encode L.toEncoder) ⟨p.type, p.vals⟩ :=
  conveys_attribute (conveys_string p.type) (conveys_values p.vals)

theorem ChangeKind.fits_code (k : ChangeKind) : Fits 8 (k.code : ℤ) := by
  cases k <;> constructor <;> norm_num [ChangeKind.code]

theorem Change.conveys {c : Change} {k : ChangeKind} (hk : c.operation = k.code) :
    Conveys L readChange (c.encode L.toEncoder) (k, ⟨c.modification.type, c.modification.vals⟩) := by
  have hcode : Conveys L (readNumber tagEnumerated) _ (c.operation : ℤ) :=
    conveys_number (d := str "Operation") (.inr rfl) (hk ▸ k.fits_code)
  have hattr := c.modification.conveys (L := L)
  refine Conveys.bind [_, _] (by simp [hcode.encodable, hattr.encodable]) ?_
  rw [List.map_cons, List.map_cons, List.map_nil, readChangeElements, hcode.reads, hattr.reads, hk]
  show (ChangeKind.ofCode k.code >>= _) = _
  rw [k.ofCode_code]
  rfl

variable {id : ℤ} {cs : List MessageControl}

theorem AddRequest.conveys (req : AddRequest) (hid : Fits 8 id)
    (hcs : List.Forall₂ (Conveys L readControl) req.controls cs) :
    Conveys L readMessage (req.appendTo L.toEncoder (requestEnvelope L.toEncoder id))
      ⟨id, .add req.dn (req.attributes.map fun a => ⟨a.type, a.vals⟩), cs⟩ := by
  have hdn := conveys_string (L := L) (d := str "DN") req.dn
  have hattrs : Conveys L (readListOf .universal tagSequence readPartialAttribute)
      (req.attributes.foldl (fun attributes a => attributes.appendChild L.toEncoder (a.encode L.toEncoder))
        (encode .universal .constructed tagSequence (str "Attributes")))
      (req.attributes.map fun a => ⟨a.type, a.vals⟩) := by
    rw [foldl_appendChild_map]
    exact conveys_map fun a _ => a.conveys
  refine conveys_request hid (conveys_operation (d := str "Add Request") readAdd rfl [_, _]
    (by simp [hdn.encodable, hattrs.encodable]) ?_) hcs
  rw [List.map_cons, List.map_cons, List.map_nil, readAdd, hdn.reads, hattrs.reads]
  rfl

theorem DelRequest.conveys (req : DelRequest) (hid : Fits 8 id)
    (hcs : List.Forall₂ (Conveys L readControl) req.controls cs) :
    Conveys L readMessage (req.appendTo L.toEncoder (requestEnvelope L.toEncoder id)) ⟨id, .del req.dn, cs⟩ := by
  refine conveys_request hid ⟨.primitive rfl (by rintro ⟨⟩), ?_⟩ hcs
  rw [wire_primitive _ rfl]
  rfl

/-- A change of a modify request whose operation is one of the protocol's. -/
def Change.Is (c : Change) (v : ChangeKind × AttributeValues) : Prop :=
  c.operation = v.1.code ∧ v.2 = ⟨c.modification.type, c.modification.vals⟩

theorem ModifyRequest.conveys (req : ModifyRequest) {changes : List (ChangeKind × AttributeValues)}
    (hchanges : List.Forall₂ Change.Is req.changes changes) (hid : Fits 8 id)
    (hcs : List.Forall₂ (Conveys L readControl) req.controls cs) :
    Conveys L readMessage (req.appendTo L.toEncoder (requestEnvelope L.toEncoder id)) ⟨id, .modify req.dn changes, cs⟩ := by
  have hdn := conveys_string (L := L) (d := str "DN") req.dn
  have hlist : Conveys L (readListOf .universal tagSequence readChange)
      (req.changes.foldl (fun changes change => changes.appendChild L.toEncoder (change.encode L.toEncoder))
        (encode .universal .constructed tagSequence (str "Changes"))) changes := by
    rw [foldl_appendChild_map]
    refine conveys_listOf ?_
    rw [List.forall₂_map_left_iff]
    refine hchanges.imp fun c v hv => ?_
    obtain ⟨hk, hattr⟩ := hv
    exact (Change.conveys hk).of_eq (by rw [← hattr])
  refine conveys_request hid (conveys_operation (d := str "Modify Request") readModify rfl [_, _]
    (by simp [hdn.encodable, hlist.encodable]) ?_) hcs
  rw [List.map_cons, List.map_cons, List.map_nil, readModify, hdn.reads, hlist.reads]
  rfl

/-- The packet of the flag of a rename. -/
def deleteOldRDNPacket (E : Encoder) (b : Bool) : Packet :=
  if b then newString .universal .primitive tagBoolean [0xFF] (str "Delete old RDN")
  else newBoolean E .universal .primitive tagBoolean b (str "Delete old RDN")

theorem conveys_deleteOldRDN (b : Bool) : Conveys L readBoolean (deleteOldRDNPacket L.toEncoder b) b := by
  cases b
  · exact conveys_boolean false
  · exact conveys_boolean_of (x := 0xFF) rfl rfl rfl rfl (by decide)

/-- An optional element at the end of a sequence, which is left out if it is empty. -/
def optionalPacket (tag : ℕ) (d s : GoString) : List Packet :=
  if s = [] then [] else [newString .context .primitive tag s d]

/-- An optional string: the empty one stands for its absence. -/
def nonEmpty (s : GoString) : Option GoString := if s = [] then none else some s

theorem encodable_optionalPacket (tag : ℕ) (d s : GoString) : ∀ c ∈ optionalPacket tag d s, Encodable L.toEncoder c := by
  intro c hc
  rw [optionalPacket] at hc
  split_ifs at hc with hs
  · cases hc
  · obtain rfl := List.mem_singleton.mp hc
    exact (conveys_context s).encodable

theorem readLast_optionalPacket (tag : ℕ) (d s : GoString) :
    readLast (readOctets .context tag) ((optionalPacket tag d s).map (Packet.wire L.toPrimitives)) =
      some (nonEmpty s) := by
  rw [optionalPacket, nonEmpty]
  split_ifs with hs
  · rfl
  · rw [List.map_cons, List.map_nil, readLast, (conveys_context s).reads]
    rfl

theorem ModifyDNRequest.appendTo_eq (E : Encoder) (req : ModifyDNRequest) (envelope : Packet) :
    req.appendTo E envelope = appendOperation E
      (constructedOf E .application applicationModifyDNRequest (str "Modify DN Request")
        (newString .universal .primitive tagOctetString req.dn (str "DN") ::
          newString .universal .primitive tagOctetString req.newRDN (str "New RDN") ::
          deleteOldRDNPacket E req.deleteOldRDN :: optionalPacket 0 (str "New Superior") req.newSuperior))
      req.controls envelope := by
  unfold appendTo optionalPacket deleteOldRDNPacket
  cases req.deleteOldRDN <;> by_cases h : req.newSuperior = [] <;> simp only [h, ne_eq, not_true_eq_false,
    not_false_eq_true, if_true, if_false, Bool.false_eq_true] <;> rfl

theorem ModifyDNRequest.conveys (req : ModifyDNRequest) (hid : Fits 8 id)
    (hcs : List.Forall₂ (Conveys L readControl) req.controls cs) :
    Conveys L readMessage (req.appendTo L.toEncoder (requestEnvelope L.toEncoder id))
      ⟨id, .modifyDN req.dn req.newRDN req.deleteOldRDN (nonEmpty req.newSuperior), cs⟩ := by
  have hdn := conveys_string (L := L) (d := str "DN") req.dn
  have hrdn := conveys_string (L := L) (d := str "New RDN") req.newRDN
  have hdel := conveys_deleteOldRDN (L := L) req.deleteOldRDN
  rw [req.appendTo_eq]
  refine conveys_request hid (conveys_operation readModifyDN rfl _ ?_ ?_) hcs
  · simpa [hdn.encodable, hrdn.encodable, hdel.encodable] using encodable_optionalPacket 0 _ req.newSuperior
  · rw [List.map_cons, List.map_cons, List.map_cons, readModifyDN, hdn.reads, hrdn.reads, hdel.reads,
      readLast_optionalPacket]
    rfl

theorem conveys_attributeValue {d : GoString} {a v : Packet} {attr value : GoString} (ha : Conveys L readString a attr)
    (hv : Conveys L readString v value) :
    Conveys L readAttributeValue (constructedOf L.toEncoder .universal tagSequence d [a, v]) (attr, value) := by
  refine Conveys.bind _ (by simp [ha.encodable, hv.encodable]) ?_
  rw [List.map_cons, List.map_cons, List.map_nil, readAttributeValueElements, ha.reads, hv.reads]
  rfl

theorem conveys_compare_operation {d : GoString} {p q : Packet} {dn : GoString} {ava : GoString × GoString}
    (hdn : Conveys L readString p dn) (hava : Conveys L readAttributeValue q ava) :
    Conveys L readOperation (constructedOf L.toEncoder .application applicationCompareRequest d [p, q])
      (.compare dn ava.1 ava.2) := by
  refine conveys_operation readCompare rfl _ (by simp [hdn.encodable, hava.encodable]) ?_
  rw [List.map_cons, List.map_cons, List.map_nil, readCompare, hdn.reads, hava.reads]
  rfl

theorem CompareRequest.conveys (req : CompareRequest) (hid : Fits 8 id) :
    Conveys L readMessage (req.appendTo L.toEncoder (requestEnvelope L.toEncoder id))
      ⟨id, .compare req.dn req.attribute req.value, []⟩ := by
  have hava := conveys_attributeValue (L := L) (d := str "AttributeValueAssertion")
    (conveys_string (d := str "AttributeDesc") req.attribute) (conveys_string (d := str "AssertionValue") req.value)
  exact conveys_request hid (conveys_compare_operation (conveys_string req.dn) hava) .nil

end

/-! ## Searches -/

section

variable {L : LawfulCodec} {id : ℤ} {cs : List MessageControl}

/-- The number is written as it is. -/
def InUint63 (n : ℤ) : Prop := 0 ≤ n ∧ n < 2 ^ 63

theorem conveys_uint {n : ℤ} (h : InUint63 n) {tag : ℕ} (htag : tag = tagInteger ∨ tag = tagEnumerated) {d : GoString} :
    Conveys L (readNumber tag) (newInteger L.toEncoder .universal .primitive tag (toUint64 n) d) n := by
  obtain ⟨hnonneg, hlt⟩ := h
  have hn : toUint64 n = n := Int.emod_eq_of_lt hnonneg (by omega)
  rw [hn]
  exact conveys_number htag ⟨by norm_num; omega, by norm_num; omega⟩

/-- A search request with numbers in range. -/
structure SearchRequest.InRange (req : SearchRequest) : Prop where
  scope : InUint63 req.scope
  derefAliases : InUint63 req.derefAliases
  sizeLimit : InUint63 req.sizeLimit
  timeLimit : InUint63 req.timeLimit

/-- The parameters of a search, by its filter. -/
def SearchRequest.parameters (req : SearchRequest) (f : SearchFilter) : SearchParameters :=
  ⟨req.baseDN, req.scope, req.derefAliases, req.sizeLimit, req.timeLimit, req.typesOnly, f, req.attributes⟩

/-- A search whose filter compiles to a packet that conveys a filter. -/
theorem SearchRequest.conveys {req : SearchRequest} (hreq : req.InRange) {p : Packet} {f : SearchFilter}
    (hcomp : compileFilter L.toEncoder req.filter = some (.ok (some p))) (hf : Conveys L readFilter p f)
    (hid : Fits 8 id) (hcs : List.Forall₂ (Conveys L readControl) req.controls cs) :
    ∃ q, req.appendTo L.toEncoder (requestEnvelope L.toEncoder id) = .ok q ∧
      Conveys L readMessage q ⟨id, .search (req.parameters f), cs⟩ := by
  have hbase := conveys_string (L := L) (d := str "Base DN") req.baseDN
  have hscope := conveys_uint (L := L) (d := str "Scope") hreq.scope (.inr rfl)
  have hderef := conveys_uint (L := L) (d := str "Deref Aliases") hreq.derefAliases (.inr rfl)
  have hsize := conveys_uint (L := L) (d := str "Size Limit") hreq.sizeLimit (.inl rfl)
  have htime := conveys_uint (L := L) (d := str "Time Limit") hreq.timeLimit (.inl rfl)
  have htypes := conveys_boolean (L := L) (d := str "Types Only") req.typesOnly
  have hattrs : Conveys L (readListOf .universal tagSequence readString)
      (req.attributes.foldl (fun p name => p.appendChild L.toEncoder
        (newString .universal .primitive tagOctetString name (str "Attribute")))
        (encode .universal .constructed tagSequence (str "Attributes"))) req.attributes := by
    rw [foldl_appendChild_map]
    exact (conveys_map fun name _ => conveys_string name).of_eq (List.map_id _)
  rw [appendTo, hcomp]
  refine ⟨_, rfl, conveys_request hid (conveys_operation (d := str "Search Request") readSearch rfl
    [_, _, _, _, _, _, p, _] ?_ ?_) hcs⟩
  · simp [hbase.encodable, hscope.encodable, hderef.encodable, hsize.encodable, htime.encodable, htypes.encodable,
      hf.encodable, hattrs.encodable]
  · simp only [List.map_cons, List.map_nil, readSearch, hbase.reads, hscope.reads, hderef.reads, hsize.reads, htime.reads,
      htypes.reads, hf.reads, hattrs.reads]
    rfl

end

/-! ## Extended operations -/

section

variable {L : LawfulCodec} {id : ℤ} {cs : List MessageControl}

/-- An extended operation without a value. -/
theorem conveys_extended_none {d : GoString} {name : Packet} {n : GoString}
    (hname : Conveys L (readOctets .context 0) name n) :
    Conveys L readOperation (constructedOf L.toEncoder .application applicationExtendedRequest d [name])
      (.extended n none) := by
  refine conveys_operation readExtended rfl _ (by simp [hname.encodable]) ?_
  rw [List.map_cons, List.map_nil, readExtended, hname.reads]
  rfl

theorem conveys_extended_some {d : GoString} {name value : Packet} {n v : GoString}
    (hname : Conveys L (readOctets .context 0) name n) (hvalue : Conveys L (readOctets .context 1) value v) :
    Conveys L readOperation (constructedOf L.toEncoder .application applicationExtendedRequest d [name, value])
      (.extended n (some v)) := by
  refine conveys_operation readExtended rfl _ (by simp [hname.encodable, hvalue.encodable]) ?_
  rw [List.map_cons, List.map_cons, List.map_nil, readExtended, hname.reads, readLast, hvalue.reads]
  rfl

theorem ExtendedRequest.conveys {er : ExtendedRequest} {v : Option GoString}
    (hvalue : Option.Rel (Conveys L (readOctets .context 1)) er.value v) (hid : Fits 8 id)
    (hcs : List.Forall₂ (Conveys L readControl) er.controls cs) :
    Conveys L readMessage (er.appendTo L.toEncoder (requestEnvelope L.toEncoder id)) ⟨id, .extended er.name v, cs⟩ := by
  obtain ⟨name, value, controls⟩ := er
  have hname : Conveys L (readOctets .context 0) _ name := conveys_context (d := str "Extended Request Name") name
  cases hvalue with
  | none => exact conveys_request hid (conveys_extended_none hname) hcs
  | some hvalue => exact conveys_request hid (conveys_extended_some hname hvalue) hcs

/-- The value of a password modification is the octets of its sequence. -/
theorem PasswordModifyRequest.conveys (req : PasswordModifyRequest) (hid : Fits 8 id) :
    Conveys L readMessage (req.appendTo L.toEncoder (requestEnvelope L.toEncoder id))
      ⟨id, .extended passwordModifyOID (some ((req.sequence L.toEncoder).bytes L.toEncoder)), []⟩ := by
  have hname : Conveys L (readOctets .context 0) _ passwordModifyOID :=
    conveys_context (d := str "Extended Request Name: Password Modify OID") passwordModifyOID
  refine conveys_request hid (conveys_extended_some hname ?_) .nil
  exact conveys_octets (p := Packet.appendChild L.toEncoder (encode .context .primitive 1 _) _) rfl (by rintro ⟨⟩)

end

/-! ## Binds -/

section

variable {L : LawfulCodec} {id : ℤ} {cs : List MessageControl}

theorem conveys_bind {d v n : GoString} {auth : Packet} {a : Authentication} (name : GoString)
    (ha : Conveys L readAuthentication auth a) :
    Conveys L readOperation (constructedOf L.toEncoder .application applicationBindRequest d
      [newInteger L.toEncoder .universal .primitive tagInteger 3 v,
        newString .universal .primitive tagOctetString name n, auth]) (.bind 3 name a) := by
  have hversion : Conveys L (readNumber tagInteger) _ 3 :=
    conveys_number (d := v) (.inl rfl) ⟨by norm_num, by norm_num⟩
  have hname := conveys_string (L := L) (d := n) name
  refine conveys_operation readBind rfl _ (by simp [hversion.encodable, hname.encodable, ha.encodable]) ?_
  rw [List.map_cons, List.map_cons, List.map_cons, List.map_nil, readBind, hversion.reads, hname.reads, ha.reads]
  rfl

/-- A SASL choice, whose packet has the value that `ber.Encode` is called with. -/
theorem conveys_saslAuthentication (ps : List Packet) (hps : ∀ p ∈ ps, Encodable L.toEncoder p) {a : Authentication}
    (h : readSasl (ps.map (Packet.wire L.toPrimitives)) = some a) :
    Conveys L readAuthentication (ps.foldl (Packet.appendChild L.toEncoder) saslAuthentication) a := by
  have hconveys : Conveys L readAuthentication (constructedOf L.toEncoder .context 3 (str "authentication") ps) a := by
    refine ⟨encodable_constructedOf hps, ?_⟩
    rw [wire_constructedOf, constructedOf_eq, readAuthentication, if_neg (by simp [Packet.Is]), if_pos ⟨rfl, rfl, rfl⟩]
    exact h
  refine hconveys.of_skeleton ?_
  rw [Packet.skeleton_eq, Packet.skeleton_eq (ps.foldl _ _), foldl_appendChild, constructedOf_eq]
  rfl

theorem conveys_sasl_mechanism {m : Packet} {mechanism : GoString} (hm : Conveys L readString m mechanism) :
    Conveys L readAuthentication (saslAuthentication.appendChild L.toEncoder m) (.sasl mechanism none) := by
  refine conveys_saslAuthentication [m] (by simp [hm.encodable]) ?_
  rw [List.map_cons, List.map_nil, readSasl, hm.reads]
  rfl

theorem conveys_sasl_credentials {m c : Packet} {mechanism credentials : GoString}
    (hm : Conveys L readString m mechanism) (hc : Conveys L readString c credentials) :
    Conveys L readAuthentication ((saslAuthentication.appendChild L.toEncoder m).appendChild L.toEncoder c)
      (.sasl mechanism (some credentials)) := by
  refine conveys_saslAuthentication [m, c] (by simp [hm.encodable, hc.encodable]) ?_
  rw [List.map_cons, List.map_cons, List.map_nil, readSasl, hm.reads, readLast, hc.reads]
  rfl

theorem SimpleBindRequest.conveys (req : SimpleBindRequest) (hid : Fits 8 id)
    (hcs : List.Forall₂ (Conveys L readControl) req.controls cs) :
    Conveys L readMessage (req.appendTo L.toEncoder (requestEnvelope L.toEncoder id))
      ⟨id, .bind 3 req.username (.simple req.password), cs⟩ := by
  have hauth : Conveys L readAuthentication (newString .context .primitive 0 req.password (str "Password"))
      (.simple req.password) := by
    refine ⟨(conveys_context req.password).encodable, ?_⟩
    rw [wire_primitive _ rfl]
    rfl
  exact conveys_request hid (conveys_bind req.username hauth) hcs

theorem conveys_externalBind (hid : Fits 8 id) :
    Conveys L readMessage (externalBindRequest L.toEncoder (requestEnvelope L.toEncoder id))
      ⟨id, .bind 3 [] (.sasl (str "EXTERNAL") (some [])), []⟩ :=
  conveys_request hid (conveys_bind [] (conveys_sasl_credentials (conveys_string _) (conveys_string []))) .nil

theorem DigestMD5BindRequest.conveys (req : DigestMD5BindRequest) (hid : Fits 8 id)
    (hcs : List.Forall₂ (Conveys L readControl) req.controls cs) :
    Conveys L readMessage (req.appendTo L.toEncoder (requestEnvelope L.toEncoder id))
      ⟨id, .bind 3 [] (.sasl (str "DIGEST-MD5") none), cs⟩ :=
  conveys_request hid (conveys_bind [] (conveys_sasl_mechanism (conveys_string _))) hcs

theorem conveys_digestResponse (resp : GoString) (hid : Fits 8 id) :
    Conveys L readMessage (digestResponseRequest L.toEncoder resp id)
      ⟨id, .bind 3 [] (.sasl (str "DIGEST-MD5") (some resp)), []⟩ :=
  conveys_request hid (conveys_bind [] (conveys_sasl_credentials (conveys_string _) (conveys_string resp))) .nil

theorem conveys_tokenAuthentication {tag : ℕ} {token : GoString} {a : Authentication}
    (h : readAuthentication (readPrimitive .context tag .nil token) = some a) :
    Conveys L readAuthentication (tokenAuthentication tag token) a := by
  refine ⟨.primitive rfl (by rintro ⟨⟩), ?_⟩
  rw [wire_primitive _ rfl]
  exact h

theorem conveys_ntlmNegotiate {token : GoString} {controls : List Packet} (hid : Fits 8 id)
    (hcs : List.Forall₂ (Conveys L readControl) controls cs) :
    Conveys L readMessage (appendOperation L.toEncoder
      ((bindRequestPacket L.toEncoder).appendChild L.toEncoder (tokenAuthentication tagEnumerated token)) controls
      (requestEnvelope L.toEncoder id)) ⟨id, .bind 3 [] (.sicilyNegotiate token), cs⟩ :=
  conveys_request hid (conveys_bind [] (conveys_tokenAuthentication rfl)) hcs

theorem conveys_ntlmResponse (token : GoString) (hid : Fits 8 id) :
    Conveys L readMessage (ntlmResponseRequest L.toEncoder token id) ⟨id, .bind 3 [] (.sicilyResponse token), []⟩ :=
  conveys_request hid (conveys_bind [] (conveys_tokenAuthentication rfl)) .nil

theorem conveys_saslBind (token : GoString) {controls : List Packet} (hid : Fits 8 id)
    (hcs : List.Forall₂ (Conveys L readControl) controls cs) :
    Conveys L readMessage (saslBindRequest L.toEncoder id controls token)
      ⟨id, .bind 3 [] (.sasl (str "GSSAPI") (nonEmpty token)), cs⟩ := by
  cases token with
  | nil => exact conveys_request hid (conveys_bind [] (conveys_sasl_mechanism (conveys_string _))) hcs
  | cons b token =>
    exact conveys_request hid
      (conveys_bind [] (conveys_sasl_credentials (conveys_string _) (conveys_string (b :: token)))) hcs

theorem conveys_unbind (hid : Fits 8 id) :
    Conveys L readMessage (unbindRequest L.toEncoder (requestEnvelope L.toEncoder id)) ⟨id, .unbind, []⟩ := by
  refine conveys_request hid ⟨.primitive rfl (by rintro ⟨⟩), ?_⟩ .nil
  rw [wire_primitive _ rfl]
  rfl

end

/-! ## All requests -/

/-- The requests of the client. -/
inductive ClientRequest where
  | simpleBind (req : SimpleBindRequest)
  | externalBind
  | digestBind (req : DigestMD5BindRequest)
  | digestResponse (resp : GoString)
  | ntlmNegotiate (ntlmssp : Ntlmssp) (req : NTLMBindRequest)
  | ntlmResponse (token : GoString)
  | gssapiToken (controls : List Packet) (token : GoString)
  | unbind
  | search (req : SearchRequest)
  | modify (req : ModifyRequest)
  | add (req : AddRequest)
  | del (req : DelRequest)
  | modifyDN (req : ModifyDNRequest)
  | compare (req : CompareRequest)
  | extended (er : ExtendedRequest)
  | passwordModify (req : PasswordModifyRequest)

namespace ClientRequest

/-- The controls of a request, encoded. -/
def controls : ClientRequest → List Packet
  | .simpleBind req => req.controls
  | .digestBind req => req.controls
  | .ntlmNegotiate _ req => req.controls
  | .gssapiToken controls _ => controls
  | .search req => req.controls
  | .modify req => req.controls
  | .add req => req.controls
  | .del req => req.controls
  | .modifyDN req => req.controls
  | .extended er => er.controls
  | .externalBind | .digestResponse _ | .ntlmResponse _ | .unbind | .compare _ | .passwordModify _ => []

section

variable (E : Encoder)

/-- The message of a request, by its ID. -/
def message (messageID : ℤ) : ClientRequest → Outcome Err Packet
  | .simpleBind req => .ok (req.appendTo E (requestEnvelope E messageID))
  | .externalBind => .ok (externalBindRequest E (requestEnvelope E messageID))
  | .digestBind req => .ofExcept (req.question E messageID)
  | .digestResponse resp => .ok (digestResponseRequest E resp messageID)
  | .ntlmNegotiate ntlmssp req => .ofExcept (req.question E ntlmssp messageID)
  | .ntlmResponse token => .ok (ntlmResponseRequest E token messageID)
  | .gssapiToken controls token => .ok (saslBindRequest E messageID controls token)
  | .unbind => .ok (unbindRequest E (requestEnvelope E messageID))
  | .search req => req.appendTo E (requestEnvelope E messageID)
  | .modify req => .ok (req.appendTo E (requestEnvelope E messageID))
  | .add req => .ok (req.appendTo E (requestEnvelope E messageID))
  | .del req => .ok (req.appendTo E (requestEnvelope E messageID))
  | .modifyDN req => .ok (req.appendTo E (requestEnvelope E messageID))
  | .compare req => .ok (req.appendTo E (requestEnvelope E messageID))
  | .extended er => .ok (er.appendTo E (requestEnvelope E messageID))
  | .passwordModify req => .ok (req.appendTo E (requestEnvelope E messageID))

/-- The value of an extended request is a primitive element with the tag of a request value. -/
def IsRequestValue (p : Packet) (v : GoString) : Prop := p.Is .context .primitive 1 ∧ p.data = v

/-- What a request asks for. -/
inductive Asks : ClientRequest → Operation → Prop
  | simpleBind (req) : Asks (.simpleBind req) (.bind 3 req.username (.simple req.password))
  | externalBind : Asks .externalBind (.bind 3 [] (.sasl (str "EXTERNAL") (some [])))
  | digestBind (req) : Asks (.digestBind req) (.bind 3 [] (.sasl (str "DIGEST-MD5") none))
  | digestResponse (resp) : Asks (.digestResponse resp) (.bind 3 [] (.sasl (str "DIGEST-MD5") (some resp)))
  | ntlmNegotiate {ntlmssp} {req} {token : GoString} (h : req.negotiateMessage ntlmssp = .ok token) :
      Asks (.ntlmNegotiate ntlmssp req) (.bind 3 [] (.sicilyNegotiate token))
  | ntlmResponse (token) : Asks (.ntlmResponse token) (.bind 3 [] (.sicilyResponse token))
  | gssapiToken (controls token) :
      Asks (.gssapiToken controls token) (.bind 3 [] (.sasl (str "GSSAPI") (nonEmpty token)))
  | unbind : Asks .unbind .unbind
  | search {req} {f : SearchFilter} (hreq : req.InRange) (hf : f.Writable) (htext : req.filter = f.text) :
      Asks (.search req) (.search (req.parameters f))
  | modify {req} {changes : List (ChangeKind × AttributeValues)} (h : List.Forall₂ Change.Is req.changes changes) :
      Asks (.modify req) (.modify req.dn changes)
  | add (req) : Asks (.add req) (.add req.dn (req.attributes.map fun a => ⟨a.type, a.vals⟩))
  | del (req) : Asks (.del req) (.del req.dn)
  | modifyDN (req) : Asks (.modifyDN req)
      (.modifyDN req.dn req.newRDN req.deleteOldRDN (nonEmpty req.newSuperior))
  | compare (req) : Asks (.compare req) (.compare req.dn req.attribute req.value)
  | extended {er} {v : Option GoString} (h : Option.Rel IsRequestValue er.value v) :
      Asks (.extended er) (.extended er.name v)
  | passwordModify (req) : Asks (.passwordModify req)
      (.extended passwordModifyOID (some ((req.sequence E).bytes E)))

end

variable {L : LawfulCodec} {r : ClientRequest} {op : Operation}

theorem IsRequestValue.conveys {p : Packet} {v : GoString} (h : IsRequestValue p v) :
    Conveys L (readOctets .context 1) p v := by
  obtain ⟨⟨hcls, htype, htag⟩, rfl⟩ := h
  have hp := conveys_octets (L := L) htype (by rw [hcls]; rintro ⟨⟩)
  rwa [hcls, htag] at hp

theorem IsRequestValue.conveys_option {p : Option Packet} {v : Option GoString} (h : Option.Rel IsRequestValue p v) :
    Option.Rel (Conveys L (readOctets .context 1)) p v := by
  cases h with
  | some h => exact .some h.conveys
  | none => exact .none

/-- One case for each request. -/
theorem Asks.conveys (h : r.Asks L.toEncoder op) {id : ℤ} (hid : Fits 8 id) {cs : List MessageControl}
    (hcs : List.Forall₂ (Conveys L readControl) r.controls cs) :
    ∃ p, r.message L.toEncoder id = .ok p ∧ Conveys L readMessage p ⟨id, op, cs⟩ := by
  cases h with
  | simpleBind req => exact ⟨_, rfl, req.conveys hid hcs⟩
  | externalBind =>
    cases hcs
    exact ⟨_, rfl, conveys_externalBind hid⟩
  | digestBind req => exact ⟨_, rfl, req.conveys hid hcs⟩
  | digestResponse resp =>
    cases hcs
    exact ⟨_, rfl, conveys_digestResponse resp hid⟩
  | ntlmNegotiate h =>
    refine ⟨_, ?_, conveys_ntlmNegotiate hid hcs⟩
    rw [message, NTLMBindRequest.question, NTLMBindRequest.appendTo, h]
    rfl
  | ntlmResponse token =>
    cases hcs
    exact ⟨_, rfl, conveys_ntlmResponse token hid⟩
  | gssapiToken controls token => exact ⟨_, rfl, conveys_saslBind token hid hcs⟩
  | unbind =>
    cases hcs
    exact ⟨_, rfl, conveys_unbind hid⟩
  | search hreq hf htext =>
    obtain ⟨p, hcomp, hp⟩ := hf.conveys (L := L)
    exact SearchRequest.conveys hreq (by rw [htext, hcomp]) hp hid hcs
  | modify h => exact ⟨_, rfl, ModifyRequest.conveys _ h hid hcs⟩
  | add req => exact ⟨_, rfl, req.conveys hid hcs⟩
  | del req => exact ⟨_, rfl, req.conveys hid hcs⟩
  | modifyDN req => exact ⟨_, rfl, req.conveys hid hcs⟩
  | compare req =>
    cases hcs
    exact ⟨_, rfl, req.conveys hid⟩
  | extended h => exact ⟨_, rfl, ExtendedRequest.conveys (IsRequestValue.conveys_option h) hid hcs⟩
  | passwordModify req =>
    cases hcs
    exact ⟨_, rfl, req.conveys hid⟩

end ClientRequest

/-- A control that the client sends, and what the server is to see of it. -/
def SentControl (E : Encoder) (p : Packet) (m : MessageControl) : Prop :=
  ∃ c : Control, c.encode E = some p ∧ c.messageControl E = some m

theorem conveys_sent {L : LawfulCodec} {ps : List Packet} {ms : List MessageControl}
    (h : List.Forall₂ (SentControl L.toEncoder) ps ms) : List.Forall₂ (Conveys L readControl) ps ms := by
  refine h.imp fun p m hm => ?_
  obtain ⟨c, hp, hm⟩ := hm
  exact c.conveys hp hm

/-- **Every request is read as it was meant.**  The message of a request is built, and the server reads from its octets
the message ID, the operation that is asked for and the controls. -/
theorem readMessage_request (L : LawfulCodec) (r : ClientRequest) (op : Operation) (hop : r.Asks L.toEncoder op)
    (ms : List MessageControl) (hms : List.Forall₂ (SentControl L.toEncoder) r.controls ms) (id : ℤ) (hid : Fits 8 id) :
    ∃ p q, r.message L.toEncoder id = .ok p ∧ L.decodePacketErr (p.bytes L.toEncoder) = .ok q ∧
      readMessage q = some ⟨id, op, ms⟩ := by
  obtain ⟨p, hp, hcarry⟩ := hop.conveys hid (conveys_sent hms)
  obtain ⟨q, hq, hread⟩ := hcarry.decode
  exact ⟨p, q, hp, hq, hread⟩

/-- A rename that keeps the old name, with a critical control. -/
theorem readMessage_request_rename :
    ∃ p q, (ClientRequest.modifyDN ⟨str "cn=a,dc=b", str "cn=c", false, [],
        [(ControlString.mk (str "1.2.3") true []).encode basicLawful.toEncoder]⟩).message basicLawful.toEncoder 7 = .ok p ∧
      basicLawful.decodePacketErr (p.bytes basicLawful.toEncoder) = .ok q ∧
      readMessage q = some ⟨7, .modifyDN (str "cn=a,dc=b") (str "cn=c") false none, [⟨str "1.2.3", true, none⟩]⟩ :=
  readMessage_request basicLawful _ _ (.modifyDN _) _ (.cons ⟨.string ⟨str "1.2.3", true, []⟩, rfl, rfl⟩ .nil) 7
    ⟨by norm_num, by norm_num⟩

end GoLdap
