import GoLdap.Control.Decode
import GoLdap.Ber.Basic

/-!
# Control.Responses — what servers send in controls

The values a server encodes, written down as in the documents that define them, with every member that may be left out:
the password policy response, the password expiration warning, the synchronisation controls and the intermediate
synchronisation message.  `DecodeControl` is compared with what was encoded.  A BOOLEAN that is given is any octet, and
is true unless the octet is zero.
-/

namespace GoLdap

open Go Ber Octets

/-! ## Messages on the wire -/

/-- A primitive element with the given contents. -/
def primitiveOf (cls : Ber.Class) (tag : ℕ) (content : GoString) : Packet :=
  { encode cls .primitive tag [] with data := content }

def octetsOf (s : GoString) : Packet := primitiveOf .universal tagOctetString s

def booleanOf (octet : UInt8) : Packet := primitiveOf .universal tagBoolean [octet]

/-- What a BOOLEAN says. -/
def truth (octet : UInt8) : Bool := octet ≠ 0

/-- A control with a value, with or without criticality. -/
def responseControl (E : Encoder) (controlType : GoString) (criticality : Option UInt8) (value : GoString) : Packet :=
  constructedOf E .universal tagSequence []
    ([octetsOf controlType] ++ criticality.toList.map booleanOf ++ [octetsOf value])

section

variable (L : LawfulCodec)

theorem encodable_octetsOf (s : GoString) : Encodable L.toEncoder (octetsOf s) :=
  .universal tagOctetString (by decide) rfl rfl

theorem encodable_booleanOf (octet : UInt8) : Encodable L.toEncoder (booleanOf octet) :=
  .universal tagBoolean (by decide) rfl rfl

theorem value_booleanOf (octet : UInt8) :
    ((booleanOf octet).wire L.toPrimitives).value = .bool (truth octet) := by
  have h := L.intOrZero_octet octet
  show Value.bool (decide (L.intOrZero [octet] ≠ 0)) = _
  rw [decide_eq_decide.mpr (not_congr h), truth]

theorem wire_responseControl (controlType : GoString) (criticality : Option UInt8) (value : GoString) :
    L.decodePacketErr ((responseControl L.toEncoder controlType criticality value).bytes L.toEncoder) =
      .ok ((responseControl L.toEncoder controlType criticality value).wire L.toPrimitives) := by
  refine L.decode_bytes _ (encodable_constructedOf fun c hc => ?_)
  simp only [List.mem_append, List.mem_singleton, List.mem_map] at hc
  obtain (rfl | ⟨x, -, rfl⟩) | rfl := hc
  · exact encodable_octetsOf L _
  · exact encodable_booleanOf L x
  · exact encodable_octetsOf L _

/-- The control is read with its type, and its value is an octet string. -/
theorem decodeControl_responseControl (controlType : GoString) (criticality : Option UInt8) (value : GoString) :
    ∃ crit, decodeControl L.toCodec ((responseControl L.toEncoder controlType criticality value).wire L.toPrimitives) =
      decodeByKind L.toCodec ⟨controlType, crit, some ((octetsOf value).wire L.toPrimitives)⟩
        (kindOf controlType) := by
  have hcs : ((responseControl L.toEncoder controlType criticality value).wire L.toPrimitives).children =
      ([octetsOf controlType] ++ criticality.toList.map booleanOf ++ [octetsOf value]).map
        (Packet.wire L.toPrimitives) := by
    rw [responseControl, wire_constructedOf, children_constructedOf]
  have htype : ((octetsOf controlType).wire L.toPrimitives).value = .string controlType := rfl
  cases criticality with
  | none =>
    exact ⟨false, decodeControl_eq L.toCodec
      (controlHeader_valued hcs (controlTypeOrData_string htype) fun _ => (by rintro ⟨⟩))⟩
  | some octet =>
    exact ⟨truth octet, decodeControl_eq L.toCodec (controlHeader_full hcs htype (value_booleanOf L octet))⟩

/-! ## The values of response controls -/

/-- The warning in a password policy response. -/
inductive BeheraWarning where
  | timeBeforeExpiration (n : Int64)
  | graceAuthNsRemaining (n : Int64)

/-- What a server says in the value of a response control; members that may be left out are optional. -/
inductive ResponseValue where
  | passwordPolicy (warning : Option BeheraWarning) (error : Option (Fin 9))
  | passwordWarning (expire : Int64)
  | syncState (state : Int64) (entryUUID : UUID) (cookie : Option GoString)
  | syncDone (cookie : Option GoString) (refreshDeletes : Option UInt8)

def BeheraWarning.tag : BeheraWarning → ℕ
  | .timeBeforeExpiration _ => 0
  | .graceAuthNsRemaining _ => 1

def BeheraWarning.number : BeheraWarning → Int64
  | .timeBeforeExpiration n | .graceAuthNsRemaining n => n

def BeheraWarning.element (E : Encoder) (w : BeheraWarning) : Packet :=
  constructedOf E .context 0 [] [primitiveOf .context w.tag (E.integer w.number.toInt)]

/-- The members of a password policy response. -/
def beheraMembers (E : Encoder) (warning : Option BeheraWarning) (error : Option (Fin 9)) : List Packet :=
  warning.toList.map (BeheraWarning.element E) ++
    error.toList.map fun code : Fin 9 => primitiveOf .context 1 [UInt8.ofNat code.val]

/-- The password policy control with these members, and with -1 for those that are missing. -/
def beheraControl (warning : Option BeheraWarning) (error : Option (Fin 9)) : ControlBeheraPasswordPolicy where
  expire := match warning with
    | some (.timeBeforeExpiration n) => n
    | _ => -1
  grace := match warning with
    | some (.graceAuthNsRemaining n) => n
    | _ => -1
  error := (error.map fun code => Int8.ofNat code.val).getD (-1)
  errorString := (error.map fun code => beheraPasswordPolicyErrorMap (Int8.ofNat code.val)).getD []

/-- The optional members of the synchronisation values. -/
def syncMembers (cookie : Option GoString) (flag : Option UInt8) : List Packet :=
  cookie.toList.map octetsOf ++ flag.toList.map booleanOf

namespace ResponseValue

def controlType : ResponseValue → GoString
  | .passwordPolicy _ _ => controlTypeBeheraPasswordPolicy
  | .passwordWarning _ => controlTypeVChuPasswordWarning
  | .syncState _ _ _ => controlTypeSyncState
  | .syncDone _ _ => controlTypeSyncDone

/-- A sequence of the members. -/
def sequence (E : Encoder) (members : List Packet) : Packet := constructedOf E .universal tagSequence [] members

/-- The contents of the octet string. -/
def octets (E : Encoder) : ResponseValue → GoString
  | .passwordPolicy warning error => (sequence E (beheraMembers E warning error)).bytes E
  | .passwordWarning expire => formatInt expire.toInt
  | .syncState state entryUUID cookie => (sequence E ([primitiveOf .universal tagEnumerated (E.integer state.toInt),
      octetsOf entryUUID.val] ++ cookie.toList.map octetsOf)).bytes E
  | .syncDone cookie refreshDeletes => (sequence E (syncMembers cookie refreshDeletes)).bytes E

/-- The control with the fields that were encoded, and the defaults of those that were left out. -/
def control : ResponseValue → Control
  | .passwordPolicy warning error => .beheraPasswordPolicy (beheraControl warning error)
  | .passwordWarning expire => .vChuPasswordWarning expire
  | .syncState state entryUUID cookie => .syncState ⟨false, state, entryUUID, cookie.getD []⟩
  | .syncDone cookie refreshDeletes => .syncDone ⟨false, cookie.getD [], (refreshDeletes.map truth).getD false⟩

end ResponseValue

/-! ## Decoding them -/

theorem encodable_context (tag : ℕ) (content : GoString) : Encodable L.toEncoder (primitiveOf .context tag content) :=
  .context rfl rfl

theorem encodable_syncMembers {cookie : Option GoString} {flag : Option UInt8} {c : Packet}
    (hc : c ∈ syncMembers cookie flag) : Encodable L.toEncoder c := by
  simp only [syncMembers, List.mem_append, List.mem_map] at hc
  obtain ⟨s, -, rfl⟩ | ⟨x, -, rfl⟩ := hc
  · exact encodable_octetsOf L s
  · exact encodable_booleanOf L x

/-- The optional members are found by their tags. -/
theorem foldl_syncMembers (cookie : Option GoString) (flag : Option UInt8) :
    ((syncMembers cookie flag).map (Packet.wire L.toPrimitives)).foldl syncMember ⟨[], none, none⟩ =
      ⟨cookie.getD [], flag.map truth, none⟩ := by
  have hcookie (m : SyncMembers) (s : GoString) :
      syncMember m ((octetsOf s).wire L.toPrimitives) = { m with cookie := s } := rfl
  have hflag (m : SyncMembers) (x : UInt8) :
      syncMember m ((booleanOf x).wire L.toPrimitives) = { m with flag := some (truth x) } := by
    have htag : ((booleanOf x).wire L.toPrimitives).tag = tagBoolean := rfl
    rw [syncMember, htag, value_booleanOf]
    rfl
  cases cookie <;> cases flag <;> simp [syncMembers, hcookie, hflag]

/-- A value that is decoded as a sequence. -/
theorem decodeData_octetsOf {cls : Ber.Class} {tag : ℕ} {cs : List Packet} (h : ∀ c ∈ cs, Encodable L.toEncoder c) :
    decodeData L.toCodec ((octetsOf ((constructedOf L.toEncoder cls tag [] cs).bytes L.toEncoder)).wire
      L.toPrimitives) = .ok (constructedOf L.toEncoder cls tag [] (cs.map (Packet.wire L.toPrimitives))) := by
  have hdata : ((octetsOf ((constructedOf L.toEncoder cls tag [] cs).bytes L.toEncoder)).wire L.toPrimitives).data =
      (constructedOf L.toEncoder cls tag [] cs).bytes L.toEncoder := rfl
  rw [decodeData, hdata, L.decode_constructedOf h]

theorem parseInt64_integer (n : Int64) : L.parseInt64 (L.integer n.toInt) = .ok n.toInt := by
  obtain ⟨hlen, hval⟩ := L.twosComplement_integer n.toInt (fits_toInt n)
  rw [L.parseInt64_eq _ hlen, hval]

theorem beheraElement_warning (w : BeheraWarning) (c : ControlBeheraPasswordPolicy) :
    beheraElement L.toCodec c ((w.element L.toEncoder).wire L.toPrimitives) = .ok (match w with
      | .timeBeforeExpiration n => { c with expire := n }
      | .graceAuthNsRemaining n => { c with grace := n }) := by
  have hdata : ((primitiveOf .context w.tag (L.integer w.number.toInt)).wire L.toPrimitives).data =
      L.integer w.number.toInt := rfl
  rw [BeheraWarning.element, wire_constructedOf, beheraElement, tag_constructedOf, children_constructedOf]
  simp only [if_true, List.map_cons, List.map_nil, Outcome.index, List.getElem?_cons_zero, Outcome.ok_bind, hdata,
    parseInt64_integer L w.number, Int64.ofInt_toInt]
  cases w <;> rfl

theorem beheraElement_error (code : Fin 9) (c : ControlBeheraPasswordPolicy) :
    beheraElement L.toCodec c ((primitiveOf .context 1 [UInt8.ofNat code.val]).wire L.toPrimitives) =
      .ok { c with error := Int8.ofNat code.val, errorString := beheraPasswordPolicyErrorMap (Int8.ofNat code.val) } := by
  have hle : ∀ code : Fin 9, ¬ 8 < UInt8.ofNat code.val := by decide
  have hint : ∀ code : Fin 9, (UInt8.ofNat code.val).toInt8 = Int8.ofNat code.val := by decide
  show (if 8 < UInt8.ofNat code.val then _ else Outcome.ok _) = _
  rw [if_neg (hle code), hint]

theorem encodable_beheraMembers {warning : Option BeheraWarning} {error : Option (Fin 9)} {c : Packet}
    (hc : c ∈ beheraMembers L.toEncoder warning error) : Encodable L.toEncoder c := by
  simp only [beheraMembers, List.mem_append, List.mem_map] at hc
  obtain ⟨w, -, rfl⟩ | ⟨code, -, rfl⟩ := hc
  · refine encodable_constructedOf fun d hd => ?_
    rw [List.mem_singleton.mp hd]
    exact encodable_context L _ _
  · exact encodable_context L _ _

theorem foldlM_beheraMembers (warning : Option BeheraWarning) (error : Option (Fin 9)) :
    ((beheraMembers L.toEncoder warning error).map (Packet.wire L.toPrimitives)).foldlM (beheraElement L.toCodec)
      newControlBeheraPasswordPolicy = .ok (beheraControl warning error) := by
  rcases warning with _ | (n | n) <;> rcases error with _ | code <;>
    simp [beheraMembers, beheraElement_warning, beheraElement_error, beheraControl, newControlBeheraPasswordPolicy]

theorem decode_passwordPolicy (crit : Bool) (warning : Option BeheraWarning) (error : Option (Fin 9)) :
    decodeByKind L.toCodec ⟨controlTypeBeheraPasswordPolicy, crit, some ((octetsOf
      ((ResponseValue.passwordPolicy warning error).octets L.toEncoder)).wire L.toPrimitives)⟩ .beheraPasswordPolicy =
      .ok (ResponseValue.passwordPolicy warning error).control := by
  obtain ⟨v, hv, hcs⟩ : ∃ v, expandValue L.toCodec ((octetsOf ((ResponseValue.passwordPolicy warning error).octets
      L.toEncoder)).wire L.toPrimitives) = .ok v ∧ v.children = [constructedOf L.toEncoder .universal tagSequence []
        ((beheraMembers L.toEncoder warning error).map (Packet.wire L.toPrimitives))] :=
    expandValue_octets L.toCodec (by rintro ⟨⟩) rfl (L.decode_constructedOf fun c hc => encodable_beheraMembers L hc)
  rw [decodeByKind, decodeBehera, deref, Outcome.ok_bind, hv, Outcome.ok_bind, hcs, Outcome.index]
  simp only [List.getElem?_cons_zero, Outcome.ok_bind, children_constructedOf, foldlM_beheraMembers]
  rfl

theorem decodeUUID_val (u : UUID) : decodeUUID L.toCodec u.val = .ok u := by
  rw [decodeUUID, (L.uuidFromBytes_eq_ok _ u).mpr rfl]

theorem decode_syncState (crit : Bool) (state : Int64) (entryUUID : UUID) (cookie : Option GoString) :
    decodeByKind L.toCodec ⟨controlTypeSyncState, crit, some ((octetsOf
      ((ResponseValue.syncState state entryUUID cookie).octets L.toEncoder)).wire L.toPrimitives)⟩ .syncState =
      .ok (ResponseValue.syncState state entryUUID cookie).control := by
  have hencodable : ∀ c ∈ [primitiveOf .universal tagEnumerated (L.integer state.toInt), octetsOf entryUUID.val] ++
      cookie.toList.map octetsOf, Encodable L.toEncoder c := by
    intro c hc
    simp only [List.mem_append, List.mem_cons, List.not_mem_nil, or_false, List.mem_map] at hc
    obtain (rfl | rfl) | ⟨s, -, rfl⟩ := hc
    · exact .universal tagEnumerated (by decide) rfl rfl
    · exact encodable_octetsOf L _
    · exact encodable_octetsOf L _
  have hstate : ((primitiveOf .universal tagEnumerated (L.integer state.toInt)).wire L.toPrimitives).value =
      .int state.toInt := by
    show Value.int (L.intOrZero (L.integer state.toInt)) = _
    rw [L.intOrZero_integer (fits_toInt state)]
  have hbytes (s : GoString) : ((octetsOf s).wire L.toPrimitives).byteValue = s := rfl
  rw [decodeByKind, decodeSyncValue, deref, Outcome.ok_bind, ResponseValue.octets, ResponseValue.sequence,
    decodeData_octetsOf L hencodable, Outcome.ok_bind, newControlSyncState, children_constructedOf]
  cases cookie <;> simp [hstate, hbytes, assertInt, decodeUUID_val, ResponseValue.control]

theorem decode_syncDone (crit : Bool) (cookie : Option GoString) (refreshDeletes : Option UInt8) :
    decodeByKind L.toCodec ⟨controlTypeSyncDone, crit, some ((octetsOf
      ((ResponseValue.syncDone cookie refreshDeletes).octets L.toEncoder)).wire L.toPrimitives)⟩ .syncDone =
      .ok (ResponseValue.syncDone cookie refreshDeletes).control := by
  rw [decodeByKind, decodeSyncValue, deref, Outcome.ok_bind, ResponseValue.octets, ResponseValue.sequence,
    decodeData_octetsOf L fun c hc => encodable_syncMembers L hc, Outcome.ok_bind, newControlSyncDone,
    children_constructedOf, parseSyncMembers, foldl_syncMembers]
  rfl

theorem decode_passwordWarning (crit : Bool) (expire : Int64) :
    decodeByKind L.toCodec ⟨controlTypeVChuPasswordWarning, crit, some ((octetsOf
      ((ResponseValue.passwordWarning expire).octets L.toEncoder)).wire L.toPrimitives)⟩ .vChuPasswordWarning =
      .ok (ResponseValue.passwordWarning expire).control := by
  have hdata : ((octetsOf (formatInt expire.toInt)).wire L.toPrimitives).data = formatInt expire.toInt := rfl
  rw [decodeByKind, decodeVChuPasswordWarning, ResponseValue.octets, hdata,
    parseInt_formatInt expire.le_toInt expire.toInt_lt]
  simp only [Int64.ofInt_toInt]
  rfl

/-- Every response control decodes to what the server encoded. -/
theorem decodeControl_responseValue (value : ResponseValue) (criticality : Option UInt8) :
    ∃ w, L.decodePacketErr ((responseControl L.toEncoder value.controlType criticality
        (value.octets L.toEncoder)).bytes L.toEncoder) = .ok w ∧ decodeControl L.toCodec w = .ok value.control := by
  obtain ⟨crit, h⟩ := decodeControl_responseControl L value.controlType criticality (value.octets L.toEncoder)
  refine ⟨_, wire_responseControl L _ _ _, h.trans ?_⟩
  cases value with
  | passwordPolicy warning error => exact decode_passwordPolicy L crit warning error
  | passwordWarning expire => exact decode_passwordWarning L crit expire
  | syncState state entryUUID cookie => exact decode_syncState L crit state entryUUID cookie
  | syncDone cookie refreshDeletes => exact decode_syncDone L crit cookie refreshDeletes

/-! ## The result of server-side sorting -/

/-- The octets of a SortResult: the code, and the attribute it is about. -/
def sortResultOctets (E : Encoder) (code : GoString) (attributeType : Option GoString) : GoString :=
  (ResponseValue.sequence E ([primitiveOf .universal tagEnumerated code] ++
    attributeType.toList.map (primitiveOf .context 0))).bytes E

/-- What a sort result should be decoded to: its code if it is one of the codes, and an error otherwise. -/
def SortResultDecoded (code : ℤ) (outcome : Outcome Err Control) : Prop :=
  if code ∈ controlServerSideSortingCodes then
    ∃ c, outcome = .ok (.serverSideSortingResult c) ∧ c.result.toInt = code
  else ∃ e, outcome = .err e

/-- `DecodeControl` looks for the code among the children of the octet string, which has none. -/
theorem decode_sortResult (criticality : Option UInt8) (value : GoString) :
    decodeControl L.toCodec ((responseControl L.toEncoder controlTypeServerSideSortingResult criticality value).wire
      L.toPrimitives) = .ok (.serverSideSortingResult ⟨false, 0⟩) := by
  obtain ⟨crit, h⟩ := decodeControl_responseControl L controlTypeServerSideSortingResult criticality value
  exact h.trans rfl

/-- A sort result is decoded as it should be exactly if it says success. -/
theorem sortResultDecoded_iff (criticality : Option UInt8) (code : GoString) (attributeType : Option GoString) :
    (∃ w, L.decodePacketErr ((responseControl L.toEncoder controlTypeServerSideSortingResult criticality
        (sortResultOctets L.toEncoder code attributeType)).bytes L.toEncoder) = .ok w ∧
        SortResultDecoded (twosComplement code) (decodeControl L.toCodec w)) ↔ twosComplement code = 0 := by
  rw [wire_responseControl]
  constructor
  · rintro ⟨w, hw, h⟩
    obtain rfl := Except.ok.inj hw
    rw [decode_sortResult, SortResultDecoded] at h
    split at h
    · obtain ⟨c, hc, hcode⟩ := h
      cases hc
      exact hcode.symm
    · obtain ⟨e, he⟩ := h
      cases he
  · intro h
    refine ⟨_, rfl, ?_⟩
    rw [decode_sortResult, SortResultDecoded, h, if_pos (by decide)]
    exact ⟨_, rfl, rfl⟩

end

/-- A failure, no such attribute, is decoded as success. -/
theorem sortResult_no_such_attribute :
    (16 : ℤ) ∈ controlServerSideSortingCodes ∧ twosComplement [16] = 16 ∧
      basicLawful.decodePacketErr ((responseControl basicLawful.toEncoder controlTypeServerSideSortingResult none
        (sortResultOctets basicLawful.toEncoder [16] none)).bytes basicLawful.toEncoder) =
        .ok ((responseControl basicLawful.toEncoder controlTypeServerSideSortingResult none
          (sortResultOctets basicLawful.toEncoder [16] none)).wire basicLawful.toPrimitives) ∧
      decodeControl basicLawful.toCodec ((responseControl basicLawful.toEncoder controlTypeServerSideSortingResult none
        (sortResultOctets basicLawful.toEncoder [16] none)).wire basicLawful.toPrimitives) =
        .ok (.serverSideSortingResult ⟨false, 0⟩) :=
  ⟨by decide, by decide, wire_responseControl basicLawful _ _ _, decode_sortResult basicLawful _ _⟩

/-! ## Synchronisation messages -/

/-- A syncInfoValue; members that may be left out are optional. -/
inductive SyncInfoValue where
  | newcookie (cookie : GoString)
  | refreshDelete (cookie : Option GoString) (refreshDone : Option UInt8)
  | refreshPresent (cookie : Option GoString) (refreshDone : Option UInt8)
  | syncIdSet (cookie : Option GoString) (refreshDeletes : Option UInt8) (syncUUIDs : List UUID)

namespace SyncInfoValue

def encode (E : Encoder) : SyncInfoValue → Packet
  | .newcookie cookie => primitiveOf .context 0 cookie
  | .refreshDelete cookie refreshDone => constructedOf E .context 1 [] (syncMembers cookie refreshDone)
  | .refreshPresent cookie refreshDone => constructedOf E .context 2 [] (syncMembers cookie refreshDone)
  | .syncIdSet cookie refreshDeletes syncUUIDs => constructedOf E .context 3 [] (syncMembers cookie refreshDeletes ++
      [constructedOf E .universal tagSet [] (syncUUIDs.map fun u => octetsOf u.val)])

/-- The control with what was encoded: `refreshDone` is true and `refreshDeletes` is false if left out. -/
def control : SyncInfoValue → ControlSyncInfo
  | .newcookie cookie => ⟨false, .newcookie, some ⟨cookie⟩, none, none, none⟩
  | .refreshDelete cookie refreshDone =>
    ⟨false, .refreshDelete, none, some ⟨cookie.getD [], (refreshDone.map truth).getD true⟩, none, none⟩
  | .refreshPresent cookie refreshDone =>
    ⟨false, .refreshPresent, none, none, some ⟨cookie.getD [], (refreshDone.map truth).getD true⟩, none⟩
  | .syncIdSet cookie refreshDeletes syncUUIDs =>
    ⟨false, .syncIdSet, none, none, none, some ⟨cookie.getD [], (refreshDeletes.map truth).getD false, syncUUIDs⟩⟩

end SyncInfoValue

/-- An intermediate response: a name and a value, both of the context class. -/
def intermediateResponse (E : Encoder) (name value : GoString) : Packet :=
  constructedOf E .application 25 [] [primitiveOf .context 0 name, primitiveOf .context 1 value]

section

variable (L : LawfulCodec)

theorem encodable_syncInfoValue (v : SyncInfoValue) : Encodable L.toEncoder (v.encode L.toEncoder) := by
  cases v with
  | newcookie cookie => exact encodable_context L 0 cookie
  | refreshDelete cookie flag => exact encodable_constructedOf fun c hc => encodable_syncMembers L hc
  | refreshPresent cookie flag => exact encodable_constructedOf fun c hc => encodable_syncMembers L hc
  | syncIdSet cookie flag us =>
    refine encodable_constructedOf fun c hc => ?_
    obtain hc | hc := List.mem_append.mp hc
    · exact encodable_syncMembers L hc
    · rw [List.mem_singleton.mp hc]
      refine encodable_constructedOf fun d hd => ?_
      obtain ⟨u, -, rfl⟩ := List.mem_map.mp hd
      exact encodable_octetsOf L _

theorem wire_intermediateResponse (name value : GoString) :
    L.decodePacketErr ((intermediateResponse L.toEncoder name value).bytes L.toEncoder) =
      .ok ((intermediateResponse L.toEncoder name value).wire L.toPrimitives) := by
  refine L.decode_bytes _ (encodable_constructedOf fun c hc => ?_)
  simp only [List.mem_cons, List.not_mem_nil, or_false] at hc
  obtain rfl | rfl := hc <;> exact encodable_context L _ _

/-- The name is read from the octets, and the value is decoded. -/
theorem decodeControl_intermediateResponse (v : SyncInfoValue) :
    decodeControl L.toCodec ((intermediateResponse L.toEncoder controlTypeSyncInfo
      ((v.encode L.toEncoder).bytes L.toEncoder)).wire L.toPrimitives) =
      newControlSyncInfo L.toCodec ((v.encode L.toEncoder).wire L.toPrimitives) := by
  have hcs : ((intermediateResponse L.toEncoder controlTypeSyncInfo
      ((v.encode L.toEncoder).bytes L.toEncoder)).wire L.toPrimitives).children =
      [(primitiveOf .context 0 controlTypeSyncInfo).wire L.toPrimitives,
        (primitiveOf .context 1 ((v.encode L.toEncoder).bytes L.toEncoder)).wire L.toPrimitives] := by
    rw [intermediateResponse, wire_constructedOf, children_constructedOf]
    rfl
  have hname : controlTypeOrData ((primitiveOf .context 0 controlTypeSyncInfo).wire L.toPrimitives) =
      .ok controlTypeSyncInfo := rfl
  have hkind : kindOf controlTypeSyncInfo = .syncInfo := rfl
  have hdata : ((primitiveOf .context 1 ((v.encode L.toEncoder).bytes L.toEncoder)).wire L.toPrimitives).data =
      (v.encode L.toEncoder).bytes L.toEncoder := rfl
  have hdecode := L.decode_bytes _ (encodable_syncInfoValue L v)
  rw [decodeControl_eq L.toCodec (controlHeader_valued hcs hname fun _ => (by rintro ⟨⟩)), hkind, decodeByKind, decodeSyncValue,
    deref, Outcome.ok_bind, decodeData, hdata, hdecode, Outcome.ok_bind]

theorem decodeUUIDs_octetsOf (us : List UUID) :
    decodeUUIDs L.toCodec ((us.map fun u => octetsOf u.val).map (Packet.wire L.toPrimitives)) = .ok us := by
  induction us with
  | nil => rfl
  | cons u us ih =>
    have hbytes : ((octetsOf u.val).wire L.toPrimitives).byteValue = u.val := rfl
    rw [List.map_cons, List.map_cons, decodeUUIDs, hbytes, decodeUUID_val, Outcome.ok_bind, ih]
    rfl

/-- All but the cookie of the first alternative is decoded. -/
theorem newControlSyncInfo_wire (v : SyncInfoValue) :
    newControlSyncInfo L.toCodec ((v.encode L.toEncoder).wire L.toPrimitives) = .ok (.syncInfo (match v with
      | .newcookie _ => (SyncInfoValue.newcookie []).control
      | v => v.control)) := by
  cases v with
  | newcookie cookie => rfl
  | refreshDelete cookie flag =>
    rw [SyncInfoValue.encode, wire_constructedOf, newControlSyncInfo, children_constructedOf, tag_constructedOf,
      parseSyncMembers, foldl_syncMembers]
    rfl
  | refreshPresent cookie flag =>
    rw [SyncInfoValue.encode, wire_constructedOf, newControlSyncInfo, children_constructedOf, tag_constructedOf,
      parseSyncMembers, foldl_syncMembers]
    rfl
  | syncIdSet cookie flag us =>
    have hset (m : SyncMembers) (cs : List Packet) :
        syncMember m (constructedOf L.toEncoder .universal tagSet [] cs) =
          { m with uuidSet := some (constructedOf L.toEncoder .universal tagSet [] cs) } := by
      rw [syncMember, tag_constructedOf]
      rfl
    rw [SyncInfoValue.encode, wire_constructedOf, newControlSyncInfo, children_constructedOf, tag_constructedOf,
      parseSyncMembers, List.map_append, List.foldl_append, foldl_syncMembers, List.map_singleton, wire_constructedOf,
      List.foldl_cons, List.foldl_nil, hset]
    simp only [Option.map_some, Option.getD_some, children_constructedOf, decodeUUIDs_octetsOf, Outcome.ok_bind]
    rfl

/-- A syncInfoValue is decoded to what was encoded, except for a new cookie that is not empty. -/
theorem decodeControl_syncInfo_iff (v : SyncInfoValue) :
    (∃ w, L.decodePacketErr ((intermediateResponse L.toEncoder controlTypeSyncInfo
        ((v.encode L.toEncoder).bytes L.toEncoder)).bytes L.toEncoder) = .ok w ∧
        decodeControl L.toCodec w = .ok (.syncInfo v.control)) ↔ ∀ cookie, v = .newcookie cookie → cookie = [] := by
  rw [wire_intermediateResponse]
  have hdecoded : (∃ w, Except.ok ((intermediateResponse L.toEncoder controlTypeSyncInfo
      ((v.encode L.toEncoder).bytes L.toEncoder)).wire L.toPrimitives) = (.ok w : Except Error Packet) ∧
        decodeControl L.toCodec w = .ok (.syncInfo v.control)) ↔
      newControlSyncInfo L.toCodec ((v.encode L.toEncoder).wire L.toPrimitives) = .ok (.syncInfo v.control) := by
    rw [← decodeControl_intermediateResponse]
    constructor
    · rintro ⟨w, hw, h⟩
      rwa [Except.ok.inj hw]
    · exact fun h => ⟨_, rfl, h⟩
  rw [hdecoded, newControlSyncInfo_wire]
  cases v with
  | newcookie cookie => simp [SyncInfoValue.control, eq_comm]
  | refreshDelete | refreshPresent | syncIdSet => exact iff_of_true rfl (by rintro _ ⟨⟩)

end

/-- The new cookie is lost. -/
theorem syncInfo_newcookie_lost : ∃ w, basicLawful.decodePacketErr ((intermediateResponse basicLawful.toEncoder
    controlTypeSyncInfo (((SyncInfoValue.newcookie [7]).encode basicLawful.toEncoder).bytes
      basicLawful.toEncoder)).bytes basicLawful.toEncoder) = .ok w ∧
    decodeControl basicLawful.toCodec w = .ok (.syncInfo ⟨false, .newcookie, some ⟨[]⟩, none, none, none⟩) ∧
    decodeControl basicLawful.toCodec w ≠ .ok (.syncInfo (SyncInfoValue.newcookie [7]).control) := by
  refine ⟨_, wire_intermediateResponse basicLawful _ _, ?_, ?_⟩
  · rw [decodeControl_intermediateResponse, newControlSyncInfo_wire]
    rfl
  · rw [decodeControl_intermediateResponse, newControlSyncInfo_wire]
    decide

end GoLdap
