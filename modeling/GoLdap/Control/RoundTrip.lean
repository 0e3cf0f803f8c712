import GoLdap.Control.Decode
import GoLdap.Ber.Basic

/-!
# Control.RoundTrip — encoding a control and decoding it

A control is decoded from the packet its `Encode` method builds, and from the packet a peer reads off the wire.  The two
differ: on the wire an octet string with a sequence inside is a string of octets, and values are decoded by class and tag.
Both give the control back, and the result encodes to the same octets.
-/

namespace GoLdap

open Go Ber Octets

/-! ## Two sights of a packet -/

/-- A packet as it was built, or as it is read off the wire. -/
inductive Sight where
  | built
  | read

section

variable (L : LawfulCodec)

def Sight.see : Sight → Packet → Packet
  | .built, p => p
  | .read, p => p.wire L.toPrimitives

theorem children_see_constructedOf (sight : Sight) (cls : Ber.Class) (tag : ℕ) (d : GoString) (cs : List Packet) :
    (sight.see L (constructedOf L.toEncoder cls tag d cs)).children = cs.map (sight.see L) := by
  cases sight with
  | built => exact children_constructedOf.trans (List.map_id cs).symm
  | read => rw [Sight.see, wire_constructedOf, children_constructedOf]; rfl

theorem data_see (sight : Sight) {p : Packet} (h : p.tagType = .primitive) : (sight.see L p).data = p.data := by
  cases sight with
  | built => rfl
  | read => rw [Sight.see, wire_primitive _ h]; rfl

theorem value_see_string (sight : Sight) (s d : GoString) :
    (sight.see L (newString .universal .primitive tagOctetString s d)).value = .string s := by
  cases sight <;> rfl

theorem value_see_newBoolean (sight : Sight) (b : Bool) (d : GoString) :
    (sight.see L (newBoolean L.toEncoder .universal .primitive tagBoolean b d)).value = .bool b := by
  cases sight with
  | built => rfl
  | read =>
    obtain ⟨x, hx, hzero⟩ := L.boolean_eq b
    have hne := L.intOrZero_octet x
    rw [Sight.see, wire_primitive _ rfl]
    show Value.bool (decide (L.intOrZero (L.boolean b) ≠ 0)) = _
    rw [hx]
    cases b <;> simp_all

theorem value_see_newLDAPBoolean (sight : Sight) (b : Bool) (d : GoString) :
    (sight.see L (newLDAPBoolean .universal .primitive tagBoolean b d)).value = .bool b := by
  cases sight with
  | built => rfl
  | read =>
    have hne := L.intOrZero_octet
    rw [Sight.see, wire_primitive _ rfl]
    show Value.bool (decide (L.intOrZero (if b then [0xFF] else [0]) ≠ 0)) = _
    cases b <;> simp [hne]

theorem value_see_newInteger (sight : Sight) {n : ℤ} (h : Fits 8 n) (d : GoString) :
    (sight.see L (newInteger L.toEncoder .universal .primitive tagInteger n d)).value = .int n := by
  cases sight with
  | built => rfl
  | read =>
    rw [Sight.see, wire_primitive _ rfl]
    show Value.int (L.intOrZero (L.integer n)) = _
    rw [L.intOrZero_integer h]

/-- A sequence inside an octet string is found by decoding in place, whether it is a child or octets. -/
theorem expandValue_see (sight : Sight) (d : GoString) {sequence : Packet} (h : Encodable L.toEncoder sequence) :
    ∃ v, expandValue L.toCodec (sight.see L (wrapValue L.toEncoder d sequence)) = .ok v ∧
      v.children = [sight.see L sequence] := by
  cases sight with
  | built => exact ⟨_, rfl, rfl⟩
  | read =>
    rw [Sight.see, wire_primitive _ rfl]
    exact expandValue_octets L.toCodec (by rintro ⟨⟩) rfl (L.decode_bytes sequence h)

theorem not_bool_see_wrapValue (sight : Sight) (d : GoString) (sequence : Packet) (b : Bool) :
    (sight.see L (wrapValue L.toEncoder d sequence)).value ≠ .bool b := by
  cases sight <;> rintro ⟨⟩

/-! ### Headers -/

/-- The sequence of a control. -/
def controlOf (cs : List Packet) : Packet := constructedOf L.toEncoder .universal tagSequence (str "Control") cs

variable {L} {sight : Sight} {t x v : Packet} {ct : GoString} {b : Bool}

theorem children_see_controlOf (cs : List Packet) : (sight.see L (controlOf L cs)).children = cs.map (sight.see L) :=
  children_see_constructedOf L sight _ _ _ cs

theorem decode_see_type (ht : (sight.see L t).value = .string ct) :
    decodeControl L.toCodec (sight.see L (controlOf L [t])) = decodeByKind L.toCodec ⟨ct, false, none⟩ (kindOf ct) :=
  decodeControl_eq L.toCodec (controlHeader_type (children_see_controlOf _) ht)

theorem decode_see_critical (ht : (sight.see L t).value = .string ct) (hx : (sight.see L x).value = .bool b) :
    decodeControl L.toCodec (sight.see L (controlOf L [t, x])) = decodeByKind L.toCodec ⟨ct, b, none⟩ (kindOf ct) :=
  decodeControl_eq L.toCodec (controlHeader_critical (children_see_controlOf _) (controlTypeOrData_string ht) hx)

theorem decode_see_valued (ht : (sight.see L t).value = .string ct) (hv : ∀ b, (sight.see L v).value ≠ .bool b) :
    decodeControl L.toCodec (sight.see L (controlOf L [t, v])) =
      decodeByKind L.toCodec ⟨ct, false, some (sight.see L v)⟩ (kindOf ct) :=
  decodeControl_eq L.toCodec (controlHeader_valued (children_see_controlOf _) (controlTypeOrData_string ht) hv)

theorem decode_see_full (ht : (sight.see L t).value = .string ct) (hx : (sight.see L x).value = .bool b) :
    decodeControl L.toCodec (sight.see L (controlOf L [t, x, v])) =
      decodeByKind L.toCodec ⟨ct, b, some (sight.see L v)⟩ (kindOf ct) :=
  decodeControl_eq L.toCodec (controlHeader_full (children_see_controlOf _) ht hx)

/-! ## One round trip for each control -/

theorem kindOf_eq_other : kindOf ct = .other ↔ ct ∉ controlKinds.map Prod.fst := by
  unfold kindOf
  cases h : controlKinds.lookup ct with
  | none =>
    refine iff_of_true rfl fun hmem => ?_
    obtain ⟨⟨t, k⟩, hk, rfl⟩ := List.mem_map.mp hmem
    have hne := List.lookup_eq_none_iff.mp h _ hk
    simp at hne
  | some k =>
    obtain ⟨l₁, l₂, heq, -⟩ := List.lookup_eq_some_iff.mp h
    have hmem : (ct, k) ∈ controlKinds := by rw [heq]; simp
    refine iff_of_false ?_ fun hno => hno (List.mem_map_of_mem hmem)
    have hall : ∀ x ∈ controlKinds, x.2 ≠ .other := by decide
    exact hall _ hmem

variable (L sight)

theorem value_see_type (ct : GoString) : (sight.see L (controlTypePacket ct)).value = .string ct :=
  value_see_string L sight ct _

/-- A control without a case of its own. -/
theorem decode_see_string (c : ControlString) (hkind : kindOf c.controlType = .other) :
    decodeControl L.toCodec (sight.see L (c.encode L.toEncoder)) = .ok (.string c) := by
  obtain ⟨ct, crit, value⟩ := c
  have htype := value_see_type L sight ct
  have hcrit := value_see_newBoolean L sight true (str "Criticality")
  have hvalue := value_see_string L sight value (str "Control Value")
  have hnot : ∀ b, (sight.see L (newString .universal .primitive tagOctetString value (str "Control Value"))).value ≠
      .bool b := by
    intro b
    rw [hvalue]
    rintro ⟨⟩
  replace hkind : kindOf ct = .other := hkind
  by_cases hempty : value = []
  · subst hempty
    cases crit with
    | false =>
      refine (decode_see_type htype).trans ?_
      rw [hkind]
      rfl
    | true =>
      refine (decode_see_critical htype hcrit).trans ?_
      rw [hkind]
      rfl
  · have happend (packet : Packet) : (if value ≠ [] then packet.appendChild L.toEncoder
        (newString .universal .primitive tagOctetString value (str "Control Value")) else packet) =
        packet.appendChild L.toEncoder (newString .universal .primitive tagOctetString value (str "Control Value")) :=
      if_pos hempty
    simp only [ControlString.encode, happend]
    cases crit with
    | false =>
      refine (decode_see_valued htype hnot).trans ?_
      rw [hkind, decodeByKind, stringValue, hvalue]
    | true =>
      refine (decode_see_full htype hcrit).trans ?_
      rw [hkind, decodeByKind, stringValue, hvalue]

/-- A control that is a type and nothing else. -/
theorem decode_see_bare (ct : GoString) : decodeControl L.toCodec (sight.see L (controlPacket L.toEncoder ct)) =
    decodeByKind L.toCodec ⟨ct, false, none⟩ (kindOf ct) :=
  decode_see_type (value_see_type L sight ct)

theorem decode_see_manageDsaIT (criticality : Bool) :
    decodeControl L.toCodec (sight.see L (appendCriticality L.toEncoder criticality
      (controlPacket L.toEncoder controlTypeManageDsaIT))) = .ok (.manageDsaIT criticality) := by
  have htype := value_see_type L sight controlTypeManageDsaIT
  have hkind : kindOf controlTypeManageDsaIT = .manageDsaIT := rfl
  cases criticality with
  | false => exact (decode_see_type htype).trans (by rw [hkind]; rfl)
  | true =>
    have hcrit := value_see_newBoolean L sight true (str "Criticality")
    exact (decode_see_critical htype hcrit).trans (by rw [hkind]; rfl)

theorem decode_see_paging (c : ControlPaging) :
    decodeControl L.toCodec (sight.see L (c.encode L.toEncoder)) = .ok (.paging c) := by
  have hkind : kindOf controlTypePaging = .paging := rfl
  have hsequence : c.sequence L.toEncoder = constructedOf L.toEncoder .universal tagSequence
      (str "Search Control Value") [newInteger L.toEncoder .universal .primitive tagInteger c.pagingSize.toNat
        (str "Paging Size"), cookiePacket c.cookie] := rfl
  have hencodable : Encodable L.toEncoder (c.sequence L.toEncoder) := by
    rw [hsequence]
    refine encodable_constructedOf ?_
    simp only [List.forall_mem_cons, List.not_mem_nil, false_implies, implies_true, and_true]
    exact ⟨.universal tagInteger (by decide) rfl rfl, .universal tagOctetString (by decide) rfl rfl⟩
  have hencode : c.encode L.toEncoder = controlOf L [controlTypePacket controlTypePaging,
      wrapValue L.toEncoder (str "Control Value (Paging)") (c.sequence L.toEncoder)] := rfl
  obtain ⟨v, hv, hcs⟩ := expandValue_see L sight (str "Control Value (Paging)") hencodable
  rw [hencode, decode_see_valued (value_see_type L sight _) (not_bool_see_wrapValue L sight _ _),
    hkind, decodeByKind, decodePaging, hv, Outcome.ok_bind, hcs]
  simp only [hsequence, children_see_constructedOf, List.map_cons, List.map_nil]
  rw [value_see_newInteger L sight (fits_toNat _), data_see L sight rfl]
  have hsize : UInt32.ofNat (((c.pagingSize.toNat : ℤ) % 2 ^ 32).toNat) = c.pagingSize := by
    have hlt := c.pagingSize.toNat_lt
    have hmod : ((c.pagingSize.toNat : ℤ) % 2 ^ 32).toNat = c.pagingSize.toNat := by omega
    rw [hmod, UInt32.ofNat_toNat]
  simp only [hsize]
  rfl

/-! ### DirSync -/

/-- The flags are read as a signed number of four octets. -/
theorem value_wire_flags (c : ControlDirSync) :
    (c.flagsPacket.wire L.toPrimitives).value = .int (c.flags.toInt.bmod (2 ^ 32)) := by
  have hlen : (signed 4 c.flags.toInt).length ≤ 8 := by rw [length_signed]; decide
  rw [wire_primitive _ rfl]
  show Value.int (L.intOrZero (signed 4 c.flags.toInt)) = _
  rw [Primitives.intOrZero, L.parseInt64_eq _ hlen]
  exact congrArg Value.int (twosComplement_signed 4 _)

theorem value_see_flags (c : ControlDirSync) :
    ∃ n : ℤ, (sight.see L c.flagsPacket).value = .int n ∧ n % 2 ^ 32 = c.flags.toInt % 2 ^ 32 := by
  cases sight with
  | built => exact ⟨_, rfl, rfl⟩
  | read => exact ⟨_, value_wire_flags L c, Int.bmod_emod⟩

theorem data_dirSync_cookie (c : ControlDirSync) : c.cookiePacket.tagType = .primitive ∧ c.cookiePacket.data = c.cookie ∧
    c.cookiePacket.tag = tagOctetString := by
  unfold ControlDirSync.cookiePacket
  split
  · exact ⟨rfl, rfl, rfl⟩
  · rename_i h
    rw [not_not] at h
    exact ⟨rfl, h.symm, rfl⟩

theorem dirSync_sequence (E : Encoder) (c : ControlDirSync) : c.sequence E = constructedOf E .universal tagSequence
    (str "DirSync Control Value") [c.flagsPacket,
      newInteger E .universal .primitive tagInteger c.maxAttrCount.toInt (str "MaxAttrCount"), c.cookiePacket] := rfl

/-- The octets of a DirSync control depend on the low 32 bits of its flags. -/
theorem bytes_dirSync (E : Encoder) {c d : ControlDirSync} (hcrit : c.criticality = d.criticality)
    (hflags : c.flags.toInt % 2 ^ 32 = d.flags.toInt % 2 ^ 32) (hcount : c.maxAttrCount = d.maxAttrCount)
    (hcookie : c.cookie = d.cookie) : (c.encode E).bytes E = (d.encode E).bytes E := by
  have hdata : signed 4 c.flags.toInt = signed 4 d.flags.toInt := signed_congr (by norm_num at hflags ⊢; exact hflags)
  have hbytes : c.flagsPacket.bytes E = d.flagsPacket.bytes E := by
    simp only [Packet.bytes, ControlDirSync.flagsPacket, hdata]
  have hcookies : c.cookiePacket = d.cookiePacket := by
    rw [ControlDirSync.cookiePacket, ControlDirSync.cookiePacket, hcookie]
  have hsequence : (c.sequence E).bytes E = (d.sequence E).bytes E := by
    rw [dirSync_sequence, dirSync_sequence, bytes_constructedOf, bytes_constructedOf]
    simp only [contents_cons, contents_nil, hbytes, hcount, hcookies]
  have hencode (c : ControlDirSync) : c.encode E = constructedOf E .universal tagSequence (str "Control")
      [controlTypePacket controlTypeDirSync,
        newLDAPBoolean .universal .primitive tagBoolean c.criticality (str "Criticality"),
        wrapValue E (str "Control Value (DirSync)") (c.sequence E)] := rfl
  have hwrap : (wrapValue E (str "Control Value (DirSync)") (c.sequence E)).bytes E =
      (wrapValue E (str "Control Value (DirSync)") (d.sequence E)).bytes E := by
    simp only [Packet.bytes, wrapValue, Packet.appendChild] at hsequence ⊢
    rw [hsequence]
  rw [hencode, hencode, bytes_constructedOf, bytes_constructedOf]
  simp only [contents_cons, contents_nil, hcrit, hwrap]

theorem encodable_dirSync_sequence (E : Encoder) (c : ControlDirSync) : Encodable E (c.sequence E) := by
  obtain ⟨hctype, -, hctag⟩ := data_dirSync_cookie c
  rw [dirSync_sequence]
  refine encodable_constructedOf ?_
  simp only [List.forall_mem_cons, List.not_mem_nil, false_implies, implies_true, and_true]
  exact ⟨.universal tagInteger (by decide) rfl rfl, .universal tagInteger (by decide) rfl rfl,
    .universal tagOctetString (by decide) hctype hctag⟩

/-- All but the flags is read as it was written. -/
theorem decode_see_dirSync_of_flags (c : ControlDirSync) {n : ℤ} (hn : (sight.see L c.flagsPacket).value = .int n) :
    decodeControl L.toCodec (sight.see L (c.encode L.toEncoder)) =
      .ok (.dirSync ⟨true, Int64.ofInt n, c.maxAttrCount, c.cookie⟩) := by
  have hkind : kindOf controlTypeDirSync = .dirSync := rfl
  obtain ⟨hctype, hcdata, -⟩ := data_dirSync_cookie c
  obtain ⟨v, hv, hcs⟩ := expandValue_see L sight (str "Control Value (DirSync)") (encodable_dirSync_sequence L.toEncoder c)
  refine (decode_see_full (value_see_type L sight _)
    (value_see_newLDAPBoolean L sight c.criticality (str "Criticality"))).trans ?_
  rw [hkind, decodeByKind, deref, Outcome.ok_bind, newResponseControlDirSync, hv, Outcome.ok_bind, hcs]
  simp only [Outcome.index, List.getElem?_cons_zero, Outcome.ok_bind, dirSync_sequence, children_see_constructedOf,
    List.map_cons, List.map_nil]
  rw [hn, value_see_newInteger L sight (fits_toInt _), data_see L sight hctype, hcdata]
  simp only [assertInt, Outcome.ok_bind, Int64.ofInt_toInt]

theorem decode_see_dirSync (c : ControlDirSync) :
    ∃ d, decodeControl L.toCodec (sight.see L (c.encode L.toEncoder)) = .ok (.dirSync d) ∧ d.criticality = true ∧
      d.flags.toInt % 2 ^ 32 = c.flags.toInt % 2 ^ 32 ∧ d.maxAttrCount = c.maxAttrCount ∧ d.cookie = c.cookie := by
  obtain ⟨n, hn, hmod⟩ := value_see_flags L sight c
  refine ⟨_, decode_see_dirSync_of_flags L sight c hn, rfl, ?_, rfl, rfl⟩
  show (Int64.ofInt n).toInt % 2 ^ 32 = _
  rw [Int64.toInt_ofInt, ← hmod]
  exact emod_bmod_of_dvd (k := 2 ^ 32) (by decide) n

/-! ### Sort keys -/

/-- The members of a sort key: the attribute type, and what is not the default. -/
def SortKey.members (E : Encoder) (k : SortKey) : List Packet :=
  [newString .universal .primitive tagOctetString k.attributeType (str "attributeType")] ++
    (if k.matchingRule ≠ [] then [newString .context .primitive 0 k.matchingRule (str "orderingRule")] else []) ++
    if k.reverse then [newBoolean E .context .primitive 1 k.reverse (str "reverseOrder")] else []

theorem SortKey.encode_eq (E : Encoder) (k : SortKey) :
    k.encode E = constructedOf E .universal tagSequence [] (k.members E) := by
  unfold SortKey.encode SortKey.members
  by_cases hrule : k.matchingRule = [] <;> by_cases hrev : k.reverse <;> simp [hrule, hrev] <;> rfl

theorem SortKey.encodable (E : Encoder) (k : SortKey) : Encodable E (k.encode E) := by
  rw [SortKey.encode_eq]
  refine encodable_constructedOf fun c hc => ?_
  simp only [SortKey.members, List.mem_append, List.mem_singleton] at hc
  obtain (rfl | hc) | hc := hc
  · exact .universal tagOctetString (by decide) rfl rfl
  · split at hc
    · rw [List.mem_singleton.mp hc]
      exact .context rfl rfl
    · cases hc
  · split at hc
    · rw [List.mem_singleton.mp hc]
      exact .context rfl rfl
    · cases hc

/-- The members of a sort key are read back one by one. -/
theorem SortKey.read_members (k : SortKey) :
    ((k.members L.toEncoder).map (Packet.wire L.toPrimitives)).foldl sortKeyMember ⟨false, [], []⟩ = k := by
  obtain ⟨x, hx, hzero⟩ := L.boolean_eq true
  have hne : x ≠ 0 := fun h => by simpa using hzero.mp h
  obtain ⟨rev, attr, rule⟩ := k
  have hattr (key : SortKey) : sortKeyMember key ((newString .universal .primitive tagOctetString attr
      (str "attributeType")).wire L.toPrimitives) = { key with attributeType := attr } := rfl
  have hrule (key : SortKey) : sortKeyMember key ((newString .context .primitive 0 rule
      (str "orderingRule")).wire L.toPrimitives) = { key with matchingRule := rule } := rfl
  have hrev (key : SortKey) : sortKeyMember key ((newBoolean L.toEncoder .context .primitive 1 true
      (str "reverseOrder")).wire L.toPrimitives) = { key with reverse := true } := by
    show { key with reverse := (L.boolean true).head?.any (· ≠ 0) } = _
    rw [hx]
    simp [hne]
  by_cases hempty : rule = [] <;> cases rev <;> simp [SortKey.members, hempty, hattr, hrule, hrev]

theorem length_members (E : Encoder) (k : SortKey) : 1 ≤ (k.members E).length ∧ (k.members E).length ≤ 3 := by
  unfold SortKey.members
  split <;> split <;> simp

theorem sortKeysFrom_read (i : ℕ) (ks : List SortKey) (h : ∀ k ∈ ks, k.attributeType ≠ []) :
    sortKeysFrom i ((ks.map (SortKey.encode L.toEncoder)).map (Packet.wire L.toPrimitives)) = .ok ks := by
  induction ks generalizing i with
  | nil => rfl
  | cons k ks ih =>
    rw [List.forall_mem_cons] at h
    have hlen := length_members L.toEncoder k
    have hcs : ((k.encode L.toEncoder).wire L.toPrimitives).children =
        (k.members L.toEncoder).map (Packet.wire L.toPrimitives) := by
      rw [SortKey.encode_eq, wire_constructedOf, children_constructedOf]
    rw [List.map_cons, List.map_cons, sortKeysFrom, hcs, List.length_map, if_neg (by omega), SortKey.read_members]
    simp only
    rw [if_neg h.1, ih (i + 1) h.2]
    rfl

theorem decode_see_sorting (ks : List SortKey) (hne : ks ≠ []) (h : ∀ k ∈ ks, k.attributeType ≠ []) :
    decodeControl L.toCodec (sight.see L (encodeServerSideSorting L.toEncoder ks)) = .ok (.serverSideSorting ks) := by
  have hkind : kindOf controlTypeServerSideSorting = .serverSideSorting := rfl
  have hlist : sortKeyList L.toEncoder ks = constructedOf L.toEncoder .universal tagSequence (str "SortKeyList")
      (ks.map (SortKey.encode L.toEncoder)) := rfl
  have hdecode : L.decodePacketErr ((sortKeyList L.toEncoder ks).bytes L.toEncoder) = .ok (constructedOf L.toEncoder
      .universal tagSequence [] ((ks.map (SortKey.encode L.toEncoder)).map (Packet.wire L.toPrimitives))) := by
    rw [hlist]
    refine L.decode_constructedOf fun c hc => ?_
    obtain ⟨k, -, rfl⟩ := List.mem_map.mp hc
    exact k.encodable L.toEncoder
  have hvalue := value_see_string L sight ((sortKeyList L.toEncoder ks).bytes L.toEncoder) (str "Control Value")
  have hdata := data_see L sight (p := newString .universal .primitive tagOctetString
    ((sortKeyList L.toEncoder ks).bytes L.toEncoder) (str "Control Value")) rfl
  have hoctets : (newString .universal .primitive tagOctetString
      ((sortKeyList L.toEncoder ks).bytes L.toEncoder) (str "Control Value")).data =
    (sortKeyList L.toEncoder ks).bytes L.toEncoder := rfl
  have hnot (b : Bool) : (sight.see L (newString .universal .primitive tagOctetString
      ((sortKeyList L.toEncoder ks).bytes L.toEncoder) (str "Control Value"))).value ≠ .bool b := by
    rw [hvalue]
    rintro ⟨⟩
  refine (decode_see_valued
    (value_see_string L sight controlTypeServerSideSorting (str "Control Type")) hnot).trans ?_
  rw [hkind, decodeByKind, newControlServerSideSorting, deref, Outcome.ok_bind, hdata, hoctets, hdecode]
  simp only [children_constructedOf, sortKeysFrom_read L 0 ks h]
  rw [if_neg (by simpa using hne)]
  rfl

/-! ## The round trip -/

/-- The controls that are decoded to what was encoded. -/
def RoundTrips : Control → Prop
  | .string c => c.controlType ∉ controlKinds.map Prod.fst
  | .paging _ | .manageDsaIT _ | .microsoftNotification | .microsoftShowDeleted | .microsoftServerLinkTTL
  | .subtreeDelete => True
  | .dirSync c => c.criticality = true
  | .serverSideSorting sortKeys => sortKeys ≠ [] ∧ ∀ k ∈ sortKeys, k.attributeType ≠ []
  | _ => False

/-- The same type and the same fields; the flags of a DirSync control modulo `2 ^ 32`. -/
def SameFields : Control → Control → Prop
  | .dirSync c, .dirSync d => c.criticality = d.criticality ∧ c.flags.toInt % 2 ^ 32 = d.flags.toInt % 2 ^ 32 ∧
      c.maxAttrCount = d.maxAttrCount ∧ c.cookie = d.cookie
  | c, d => c = d

theorem SameFields.refl (c : Control) : SameFields c c := by
  cases c <;> simp [SameFields]

/-- Every control encodes to a BER tree. -/
theorem encodable_encode (E : Encoder) {c : Control} {p : Packet} (h : c.encode E = some p) : Encodable E p := by
  have hseq (d : GoString) : Encodable E (sequencePacket d) ∧ (sequencePacket d).tagType = .constructed :=
    ⟨.constructed rfl rfl (List.forall_mem_nil _), rfl⟩
  have hoctets {q : Packet} (htype : q.tagType = .primitive) (htag : q.tag = tagOctetString) : Encodable E q :=
    .universal tagOctetString (by decide) htype htag
  have hbool {q : Packet} (htype : q.tagType = .primitive) (htag : q.tag = tagBoolean) : Encodable E q :=
    .universal tagBoolean (by decide) htype htag
  have hcontrol (ct : GoString) : Encodable E (controlPacket E ct) ∧ (controlPacket E ct).tagType = .constructed :=
    Encodable.appendChild (hseq _) (hoctets rfl rfl)
  have hcrit {q : Packet} (crit : Bool) (hq : Encodable E q ∧ q.tagType = .constructed) :
      Encodable E (appendCriticality E crit q) ∧ (appendCriticality E crit q).tagType = .constructed := by
    unfold appendCriticality
    split
    · exact Encodable.appendChild hq (hbool rfl rfl)
    · exact hq
  cases c with
  | string c =>
    obtain rfl := Option.some.inj h
    unfold ControlString.encode
    split
    · exact (Encodable.appendChild (hcrit _ (hcontrol _)) (hoctets rfl rfl)).1
    · exact (hcrit _ (hcontrol _)).1
  | paging c =>
    obtain rfl := Option.some.inj h
    exact (Encodable.appendChild (hcontrol _) (hoctets rfl rfl)).1
  | manageDsaIT crit =>
    obtain rfl := Option.some.inj h
    exact (hcrit _ (hcontrol _)).1
  | microsoftSDFlags c =>
    obtain rfl := Option.some.inj h
    exact (Encodable.appendChild (hcrit _ (hcontrol _)) (hoctets rfl rfl)).1
  | dirSync c =>
    obtain rfl := Option.some.inj h
    exact (Encodable.appendChild (Encodable.appendChild (hcontrol _) (hbool rfl rfl)) (hoctets rfl rfl)).1
  | serverSideSorting ks =>
    obtain rfl := Option.some.inj h
    exact (Encodable.appendChild (Encodable.appendChild (hseq _) (hoctets rfl rfl)) (hoctets rfl rfl)).1
  | serverSideSortingResult c =>
    obtain rfl := Option.some.inj h
    exact (Encodable.appendChild (hseq _) (.universal tagEnumerated (by decide) rfl rfl)).1
  | syncRequest c =>
    obtain rfl := Option.some.inj h
    exact (Encodable.appendChild (Encodable.appendChild (hcontrol _) (hbool rfl rfl)) (hoctets rfl rfl)).1
  | beheraPasswordPolicy | microsoftNotification | microsoftShowDeleted | microsoftServerLinkTTL | subtreeDelete =>
    obtain rfl := Option.some.inj h
    exact (hcontrol _).1
  | vChuPasswordMustChange | vChuPasswordWarning | syncState | syncDone | syncInfo => cases h

/-- What the caller sees of an encoded control, and what a peer sees of it, decodes to the control. -/
theorem decode_see_encode {c : Control} (h : RoundTrips c) : ∃ p, c.encode L.toEncoder = some p ∧
    ∃ d q, decodeControl L.toCodec (sight.see L p) = .ok d ∧ SameFields c d ∧ d.encode L.toEncoder = some q ∧
      q.bytes L.toEncoder = p.bytes L.toEncoder := by
  have hsame {c : Control} {p : Packet} (hp : c.encode L.toEncoder = some p)
      (hd : decodeControl L.toCodec (sight.see L p) = .ok c) : ∃ p, c.encode L.toEncoder = some p ∧
      ∃ d q, decodeControl L.toCodec (sight.see L p) = .ok d ∧ SameFields c d ∧ d.encode L.toEncoder = some q ∧
        q.bytes L.toEncoder = p.bytes L.toEncoder :=
    ⟨p, hp, c, p, hd, .refl c, hp, rfl⟩
  cases c with
  | string c => exact hsame rfl (decode_see_string L sight c (kindOf_eq_other.mpr h))
  | paging c => exact hsame rfl (decode_see_paging L sight c)
  | manageDsaIT crit => exact hsame rfl (decode_see_manageDsaIT L sight crit)
  | microsoftNotification | microsoftShowDeleted | microsoftServerLinkTTL | subtreeDelete =>
    exact hsame rfl (decode_see_bare L sight _)
  | serverSideSorting ks => exact hsame rfl (decode_see_sorting L sight ks h.1 h.2)
  | dirSync c =>
    obtain ⟨d, hd, hcrit, hflags, hcount, hcookie⟩ := decode_see_dirSync L sight c
    have hcrit' : c.criticality = d.criticality := h.trans hcrit.symm
    exact ⟨_, rfl, .dirSync d, _, hd, ⟨hcrit', hflags.symm, hcount.symm, hcookie.symm⟩, rfl,
      bytes_dirSync L.toEncoder hcrit'.symm hflags hcount hcookie⟩
  | _ => cases h

end

/-- A control is decoded from its packet and from the octets of it, with the same fields, and what was decoded encodes to
the same octets. -/
theorem decodeControl_encode (L : LawfulCodec) {c : Control} (h : RoundTrips c) :
    ∃ p w, c.encode L.toEncoder = some p ∧ L.decodePacketErr (p.bytes L.toEncoder) = .ok w ∧
      ∀ r ∈ [p, w], ∃ d q, decodeControl L.toCodec r = .ok d ∧ SameFields c d ∧ d.encode L.toEncoder = some q ∧
        q.bytes L.toEncoder = p.bytes L.toEncoder := by
  obtain ⟨p, hp, hbuilt⟩ := decode_see_encode L .built h
  obtain ⟨p', hp', hread⟩ := decode_see_encode L .read h
  obtain rfl : p = p' := Option.some.inj (hp.symm.trans hp')
  refine ⟨p, p.wire L.toPrimitives, hp, L.decode_bytes p (encodable_encode L.toEncoder hp), fun r hr => ?_⟩
  obtain rfl | rfl := List.mem_pair.mp hr
  · exact hbuilt
  · exact hread

theorem decodeControl_encode_dirSync :
    RoundTrips (.dirSync ⟨true, 0x80000000, -1, [7]⟩) ∧
      ∃ p w, (Control.dirSync ⟨true, 0x80000000, -1, [7]⟩).encode basicLawful.toEncoder = some p ∧
        basicLawful.decodePacketErr (p.bytes basicLawful.toEncoder) = .ok w ∧
        ∀ r ∈ [p, w], ∃ d q, decodeControl basicLawful.toCodec r = .ok d ∧
          SameFields (.dirSync ⟨true, 0x80000000, -1, [7]⟩) d ∧ d.encode basicLawful.toEncoder = some q ∧
          q.bytes basicLawful.toEncoder = p.bytes basicLawful.toEncoder :=
  ⟨rfl, decodeControl_encode basicLawful rfl⟩

/-! ## The flags of DirSync -/

/-- What a peer reads of the flags: the four octets of `Encode` as a signed number. -/
theorem decode_dirSync (L : LawfulCodec) (c : ControlDirSync) :
    L.decodePacketErr ((c.encode L.toEncoder).bytes L.toEncoder) = .ok ((c.encode L.toEncoder).wire L.toPrimitives) ∧
      decodeControl L.toCodec ((c.encode L.toEncoder).wire L.toPrimitives) =
        .ok (.dirSync ⟨true, Int64.ofInt (c.flags.toInt.bmod (2 ^ 32)), c.maxAttrCount, c.cookie⟩) :=
  ⟨L.decode_bytes _ (encodable_encode L.toEncoder (c := .dirSync c) rfl),
    decode_see_dirSync_of_flags L .read c (value_wire_flags L c)⟩

/-- Of the flags of 32 bits, those without the highest bit are read as they were written. -/
theorem dirSync_flags_iff (L : LawfulCodec) (flags maxAttrCount : Int64) (cookie : GoString) (h0 : 0 ≤ flags.toInt)
    (h32 : flags.toInt < 2 ^ 32) :
    (∃ w d, L.decodePacketErr (((newRequestControlDirSync flags maxAttrCount cookie).encode L.toEncoder).bytes
        L.toEncoder) = .ok w ∧ decodeControl L.toCodec w = .ok (.dirSync d) ∧ d.flags = flags) ↔
      flags.toInt < 2 ^ 31 := by
  obtain ⟨hbytes, hdecode⟩ := decode_dirSync L (newRequestControlDirSync flags maxAttrCount cookie)
  have hread : (Int64.ofInt (flags.toInt.bmod (2 ^ 32))).toInt = flags.toInt.bmod (2 ^ 32) := by
    have hle : -(2 ^ 31) ≤ flags.toInt.bmod (2 ^ 32) := Int.le_bmod (by decide)
    have hlt : flags.toInt.bmod (2 ^ 32) < 2 ^ 31 := Int.bmod_lt (by decide)
    exact Int64.toInt_ofInt_of_le (by omega) (by omega)
  have hsigned : flags.toInt.bmod (2 ^ 32) = flags.toInt ↔ flags.toInt < 2 ^ 31 := by
    rw [Int.bmod_def]
    split <;> omega
  rw [← hsigned, ← hread, Int64.toInt_inj]
  constructor
  · rintro ⟨w, d, hw, hd, hflags⟩
    rw [hbytes] at hw
    obtain rfl := Except.ok.inj hw
    rw [hdecode] at hd
    obtain rfl := Control.dirSync.inj (Outcome.ok.inj hd)
    exact hflags
  · intro hflags
    exact ⟨_, _, hbytes, hdecode, hflags⟩

/-- A DirSync control with object security. -/
theorem dirSync_flags_iff_objectSecurity :
    (∃ w d, basicLawful.decodePacketErr (((newRequestControlDirSync 1 1000 []).encode basicLawful.toEncoder).bytes
        basicLawful.toEncoder) = .ok w ∧ decodeControl basicLawful.toCodec w = .ok (.dirSync d) ∧ d.flags = 1) :=
  (dirSync_flags_iff basicLawful 1 1000 [] (by decide) (by decide)).mpr (by decide)

/-- `DirSyncIncrementalValues` is read as a negative number. -/
theorem dirSync_flags_incrementalValues :
    (0x80000000 : Int64).toInt = 2 ^ 31 ∧
    ∃ w, basicLawful.decodePacketErr (((newRequestControlDirSync 0x80000000 1000 []).encode basicLawful.toEncoder).bytes
        basicLawful.toEncoder) = .ok w ∧
      decodeControl basicLawful.toCodec w = .ok (.dirSync ⟨true, -0x80000000, 1000, []⟩) := by
  obtain ⟨hbytes, hdecode⟩ := decode_dirSync basicLawful (newRequestControlDirSync 0x80000000 1000 [])
  exact ⟨by decide, _, hbytes, hdecode⟩

end GoLdap
