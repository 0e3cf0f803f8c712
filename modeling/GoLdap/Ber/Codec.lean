import GoLdap.Ber.Packet
import GoLdap.Lib.Octets

/-!
# Ber.Codec — reading packets

The half of `asn1-ber` that reads.  `Codec` has the two functions the client calls, with no assumption on them: malformed
input is theirs to report.  `LawfulCodec` adds what the client relies on when both sides write well-formed packets: the
octets of a packet are read as the same tree, with values decoded from the contents of its primitive elements.  The
library's limit on the size of a packet is left out.
-/

namespace Ber

open Go Octets

/-- The encoder, and the reader of numbers. -/
structure Primitives extends Encoder where
  /-- `ber.ParseInt64`. -/
  parseInt64 : GoString → Except Error ℤ

/-- `uuid.UUID`: sixteen octets. -/
abbrev UUID := { b : GoString // b.length = 16 }

/-- The functions of other modules that the client calls to decode. -/
structure Codec extends Primitives where
  /-- `ber.DecodePacketErr`. -/
  decodePacketErr : GoString → Except Error Packet
  /-- `uuid.FromBytes`. -/
  uuidFromBytes : GoString → Except Error UUID

section

variable (L : Primitives)

/-- The number `ParseInt64` gives, where its error is ignored. -/
def Primitives.intOrZero (content : GoString) : ℤ :=
  match L.parseInt64 content with
  | .ok n => n
  | .error _ => 0

/-- The value the reader decodes from the contents of a primitive element. -/
def decodedValue (cls : Class) (tag : ℕ) (content : GoString) : Value :=
  if cls ≠ .universal then .nil
  else if tag = tagOctetString then .string content
  else if tag = tagInteger ∨ tag = tagEnumerated then .int (L.intOrZero content)
  else if tag = tagBoolean then .bool (L.intOrZero content ≠ 0)
  else .nil

/-- A primitive element as it is read off the wire. -/
def wirePrimitive (cls : Class) (tag : ℕ) (content : GoString) : Packet :=
  readPrimitive cls tag (decodedValue L cls tag content) content

/-- The trees that are read off the wire. -/
inductive OffTheWire : Packet → Prop
  | primitive (cls : Class) (tag : ℕ) (content : GoString) : OffTheWire (wirePrimitive L cls tag content)
  | constructed (cls : Class) (tag : ℕ) (cs : List Packet) (hcs : ∀ c ∈ cs, OffTheWire c) :
    OffTheWire (readConstructed L.toEncoder cls tag cs)

/-- What holds of the value of a packet that was read, also where the library knows more types than the client uses: only
primitive elements of the universal class have a value, an octet string has a string, and an INTEGER or an ENUMERATED has
a number. -/
structure ValueAsRead (p : Packet) : Prop where
  universal : p.value ≠ .nil → p.classType = .universal ∧ p.tagType = .primitive ∧ p.tag < 31
  string : p.value ≠ .nil → p.tag = tagOctetString → ∃ s, p.value = .string s
  int : p.value ≠ .nil → p.tag = tagInteger ∨ p.tag = tagEnumerated → ∃ n, p.value = .int n

/-- The trees all of whose values are as they were read. -/
inductive AsRead : Packet → Prop
  | node {p : Packet} (hvalue : ValueAsRead p) (hcs : ∀ c ∈ p.children, AsRead c) : AsRead p

theorem AsRead.child {p : Packet} (h : AsRead p) {i : ℕ} : ∀ c ∈ p.children[i]?, AsRead c := by
  obtain ⟨-, hcs⟩ := h
  exact fun c hc => hcs c (List.mem_of_getElem? hc)

theorem valueAsRead_of_nil {p : Packet} (h : p.value = .nil) : ValueAsRead p :=
  ⟨absurd h, absurd h, absurd h⟩

theorem ValueAsRead.of_undescribed {p q : Packet} (hq : ValueAsRead q) (h : p.undescribed = q.undescribed) :
    ValueAsRead p := by
  have hvalue : p.value = q.value := by rw [← p.undescribed_value, h, q.undescribed_value]
  have htag : p.tag = q.tag := by rw [← p.undescribed_tag, h, q.undescribed_tag]
  have hcls : p.classType = q.classType := by rw [← p.undescribed_classType, h, q.undescribed_classType]
  have htype : p.tagType = q.tagType := by rw [← p.undescribed_tagType, h, q.undescribed_tagType]
  constructor
  · rw [hvalue, htag, hcls, htype]
    exact hq.universal
  · rw [hvalue, htag]
    exact hq.string
  · rw [hvalue, htag]
    exact hq.int

/-- Descriptions play no part. -/
theorem AsRead.of_undescribed {p q : Packet} (hq : AsRead q) (h : p.undescribed = q.undescribed) : AsRead p := by
  induction hq generalizing p with
  | node hvalue _ ih =>
    refine .node (hvalue.of_undescribed h) fun c hc => ?_
    obtain ⟨i, hi⟩ := List.getElem?_of_mem hc
    obtain ⟨hnone, -⟩ | ⟨c', d, hc', hd, hcd⟩ := Packet.getElem?_children h i
    · rw [hi] at hnone
      cases hnone
    · rw [hi] at hc'
      obtain rfl := Option.some.inj hc'
      exact ih d (List.mem_of_getElem? hd) hcd

theorem valueAsRead_wirePrimitive (cls : Class) (tag : ℕ) (content : GoString) :
    ValueAsRead (wirePrimitive L cls tag content) := by
  have hvalue : (wirePrimitive L cls tag content).value = decodedValue L cls tag content := rfl
  have htag : (wirePrimitive L cls tag content).tag = tag := rfl
  constructor
  · intro hne
    rw [hvalue] at hne
    unfold decodedValue at hne
    refine ⟨?_, rfl, ?_⟩
    · by_contra hcls
      exact hne (if_pos hcls)
    · rw [htag]
      split_ifs at hne with hcls hstring hint hbool
      · exact absurd rfl hne
      · exact hstring ▸ (by decide)
      · obtain rfl | rfl := hint <;> decide
      · exact hbool ▸ (by decide)
      · exact absurd rfl hne
  · rintro hne htag'
    rw [hvalue] at hne ⊢
    rw [htag] at htag'
    unfold decodedValue at hne ⊢
    split_ifs at hne ⊢
    · exact absurd rfl hne
    · exact ⟨content, rfl⟩
  · rintro hne htag'
    rw [hvalue] at hne ⊢
    rw [htag] at htag'
    unfold decodedValue at hne ⊢
    split_ifs at hne ⊢ with hcls hstring
    · exact absurd rfl hne
    · subst hstring
      exact absurd htag' (by decide)
    · exact ⟨_, rfl⟩

theorem asRead_readConstructed (E : Encoder) (cls : Class) (tag : ℕ) {cs : List Packet} (h : ∀ c ∈ cs, AsRead c) :
    AsRead (readConstructed E cls tag cs) := by
  rw [readConstructed, foldl_appendChild]
  exact .node (valueAsRead_of_nil rfl) h

/-- A number or an octet string. -/
theorem asRead_readPrimitive {tag : ℕ} {value : Value} (content : GoString)
    (h : tag = tagOctetString ∧ (∃ s, value = .string s) ∨
      (tag = tagInteger ∨ tag = tagEnumerated) ∧ ∃ n, value = .int n) :
    AsRead (readPrimitive .universal tag value content) := by
  refine .node ⟨fun _ => ⟨rfl, rfl, ?_⟩, fun _ htag => ?_, fun _ htag => ?_⟩ (by rintro c ⟨⟩)
  · show tag < 31
    obtain ⟨rfl, -⟩ | ⟨rfl | rfl, -⟩ := h <;> decide
  · obtain ⟨-, h⟩ | ⟨rfl | rfl, -⟩ := h
    · exact h
    · exact absurd htag (by decide : tagInteger ≠ tagOctetString)
    · exact absurd htag (by decide : tagEnumerated ≠ tagOctetString)
  · obtain ⟨rfl, -⟩ | ⟨-, h⟩ := h
    · exact absurd htag (by decide : ¬ (tagOctetString = tagInteger ∨ tagOctetString = tagEnumerated))
    · exact h

theorem OffTheWire.asRead {p : Packet} (h : OffTheWire L p) : AsRead p := by
  induction h with
  | primitive cls tag content =>
    refine .node (valueAsRead_wirePrimitive L cls tag content) fun c hc => ?_
    cases hc
  | constructed cls tag cs _ ih => exact asRead_readConstructed _ cls tag ih

mutual

/-- What is read from the octets of a packet.  The children of a primitive packet are not seen on the wire. -/
def Packet.wire : Packet → Packet
  | ⟨cls, .primitive, tag, _, _, _, data, _⟩ => wirePrimitive L cls tag data
  | ⟨cls, .constructed, tag, _, _, _, _, cs⟩ => readConstructed L.toEncoder cls tag (wireAll cs)

def wireAll : List Packet → List Packet
  | [] => []
  | c :: cs => c.wire :: wireAll cs

end

theorem wireAll_eq_map (cs : List Packet) : wireAll L cs = cs.map (Packet.wire L) := by
  induction cs with
  | nil => rfl
  | cons c cs ih => rw [wireAll, ih, List.map_cons]

/-- The packets whose octets are a BER tree: a constructed packet has the octets of its children as contents, and the
values of the primitive ones are of the types the client uses. -/
inductive Encodable (E : Encoder) : Packet → Prop
  | primitive {p : Packet} (htype : p.tagType = .primitive)
      (htag : p.classType = .universal → p.tag ∈ [tagBoolean, tagInteger, tagOctetString, tagEnumerated]) :
      Encodable E p
  | constructed {p : Packet} (htype : p.tagType = .constructed) (hdata : p.data = contents E p.children)
      (hcs : ∀ c ∈ p.children, Encodable E c) : Encodable E p

end

theorem Encodable.universal {E : Encoder} {p : Packet} (tag : ℕ)
    (h : tag ∈ [tagBoolean, tagInteger, tagOctetString, tagEnumerated]) (htype : p.tagType = .primitive)
    (htag : p.tag = tag) : Encodable E p :=
  .primitive htype fun _ => htag ▸ h

theorem Encodable.context {E : Encoder} {p : Packet} (htype : p.tagType = .primitive) (hcls : p.classType = .context) :
    Encodable E p :=
  .primitive htype fun h => by rw [hcls] at h; cases h

/-- A constructed packet stays encodable when a child is appended. -/
theorem Encodable.appendChild {E : Encoder} {p c : Packet} (hp : Encodable E p ∧ p.tagType = .constructed)
    (hc : Encodable E c) : Encodable E (p.appendChild E c) ∧ (p.appendChild E c).tagType = .constructed := by
  obtain ⟨hp, htype⟩ := hp
  refine ⟨.constructed htype ?_ ?_, htype⟩
  · cases hp with
    | primitive hprim _ =>
      rw [htype] at hprim
      cases hprim
    | constructed _ hdata _ =>
      show p.data ++ c.bytes E = contents E (p.children ++ [c])
      rw [contents_append, hdata, contents_cons, contents_nil, List.append_nil]
  · intro d hd
    obtain hd | hd := List.mem_append.mp hd
    · cases hp with
      | primitive hprim _ =>
        rw [htype] at hprim
        cases hprim
      | constructed _ _ hcs => exact hcs d hd
    · rwa [List.mem_singleton.mp hd]

/-- A codec that reads what it writes. -/
structure LawfulCodec extends Codec where
  /-- Up to eight octets are read in two's complement. -/
  parseInt64_eq : ∀ bs : GoString, bs.length ≤ 8 → parseInt64 bs = .ok (twosComplement bs)
  /-- Integers are written in two's complement. -/
  twosComplement_integer : ∀ n, Fits 8 n → (integer n).length ≤ 8 ∧ twosComplement (integer n) = n
  /-- A boolean is one octet, which is zero for `false` only. -/
  boolean_eq : ∀ b, ∃ x, boolean b = [x] ∧ (x = 0 ↔ b = false)
  /-- The octets of a packet are read as its tree. -/
  decode_bytes : ∀ p, Encodable toEncoder p → decodePacketErr (p.bytes toEncoder) = .ok (p.wire toPrimitives)
  /-- A UUID is made of its sixteen octets, and of nothing else. -/
  uuidFromBytes_eq_ok : ∀ b u, uuidFromBytes b = .ok u ↔ u.val = b

namespace LawfulCodec

variable (L : LawfulCodec)

theorem intOrZero_integer {n : ℤ} (h : Fits 8 n) : L.intOrZero (L.integer n) = n := by
  obtain ⟨hlen, hval⟩ := L.twosComplement_integer n h
  rw [Primitives.intOrZero, L.parseInt64_eq _ hlen, hval]

theorem intOrZero_octet (x : UInt8) : L.intOrZero [x] = 0 ↔ x = 0 := by
  have hlen : [x].length ≤ 8 := by rw [List.length_singleton]; decide
  rw [Primitives.intOrZero, L.parseInt64_eq _ hlen]
  exact twosComplement_octet x

end LawfulCodec

theorem fits_toInt (n : Int64) : Fits 8 n.toInt := by
  have h1 := n.le_toInt
  have h2 := n.toInt_lt
  constructor <;> norm_num <;> omega

theorem fits_toNat (n : UInt32) : Fits 8 (n.toNat : ℤ) := by
  have h := n.toNat_lt
  constructor <;> norm_num <;> omega

/-! ## Packets that are built -/

/-- A constructed packet that the given children were appended to. -/
def constructedOf (E : Encoder) (cls : Class) (tag : ℕ) (description : GoString) (cs : List Packet) : Packet :=
  cs.foldl (Packet.appendChild E) (encode cls .constructed tag description)

section

variable {E : Encoder} {cls : Class} {tag : ℕ} {d : GoString} {cs : List Packet}

theorem constructedOf_eq : constructedOf E cls tag d cs = ⟨cls, .constructed, tag, d, .nil, [], contents E cs, cs⟩ := by
  rw [constructedOf, foldl_appendChild]
  rfl

@[simp] theorem children_constructedOf : (constructedOf E cls tag d cs).children = cs := by rw [constructedOf_eq]

@[simp] theorem tag_constructedOf : (constructedOf E cls tag d cs).tag = tag := by rw [constructedOf_eq]

theorem encodable_constructedOf (h : ∀ c ∈ cs, Encodable E c) : Encodable E (constructedOf E cls tag d cs) := by
  rw [constructedOf_eq]
  exact .constructed rfl rfl h

theorem bytes_constructedOf :
    (constructedOf E cls tag d cs).bytes E = E.header cls .constructed tag (contents E cs).length ++ contents E cs := by
  rw [constructedOf_eq]
  rfl

theorem wire_constructedOf (P : Primitives) : (constructedOf P.toEncoder cls tag d cs).wire P =
    constructedOf P.toEncoder cls tag [] (cs.map (Packet.wire P)) := by
  rw [constructedOf_eq, Packet.wire, wireAll_eq_map]
  rfl

/-- The octets of a constructed packet are read as the packet. -/
theorem LawfulCodec.decode_constructedOf (L : LawfulCodec) (h : ∀ c ∈ cs, Encodable L.toEncoder c) :
    L.decodePacketErr ((constructedOf L.toEncoder cls tag d cs).bytes L.toEncoder) =
      .ok (constructedOf L.toEncoder cls tag [] (cs.map (Packet.wire L.toPrimitives))) := by
  rw [L.decode_bytes _ (encodable_constructedOf h), wire_constructedOf]

end

theorem wire_primitive (P : Primitives) {p : Packet} (h : p.tagType = .primitive) :
    p.wire P = wirePrimitive P p.classType p.tag p.data := by
  obtain ⟨cls, type, tag, d, v, bv, data, cs⟩ := p
  subst h
  rw [Packet.wire]

end Ber
