import GoLdap.Go.Error

/-!
# Ber.Packet — packets of `asn1-ber`

The packet tree of the BER library the client is written against: class, primitive or constructed, tag, description,
decoded value, content octets and children.  The library itself is not part of the repository.  What the client needs of
its encoder is the table `Encoder`: the identifier and length octets in front of a packet's contents, and the contents
`NewBoolean` and `NewInteger` write.
-/

namespace Ber

open Go

inductive Class where
  | universal
  | application
  | context
  | «private»
  deriving DecidableEq, Repr

inductive TagType where
  | primitive
  | constructed
  deriving DecidableEq, Repr

/-- `Packet.Value`, an `interface{}`: nil, or one of the types the client looks for. -/
inductive Value where
  | nil
  | bool (b : Bool)
  | int (n : ℤ)
  | int8 (n : Int8)
  | string (s : GoString)
  | bytes (s : GoString)
  deriving DecidableEq, Repr

/-- `ber.Packet`. -/
structure Packet where
  classType : Class
  tagType : TagType
  tag : ℕ
  description : GoString
  value : Value
  byteValue : GoString
  data : GoString
  children : List Packet
  deriving Repr

/-- The octets the library's encoder writes. -/
structure Encoder where
  /-- Identifier and length octets of a packet with contents of the given length. -/
  header : Class → TagType → ℕ → ℕ → GoString
  /-- Contents of `NewBoolean`. -/
  boolean : Bool → GoString
  /-- Contents of `NewInteger`. -/
  integer : ℤ → GoString

def Class.bits : Class → ℕ
  | .universal => 0
  | .application => 0x40
  | .context => 0x80
  | .private => 0xC0

def TagType.bits : TagType → ℕ
  | .primitive => 0
  | .constructed => 0x20

/-- The encoder on tags below 31, contents shorter than 128 octets and integers of one octet. -/
def shortEncoder : Encoder where
  header cls type tag length := [UInt8.ofNat (cls.bits + type.bits + tag), UInt8.ofNat length]
  boolean b := if b then [0xFF] else [0]
  integer n := [UInt8.ofNat (n % 256).toNat]

/-- Universal tag numbers. -/
def tagEOC : ℕ := 0
def tagBoolean : ℕ := 1
def tagInteger : ℕ := 2
def tagBitString : ℕ := 3
def tagOctetString : ℕ := 4
def tagObjectDescriptor : ℕ := 7
def tagEnumerated : ℕ := 10
def tagEmbeddedPDV : ℕ := 11
def tagSequence : ℕ := 16
def tagSet : ℕ := 17
def tagPrintableString : ℕ := 19

/-- `ber.Encode` with a nil value. -/
def encode (cls : Class) (type : TagType) (tag : ℕ) (description : GoString) : Packet :=
  ⟨cls, type, tag, description, .nil, [], [], []⟩

/-- `ber.NewString`. -/
def newString (cls : Class) (type : TagType) (tag : ℕ) (value description : GoString) : Packet :=
  ⟨cls, type, tag, description, .string value, [], value, []⟩

/-- `ber.NewLDAPBoolean`, with the contents RFC 4511 asks for. -/
def newLDAPBoolean (cls : Class) (type : TagType) (tag : ℕ) (value : Bool) (description : GoString) : Packet :=
  ⟨cls, type, tag, description, .bool value, [], if value then [0xFF] else [0], []⟩

section Encoder

variable (E : Encoder)

/-- `ber.NewBoolean`. -/
def newBoolean (cls : Class) (type : TagType) (tag : ℕ) (value : Bool) (description : GoString) : Packet :=
  ⟨cls, type, tag, description, .bool value, [], E.boolean value, []⟩

/-- `ber.NewInteger`. -/
def newInteger (cls : Class) (type : TagType) (tag : ℕ) (value : ℤ) (description : GoString) : Packet :=
  ⟨cls, type, tag, description, .int value, [], E.integer value, []⟩

/-- `(*Packet).Bytes`. -/
def Packet.bytes (p : Packet) : GoString := E.header p.classType p.tagType p.tag p.data.length ++ p.data

/-- `(*Packet).AppendChild`: the child's octets become contents of the parent. -/
def Packet.appendChild (p child : Packet) : Packet :=
  { p with data := p.data ++ child.bytes E, children := p.children ++ [child] }

/-- A primitive packet as `ber.ReadPacket` leaves it, with the value it has decoded.  `ByteValue` is set for the
universal class only. -/
def readPrimitive (cls : Class) (tag : ℕ) (value : Value) (content : GoString) : Packet :=
  ⟨cls, .primitive, tag, [], value, if cls = .universal then content else [], content, []⟩

/-- A constructed packet as `ber.ReadPacket` leaves it. -/
def readConstructed (cls : Class) (tag : ℕ) (cs : List Packet) : Packet :=
  cs.foldl (Packet.appendChild E) (encode cls .constructed tag [])

/-- The contents of a constructed packet with these children. -/
def contents (cs : List Packet) : GoString := cs.flatMap (Packet.bytes E)

@[simp] theorem contents_nil : contents E [] = [] := rfl

@[simp] theorem contents_cons (c : Packet) (cs : List Packet) : contents E (c :: cs) = c.bytes E ++ contents E cs :=
  rfl

theorem foldl_appendChild (p : Packet) (cs : List Packet) :
    cs.foldl (Packet.appendChild E) p = { p with data := p.data ++ contents E cs, children := p.children ++ cs } := by
  induction cs generalizing p with
  | nil =>
    obtain ⟨cls, type, tag, d, v, bv, data, children⟩ := p
    simp
  | cons c cs ih => simp [ih, Packet.appendChild]

theorem contents_append (cs ds : List Packet) : contents E (cs ++ ds) = contents E cs ++ contents E ds :=
  List.flatMap_append

end Encoder

/-! ## Packets up to descriptions and decoded values -/

mutual

/-- Class, type, tag, content octets and children of a packet: all that is written to the wire. -/
def Packet.skeleton : Packet → Packet
  | ⟨cls, type, tag, _, _, _, data, cs⟩ => ⟨cls, type, tag, [], .nil, [], data, skeletons cs⟩

def skeletons : List Packet → List Packet
  | [] => []
  | c :: cs => c.skeleton :: skeletons cs

end

theorem skeletons_eq_map : ∀ cs, skeletons cs = cs.map Packet.skeleton
  | [] => rfl
  | c :: cs => by rw [skeletons, skeletons_eq_map cs, List.map_cons]

theorem Packet.skeleton_eq (p : Packet) :
    p.skeleton = ⟨p.classType, p.tagType, p.tag, [], .nil, [], p.data, p.children.map Packet.skeleton⟩ := by
  obtain ⟨cls, type, tag, d, v, bv, data, cs⟩ := p
  rw [Packet.skeleton, skeletons_eq_map]

theorem bytes_skeleton (E : Encoder) (p : Packet) : p.skeleton.bytes E = p.bytes E := by
  rw [Packet.skeleton_eq]
  rfl

theorem bytes_eq_of_skeleton (E : Encoder) {p q : Packet} (h : p.skeleton = q.skeleton) : p.bytes E = q.bytes E := by
  rw [← bytes_skeleton, h, bytes_skeleton]

theorem contents_eq_of_skeleton (E : Encoder) : ∀ {cs ds : List Packet},
    cs.map Packet.skeleton = ds.map Packet.skeleton → contents E cs = contents E ds
  | [], [], _ => rfl
  | c :: cs, d :: ds, h => by
    rw [List.map_cons, List.map_cons, List.cons.injEq] at h
    rw [contents_cons, contents_cons, bytes_eq_of_skeleton E h.1, contents_eq_of_skeleton E h.2]

/-! ## Packets up to descriptions -/

mutual

/-- A packet without its descriptions, as it is read off the wire. -/
def Packet.undescribed : Packet → Packet
  | ⟨cls, type, tag, _, value, byteValue, data, cs⟩ => ⟨cls, type, tag, [], value, byteValue, data, undescribedAll cs⟩

def undescribedAll : List Packet → List Packet
  | [] => []
  | c :: cs => c.undescribed :: undescribedAll cs

end

theorem undescribedAll_eq_map : ∀ cs, undescribedAll cs = cs.map Packet.undescribed
  | [] => rfl
  | c :: cs => by rw [undescribedAll, undescribedAll_eq_map cs, List.map_cons]

namespace Packet

theorem undescribed_eq (p : Packet) :
    p.undescribed = { p with description := [], children := p.children.map undescribed } := by
  obtain ⟨cls, type, tag, d, v, bv, data, cs⟩ := p
  rw [undescribed, undescribedAll_eq_map]

@[simp] theorem undescribed_classType (p : Packet) : p.undescribed.classType = p.classType := by rw [undescribed_eq]
@[simp] theorem undescribed_tagType (p : Packet) : p.undescribed.tagType = p.tagType := by rw [undescribed_eq]
@[simp] theorem undescribed_tag (p : Packet) : p.undescribed.tag = p.tag := by rw [undescribed_eq]
@[simp] theorem undescribed_description (p : Packet) : p.undescribed.description = [] := by rw [undescribed_eq]
@[simp] theorem undescribed_value (p : Packet) : p.undescribed.value = p.value := by rw [undescribed_eq]
@[simp] theorem undescribed_byteValue (p : Packet) : p.undescribed.byteValue = p.byteValue := by rw [undescribed_eq]
@[simp] theorem undescribed_data (p : Packet) : p.undescribed.data = p.data := by rw [undescribed_eq]
@[simp] theorem undescribed_children (p : Packet) : p.undescribed.children = p.children.map undescribed := by
  rw [undescribed_eq]

mutual

theorem undescribed_undescribed : ∀ p : Packet, p.undescribed.undescribed = p.undescribed
  | ⟨_, _, _, _, _, _, _, cs⟩ => by rw [undescribed, undescribed, undescribedAll_undescribedAll cs]

theorem undescribedAll_undescribedAll : ∀ cs, undescribedAll (undescribedAll cs) = undescribedAll cs
  | [] => rfl
  | c :: cs => by
    rw [undescribedAll, undescribedAll, undescribed_undescribed c, undescribedAll_undescribedAll cs]

end

theorem length_children_eq {p q : Packet} (h : p.undescribed = q.undescribed) :
    p.children.length = q.children.length := by
  rw [← List.length_map undescribed, ← undescribed_children, h, undescribed_children, List.length_map]

/-- Packets that differ in descriptions have the same children, up to descriptions. -/
theorem getElem?_children {p q : Packet} (h : p.undescribed = q.undescribed) (i : ℕ) :
    p.children[i]? = none ∧ q.children[i]? = none ∨
      ∃ c d, p.children[i]? = some c ∧ q.children[i]? = some d ∧ c.undescribed = d.undescribed := by
  have hcs : p.children[i]?.map undescribed = q.children[i]?.map undescribed := by
    rw [← List.getElem?_map, ← List.getElem?_map, ← undescribed_children, h, undescribed_children]
  cases hp : p.children[i]? with
  | none => simpa [hp, eq_comm] using hcs
  | some c =>
    rw [hp, Option.map_some, eq_comm, Option.map_eq_some_iff] at hcs
    obtain ⟨d, hq, hd⟩ := hcs
    exact .inr ⟨c, d, rfl, hq, hd.symm⟩

end Packet

end Ber
