import GoLdap.Ber.Codec

/-!
# Ber.Schema — typed values in packets

A peer that knows the type of an element reads a value out of the packet the library gives it.  `Conveys` says that a
packet, written by one side and read by the other, holds a value in this sense.  There is one rule for each form of
element, so that the readers of a protocol are checked against its writers element by element.
-/

namespace Ber

open Go Octets

/-! ## Readers -/

/-- The class, the form and the tag of an element. -/
def Packet.Is (cls : Class) (type : TagType) (tag : ℕ) (p : Packet) : Prop :=
  p.classType = cls ∧ p.tagType = type ∧ p.tag = tag

instance (cls : Class) (type : TagType) (tag : ℕ) (p : Packet) : Decidable (p.Is cls type tag) :=
  inferInstanceAs (Decidable (_ ∧ _))

/-- The contents of a primitive element. -/
def readOctets (cls : Class) (tag : ℕ) (p : Packet) : Option GoString :=
  if p.Is cls .primitive tag then some p.data else none

/-- An OCTET STRING. -/
def readString (p : Packet) : Option GoString := readOctets .universal tagOctetString p

def Value.int? : Value → Option ℤ
  | .int n => some n
  | _ => none

def Value.bool? : Value → Option Bool
  | .bool b => some b
  | _ => none

/-- An INTEGER or an ENUMERATED. -/
def readNumber (tag : ℕ) (p : Packet) : Option ℤ := if p.Is .universal .primitive tag then p.value.int? else none

/-- A BOOLEAN. -/
def readBoolean (p : Packet) : Option Bool := if p.Is .universal .primitive tagBoolean then p.value.bool? else none

/-- The elements of a constructed element. -/
def readElements (cls : Class) (tag : ℕ) (p : Packet) : Option (List Packet) :=
  if p.Is cls .constructed tag then some p.children else none

/-- All of a list are read. -/
def readAllWith {α : Type} (read : Packet → Option α) : List Packet → Option (List α)
  | [] => some []
  | p :: ps => do
    let a ← read p
    let as ← readAllWith read ps
    return a :: as

/-- A SEQUENCE OF or a SET OF. -/
def readListOf {α : Type} (cls : Class) (tag : ℕ) (read : Packet → Option α) (p : Packet) : Option (List α) := do
  readAllWith read (← readElements cls tag p)

/-- An optional element at the end of a sequence. -/
def readLast {α : Type} (read : Packet → Option α) : List Packet → Option (Option α)
  | [] => some none
  | [p] => some <$> read p
  | _ => none

/-! ## Elements off the wire -/

theorem wire_string (P : Primitives) (s d : GoString) : (newString .universal .primitive tagOctetString s d).wire P =
    readPrimitive .universal tagOctetString (.string s) s := by
  rw [wire_primitive _ rfl]
  rfl

theorem wire_context (P : Primitives) (tag : ℕ) (s d : GoString) :
    (newString .context .primitive tag s d).wire P = readPrimitive .context tag .nil s := by
  rw [wire_primitive _ rfl]
  rfl

theorem wire_number (L : LawfulCodec) {tag : ℕ} (htag : tag = tagInteger ∨ tag = tagEnumerated) {n : ℤ} (hn : Fits 8 n)
    (d : GoString) : (newInteger L.toEncoder .universal .primitive tag n d).wire L.toPrimitives =
      readPrimitive .universal tag (.int n) (L.integer n) := by
  have hne : tag ≠ tagOctetString := by
    obtain rfl | rfl := htag <;> decide
  have hvalue : decodedValue L.toPrimitives .universal tag (L.integer n) = .int n := by
    rw [decodedValue, if_neg (by simp), if_neg hne, if_pos htag, L.intOrZero_integer hn]
  rw [wire_primitive _ rfl, ← hvalue]
  rfl

/-! ## What a packet conveys -/

/-- The packet is well-formed, and what the other side reads of it is the value. -/
structure Conveys {α : Type} (L : LawfulCodec) (read : Packet → Option α) (p : Packet) (a : α) : Prop where
  encodable : Encodable L.toEncoder p
  reads : read (p.wire L.toPrimitives) = some a

section

variable {α : Type} {L : LawfulCodec} {cls : Class} {tag : ℕ} {d : GoString} {p : Packet}

/-- The octets of the packet are read as the value. -/
theorem Conveys.decode {read : Packet → Option α} {a : α} (h : Conveys L read p a) :
    ∃ q, L.decodePacketErr (p.bytes L.toEncoder) = .ok q ∧ read q = some a :=
  ⟨_, L.decode_bytes p h.encodable, h.reads⟩

theorem Conveys.of_eq {read : Packet → Option α} {a b : α} (h : Conveys L read p a) (hab : a = b) :
    Conveys L read p b :=
  hab ▸ h

/-- A primitive element of a class other than the universal one. -/
theorem conveys_octets (htype : p.tagType = .primitive) (hcls : p.classType ≠ .universal) :
    Conveys L (readOctets p.classType p.tag) p p.data := by
  refine ⟨.primitive htype fun h => absurd h hcls, ?_⟩
  rw [wire_primitive _ htype]
  exact if_pos ⟨rfl, rfl, rfl⟩

theorem conveys_context (s : GoString) : Conveys L (readOctets .context tag) (newString .context .primitive tag s d) s :=
  conveys_octets (p := newString .context .primitive tag s d) rfl (by rintro ⟨⟩)

/-- A primitive element with the tag of an octet string. -/
theorem conveys_string_of (htype : p.tagType = .primitive) (hcls : p.classType = .universal)
    (htag : p.tag = tagOctetString) : Conveys L readString p p.data := by
  refine ⟨.universal tagOctetString (by decide) htype htag, ?_⟩
  rw [wire_primitive _ htype, hcls, htag, readString, readOctets, if_pos]
  · rfl
  · exact ⟨rfl, rfl, rfl⟩

theorem conveys_string (s : GoString) : Conveys L readString (newString .universal .primitive tagOctetString s d) s :=
  conveys_string_of rfl rfl rfl

theorem conveys_number (htag : tag = tagInteger ∨ tag = tagEnumerated) {n : ℤ} (hn : Fits 8 n) :
    Conveys L (readNumber tag) (newInteger L.toEncoder .universal .primitive tag n d) n := by
  refine ⟨.universal tag ?_ rfl rfl, ?_⟩
  · obtain rfl | rfl := htag <;> decide
  rw [wire_number L htag hn]
  exact if_pos ⟨rfl, rfl, rfl⟩

/-- A boolean is one octet, which is zero for `false` only. -/
theorem conveys_boolean_of {b : Bool} {x : UInt8} (htype : p.tagType = .primitive) (hcls : p.classType = .universal)
    (htag : p.tag = tagBoolean) (hdata : p.data = [x]) (hx : x = 0 ↔ b = false) : Conveys L readBoolean p b := by
  refine ⟨.universal tagBoolean (by decide) htype htag, ?_⟩
  have hvalue : decodedValue L.toPrimitives .universal tagBoolean [x] = .bool b := by
    rw [decodedValue, if_neg (by simp), if_neg (by decide), if_neg (by decide), if_pos rfl]
    have hzero : L.intOrZero [x] = 0 ↔ b = false := (L.intOrZero_octet x).trans hx
    cases b <;> simp [hzero]
  rw [wire_primitive _ htype, hcls, htag, hdata, readBoolean, if_pos ⟨rfl, rfl, rfl⟩]
  show (decodedValue L.toPrimitives .universal tagBoolean [x]).bool? = some b
  rw [hvalue]
  rfl

theorem conveys_boolean (b : Bool) :
    Conveys L readBoolean (newBoolean L.toEncoder .universal .primitive tagBoolean b d) b := by
  obtain ⟨x, hx, hzero⟩ := L.boolean_eq b
  exact conveys_boolean_of rfl rfl rfl hx hzero

/-- The elements of a sequence, as the other side sees them. -/
theorem conveys_elements {cs : List Packet} (h : ∀ c ∈ cs, Encodable L.toEncoder c) :
    Conveys L (readElements cls tag) (constructedOf L.toEncoder cls tag d cs) (cs.map (Packet.wire L.toPrimitives)) := by
  refine ⟨encodable_constructedOf h, ?_⟩
  rw [wire_constructedOf, constructedOf_eq]
  exact if_pos ⟨rfl, rfl, rfl⟩

/-- A value that is read from the elements of a sequence. -/
theorem Conveys.bind (cs : List Packet) (h : ∀ c ∈ cs, Encodable L.toEncoder c) {read : List Packet → Option α} {a : α}
    (hread : read (cs.map (Packet.wire L.toPrimitives)) = some a) :
    Conveys L (fun p => readElements cls tag p >>= read) (constructedOf L.toEncoder cls tag d cs) a := by
  obtain ⟨hencodable, hreads⟩ : Conveys L (readElements cls tag) (constructedOf L.toEncoder cls tag d cs) _ :=
    conveys_elements h
  exact ⟨hencodable, by rw [hreads]; exact hread⟩

theorem readAllWith_conveyed {read : Packet → Option α} {cs : List Packet} {as : List α}
    (h : List.Forall₂ (Conveys L read) cs as) : readAllWith read (cs.map (Packet.wire L.toPrimitives)) = some as := by
  induction h with
  | nil => rfl
  | cons hc _ ih => rw [List.map_cons, readAllWith, hc.reads, ih]; rfl

theorem encodable_conveyed {read : Packet → Option α} {cs : List Packet} {as : List α}
    (h : List.Forall₂ (Conveys L read) cs as) : ∀ c ∈ cs, Encodable L.toEncoder c := by
  induction h with
  | nil => rintro _ ⟨⟩
  | cons hc _ ih => exact List.forall_mem_cons.mpr ⟨hc.encodable, ih⟩

/-- The values of a list. -/
theorem conveys_listOf {read : Packet → Option α} {cs : List Packet} {as : List α}
    (h : List.Forall₂ (Conveys L read) cs as) :
    Conveys L (readListOf cls tag read) (constructedOf L.toEncoder cls tag d cs) as :=
  .bind cs (encodable_conveyed h) (readAllWith_conveyed h)

/-- The values of a list that is made of them one by one. -/
theorem conveys_map {β : Type} {read : Packet → Option α} {write : β → Packet} {value : β → α} {bs : List β}
    (h : ∀ b ∈ bs, Conveys L read (write b) (value b)) :
    Conveys L (readListOf cls tag read) (constructedOf L.toEncoder cls tag d (bs.map write)) (bs.map value) := by
  refine conveys_listOf ?_
  induction bs with
  | nil => exact .nil
  | cons b bs ih =>
    obtain ⟨hb, hbs⟩ := List.forall_mem_cons.mp h
    exact .cons hb (ih hbs)

end

/-! ## Packets with the same skeleton -/

section

variable (P : Primitives)

mutual

/-- What is read depends on classes, types, tags and contents only. -/
theorem wire_skeleton : ∀ p : Packet, p.skeleton.wire P = p.wire P
  | ⟨cls, .primitive, tag, _, _, _, data, cs⟩ => by rw [Packet.skeleton, Packet.wire, Packet.wire]
  | ⟨cls, .constructed, tag, _, _, _, data, cs⟩ => by
    rw [Packet.skeleton, Packet.wire, Packet.wire, wireAll_skeletons cs]

theorem wireAll_skeletons : ∀ cs : List Packet, wireAll P (skeletons cs) = wireAll P cs
  | [] => rfl
  | c :: cs => by rw [skeletons, wireAll, wireAll, wire_skeleton c, wireAll_skeletons cs]

end

mutual

/-- A packet off the wire has no descriptions. -/
theorem undescribed_wire : ∀ p : Packet, (p.wire P).undescribed = p.wire P
  | ⟨cls, .primitive, tag, _, _, _, data, cs⟩ => by
    rw [Packet.wire, Packet.undescribed_eq]
    rfl
  | ⟨cls, .constructed, tag, _, _, _, data, cs⟩ => by
    rw [Packet.wire, readConstructed, foldl_appendChild, Packet.undescribed_eq]
    simp only [encode, List.nil_append]
    rw [← undescribedAll_eq_map, undescribedAll_wireAll cs]

theorem undescribedAll_wireAll : ∀ cs : List Packet, undescribedAll (wireAll P cs) = wireAll P cs
  | [] => rfl
  | c :: cs => by rw [wireAll, undescribedAll, undescribed_wire c, undescribedAll_wireAll cs]

end

theorem wire_eq_of_skeleton {p q : Packet} (h : p.skeleton = q.skeleton) : p.wire P = q.wire P := by
  rw [← wire_skeleton, h, wire_skeleton]

end

theorem Encodable.of_skeleton {E : Encoder} {p q : Packet} (hp : Encodable E p) (h : p.skeleton = q.skeleton) :
    Encodable E q := by
  induction hp generalizing q with
  | primitive htype htag =>
    rw [Packet.skeleton_eq, Packet.skeleton_eq q, Packet.mk.injEq] at h
    obtain ⟨hcls, htype', htag', -⟩ := h
    exact .primitive (htype' ▸ htype) (by rw [← hcls, ← htag']; exact htag)
  | @constructed p htype hdata _ ih =>
    rw [Packet.skeleton_eq, Packet.skeleton_eq q, Packet.mk.injEq] at h
    obtain ⟨-, htype', -, -, -, -, hdata', hcs⟩ := h
    refine .constructed (htype' ▸ htype) ?_ fun d hd => ?_
    · rw [← hdata', hdata, contents_eq_of_skeleton E hcs]
    · obtain ⟨c, hc, hcd⟩ : ∃ c ∈ p.children, c.skeleton = d.skeleton := by
        have hmem : d.skeleton ∈ p.children.map Packet.skeleton := hcs ▸ List.mem_map_of_mem hd
        exact List.mem_map.mp hmem
      exact ih c hc hcd

theorem Conveys.of_skeleton {α : Type} {L : LawfulCodec} {read : Packet → Option α} {p q : Packet} {a : α}
    (hp : Conveys L read p a) (h : p.skeleton = q.skeleton) : Conveys L read q a :=
  ⟨hp.encodable.of_skeleton h, by rw [← wire_eq_of_skeleton _ h]; exact hp.reads⟩

/-- Appending in a loop. -/
theorem foldl_appendChild_map {β : Type} (E : Encoder) (write : β → Packet) (bs : List β) (p : Packet) :
    bs.foldl (fun q b => q.appendChild E (write b)) p = (bs.map write).foldl (Packet.appendChild E) p := by
  rw [List.foldl_map]

end Ber
