import GoLdap.Ber.Codec
import Mathlib.Data.Nat.Log

/-!
# Ber.Basic — a codec by the basic encoding rules

Identifier octets with low and high tag numbers, definite lengths in short and long form, integers with the fewest octets
of two's complement.  It reads what it writes, so the laws of `LawfulCodec` hold of a codec.
-/

namespace Ber

open Go Octets

/-! ## Identifier octets -/

def identifier (cls : Class) (type : TagType) (tag : ℕ) : GoString :=
  if tag < 31 then [UInt8.ofNat (cls.bits + type.bits + tag)]
  else UInt8.ofNat (cls.bits + type.bits + 31) :: base128 tag

def classOf (b : ℕ) : Class :=
  match b / 64 with
  | 0 => .universal
  | 1 => .application
  | 2 => .context
  | _ => .private

def tagTypeOf (b : ℕ) : TagType :=
  match b / 32 % 2 with
  | 0 => .primitive
  | _ => .constructed

def readIdentifier : GoString → Option ((Class × TagType × ℕ) × GoString)
  | [] => none
  | b :: s =>
    if b.toNat % 32 < 31 then some ((classOf b.toNat, tagTypeOf b.toNat, b.toNat % 32), s)
    else (readBase128 0 s).map fun (tag, rest) => ((classOf b.toNat, tagTypeOf b.toNat, tag), rest)

theorem readIdentifier_octet (cls : Class) (type : TagType) {low : ℕ} (hlow : low < 32) :
    (UInt8.ofNat (cls.bits + type.bits + low)).toNat % 32 = low ∧
      classOf (UInt8.ofNat (cls.bits + type.bits + low)).toNat = cls ∧
      tagTypeOf (UInt8.ofNat (cls.bits + type.bits + low)).toNat = type := by
  have hb : (UInt8.ofNat (cls.bits + type.bits + low)).toNat = cls.bits + type.bits + low := by
    rw [UInt8.toNat_ofNat']
    cases cls <;> cases type <;> simp only [Class.bits, TagType.bits] <;> omega
  rw [hb]
  refine ⟨?_, ?_, ?_⟩
  · cases cls <;> cases type <;> simp only [Class.bits, TagType.bits] <;> omega
  · have h : (cls.bits + type.bits + low) / 64 = cls.bits / 64 := by
      cases cls <;> cases type <;> simp only [Class.bits, TagType.bits] <;> omega
    rw [classOf, h]
    cases cls <;> rfl
  · have h : (cls.bits + type.bits + low) / 32 % 2 = type.bits / 32 := by
      cases cls <;> cases type <;> simp only [Class.bits, TagType.bits] <;> omega
    rw [tagTypeOf, h]
    cases type <;> rfl

theorem readIdentifier_identifier (cls : Class) (type : TagType) (tag : ℕ) (rest : GoString) :
    readIdentifier (identifier cls type tag ++ rest) = some ((cls, type, tag), rest) := by
  unfold identifier
  split
  · rename_i h
    obtain ⟨h1, h2, h3⟩ := readIdentifier_octet cls type (Nat.lt_succ_of_lt h)
    rw [List.singleton_append, readIdentifier, h1, h2, h3, if_pos h]
  · obtain ⟨h1, h2, h3⟩ := readIdentifier_octet cls type (show 31 < 32 by decide)
    rw [List.cons_append, readIdentifier, h1, h2, h3, if_neg (lt_irrefl 31), readBase128_base128]
    rfl

/-! ## Length octets -/

/-- The number of octets of a number. -/
def octetCount (n : ℕ) : ℕ := Nat.log 256 n + 1

theorem lt_pow_octetCount (n : ℕ) : n < 256 ^ octetCount n := Nat.lt_pow_succ_log_self (by decide) n

/-- Short form, long form, and beyond the 126 octets of the long form the reserved first octet with a number in base 128. -/
def lengthOctets (n : ℕ) : GoString :=
  if n < 128 then [UInt8.ofNat n]
  else if octetCount n < 127 then UInt8.ofNat (128 + octetCount n) :: bigEndian (octetCount n) n
  else 0xFF :: base128 n

def readLength : GoString → Option (ℕ × GoString)
  | [] => none
  | b :: s =>
    if b.toNat < 128 then some (b.toNat, s)
    else if b.toNat < 255 then some (unsigned (s.take (b.toNat - 128)), s.drop (b.toNat - 128))
    else readBase128 0 s

theorem readLength_lengthOctets (n : ℕ) (rest : GoString) :
    readLength (lengthOctets n ++ rest) = some (n, rest) := by
  unfold lengthOctets
  split
  · rename_i h
    have hb : (UInt8.ofNat n).toNat = n := by rw [UInt8.toNat_ofNat']; omega
    rw [List.singleton_append, readLength, hb, if_pos h]
  · split
    · rename_i h
      have hb : (UInt8.ofNat (128 + octetCount n)).toNat = 128 + octetCount n := by rw [UInt8.toNat_ofNat']; omega
      have hlen : (bigEndian (octetCount n) n).length = octetCount n := length_bigEndian _ _
      rw [List.cons_append, readLength, hb, if_neg (by omega), if_pos (by omega), Nat.add_sub_cancel_left]
      rw [List.take_left' hlen, List.drop_left' hlen, unsigned_bigEndian, Nat.mod_eq_of_lt (lt_pow_octetCount n)]
    · rw [List.cons_append]
      exact readBase128_base128 n rest

/-! ## Packets -/

/-- Numbers in two's complement: at most eight octets are read, and as few as possible are written. -/
def basicPrimitives : Primitives where
  header cls type tag length := identifier cls type tag ++ lengthOctets length
  boolean b := if b then [1] else [0]
  integer n := signed (width n 7 1) n
  parseInt64 bs := if bs.length ≤ 8 then .ok (twosComplement bs) else .error (.new "integer too large")

/-- Packets one after the other, until the octets end. -/
def readAll (read : GoString → Option (Packet × GoString)) : ℕ → GoString → Option (List Packet)
  | _, [] => some []
  | 0, _ :: _ => none
  | fuel + 1, b :: s =>
    match read (b :: s) with
    | none => none
    | some (p, rest) => (readAll read fuel rest).map (p :: ·)

/-- The packet at the start of an octet string, nested at most as deep as the fuel, and what follows it. -/
def readPacket : ℕ → GoString → Option (Packet × GoString)
  | 0, _ => none
  | fuel + 1, s =>
    match readIdentifier s with
    | none => none
    | some ((cls, type, tag), s) =>
      match readLength s with
      | none => none
      | some (length, s) =>
        if s.length < length then none
        else match type with
          | .primitive => some (wirePrimitive basicPrimitives cls tag (s.take length), s.drop length)
          | .constructed =>
            (readAll (readPacket fuel) length (s.take length)).map fun cs =>
              (readConstructed basicPrimitives.toEncoder cls tag cs, s.drop length)

/-- The codec: every level of nesting takes octets of its own, so their number is fuel enough. -/
def basicCodec : Codec where
  toPrimitives := basicPrimitives
  decodePacketErr data :=
    match readPacket data.length data with
    | some (p, _) => .ok p
    | none => .error (.new "unexpected EOF")
  uuidFromBytes b := if h : b.length = 16 then .ok ⟨b, h⟩ else .error (.fmtNum "invalid UUID (got %d bytes)" b.length)

theorem length_identifier_pos (cls : Class) (type : TagType) (tag : ℕ) : 0 < (identifier cls type tag).length := by
  unfold identifier
  split <;> simp

theorem length_bytes (p : Packet) : p.data.length < (p.bytes basicPrimitives.toEncoder).length := by
  have := length_identifier_pos p.classType p.tagType p.tag
  simp only [Packet.bytes, basicPrimitives, List.length_append]
  omega

theorem length_bytes_le {c : Packet} {cs : List Packet} (h : c ∈ cs) :
    (c.bytes basicPrimitives.toEncoder).length ≤ (contents basicPrimitives.toEncoder cs).length := by
  obtain ⟨before, after, rfl⟩ := List.append_of_mem h
  rw [contents_append, contents_cons]
  simp only [List.length_append]
  omega

theorem readAll_contents {read : GoString → Option (Packet × GoString)} {cs : List Packet}
    (hread : ∀ c ∈ cs, ∀ rest, read (c.bytes basicPrimitives.toEncoder ++ rest) = some (c.wire basicPrimitives, rest))
    {fuel : ℕ} (hfuel : (contents basicPrimitives.toEncoder cs).length ≤ fuel) :
    readAll read fuel (contents basicPrimitives.toEncoder cs) = some (wireAll basicPrimitives cs) := by
  induction cs generalizing fuel with
  | nil => cases fuel <;> rfl
  | cons c cs ih =>
    have hc := hread c List.mem_cons_self (contents basicPrimitives.toEncoder cs)
    have hpos := length_bytes c
    rw [contents_cons, List.length_append] at hfuel
    rw [contents_cons, wireAll]
    -- the octets of a child are not empty, so the loop takes a turn
    obtain ⟨b, s, hs⟩ : ∃ b s, c.bytes basicPrimitives.toEncoder ++ contents basicPrimitives.toEncoder cs = b :: s :=
      List.exists_cons_of_ne_nil (List.append_ne_nil_of_left_ne_nil (List.ne_nil_of_length_pos (by omega)) _)
    rw [hs] at hc ⊢
    cases fuel with
    | zero => omega
    | succ fuel =>
      rw [readAll, hc]
      simp only
      rw [ih (fun d hd => hread d (List.mem_cons_of_mem c hd)) (by omega), Option.map_some]

/-- The octets of a packet are read as its tree, with any octets after them. -/
theorem readPacket_bytes {p : Packet} (hp : Encodable basicPrimitives.toEncoder p) (rest : GoString) {fuel : ℕ}
    (hfuel : (p.bytes basicPrimitives.toEncoder).length ≤ fuel) :
    readPacket fuel (p.bytes basicPrimitives.toEncoder ++ rest) = some (p.wire basicPrimitives, rest) := by
  induction hp generalizing rest fuel with
  | @primitive p htype _ =>
    have hpos := length_bytes p
    obtain ⟨cls, type, tag, d, v, bv, data, cs⟩ := p
    subst htype
    obtain ⟨fuel, rfl⟩ : ∃ k, fuel = k + 1 := ⟨fuel - 1, by omega⟩
    simp only [Packet.bytes, basicPrimitives, List.append_assoc]
    rw [readPacket, readIdentifier_identifier]
    simp only
    rw [readLength_lengthOctets]
    simp [Packet.wire, basicPrimitives]
  | @constructed p htype hdata hcs ih =>
    have hpos := length_bytes p
    obtain ⟨cls, type, tag, d, v, bv, data, cs⟩ := p
    subst htype
    obtain ⟨fuel, rfl⟩ : ∃ k, fuel = k + 1 := ⟨fuel - 1, by omega⟩
    have hall : readAll (readPacket fuel) data.length data = some (wireAll basicPrimitives cs) := by
      rw [show data = contents basicPrimitives.toEncoder cs from hdata]
      refine readAll_contents (fun c hc rest => ih c hc rest ?_) le_rfl
      have hle := length_bytes_le hc
      have hdata' : data = contents basicPrimitives.toEncoder cs := hdata
      rw [← hdata'] at hle
      simp only at hpos
      omega
    simp only [Packet.bytes, basicPrimitives, List.append_assoc]
    rw [readPacket, readIdentifier_identifier]
    simp only
    rw [readLength_lengthOctets]
    simp [hall, Packet.wire, basicPrimitives]

/-- The basic encoding rules are lawful. -/
def basicLawful : LawfulCodec where
  toCodec := basicCodec
  parseInt64_eq bs h := if_pos h
  twosComplement_integer n h := by
    have hw := width_le n 7 1
    exact ⟨(length_signed _ _).trans_le hw.2, (fits_width 7 1 h).twosComplement_signed hw.1⟩
  boolean_eq b := by cases b <;> exact ⟨_, rfl, by decide⟩
  decode_bytes p hp := by
    have h := readPacket_bytes hp [] le_rfl
    rw [List.append_nil] at h
    simp only [basicCodec]
    rw [h]
  uuidFromBytes_eq_ok b u := by
    have hlen := u.property
    constructor
    · intro h
      simp only [basicCodec] at h
      split_ifs at h
      rw [← Except.ok.inj h]
    · rintro rfl
      exact dif_pos hlen

end Ber
