import GoLdap.Go.Error
import GoLdap.Go.Fold
import GoLdap.Lib.GreedyMatch
import Mathlib.Data.List.Sort

/-!
# DN.Model — distinguished names (`dn.go`)

The data types, the parser, the printer and the comparisons of `dn.go`, function by function.

Two things outside the repository are parameters: the fold orbits `F` of `unicode.SimpleFold`, and `readPacket`, which
stands for `ber.ReadPacket` on a byte buffer (the data of the packet read and the bytes left in the buffer).
-/

namespace GoLdap

open Go

/-- `AttributeTypeAndValue`. -/
structure AttributeTypeAndValue where
  type : GoString
  value : GoString
  deriving DecidableEq, Repr

/-- `RelativeDN`. -/
structure RelativeDN where
  attributes : List AttributeTypeAndValue
  deriving DecidableEq, Repr

/-- `DN`. -/
structure DN where
  rdns : List RelativeDN
  deriving DecidableEq, Repr

/-! ## Printing -/

/-- `escapeChar`: the character behind a backslash. -/
def escapeChar (c : UInt8) : GoString := [ch '\\', c]

/-- `escapeHex`: the two hexadecimal digits behind a backslash. -/
def escapeHex (c : UInt8) : GoString := ch '\\' :: hexEncode c

/-- One pass of the loop of `encodeString`: what is written for the byte `c`, knowing whether it is the first and
whether it is the last byte of the string. -/
def encodeChar (isValue first last : Bool) (c : UInt8) : GoString :=
  if first && (c == ch ' ' || c == ch '#') then escapeChar c
  else if last && c == ch ' ' then escapeChar c
  else if [ch '"', ch '+', ch ',', ch ';', ch '<', ch '>', ch '\\'].contains c then escapeChar c
  else if !isValue && c == ch '=' then escapeChar c
  else if c < ch ' ' || ch '~' < c then escapeHex c
  else [c]

def encodeLoop (isValue : Bool) : Bool → GoString → GoString
  | _, [] => []
  | first, c :: rest => encodeChar isValue first rest.isEmpty c ++ encodeLoop isValue false rest

/-- `encodeString`: escape a string according to RFC 4514. -/
def encodeString (value : GoString) (isValue : Bool) : GoString := encodeLoop isValue true value

section Fold

variable (F : FoldOrbits)

/-- `foldRune`: follow the orbit upwards until it wraps. -/
def foldRune (r : ℕ) : ℕ :=
  if F.next r ≤ r then r else foldRune (F.next r)
termination_by maxRune - r
decreasing_by
  have hlt : r < F.next r := Nat.lt_of_not_le ‹_›
  have := F.next_le hlt
  omega

/-- One code point of `foldString`: ASCII letters are lowered, anything else outside ASCII goes through `foldRune`. -/
def foldChar (r : ℕ) : ℕ :=
  if r < 0x80 then (if 0x41 ≤ r ∧ r ≤ 0x5A then r + 0x20 else r) else foldRune F r

/-- `foldString`. -/
def foldString (s : GoString) : GoString := ((runes s).map (foldChar F)).flatMap encodeRune

/-- `(*AttributeTypeAndValue).String`. -/
def AttributeTypeAndValue.string (a : AttributeTypeAndValue) : GoString :=
  encodeString (foldString F a.type) false ++ [ch '='] ++ encodeString a.value true

/-- `sort.Strings`: byte order. -/
def sortStrings (l : List GoString) : List GoString := l.insertionSort (· ≤ ·)

/-- `(*RelativeDN).String`. -/
def RelativeDN.string (r : RelativeDN) : GoString :=
  join [ch '+'] (sortStrings (r.attributes.map (·.string F)))

/-- `(*DN).String`. -/
def DN.string (d : DN) : GoString := join [ch ','] (d.rdns.map (·.string F))

end Fold

/-! ## Unescaping -/

/-- `stripLeadingAndTrailingSpaces`. -/
def stripLeadingAndTrailingSpaces (inVal : GoString) : GoString :=
  let noSpaces := trim (ch ' ') inVal
  if 0 < noSpaces.length ∧ inVal.getLast? = some (ch ' ') then
    -- a trailing space is escaped when an odd number of backslashes precedes it
    if trailing (ch '\\') noSpaces % 2 = 1 then noSpaces ++ [ch ' '] else noSpaces
  else noSpaces

/-- The code point of an ASCII character literal. -/
def rn (c : Char) : ℕ := c.toNat

/-- The characters `decodeString` takes literally behind a backslash. -/
def isEscapable (r : ℕ) : Bool :=
  [rn ' ', rn '"', rn '#', rn '+', rn ',', rn ';', rn '<', rn '=', rn '>', rn '\\'].contains r

/-- The characters `decodeString` rejects unless they are escaped. -/
def mustBeEscaped (r : ℕ) : Bool := [rn '"', rn ';', rn '<', rn '>'].contains r

/-- `string(r)` for a slice of code points. -/
def ofRunes (l : List ℕ) : GoString := l.flatMap encodeRune

/-- The loop of `decodeString` over the code points `s`; `whole` is the slice it started with, for the message. -/
def decodeLoop (whole : List ℕ) : List ℕ → Except Error GoString
  | [] => .ok []
  | c :: s =>
    if c ≠ rn '\\' then
      if mustBeEscaped c then .error (.fmt "got unescaped character: '%s'" (encodeRune c))
      else if c = 0 then .error (.new "got unescaped NULL character")
      else do
        let rest ← decodeLoop whole s
        pure (encodeRune c ++ rest)
    else
      match s with
      | [] => .error (.fmt "got corrupted escaped character: '%s'" (ofRunes whole))
      | e :: s =>
        if isEscapable e then do
          let rest ← decodeLoop whole s
          pure (encodeRune e ++ rest)
        else
          match s with
          | [] => .error (.fmt "failed to decode escaped character: encoding/hex: invalid byte: %s" (encodeRune e))
          | e' :: s =>
            match encodeRune e ++ encodeRune e' with
            | [x, y] =>
              match hexDecodePair x y with
              | none => .error (.fmtNum "failed to decode escaped character: encoding/hex: invalid byte: %#U"
                  (hexInvalidByte x y).toNat)
              | some b => do
                let rest ← decodeLoop whole s
                pure (b :: rest)
            | xx => .error (.fmt "failed to decode escaped character: invalid byte: %s" xx)

/-- `decodeString`: remove the padding spaces and unescape. -/
def decodeString (s : GoString) : Except Error GoString :=
  let rs := runes (stripLeadingAndTrailingSpaces s)
  decodeLoop rs rs

section Parse

variable (readPacket : GoString → Except Error (GoString × GoString))

/-- `decodeEncodedString`: the value behind `#` is the hexadecimal BER encoding of exactly one element. -/
def decodeEncodedString (s : GoString) : Except Error GoString :=
  match hexDecodeString s with
  | none => .error (.fmt "failed to decode BER encoding: %w" s)
  | some decoded =>
    match readPacket decoded with
    | .error e => .error (.fmt "failed to decode BER encoding: %w" e.arg)
    | .ok (data, left) =>
      if left.length ≠ 0 then .error (.new "failed to decode BER encoding: trailing bytes after value")
      else .ok data

/-- The value that `setValue` stores. -/
def setValue (s : GoString) : Except Error GoString :=
  match s with
  | c :: rest => if c = ch '#' then decodeEncodedString readPacket rest else decodeString s
  | [] => decodeString s

/-! ## Parsing -/

/-- The variables of the loop of `ParseDN`: the finished `dn.RDNs`, the attributes of `rdn`, the type of `attr` (empty
until its `=` is seen), the flag `escaping`, and `str[startPos:i]`. -/
structure ParseState where
  rdns : List RelativeDN
  attributes : List AttributeTypeAndValue
  type : GoString
  escaping : Bool
  token : GoString

/-- A failing `ParseDN` returns an error together with a nil or a partially built DN. -/
structure ParseError where
  err : Error
  dn : Option DN

/-- `appendAttributesToRDN`. -/
def ParseState.appendAttributesToRDN (st : ParseState) (value : GoString) (last : Bool) : ParseState :=
  let attributes := st.attributes ++ [⟨st.type, value⟩]
  if last then ⟨st.rdns ++ [⟨attributes⟩], [], [], false, []⟩ else ⟨st.rdns, attributes, [], false, []⟩

/-- One pass of the loop of `ParseDN`. -/
def parseStep (st : ParseState) (c : UInt8) : Except ParseError ParseState :=
  if st.escaping then .ok { st with escaping := false, token := st.token ++ [c] }
  else if c = ch '\\' then .ok { st with escaping := true, token := st.token ++ [c] }
  else if c = ch '=' ∧ st.type.length = 0 then
    match decodeString st.token with
    | .error e => .error ⟨e, none⟩
    | .ok t => .ok { st with type := t, token := [] }
  else if c = ch ',' ∨ c = ch '+' ∨ c = ch ';' then
    if st.type.length = 0 then .error ⟨.new "incomplete type, value pair", some ⟨st.rdns⟩⟩
    else
      match setValue readPacket st.token with
      | .error e => .error ⟨e, none⟩
      | .ok v => .ok (st.appendAttributesToRDN v (c = ch ',' ∨ c = ch ';'))
  else .ok { st with token := st.token ++ [c] }

/-- What `ParseDN` does after the loop. -/
def parseEnd (st : ParseState) : Except ParseError DN :=
  if st.type.length = 0 then .error ⟨.new "DN ended with incomplete type, value pair", some ⟨st.rdns⟩⟩
  else
    match setValue readPacket st.token with
    | .error e => .error ⟨e, some ⟨st.rdns⟩⟩
    | .ok v => .ok ⟨(st.appendAttributesToRDN v true).rdns⟩

/-- `ParseDN`. -/
def parseDN (s : GoString) : Except ParseError DN :=
  if isBlank s then .ok ⟨[]⟩
  else do
    let st ← s.foldlM (parseStep readPacket) ⟨[], [], [], false, []⟩
    parseEnd readPacket st

end Parse

/-! ## Comparison -/

section Equal

variable (F : FoldOrbits)

/-- `(*AttributeTypeAndValue).Equal`. -/
def AttributeTypeAndValue.equal (a other : AttributeTypeAndValue) : Bool :=
  F.equalFold a.type other.type && a.value == other.value

/-- `(*AttributeTypeAndValue).EqualFold`. -/
def AttributeTypeAndValue.equalFold (a other : AttributeTypeAndValue) : Bool :=
  F.equalFold a.type other.type && F.equalFold a.value other.value

/-- The loops of `hasAllAttributes` and `hasAllAttributesFold`: every attribute consumes a match of its own. -/
def RelativeDN.hasAllBy (eq : AttributeTypeAndValue → AttributeTypeAndValue → Bool) (r : RelativeDN)
    (attrs : List AttributeTypeAndValue) : Bool :=
  GreedyMatch.coverAll eq (GreedyMatch.fresh r.attributes) attrs

/-- `(*RelativeDN).hasAllAttributes`. -/
def RelativeDN.hasAllAttributes (r : RelativeDN) (attrs : List AttributeTypeAndValue) : Bool :=
  r.hasAllBy (AttributeTypeAndValue.equal F) attrs

/-- `(*RelativeDN).Equal`. -/
def RelativeDN.equal (r other : RelativeDN) : Bool :=
  if r.attributes.length ≠ other.attributes.length then false
  else r.hasAllAttributes F other.attributes && other.hasAllAttributes F r.attributes

/-- `(*RelativeDN).hasAllAttributesFold`. -/
def RelativeDN.hasAllAttributesFold (r : RelativeDN) (attrs : List AttributeTypeAndValue) : Bool :=
  r.hasAllBy (AttributeTypeAndValue.equalFold F) attrs

/-- `(*RelativeDN).EqualFold`. -/
def RelativeDN.equalFold (r other : RelativeDN) : Bool :=
  if r.attributes.length ≠ other.attributes.length then false
  else r.hasAllAttributesFold F other.attributes && other.hasAllAttributesFold F r.attributes

/-- The loop over the positions of two equally long RDN lists. -/
def allPairs (eq : RelativeDN → RelativeDN → Bool) (l m : List RelativeDN) : Bool :=
  (List.zipWith eq l m).all id

/-- `(*DN).Equal`. -/
def DN.equal (d other : DN) : Bool :=
  if d.rdns.length ≠ other.rdns.length then false else allPairs (RelativeDN.equal F) d.rdns other.rdns

/-- `(*DN).EqualFold`. -/
def DN.equalFold (d other : DN) : Bool :=
  if d.rdns.length ≠ other.rdns.length then false else allPairs (RelativeDN.equalFold F) d.rdns other.rdns

/-- The comparison of `AncestorOf` and `AncestorOfFold` with the last RDNs of the other name. -/
def DN.ancestorBy (eq : RelativeDN → RelativeDN → Bool) (d other : DN) : Bool :=
  if other.rdns.length ≤ d.rdns.length then false
  else allPairs eq d.rdns (other.rdns.drop (other.rdns.length - d.rdns.length))

/-- `(*DN).AncestorOf`. -/
def DN.ancestorOf (d other : DN) : Bool := d.ancestorBy (RelativeDN.equal F) other

/-- `(*DN).AncestorOfFold`. -/
def DN.ancestorOfFold (d other : DN) : Bool := d.ancestorBy (RelativeDN.equalFold F) other

end Equal

end GoLdap
