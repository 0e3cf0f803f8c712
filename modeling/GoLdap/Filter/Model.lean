import GoLdap.Go.Utf8
import GoLdap.Ber.Packet
import GoLdap.Error

/-!
# Filter.Model — search filters (`filter.go`, and `EscapeFilter` of `ldap.go`)

`compileFilter` reads the string form of a filter into a packet, `decompileFilter` writes it back.

The compiler passes positions of the filter string around.  Its recursion is bounded by fuel; a call that runs out of
it is `none`.  `compileFilter` recovers from a panic, but the recovered error is not one of its named results: after a
panic it returns a nil packet, position 0 and a nil error.
-/

namespace GoLdap

open Go Ber

/-! ## Tags and descriptions -/

def filterAnd : ℕ := 0
def filterOr : ℕ := 1
def filterNot : ℕ := 2
def filterEqualityMatch : ℕ := 3
def filterSubstrings : ℕ := 4
def filterGreaterOrEqual : ℕ := 5
def filterLessOrEqual : ℕ := 6
def filterPresent : ℕ := 7
def filterApproxMatch : ℕ := 8
def filterExtensibleMatch : ℕ := 9

/-- `FilterMap`. -/
def filterMap (tag : ℕ) : GoString :=
  ([str "And", str "Or", str "Not", str "Equality Match", str "Substrings", str "Greater Or Equal",
    str "Less Or Equal", str "Present", str "Approx Match", str "Extensible Match"][tag]?).getD []

def filterSubstringsInitial : ℕ := 0
def filterSubstringsAny : ℕ := 1
def filterSubstringsFinal : ℕ := 2

/-- `FilterSubstringsMap`. -/
def filterSubstringsMap (tag : ℕ) : GoString :=
  ([str "Substrings Initial", str "Substrings Any", str "Substrings Final"][tag]?).getD []

def matchingRuleAssertionMatchingRule : ℕ := 1
def matchingRuleAssertionType : ℕ := 2
def matchingRuleAssertionMatchValue : ℕ := 3
def matchingRuleAssertionDNAttributes : ℕ := 4

/-- `MatchingRuleAssertionMap`. -/
def matchingRuleAssertionMap (tag : ℕ) : GoString :=
  ([[], str "Matching Rule Assertion Matching Rule", str "Matching Rule Assertion Type",
    str "Matching Rule Assertion Match Value", str "Matching Rule Assertion DN Attributes"][tag]?).getD []

/-! ## Escaping -/

/-- `mustEscape`. -/
def mustEscape (c : UInt8) : Bool := c > 0x7f || c == ch '(' || c == ch ')' || c == ch '\\' || c == ch '*' || c == 0

def escapeByte (c : UInt8) : GoString := if mustEscape c then ch '\\' :: hexEncode c else [c]

/-- `EscapeFilter`. -/
def escapeFilter (filter : GoString) : GoString :=
  if filter.countP mustEscape = 0 then filter else filter.flatMap escapeByte

def compileError (e : Error) : Err := newError errorFilterCompile e

/-- The loop of `decodeEscapedSymbols`.  The counter skips the bytes that were read with the last code point or
escape; `offset` counts an escape as one byte, as the code does. -/
def decodeEscapedLoop (offset : ℕ) : ℕ → GoString → Except Err GoString
  | _, [] => .ok []
  | skip + 1, _ :: s => decodeEscapedLoop offset skip s
  | 0, b :: s =>
    let rune := decodeRune (b :: s)
    if rune.1 = runeError then .error (compileError (.fmtNum "ldap: error reading rune at position %d" offset))
    else if rune.1 = (ch '\\').toNat then
      match s with
      | [] => .error (compileError (.fmt "ldap: invalid characters for escape in filter: %v" (str "EOF")))
      | [_] => .error (compileError (.new "ldap: missing characters for escape in filter"))
      | hi :: lo :: _ =>
        match hexDecodePair hi lo with
        | some c => (c :: ·) <$> decodeEscapedLoop (offset + rune.2) 2 s
        | none =>
          .error (compileError (.fmtNum "ldap: invalid characters for escape in filter: encoding/hex: invalid byte: %#U"
            (hexInvalidByte hi lo).toNat))
    else (encodeRune rune.1 ++ ·) <$> decodeEscapedLoop (offset + rune.2) (rune.2 - 1) s

/-- `decodeEscapedSymbols`. -/
def decodeEscapedSymbols (src : GoString) : Except Err GoString := decodeEscapedLoop 0 0 src

/-! ## The scanner of one item -/

inductive ScanState where
  | readingAttr
  | readingExtensibleMatchingRule
  | readingCondition
  deriving DecidableEq, Repr

/-- The local variables of the scanning loop. -/
structure Scan where
  packet : Option Packet
  state : ScanState
  attr : GoString
  extensibleDNAttributes : Bool
  extensibleMatchingRule : GoString
  condition : GoString

def Scan.start : Scan := ⟨none, .readingAttr, [], false, [], []⟩

/-- The packet of a filter choice before it has children. -/
def filterPacket (tag : ℕ) : Packet := encode .context .constructed tag (filterMap tag)

/-- The choice of the filter is known: go on with the state given. -/
def Scan.chosen (s : Scan) (tag : ℕ) (state : ScanState) : Scan :=
  { s with packet := some (filterPacket tag), state := state }

/-- One turn of the loop on a code point of the given width; `remaining` is the filter from that code point on.
The result has the number of bytes to advance. -/
def Scan.step (s : Scan) (rune width : ℕ) (remaining : GoString) : Scan × ℕ :=
  match s.state with
  | .readingAttr =>
    if rune = (ch ':').toNat ∧ (str ":dn:=").isPrefixOf remaining then
      ({ s.chosen filterExtensibleMatch .readingCondition with extensibleDNAttributes := true }, 5)
    else if rune = (ch ':').toNat ∧ (str ":dn:").isPrefixOf remaining then
      ({ s.chosen filterExtensibleMatch .readingExtensibleMatchingRule with extensibleDNAttributes := true }, 4)
    else if rune = (ch ':').toNat ∧ (str ":=").isPrefixOf remaining then
      (s.chosen filterExtensibleMatch .readingCondition, 2)
    else if rune = (ch ':').toNat then (s.chosen filterExtensibleMatch .readingExtensibleMatchingRule, 1)
    else if rune = (ch '=').toNat then (s.chosen filterEqualityMatch .readingCondition, 1)
    else if rune = (ch '>').toNat ∧ (str ">=").isPrefixOf remaining then
      (s.chosen filterGreaterOrEqual .readingCondition, 2)
    else if rune = (ch '<').toNat ∧ (str "<=").isPrefixOf remaining then
      (s.chosen filterLessOrEqual .readingCondition, 2)
    else if rune = (ch '~').toNat ∧ (str "~=").isPrefixOf remaining then
      (s.chosen filterApproxMatch .readingCondition, 2)
    else ({ s with attr := s.attr ++ encodeRune rune }, width)
  | .readingExtensibleMatchingRule =>
    if rune = (ch ':').toNat ∧ (str ":=").isPrefixOf remaining then ({ s with state := .readingCondition }, 2)
    else ({ s with extensibleMatchingRule := s.extensibleMatchingRule ++ encodeRune rune }, width)
  | .readingCondition => ({ s with condition := s.condition ++ encodeRune rune }, width)

/-- How the loop ends: at a closing parenthesis, at the end of the filter, or at bytes that are not UTF-8. -/
inductive ScanEnd where
  | close (s : Scan) (pos : ℕ)
  | eof (s : Scan) (pos : ℕ)
  | badRune (s : Scan) (pos : ℕ)

/-- The scanning loop; the counter skips bytes already read. -/
def scan (s : Scan) (pos : ℕ) : ℕ → GoString → ScanEnd
  | _, [] => .eof s pos
  | skip + 1, _ :: rest => scan s (pos + 1) skip rest
  | 0, b :: rest =>
    let rune := decodeRune (b :: rest)
    if rune.1 = (ch ')').toNat then .close s pos
    else if rune.1 = runeError then .badRune s pos
    else scan (s.step rune.1 rune.2 (b :: rest)).1 (pos + 1) ((s.step rune.1 rune.2 (b :: rest)).2 - 1) rest

/-! ## The packet of one item -/

section Encoder

variable (E : Encoder)

/-- The children of an extensible match; the error leaves the packet with the children so far. -/
def buildExtensible (s : Scan) (packet : Packet) : Packet × Option Err :=
  let packet := if s.extensibleMatchingRule.length > 0 then
      packet.appendChild E (newString .context .primitive matchingRuleAssertionMatchingRule s.extensibleMatchingRule
        (matchingRuleAssertionMap matchingRuleAssertionMatchingRule))
    else packet
  let packet := if s.attr.length > 0 then
      packet.appendChild E (newString .context .primitive matchingRuleAssertionType s.attr
        (matchingRuleAssertionMap matchingRuleAssertionType))
    else packet
  match decodeEscapedSymbols s.condition with
  | .error e => (packet, some e)
  | .ok encodedString =>
    let packet := packet.appendChild E (newString .context .primitive matchingRuleAssertionMatchValue encodedString
      (matchingRuleAssertionMap matchingRuleAssertionMatchValue))
    let packet := if s.extensibleDNAttributes then
        packet.appendChild E (newBoolean E .context .primitive matchingRuleAssertionDNAttributes
          s.extensibleDNAttributes (matchingRuleAssertionMap matchingRuleAssertionDNAttributes))
      else packet
    (packet, none)

/-- The tag of the `i`-th of `n` parts of a substring condition. -/
def substringTag (i n : ℕ) : ℕ :=
  if i = 0 then filterSubstringsInitial else if i = n - 1 then filterSubstringsFinal else filterSubstringsAny

/-- The loop over the parts of a substring condition, from the `i`-th of `n` on. -/
def appendSubstrings (n : ℕ) : ℕ → List GoString → Packet → Except Err Packet
  | _, [], seq => .ok seq
  | i, part :: parts, seq =>
    if part.length = 0 then appendSubstrings n (i + 1) parts seq
    else
      match decodeEscapedSymbols part with
      | .error e => .error e
      | .ok encodedString =>
        appendSubstrings n (i + 1) parts (seq.appendChild E (newString .context .primitive (substringTag i n)
          encodedString (filterSubstringsMap (substringTag i n))))

/-- The packet of an item whose scan ended with a choice. -/
def buildItem (s : Scan) (packet : Packet) : Packet × Option Err :=
  let attr := newString .universal .primitive tagOctetString s.attr (str "Attribute")
  if packet.tag = filterExtensibleMatch then buildExtensible E s packet
  else if packet.tag = filterEqualityMatch ∧ s.condition = [ch '*'] then
    (newString .context .primitive filterPresent s.attr (filterMap filterPresent), none)
  else if packet.tag = filterEqualityMatch ∧ ch '*' ∈ s.condition then
    let packet := { packet.appendChild E attr with
      tag := filterSubstrings, description := filterMap filterSubstrings }
    let parts := split (ch '*') s.condition
    match appendSubstrings E parts.length 0 parts (encode .universal .constructed tagSequence (str "Substrings")) with
    | .error e => (packet, some e)
    | .ok seq => (packet.appendChild E seq, none)
  else
    match decodeEscapedSymbols s.condition with
    | .error e => (packet, some e)
    | .ok encodedString =>
      ((packet.appendChild E attr).appendChild E
        (newString .universal .primitive tagOctetString encodedString (str "Condition")), none)

/-! ## The compiler -/

/-- The three results of `compileFilter`. -/
structure Compiled where
  packet : Option Packet
  pos : ℕ
  err : Option Err

/-- What `compileFilter` returns after a panic. -/
def Compiled.recovered : Compiled := ⟨none, 0, none⟩

/-- The default branch of `compileFilter`: an item that starts at `pos`. -/
def compileItem (filter : GoString) (pos : ℕ) : Compiled :=
  match scan .start pos 0 (filter.drop pos) with
  | .badRune s newPos => ⟨s.packet, newPos, some (compileError (.fmtNum "ldap: error reading rune at position %d" newPos))⟩
  | .eof s newPos => ⟨s.packet, newPos, some (compileError (.new "ldap: unexpected end of filter"))⟩
  | .close s newPos =>
    match s.packet with
    | none => ⟨none, newPos, some (compileError (.new "ldap: error parsing filter"))⟩
    | some packet =>
      match buildItem E s packet with
      | (packet, some e) => ⟨some packet, newPos, some e⟩
      -- the loop stopped at a parenthesis, one byte wide
      | (packet, none) => ⟨some packet, newPos + 1, none⟩

/-- What `compileFilterSet` can do to its parent packet: panic, or return a position and an error. -/
inductive SetResult where
  | panic
  | done (parent : Packet) (pos : ℕ) (err : Option Err)

mutual

/-- `compileFilter`. -/
def compileFilterAt (filter : GoString) : ℕ → ℕ → Option Compiled
  | 0, _ => none
  | fuel + 1, pos =>
    -- `filter[newPos:]` is out of range
    if pos > filter.length then some .recovered
    else
      let rune := decodeRune (filter.drop pos)
      if rune.1 = runeError then
        some ⟨none, 0, some (compileError (.fmtNum "ldap: error reading rune at position %d" pos))⟩
      else if rune.1 = (ch '(').toNat then
        match compileFilterAt filter fuel (pos + rune.2) with
        | none => none
        | some c => some { c with pos := c.pos + 1 }
      else if rune.1 = (ch '&').toNat then
        match compileFilterSet filter fuel (pos + rune.2) (filterPacket filterAnd) with
        | none => none
        | some .panic => some .recovered
        | some (.done packet newPos err) => some ⟨some packet, newPos, err⟩
      else if rune.1 = (ch '|').toNat then
        match compileFilterSet filter fuel (pos + rune.2) (filterPacket filterOr) with
        | none => none
        | some .panic => some .recovered
        | some (.done packet newPos err) => some ⟨some packet, newPos, err⟩
      else if rune.1 = (ch '!').toNat then
        match compileFilterAt filter fuel (pos + rune.2) with
        | none => none
        -- `AppendChild(nil)` panics
        | some ⟨none, _, _⟩ => some .recovered
        | some ⟨some child, newPos, err⟩ => some ⟨some ((filterPacket filterNot).appendChild E child), newPos, err⟩
      else some (compileItem E filter pos)

/-- `compileFilterSet`. -/
def compileFilterSet (filter : GoString) : ℕ → ℕ → Packet → Option SetResult
  | 0, _, _ => none
  | fuel + 1, pos, parent =>
    if filter[pos]? = some (ch '(') then
      match compileFilterAt filter fuel (pos + 1) with
      | none => none
      | some ⟨_, _, some e⟩ => some (.done parent pos (some e))
      | some ⟨none, _, none⟩ => some .panic
      | some ⟨some child, newPos, none⟩ => compileFilterSet filter fuel newPos (parent.appendChild E child)
    else if pos = filter.length then
      some (.done parent pos (some (compileError (.new "ldap: unexpected end of filter"))))
    else some (.done parent (pos + 1) none)

end

/-- `CompileFilter`, with a bound on the depth of its recursion: the packet, which may be nil, or the error. -/
def compileFilterFuel (fuel : ℕ) (filter : GoString) : Option (Except Err (Option Packet)) :=
  if filter.head? ≠ some (ch '(') then
    some (.error (compileError (.new "ldap: filter does not start with an '('")))
  else
    match compileFilterAt E filter fuel 1 with
    | none => none
    | some ⟨_, _, some e⟩ => some (.error e)
    | some ⟨packet, pos, none⟩ =>
      if pos > filter.length then some (.error (compileError (.new "ldap: unexpected end of filter")))
      else if pos < filter.length then
        some (.error (compileError (.fmt "ldap: finished compiling filter with extra at end: " (filter.drop pos))))
      else some (.ok packet)

/-- `CompileFilter`.  Every call of the recursion is at a later position, so the length of the filter bounds it. -/
def compileFilter (filter : GoString) : Option (Except Err (Option Packet)) :=
  compileFilterFuel E (filter.length + 2) filter

end Encoder

/-! ## The decompiler -/

/-- The items of a filter that consist of an attribute and a value. -/
def decompilePair (op : GoString) (cs : List Packet) : Outcome Err GoString := do
  let attr ← Outcome.index cs 0
  let value ← Outcome.index cs 1
  .ok (escapeFilter attr.data ++ op ++ escapeFilter value.data)

/-- The loop over the components of a substring filter. -/
def decompileSubstrings : ℕ → List Packet → GoString
  | _, [] => []
  | i, c :: cs =>
    (if i = 0 ∧ c.tag ≠ filterSubstringsInitial then [ch '*'] else []) ++ escapeFilter c.data ++
      (if c.tag ≠ filterSubstringsFinal then [ch '*'] else []) ++ decompileSubstrings (i + 1) cs

/-- The variables that the children of an extensible match are read into. -/
structure MatchingRuleAssertion where
  attr : GoString
  dnAttributes : Bool
  matchingRule : GoString
  value : GoString
  deriving DecidableEq, Repr

/-- The type switch over one child of an extensible match; the assertion `Value.(bool)` can panic. -/
def MatchingRuleAssertion.read (m : MatchingRuleAssertion) (c : Packet) : Outcome Err MatchingRuleAssertion :=
  if c.tag = matchingRuleAssertionMatchingRule then .ok { m with matchingRule := c.data }
  else if c.tag = matchingRuleAssertionType then .ok { m with attr := c.data }
  else if c.tag = matchingRuleAssertionMatchValue then .ok { m with value := c.data }
  else if c.tag = matchingRuleAssertionDNAttributes then
    match c.value with
    | .bool b => .ok { m with dnAttributes := b }
    | _ => .panic
  else .ok m

def MatchingRuleAssertion.string (m : MatchingRuleAssertion) : GoString :=
  (if m.attr.length > 0 then escapeFilter m.attr else []) ++ (if m.dnAttributes then str ":dn" else []) ++
    (if m.matchingRule.length > 0 then str ":" ++ escapeFilter m.matchingRule else []) ++ str ":=" ++
    escapeFilter m.value

/-- The error a panic of `DecompileFilter` is turned into. -/
def recoverDecompile : Outcome Err GoString → Except Err GoString
  | .ok s => .ok s
  | .err e => .error e
  | .panic => .error (newError errorFilterDecompile (.new "ldap: error decompiling filter"))

mutual

/-- `DecompileFilter`. -/
def decompileFilter : Packet → Except Err GoString
  | ⟨_, _, tag, _, _, _, data, cs⟩ =>
    let body : Outcome Err GoString :=
      if tag = filterAnd then (ch '&' :: ·) <$> Outcome.ofExcept (decompileFilters cs)
      else if tag = filterOr then (ch '|' :: ·) <$> Outcome.ofExcept (decompileFilters cs)
      else if tag = filterNot then
        match cs with
        | [] => .panic
        | c :: _ => (ch '!' :: ·) <$> Outcome.ofExcept (decompileFilter c)
      else if tag = filterSubstrings then do
        let attr ← Outcome.index cs 0
        let seq ← Outcome.index cs 1
        .ok (escapeFilter attr.data ++ [ch '='] ++ decompileSubstrings 0 seq.children)
      else if tag = filterEqualityMatch then decompilePair [ch '='] cs
      else if tag = filterGreaterOrEqual then decompilePair (str ">=") cs
      else if tag = filterLessOrEqual then decompilePair (str "<=") cs
      else if tag = filterPresent then .ok (escapeFilter data ++ str "=*")
      else if tag = filterApproxMatch then decompilePair (str "~=") cs
      else if tag = filterExtensibleMatch then
        MatchingRuleAssertion.string <$> cs.foldlM MatchingRuleAssertion.read ⟨[], false, [], []⟩
      else .ok []
    recoverDecompile ((fun s => ch '(' :: s ++ [ch ')']) <$> body)

/-- The loop over the children of a set. -/
def decompileFilters : List Packet → Except Err GoString
  | [] => .ok []
  | c :: cs =>
    match decompileFilter c with
    | .error e => .error e
    | .ok s =>
      match decompileFilters cs with
      | .error e => .error e
      | .ok t => .ok (s ++ t)

end

end GoLdap
