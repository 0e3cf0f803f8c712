import GoLdap.Ber.Basic
import GoLdap.Ber.Schema
import GoLdap.Filter.Substrings

/-!
# Protocol.Filter — what a search filter means to the server

`SearchFilter` is the filter of a search request as the protocol defines it, and `readFilter` reads one out of the packet
a server has got.  The text of a filter is what a caller writes, with its values escaped by `EscapeFilter`.

* `SearchFilter.Writable.compiles`: the text of a filter compiles, and the packet conveys the filter.
-/

namespace GoLdap

open Go Ber

/-! ## Filters -/

/-- The assertions on a value: `equalityMatch`, `greaterOrEqual`, `lessOrEqual` and `approxMatch`. -/
inductive Comparison where
  | equality
  | greaterOrEqual
  | lessOrEqual
  | approx
  deriving DecidableEq, Repr

namespace Comparison

def tag : Comparison → ℕ
  | equality => filterEqualityMatch
  | greaterOrEqual => filterGreaterOrEqual
  | lessOrEqual => filterLessOrEqual
  | approx => filterApproxMatch

def symbol : Comparison → GoString
  | equality => str "="
  | greaterOrEqual => str ">="
  | lessOrEqual => str "<="
  | approx => str "~="

def ofTag (tag : ℕ) : Option Comparison :=
  if tag = filterEqualityMatch then some equality
  else if tag = filterGreaterOrEqual then some greaterOrEqual
  else if tag = filterLessOrEqual then some lessOrEqual
  else if tag = filterApproxMatch then some approx
  else none

theorem ofTag_tag (op : Comparison) : ofTag op.tag = some op := by cases op <;> rfl

theorem mem_pairOps (op : Comparison) : (op.tag, op.symbol) ∈ pairOps := by cases op <;> decide

end Comparison

/-- A filter.  A component of a substring assertion is empty if it is absent, and so are the attribute and the matching
rule of an extensible match. -/
inductive SearchFilter where
  | and (fs : List SearchFilter)
  | or (fs : List SearchFilter)
  | not (f : SearchFilter)
  | compare (op : Comparison) (attr value : GoString)
  | substrings (attr initial : GoString) (any : List GoString) (final : GoString)
  | present (attr : GoString)
  | extensible (assertion : MatchingRuleAssertion)

/-! ## The server's side -/

/-- The components of a substring assertion from the second on: any number, then at most one final one. -/
def readLaterParts : List (ℕ × GoString) → Option (List GoString × GoString)
  | [] => some ([], [])
  | (tag, v) :: rest =>
    if tag = filterSubstringsAny then (readLaterParts rest).map fun r => (v :: r.1, r.2)
    else if tag = filterSubstringsFinal ∧ rest = [] then some ([], v)
    else none

/-- The components of a substring assertion. -/
def readParts : List (ℕ × GoString) → Option (GoString × List GoString × GoString)
  | [] => some ([], [], [])
  | (tag, v) :: rest =>
    if tag = filterSubstringsInitial then (readLaterParts rest).map fun r => (v, r.1, r.2)
    else (readLaterParts ((tag, v) :: rest)).map fun r => ([], r.1, r.2)

/-- A component with its tag. -/
def readPart (p : Packet) : Option (ℕ × GoString) :=
  if p.classType = .context ∧ p.tagType = .primitive then some (p.tag, p.data) else none

def readSubstrings : List Packet → Option SearchFilter
  | [attr, parts] => do
    let attr ← readString attr
    let parts ← readListOf .universal tagSequence readPart parts
    let r ← readParts parts
    return .substrings attr r.1 r.2.1 r.2.2
  | _ => none

/-- An optional octet string with a context tag in front of others: empty if it is absent. -/
def takeContext (tag : ℕ) : List Packet → GoString × List Packet
  | [] => ([], [])
  | p :: ps => if p.Is .context .primitive tag then (p.data, ps) else ([], p :: ps)

/-- The flag at the end of an extensible match, which is false by default. -/
def readDNAttributes : List Packet → Option Bool
  | [] => some false
  | [p] => (readOctets .context matchingRuleAssertionDNAttributes p).map fun octets => octets ≠ [0]
  | _ => none

def readAssertion (ps : List Packet) : Option MatchingRuleAssertion :=
  let rule := takeContext matchingRuleAssertionMatchingRule ps
  let type := takeContext matchingRuleAssertionType rule.2
  match type.2 with
  | [] => none
  | value :: flag => do
    let value ← readOctets .context matchingRuleAssertionMatchValue value
    let dnAttributes ← readDNAttributes flag
    return ⟨type.1, dnAttributes, rule.1, value⟩

def readComparison (tag : ℕ) : List Packet → Option SearchFilter
  | [attr, value] => do
    let op ← Comparison.ofTag tag
    let attr ← readString attr
    let value ← readString value
    return .compare op attr value
  | _ => none

/-- The choice a tag stands for, with the elements and with what is read of them as filters. -/
def readChoice (tag : ℕ) (cs : List Packet) (fs : Option (List SearchFilter)) : Option SearchFilter :=
  if tag = filterAnd then fs.map .and
  else if tag = filterOr then fs.map .or
  else if tag = filterNot then
    match fs with
    | some [f] => some (.not f)
    | _ => none
  else if tag = filterSubstrings then readSubstrings cs
  else if tag = filterExtensibleMatch then (readAssertion cs).map .extensible
  else readComparison tag cs

mutual

/-- The filter in a packet. -/
def readFilter : Packet → Option SearchFilter
  | ⟨cls, type, tag, _, _, _, data, cs⟩ =>
    if cls = .context ∧ type = .primitive ∧ tag = filterPresent then some (.present data)
    else if cls = .context ∧ type = .constructed then readChoice tag cs (readFilters cs)
    else none

def readFilters : List Packet → Option (List SearchFilter)
  | [] => some []
  | c :: cs => do
    let f ← readFilter c
    let fs ← readFilters cs
    return f :: fs

end

theorem readFilters_eq (cs : List Packet) : readFilters cs = readAllWith readFilter cs := by
  induction cs with
  | nil => rfl
  | cons c cs ih => rw [readFilters, ih, readAllWith]

theorem readFilter_constructedOf (E : Encoder) (tag : ℕ) (d : GoString) (cs : List Packet) :
    readFilter (constructedOf E .context tag d cs) = readChoice tag cs (readAllWith readFilter cs) := by
  rw [constructedOf_eq, readFilter, if_neg (by simp), if_pos ⟨rfl, rfl⟩, readFilters_eq]

/-! ## What conveys a filter -/

section

variable {L : LawfulCodec} {d : GoString}

theorem conveys_present (attr : GoString) :
    Conveys L readFilter (newString .context .primitive filterPresent attr d) (.present attr) := by
  refine ⟨.context rfl rfl, ?_⟩
  rw [wire_primitive _ rfl]
  rfl

/-- A constructed filter, by what its choice is read as. -/
theorem conveys_choice {tag : ℕ} (cs : List Packet) (hcs : ∀ c ∈ cs, Encodable L.toEncoder c) {f : SearchFilter}
    (h : readChoice tag (cs.map (Packet.wire L.toPrimitives))
      (readAllWith readFilter (cs.map (Packet.wire L.toPrimitives))) = some f) :
    Conveys L readFilter (constructedOf L.toEncoder .context tag d cs) f := by
  refine ⟨encodable_constructedOf hcs, ?_⟩
  rw [wire_constructedOf, readFilter_constructedOf]
  exact h

/-- A set of filters. -/
theorem conveys_set {tag : ℕ} {make : List SearchFilter → SearchFilter}
    (htag : tag = filterAnd ∧ make = .and ∨ tag = filterOr ∧ make = .or) {cs : List Packet} {fs : List SearchFilter}
    (h : List.Forall₂ (Conveys L readFilter) cs fs) :
    Conveys L readFilter (constructedOf L.toEncoder .context tag d cs) (make fs) := by
  refine conveys_choice _ (encodable_conveyed h) ?_
  rw [readAllWith_conveyed h]
  obtain ⟨rfl, rfl⟩ | ⟨rfl, rfl⟩ := htag <;> rfl

theorem conveys_not {c : Packet} {f : SearchFilter} (h : Conveys L readFilter c f) :
    Conveys L readFilter (constructedOf L.toEncoder .context filterNot d [c]) (.not f) := by
  have hall : List.Forall₂ (Conveys L readFilter) [c] [f] := .cons h .nil
  refine conveys_choice _ (encodable_conveyed hall) ?_
  rw [readAllWith_conveyed hall]
  rfl

theorem readChoice_compare (op : Comparison) (cs : List Packet) (fs : Option (List SearchFilter)) :
    readChoice op.tag cs fs = readComparison op.tag cs := by cases op <;> rfl

theorem readChoice_substrings (cs : List Packet) (fs : Option (List SearchFilter)) :
    readChoice filterSubstrings cs fs = readSubstrings cs := rfl

theorem readChoice_extensible (cs : List Packet) (fs : Option (List SearchFilter)) :
    readChoice filterExtensibleMatch cs fs = (readAssertion cs).map .extensible := rfl

theorem conveys_compare (op : Comparison) (attr value : GoString) :
    Conveys L readFilter (pairPacket L.toEncoder op.tag attr value) (.compare op attr value) := by
  have hattr : Conveys L readString _ attr := conveys_string (d := str "Attribute") attr
  have hvalue : Conveys L readString _ value := conveys_string (d := str "Condition") value
  refine conveys_choice [_, _] (List.forall_mem_cons.mpr ⟨hattr.encodable,
    List.forall_mem_singleton.mpr hvalue.encodable⟩) ?_
  rw [readChoice_compare, List.map_cons, List.map_cons, List.map_nil, readComparison, op.ofTag_tag, hattr.reads,
    hvalue.reads]
  rfl

/-! ### Substrings -/

theorem conveys_part (c : ℕ × GoString) : Conveys L readPart (componentPacket c) c := by
  refine ⟨.context rfl rfl, ?_⟩
  rw [componentPacket, wire_primitive _ rfl]
  rfl

theorem readLaterParts_eq (any : List GoString) (final : GoString) :
    readLaterParts (any.map (filterSubstringsAny, ·) ++ component filterSubstringsFinal final) = some (any, final) := by
  induction any with
  | nil =>
    unfold component
    split
    · subst final
      rfl
    · rfl
  | cons v any ih =>
    rw [List.map_cons, List.cons_append, readLaterParts, if_pos rfl, ih]
    rfl

/-- The components of an assertion are read as they are; an empty one is absent. -/
theorem readParts_eq (initial : GoString) (any : List GoString) (final : GoString) :
    readParts (component filterSubstringsInitial initial ++ any.map (filterSubstringsAny, ·) ++
      component filterSubstringsFinal final) = some (initial, any, final) := by
  have hlater := readLaterParts_eq any final
  rw [List.append_assoc]
  unfold component at hlater ⊢
  by_cases hinitial : initial = []
  · subst hinitial
    rw [if_pos rfl, List.nil_append]
    generalize hrest : any.map (filterSubstringsAny, ·) ++ (if final = [] then [] else [(filterSubstringsFinal, final)]) =
      rest at hlater
    cases rest with
    | nil =>
      obtain ⟨rfl, rfl⟩ := Prod.mk.inj (Option.some.inj hlater)
      rfl
    | cons c rest =>
      obtain ⟨tag, v⟩ := c
      have htag : tag ≠ filterSubstringsInitial := by
        rintro rfl
        rw [readLaterParts, if_neg (by decide), if_neg (fun h => absurd h.1 (by decide))] at hlater
        cases hlater
      rw [readParts, if_neg htag, hlater]
      rfl
  · rw [if_neg hinitial, List.singleton_append, readParts, if_pos rfl, hlater]
    rfl

/-- A substring assertion, by its components. -/
theorem conveys_substrings (attr initial : GoString) (any : List GoString) (final : GoString) :
    Conveys L readFilter (constructedOf L.toEncoder .context filterSubstrings d
      [newString .universal .primitive tagOctetString attr (str "Attribute"),
        constructedOf L.toEncoder .universal tagSequence (str "Substrings")
          ((component filterSubstringsInitial initial ++ any.map (filterSubstringsAny, ·) ++
            component filterSubstringsFinal final).map componentPacket)]) (.substrings attr initial any final) := by
  have hattr : Conveys L readString _ attr := conveys_string (d := str "Attribute") attr
  have hparts : Conveys L (readListOf .universal tagSequence readPart)
      (constructedOf L.toEncoder .universal tagSequence (str "Substrings") (List.map componentPacket _))
      (component filterSubstringsInitial initial ++ any.map (filterSubstringsAny, ·) ++
        component filterSubstringsFinal final) :=
    (conveys_map fun c _ => conveys_part c).of_eq (List.map_id _)
  refine conveys_choice _ (List.forall_mem_cons.mpr ⟨hattr.encodable, List.forall_mem_singleton.mpr hparts.encodable⟩) ?_
  rw [readChoice_substrings, List.map_cons, List.map_cons, List.map_nil, readSubstrings, hattr.reads, hparts.reads]
  simp only [Option.bind_eq_bind, Option.bind_some, readParts_eq]
  rfl

/-! ### Extensible matches -/

theorem wire_context_boolean (P : Primitives) (tag : ℕ) (b : Bool) :
    (newBoolean P.toEncoder .context .primitive tag b d).wire P = readPrimitive .context tag .nil (P.boolean b) := by
  rw [wire_primitive _ rfl]
  rfl

/-- The elements of an extensible match: octet strings, and the flag. -/
theorem mem_assertion_children {E : Encoder} {m : MatchingRuleAssertion} {c : Packet} (h : c ∈ m.children E) :
    (∃ tag s d, tag ≠ matchingRuleAssertionDNAttributes ∧ c = newString .context .primitive tag s d) ∨
      ∃ d, c = newBoolean E .context .primitive matchingRuleAssertionDNAttributes true d := by
  simp only [MatchingRuleAssertion.children, List.mem_append] at h
  rcases h with ((h | h) | h) | h
  · split_ifs at h
    · exact .inl ⟨_, _, _, by decide, List.mem_singleton.mp h⟩
    · cases h
  · split_ifs at h
    · exact .inl ⟨_, _, _, by decide, List.mem_singleton.mp h⟩
    · cases h
  · exact .inl ⟨_, _, _, by decide, List.mem_singleton.mp h⟩
  · split_ifs at h
    · exact .inr ⟨_, List.mem_singleton.mp h⟩
    · cases h

theorem encodable_assertion (E : Encoder) (m : MatchingRuleAssertion) : ∀ c ∈ m.children E, Encodable E c := by
  intro c hc
  obtain ⟨tag, s, d, -, rfl⟩ | ⟨d, rfl⟩ := mem_assertion_children hc
  · exact .context rfl rfl
  · exact .context rfl rfl

theorem readAssertion_children (L : LawfulCodec) (m : MatchingRuleAssertion) :
    readAssertion ((m.children L.toEncoder).map (Packet.wire L.toPrimitives)) = some m := by
  obtain ⟨x, hx, hzero⟩ := L.boolean_eq true
  have hne : x ≠ 0 := fun h => Bool.noConfusion (hzero.mp h)
  obtain ⟨attr, dnAttributes, rule, value⟩ := m
  -- which of the optional elements there are
  rcases rule with _ | ⟨r, rule⟩ <;> rcases attr with _ | ⟨a, attr⟩ <;> cases dnAttributes <;>
    simp [MatchingRuleAssertion.children, wire_context, wire_context_boolean, readAssertion, takeContext,
      Packet.Is, readPrimitive, readOctets, readDNAttributes, matchingRuleAssertionMatchingRule,
      matchingRuleAssertionType, matchingRuleAssertionMatchValue, matchingRuleAssertionDNAttributes, hx, hne]

theorem conveys_assertion (m : MatchingRuleAssertion) :
    Conveys L readFilter (constructedOf L.toEncoder .context filterExtensibleMatch d (m.children L.toEncoder))
      (.extensible m) := by
  refine conveys_choice _ (encodable_assertion _ m) ?_
  rw [readChoice_extensible, readAssertion_children]
  rfl

end

/-! ## The text of a filter -/

/-- The condition of a substring assertion. -/
def substringsText (initial : GoString) (any : List GoString) (final : GoString) : GoString :=
  escapeFilter initial ++ ch '*' :: (any.flatMap (fun v => escapeFilter v ++ [ch '*']) ++ escapeFilter final)

mutual

/-- A filter as a string, with the values escaped. -/
def SearchFilter.text : SearchFilter → GoString
  | .and fs => ch '(' :: ch '&' :: SearchFilter.texts fs ++ [ch ')']
  | .or fs => ch '(' :: ch '|' :: SearchFilter.texts fs ++ [ch ')']
  | .not f => ch '(' :: ch '!' :: f.text ++ [ch ')']
  | .compare op attr value => ch '(' :: (attr ++ op.symbol ++ escapeFilter value) ++ [ch ')']
  | .substrings attr initial any final => ch '(' :: (attr ++ [ch '='] ++ substringsText initial any final) ++ [ch ')']
  | .present attr => ch '(' :: (attr ++ str "=*") ++ [ch ')']
  | .extensible m => ch '(' :: m.string ++ [ch ')']

def SearchFilter.texts : List SearchFilter → GoString
  | [] => []
  | f :: fs => f.text ++ SearchFilter.texts fs

end

theorem SearchFilter.texts_eq (fs : List SearchFilter) : SearchFilter.texts fs = (fs.map SearchFilter.text).flatten := by
  induction fs with
  | nil => rfl
  | cons f fs ih => rw [SearchFilter.texts, ih, List.map_cons, List.flatten_cons]

/-- The filters that have a text: names are plain, and a substring assertion has a component.  Values are arbitrary. -/
inductive SearchFilter.Writable : SearchFilter → Prop
  | and {fs : List SearchFilter} (hfs : ∀ f ∈ fs, Writable f) : Writable (.and fs)
  | or {fs : List SearchFilter} (hfs : ∀ f ∈ fs, Writable f) : Writable (.or fs)
  | not {f : SearchFilter} (hf : Writable f) : Writable (.not f)
  | compare (op : Comparison) {attr : GoString} (hattr : FilterName attr) (value : GoString) :
      Writable (.compare op attr value)
  | substrings {attr : GoString} (hattr : FilterName attr) (a : SubstringAssertion) :
      Writable (.substrings attr a.initial a.any a.final)
  | present {attr : GoString} (hattr : FilterName attr) : Writable (.present attr)
  | extensible (m : ExtensibleAssertion) : Writable (.extensible m.toMatchingRuleAssertion)

section

variable (L : LawfulCodec)

/-- A packet that the text compiles to, and that conveys the filter. -/
def SearchFilter.Compiles (f : SearchFilter) (p : Packet) : Prop :=
  CompilesTo L.toEncoder f.text p ∧ Conveys L readFilter p f

variable {L}

theorem exists_compiles {fs : List SearchFilter} (h : ∀ f ∈ fs, ∃ p, f.Compiles L p) :
    ∃ ps, List.Forall₂ (CompilesTo L.toEncoder) (fs.map SearchFilter.text) ps ∧
      List.Forall₂ (Conveys L readFilter) ps fs := by
  induction fs with
  | nil => exact ⟨[], .nil, .nil⟩
  | cons f fs ih =>
    obtain ⟨⟨p, hcomp, hcarry⟩, hfs⟩ := List.forall_mem_cons.mp h
    obtain ⟨ps, hcomps, hconveys⟩ := ih hfs
    exact ⟨p :: ps, .cons hcomp hcomps, .cons hcarry hconveys⟩

theorem isConstructed_constructedOf (E : Encoder) (cls : Ber.Class) (tag : ℕ) (d : GoString) (cs : List Packet) :
    IsConstructed E cls tag cs (constructedOf E cls tag d cs) := by
  rw [constructedOf_eq]
  exact ⟨rfl, rfl, rfl, rfl, rfl⟩

/-- The text of a set of filters. -/
theorem compiles_set {tag : ℕ} (op : UInt8) (hop : (tag, op) ∈ setOps) {make : List SearchFilter → SearchFilter}
    (htag : tag = filterAnd ∧ make = .and ∨ tag = filterOr ∧ make = .or)
    (htext : ∀ fs, (make fs).text = ch '(' :: op :: SearchFilter.texts fs ++ [ch ')']) {fs : List SearchFilter}
    (h : ∀ f ∈ fs, ∃ p, f.Compiles L p) : ∃ p, (make fs).Compiles L p := by
  obtain ⟨ps, hcomps, hconveys⟩ := exists_compiles h
  refine ⟨constructedOf L.toEncoder .context tag [] ps, ?_, conveys_set htag hconveys⟩
  rw [htext, SearchFilter.texts_eq]
  exact compilesTo_set hop (isConstructed_constructedOf _ _ _ _ _) hcomps

theorem isAssertionChild_self (E : Encoder) (m : MatchingRuleAssertion) :
    ∀ c ∈ m.children E, IsAssertionChild c c := by
  intro c hc
  obtain ⟨tag, s, d, htag, rfl⟩ | ⟨d, rfl⟩ := mem_assertion_children hc
  · exact ⟨⟨rfl, rfl, rfl, rfl, rfl⟩, fun h => absurd h htag⟩
  · exact ⟨⟨rfl, rfl, rfl, rfl, rfl⟩, fun _ => rfl⟩

/-- The text of a filter compiles to a packet that conveys the filter. -/
theorem SearchFilter.Writable.compiles {f : SearchFilter} (h : f.Writable) : ∃ p, f.Compiles L p := by
  induction h with
  | and _ ih => exact compiles_set (ch '&') (by decide) (.inl ⟨rfl, rfl⟩) (fun _ => by rw [SearchFilter.text]) ih
  | or _ ih => exact compiles_set (ch '|') (by decide) (.inr ⟨rfl, rfl⟩) (fun _ => by rw [SearchFilter.text]) ih
  | not _ ih =>
    obtain ⟨p, hcomp, hcarry⟩ := ih
    refine ⟨constructedOf L.toEncoder .context filterNot [] [p], ?_, conveys_not hcarry⟩
    rw [SearchFilter.text]
    exact compilesTo_not (isConstructed_constructedOf _ _ _ _ _) hcomp
  | compare op hattr value =>
    refine ⟨_, ?_, conveys_compare op _ value⟩
    rw [SearchFilter.text]
    exact compilesTo_pair op.mem_pairOps (isConstructed_constructedOf L.toEncoder .context op.tag (filterMap op.tag) _)
      ⟨rfl, rfl, rfl, rfl, rfl⟩ ⟨rfl, rfl, rfl, rfl, rfl⟩ hattr
  | @substrings attr hattr a =>
    refine ⟨_, ?_, conveys_substrings (d := []) attr a.initial a.any a.final⟩
    rw [SearchFilter.text]
    refine compilesTo_substrings a (isConstructed_constructedOf _ _ _ _ _) ⟨rfl, rfl, rfl, rfl, rfl⟩
      (isConstructed_constructedOf _ _ _ _ _) ?_ hattr
    rw [List.forall₂_map_right_iff]
    exact List.forall₂_same.mpr fun c _ => ⟨rfl, rfl, rfl, rfl, rfl⟩
  | present hattr =>
    refine ⟨_, ?_, conveys_present (d := []) _⟩
    rw [SearchFilter.text]
    exact compilesTo_present ⟨rfl, rfl, rfl, rfl, rfl⟩ hattr
  | extensible m =>
    refine ⟨_, ?_, conveys_assertion (d := []) m.toMatchingRuleAssertion⟩
    rw [SearchFilter.text]
    exact compilesTo_extensible m (isConstructed_constructedOf _ _ _ _ _)
      (List.forall₂_same.mpr (isAssertionChild_self _ _))

end

theorem SearchFilter.Writable.conveys {f : SearchFilter} (h : f.Writable) :
    ∃ p, compileFilter L.toEncoder f.text = some (.ok (some p)) ∧ Conveys L readFilter p f := by
  obtain ⟨p, hcomp, hcarry⟩ := h.compiles (L := L)
  obtain ⟨q, hq, hskel⟩ := hcomp.compileFilter_eq
  exact ⟨q, hq, hcarry.of_skeleton hskel.symm⟩

/-- **What the server reads is what was written.**  The text of a filter, with whatever values escaped in it, compiles;
and the server reads from the octets of the packet the filter that the text was made of. -/
theorem readFilter_compileFilter (L : LawfulCodec) (f : SearchFilter) (h : f.Writable) :
    ∃ p q, compileFilter L.toEncoder f.text = some (.ok (some p)) ∧
      L.decodePacketErr (p.bytes L.toEncoder) = .ok q ∧ readFilter q = some f := by
  obtain ⟨p, hp, hcarry⟩ := h.conveys (L := L)
  obtain ⟨q, hq, hread⟩ := hcarry.decode
  exact ⟨p, q, hp, hq, hread⟩

/-- The negation of an equality whose value would close the filter and open another one. -/
theorem readFilter_compileFilter_injection :
    (SearchFilter.not (.compare .equality (str "cn") (str "a)(uid=*"))).Writable ∧
    ∃ p q, compileFilter basicLawful.toEncoder
        (SearchFilter.not (.compare .equality (str "cn") (str "a)(uid=*"))).text = some (.ok (some p)) ∧
      basicLawful.decodePacketErr (p.bytes basicLawful.toEncoder) = .ok q ∧
      readFilter q = some (.not (.compare .equality (str "cn") (str "a)(uid=*"))) := by
  have hwritable : (SearchFilter.not (.compare .equality (str "cn") (str "a)(uid=*"))).Writable :=
    .not (.compare .equality (by decide) _)
  exact ⟨hwritable, readFilter_compileFilter basicLawful _ hwritable⟩

end GoLdap
