import GoLdap.Filter.Scan

/-!
# Filter.Compile — the compiler on the text of one filter

What `compileFilter` does at a position of a filter string, given what stands there.  The string is written
`pre ++ rest` and the position is the length of `pre`.

* `compileFilterAt_open`, `compileFilterAt_set`, `compileFilterAt_not`, `compileFilterAt_item`: one call, by its first byte.
* `compileItem_pair`, `compileItem_present`, `compileItem_substrings`, `compileItem_extensible`: the items, with any
  attribute and rule that the scanner reads as such and arbitrary escaped values.
-/

namespace GoLdap

open Go Ber

/-! ## Operators of the scanner -/

/-- The items made of an attribute, an operator and a value. -/
def pairOps : List (ℕ × GoString) :=
  [(filterEqualityMatch, str "="), (filterGreaterOrEqual, str ">="), (filterLessOrEqual, str "<="),
    (filterApproxMatch, str "~=")]

theorem equality_mem_pairOps : (filterEqualityMatch, str "=") ∈ pairOps := by simp [pairOps]

section Operators

variable (s : Scan) (hs : s.state = .readingAttr) (pos : ℕ) (rest : GoString)

include hs

theorem scan_pairOp {tag : ℕ} {op : GoString} (h : (tag, op) ∈ pairOps) :
    scan s pos 0 (op ++ rest) = scan (s.chosen tag .readingCondition) (pos + op.length) 0 rest := by
  simp only [pairOps, List.mem_cons, Prod.mk.injEq, List.not_mem_nil, or_false] at h
  rcases h with ⟨rfl, rfl⟩ | ⟨rfl, rfl⟩ | ⟨rfl, rfl⟩ | ⟨rfl, rfl⟩
  all_goals
    refine (scan_step (by decide) (by decide) s pos _).trans ?_
    simp only [Scan.step, hs]
    rfl

variable (hd : s.extensibleDNAttributes = false) (dnAttributes : Bool)

include hd

/-- The colon behind the attribute, with the flag `dn` or without. -/
def colonMark (dnAttributes : Bool) : GoString := if dnAttributes then str ":dn:" else str ":"

omit hs in
private theorem chosen_dnAttributes (state : ScanState) :
    { s.chosen filterExtensibleMatch state with extensibleDNAttributes := false } =
      s.chosen filterExtensibleMatch state := by
  rw [← hd]
  rfl

/-- `:=` or `:dn:=` after the attribute. -/
theorem scan_mark_eq :
    scan s pos 0 (colonMark dnAttributes ++ (str "=" ++ rest)) =
      scan { s.chosen filterExtensibleMatch .readingCondition with extensibleDNAttributes := dnAttributes }
        (pos + (colonMark dnAttributes).length + 1) 0 rest := by
  cases dnAttributes with
  | false =>
    rw [chosen_dnAttributes s hd]
    refine (scan_step (by decide) (by decide) s pos _).trans ?_
    simp only [Scan.step, hs]
    rfl
  | true =>
    refine (scan_step (by decide) (by decide) s pos _).trans ?_
    simp only [Scan.step, hs]
    rfl

/-- `:` or `:dn:` in front of a matching rule. -/
theorem scan_mark (heq : rest.head? ≠ some (ch '=')) (hdn : dnAttributes = false → ¬ str "dn:" <+: rest) :
    scan s pos 0 (colonMark dnAttributes ++ rest) =
      scan { s.chosen filterExtensibleMatch .readingExtensibleMatchingRule with extensibleDNAttributes := dnAttributes }
        (pos + (colonMark dnAttributes).length) 0 rest := by
  have heq' : (str "=").isPrefixOf rest = false := by
    rw [← Bool.not_eq_true, List.isPrefixOf_iff_prefix]
    rintro ⟨t, rfl⟩
    exact heq rfl
  cases dnAttributes with
  | false =>
    have h1 : (str ":dn:").isPrefixOf (ch ':' :: rest) = false := by
      rw [← Bool.not_eq_true, List.isPrefixOf_iff_prefix]
      rintro ⟨t, ht⟩
      exact hdn rfl ⟨t, (List.cons.inj ht).2⟩
    have h2 : (str ":dn:=").isPrefixOf (ch ':' :: rest) = false := by
      rw [← Bool.not_eq_true, List.isPrefixOf_iff_prefix]
      rintro ⟨t, ht⟩
      exact hdn rfl ⟨ch '=' :: t, (List.cons.inj ht).2⟩
    have h3 : (str ":=").isPrefixOf (ch ':' :: rest) = false := heq'
    rw [chosen_dnAttributes s hd]
    show scan s pos 0 (ch ':' :: rest) = _
    rw [scan_step (by decide) (by decide) s pos rest]
    simp only [Scan.step, hs, h1, h2, h3]
    rfl
  | true =>
    have hno : (str ":dn:=").isPrefixOf (ch ':' :: (str "dn:" ++ rest)) = false := heq'
    refine (scan_step (by decide) (by decide) s pos (str "dn:" ++ rest)).trans ?_
    simp only [Scan.step, hs]
    rw [if_neg (by rintro ⟨-, h⟩; exact absurd (hno.symm.trans h) (by simp)), if_pos ⟨rfl, rfl⟩]
    rfl

end Operators

/-- `:=` after the matching rule. -/
theorem scan_rule_colonEq (s : Scan) (hs : s.state = .readingExtensibleMatchingRule) (pos : ℕ) (rest : GoString) :
    scan s pos 0 (str ":=" ++ rest) = scan { s with state := .readingCondition } (pos + 2) 0 rest := by
  refine (scan_step (by decide) (by decide) s pos _).trans ?_
  simp only [Scan.step, hs]
  rfl

/-! ## Items -/

section Items

variable (E : Encoder)

/-- A scan that ends at the closing parenthesis with a packet the item can be built from. -/
theorem compileItem_of_scan {pre text suf : GoString} {s : Scan} {packet q : Packet}
    (hscan : scan .start pre.length 0 (text ++ ch ')' :: suf) = .close s (pre.length + text.length))
    (hp : s.packet = some packet) (hb : buildItem E s packet = (q, none)) :
    compileItem E (pre ++ (text ++ ch ')' :: suf)) pre.length = ⟨some q, pre.length + text.length + 1, none⟩ := by
  unfold compileItem
  rw [List.drop_left, hscan]
  simp only [hp, hb]

theorem AttrText.congr {a rest rest' : GoString} (h : AttrText a rest) (hhead : rest'.head? = rest.head?) :
    AttrText a rest' :=
  ⟨h.readable, h.close, h.colon, h.eq, fun he => h.last (hhead.symm.trans he)⟩

theorem head?_pairOp {tag : ℕ} {op : GoString} (h : (tag, op) ∈ pairOps) (rest : GoString) :
    (op ++ rest).head? = op.head? := by
  simp only [pairOps, List.mem_cons, Prod.mk.injEq, List.not_mem_nil, or_false] at h
  rcases h with ⟨-, rfl⟩ | ⟨-, rfl⟩ | ⟨-, rfl⟩ | ⟨-, rfl⟩ <;> rfl

/-- The scanner on an attribute, an operator and a condition. -/
theorem scan_pair {a op cond : GoString} {tag : ℕ} (h : (tag, op) ∈ pairOps) (hattr : AttrText a op)
    (hread : Readable cond) (hclose : ch ')' ∉ cond) (pos : ℕ) (suf : GoString) :
    scan .start pos 0 (a ++ op ++ cond ++ ch ')' :: suf) =
      .close ⟨some (filterPacket tag), .readingCondition, a, false, [], cond⟩ (pos + (a ++ op ++ cond).length) := by
  have hlen : pos + (a ++ op ++ cond).length = pos + a.length + op.length + cond.length := by
    simp only [List.length_append, Nat.add_assoc]
  rw [hlen, List.append_assoc, List.append_assoc, scan_attr rfl (hattr.congr (head?_pairOp h _)), scan_pairOp _ rfl _ _ h,
    scan_condition rfl hread hclose]
  rfl

theorem readable_escapeFilter (v : GoString) : Readable (escapeFilter v) :=
  .of_isAscii fun _ hb => (mem_escapeFilter hb).1

theorem close_not_mem_escapeFilter (v : GoString) : ch ')' ∉ escapeFilter v := fun h => (mem_escapeFilter h).2.1 rfl

/-- The children of an item made of an attribute and a value. -/
def pairPacket (tag : ℕ) (name value : GoString) : Packet :=
  ((filterPacket tag).appendChild E (newString .universal .primitive tagOctetString name (str "Attribute"))).appendChild E
    (newString .universal .primitive tagOctetString value (str "Condition"))

/-- A condition that is read as one value. -/
structure ValueText (cond value : GoString) : Prop where
  readable : Readable cond
  close : ch ')' ∉ cond
  star : ch '*' ∉ cond
  decodes : decodeEscapedSymbols cond = .ok value

theorem valueText_escapeFilter (v : GoString) : ValueText (escapeFilter v) v :=
  ⟨readable_escapeFilter v, close_not_mem_escapeFilter v, fun h => (mem_escapeFilter h).2.2 rfl,
    decodeEscapedSymbols_escapeFilter v⟩

theorem compileItem_pair_value {tag : ℕ} {op name cond value : GoString} (h : (tag, op) ∈ pairOps)
    (hname : AttrText name op) (hcond : ValueText cond value) (pre suf : GoString) :
    compileItem E (pre ++ (name ++ op ++ cond ++ ch ')' :: suf)) pre.length =
      ⟨some (pairPacket E tag name value), pre.length + (name ++ op ++ cond).length + 1, none⟩ := by
  refine compileItem_of_scan E (scan_pair h hname hcond.readable hcond.close pre.length suf) rfl ?_
  have hext : (filterPacket tag).tag ≠ filterExtensibleMatch := by
    show tag ≠ filterExtensibleMatch
    rintro rfl
    revert h
    simp [pairOps, filterExtensibleMatch, filterEqualityMatch, filterGreaterOrEqual, filterLessOrEqual,
      filterApproxMatch]
  unfold buildItem
  dsimp only
  rw [if_neg hext, if_neg (by rintro ⟨-, he⟩; exact hcond.star (by rw [he]; simp)),
    if_neg (by rintro ⟨-, he⟩; exact hcond.star he), hcond.decodes]
  rfl

theorem compileItem_pair {tag : ℕ} {op name : GoString} (h : (tag, op) ∈ pairOps) (hname : AttrText name op)
    (value pre suf : GoString) :
    compileItem E (pre ++ (name ++ op ++ escapeFilter value ++ ch ')' :: suf)) pre.length =
      ⟨some (pairPacket E tag name value), pre.length + (name ++ op ++ escapeFilter value).length + 1, none⟩ :=
  compileItem_pair_value E h hname (valueText_escapeFilter value) pre suf

theorem compileItem_present {name : GoString} (hname : AttrText name (str "=")) (pre suf : GoString) :
    compileItem E (pre ++ (name ++ str "=" ++ [ch '*'] ++ ch ')' :: suf)) pre.length =
      ⟨some (newString .context .primitive filterPresent name (filterMap filterPresent)),
        pre.length + (name ++ str "=" ++ [ch '*']).length + 1, none⟩ :=
  compileItem_of_scan E (scan_pair equality_mem_pairOps hname (.ascii (by decide) .nil) (by decide) pre.length suf)
    rfl rfl

/-! ### Substrings -/

/-- A substring assertion: an initial and a final component, empty when absent, and the components between them. -/
structure SubstringAssertion where
  initial : GoString
  any : List GoString
  final : GoString
  any_ne_nil : ∀ a ∈ any, a ≠ []
  nonempty : initial ≠ [] ∨ any ≠ [] ∨ final ≠ []

/-- A component, unless it is absent. -/
def component (tag : ℕ) (v : GoString) : List (ℕ × GoString) := if v = [] then [] else [(tag, v)]

/-- The components in order, with their tags. -/
def SubstringAssertion.components (a : SubstringAssertion) : List (ℕ × GoString) :=
  component filterSubstringsInitial a.initial ++ a.any.map (filterSubstringsAny, ·) ++
    component filterSubstringsFinal a.final

/-- The condition text of a substring assertion. -/
def SubstringAssertion.string (a : SubstringAssertion) : GoString :=
  escapeFilter a.initial ++ ch '*' :: (a.any.flatMap (fun v => escapeFilter v ++ [ch '*']) ++ escapeFilter a.final)

theorem star_not_mem_escapeFilter (v : GoString) : ch '*' ∉ escapeFilter v := fun h => (mem_escapeFilter h).2.2 rfl

theorem split_any : ∀ (any : List GoString) (final : GoString),
    split (ch '*') (any.flatMap (fun v => escapeFilter v ++ [ch '*']) ++ escapeFilter final) =
      any.map escapeFilter ++ [escapeFilter final]
  | [], final => split_eq_singleton (star_not_mem_escapeFilter final)
  | v :: any, final => by
    rw [List.flatMap_cons, List.append_assoc, List.append_assoc, List.singleton_append,
      split_append_cons (star_not_mem_escapeFilter v), split_any any final, List.map_cons, List.cons_append]

theorem split_string (a : SubstringAssertion) :
    split (ch '*') a.string = escapeFilter a.initial :: (a.any.map escapeFilter ++ [escapeFilter a.final]) := by
  rw [SubstringAssertion.string, split_append_cons (star_not_mem_escapeFilter _), split_any]

/-- The packet of a substring component. -/
def componentPacket (c : ℕ × GoString) : Packet := newString .context .primitive c.1 c.2 (filterSubstringsMap c.1)

def appendAll (p : Packet) (cs : List Packet) : Packet := cs.foldl (Packet.appendChild E) p

/-- One turn of the loop over the parts: an escaped component is appended with its tag, an empty one is skipped. -/
theorem appendSubstrings_cons (n i : ℕ) (v : GoString) (parts : List GoString) (seq : Packet) :
    appendSubstrings E n i (escapeFilter v :: parts) seq =
      appendSubstrings E n (i + 1) parts (appendAll E seq ((component (substringTag i n) v).map componentPacket)) := by
  by_cases hv : v = []
  · subst hv
    rfl
  · have hlen : (escapeFilter v).length ≠ 0 := by simpa using escapeFilter_ne_nil hv
    rw [appendSubstrings, if_neg hlen, decodeEscapedSymbols_escapeFilter, component, if_neg hv]
    rfl

theorem appendSubstrings_any (n : ℕ) (final : GoString) : ∀ (any : List GoString) (i : ℕ) (seq : Packet),
    (∀ a ∈ any, a ≠ []) → 0 < i → n = i + any.length + 1 →
    appendSubstrings E n i (any.map escapeFilter ++ [escapeFilter final]) seq =
      .ok (appendAll E seq ((any.map (filterSubstringsAny, ·) ++
        component filterSubstringsFinal final).map componentPacket))
  | [], i, seq, _, hi, hn => by
    have htag : substringTag i n = filterSubstringsFinal := by
      rw [substringTag, if_neg (by omega), if_pos (by simp at hn; omega)]
    rw [List.map_nil, List.nil_append, appendSubstrings_cons, htag]
    rfl
  | v :: any, i, seq, hne, hi, hn => by
    have htag : substringTag i n = filterSubstringsAny := by
      rw [substringTag, if_neg (by omega), if_neg (by simp at hn; omega)]
    rw [List.map_cons, List.cons_append, appendSubstrings_cons, htag, component, if_neg (hne v (by simp)),
      appendSubstrings_any n final any (i + 1) _ (fun a ha => hne a (by simp [ha])) (by omega)
        (by simp at hn; omega)]
    rfl

/-- The loop over the parts of a printed substring assertion appends its components. -/
theorem appendSubstrings_string (a : SubstringAssertion) (seq : Packet) :
    appendSubstrings E (split (ch '*') a.string).length 0 (split (ch '*') a.string) seq =
      .ok (appendAll E seq (a.components.map componentPacket)) := by
  rw [split_string, appendSubstrings_cons, appendSubstrings_any E _ a.final a.any 1 _ a.any_ne_nil (by omega)
    (by simp; omega)]
  have htag : substringTag 0 (escapeFilter a.initial :: (a.any.map escapeFilter ++ [escapeFilter a.final])).length =
      filterSubstringsInitial := rfl
  unfold appendAll
  rw [htag, ← List.foldl_append, ← List.map_append, ← List.append_assoc]
  rfl

/-- The packet of a substring filter. -/
def substringsPacket (name : GoString) (a : SubstringAssertion) : Packet :=
  { (filterPacket filterEqualityMatch).appendChild E
      (newString .universal .primitive tagOctetString name (str "Attribute")) with
    tag := filterSubstrings, description := filterMap filterSubstrings }.appendChild E
  (appendAll E (encode .universal .constructed tagSequence (str "Substrings")) (a.components.map componentPacket))

theorem plain_string (a : SubstringAssertion) : ∀ b ∈ a.string, b.toNat < 0x80 ∧ b ≠ ch ')' := by
  intro b hb
  have hstar : (ch '*').toNat < 0x80 ∧ ch '*' ≠ ch ')' := by decide
  have hesc : ∀ {v : GoString}, b ∈ escapeFilter v → b.toNat < 0x80 ∧ b ≠ ch ')' :=
    fun h => ⟨(mem_escapeFilter h).1, (mem_escapeFilter h).2.1⟩
  simp only [SubstringAssertion.string, List.mem_append, List.mem_cons, List.mem_flatMap, List.not_mem_nil,
    or_false] at hb
  rcases hb with hb | rfl | ⟨v, -, hb | rfl⟩ | hb
  · exact hesc hb
  · exact hstar
  · exact hesc hb
  · exact hstar
  · exact hesc hb

/-- A printed substring assertion is not a bare asterisk: it has a component. -/
theorem string_ne_star (a : SubstringAssertion) : a.string ≠ [ch '*'] := by
  intro h
  have hsplit := split_string a
  have hstar : split (ch '*') [ch '*'] = [[], []] := rfl
  rw [h, hstar, List.cons.injEq] at hsplit
  obtain ⟨hi, hrest⟩ := hsplit
  have hany : a.any = [] := by
    have := congrArg List.length hrest
    simp at this
    exact this
  rw [hany] at hrest
  have hf : escapeFilter a.final = [] := by simpa using hrest.symm
  have hnil : ∀ {v : GoString}, escapeFilter v = [] → v = [] := fun hv => by
    by_contra hne
    exact escapeFilter_ne_nil hne hv
  rcases a.nonempty with h | h | h
  · exact h (hnil hi.symm)
  · exact h hany
  · exact h (hnil hf)

theorem compileItem_substrings {name : GoString} (hname : AttrText name (str "=")) (a : SubstringAssertion)
    (pre suf : GoString) :
    compileItem E (pre ++ (name ++ str "=" ++ a.string ++ ch ')' :: suf)) pre.length =
      ⟨some (substringsPacket E name a), pre.length + (name ++ str "=" ++ a.string).length + 1, none⟩ := by
  have hread : Readable a.string := .of_isAscii fun b hb => (plain_string a b hb).1
  refine compileItem_of_scan E
    (scan_pair equality_mem_pairOps hname hread (fun hb => (plain_string a _ hb).2 rfl) pre.length suf) rfl ?_
  have hmem : ch '*' ∈ a.string := by simp [SubstringAssertion.string]
  unfold buildItem
  dsimp only
  rw [if_neg (by decide), if_neg (by rintro ⟨-, h⟩; exact string_ne_star a h), if_pos ⟨rfl, hmem⟩,
    appendSubstrings_string]
  rfl

/-! ### Extensible matches -/

/-- What stands between the attribute and the value of an extensible match. -/
def colons (dnAttributes : Bool) (rule : GoString) : GoString :=
  colonMark dnAttributes ++ if rule = [] then str "=" else rule ++ str ":="

theorem MatchingRuleAssertion.string_eq (m : MatchingRuleAssertion) :
    m.string = escapeFilter m.attr ++ colons m.dnAttributes (escapeFilter m.matchingRule) ++ escapeFilter m.value := by
  have hattr : (if m.attr.length > 0 then escapeFilter m.attr else []) = escapeFilter m.attr := by
    split_ifs with h
    · rfl
    · rw [List.length_eq_zero_iff.mp (Nat.eq_zero_of_not_pos h)]
      rfl
  rw [MatchingRuleAssertion.string, hattr, colons, colonMark]
  by_cases hrule : m.matchingRule = []
  · rw [hrule]
    cases m.dnAttributes <;> simp [escapeFilter, str]
  · rw [if_pos (List.length_pos_of_ne_nil hrule), if_neg (escapeFilter_ne_nil hrule)]
    cases m.dnAttributes <;> simp [str]

/-- A rule behind a colon that is neither read as an operator nor, without the DN attributes flag, as that flag. -/
structure RuleOf (dnAttributes : Bool) (rule : GoString) : Prop extends RuleText rule where
  head : rule.head? ≠ some (ch '=')
  dn : dnAttributes = false → ¬ str "dn:" <+: rule ++ str ":="

theorem RuleOf.head_append {dnAttributes : Bool} {rule : GoString} (h : RuleOf dnAttributes rule) (rest : GoString) :
    (rule ++ (str ":=" ++ rest)).head? ≠ some (ch '=') := by
  have hhead := h.head
  cases rule with
  | nil =>
    show some (ch ':') ≠ some (ch '=')
    decide
  | cons b rule => exact hhead

theorem RuleOf.dn_append {dnAttributes : Bool} {rule : GoString} (h : RuleOf dnAttributes rule) (rest : GoString)
    (hf : dnAttributes = false) : ¬ str "dn:" <+: rule ++ (str ":=" ++ rest) := by
  intro hpre
  rw [← List.append_assoc] at hpre
  rcases rule with _ | ⟨b, rule⟩
  · obtain ⟨t, ht⟩ := hpre
    exact absurd (List.cons.inj ht).1 (by decide)
  · refine h.dn hf (List.prefix_of_prefix_length_le hpre (List.prefix_append _ _) ?_)
    simp [str]

/-- The scanner on a matching rule, which may be empty, up to its own `:=`. -/
theorem scan_rule_mark {dnAttributes : Bool} {rule : GoString} (hrule : RuleOf dnAttributes rule) (s : Scan)
    (hs : s.state = .readingAttr) (hr : s.extensibleMatchingRule = []) (hd : s.extensibleDNAttributes = false) (pos : ℕ)
    (rest : GoString) :
    scan s pos 0 (colonMark dnAttributes ++ (rule ++ str ":=") ++ rest) =
      scan ⟨some (filterPacket filterExtensibleMatch), .readingCondition, s.attr, dnAttributes, rule, s.condition⟩
        (pos + (colonMark dnAttributes ++ (rule ++ str ":=")).length) 0 rest := by
  have hend : (str ":=" ++ rest).head? ≠ some (ch '=') := by
    show some (ch ':') ≠ some (ch '=')
    decide
  rw [List.append_assoc, List.append_assoc, scan_mark s hs _ _ hd dnAttributes (hrule.head_append rest) (hrule.dn_append rest),
    scan_rule rfl hrule.toRuleText hend, scan_rule_colonEq _ rfl]
  simp only [Scan.chosen, hr, List.nil_append, List.length_append, Nat.add_assoc]
  rfl

/-- The scanner from the colons on, when the attribute has been read. -/
theorem scan_colons {dnAttributes : Bool} {rule : GoString} (hrule : RuleOf dnAttributes rule) (s : Scan)
    (hs : s.state = .readingAttr) (hr : s.extensibleMatchingRule = []) (hd : s.extensibleDNAttributes = false) (pos : ℕ)
    (rest : GoString) :
    scan s pos 0 (colons dnAttributes rule ++ rest) =
      scan ⟨some (filterPacket filterExtensibleMatch), .readingCondition, s.attr, dnAttributes, rule, s.condition⟩
        (pos + (colons dnAttributes rule).length) 0 rest := by
  unfold colons
  split_ifs with hnil
  · rw [List.append_assoc, scan_mark_eq s hs _ _ hd, List.length_append, hnil, Scan.chosen, hr]
    rfl
  · exact scan_rule_mark hrule s hs hr hd pos rest

theorem head?_colonMark (dnAttributes : Bool) (rest : GoString) :
    (colonMark dnAttributes ++ rest).head? = (str ":").head? := by
  cases dnAttributes <;> rfl

theorem scan_extensible {a rule cond : GoString} {dnAttributes : Bool} (hattr : AttrText a (str ":"))
    (hrule : RuleOf dnAttributes rule) (hread : Readable cond) (hclose : ch ')' ∉ cond) (pos : ℕ) (suf : GoString) :
    scan .start pos 0 (a ++ colons dnAttributes rule ++ cond ++ ch ')' :: suf) =
      .close ⟨some (filterPacket filterExtensibleMatch), .readingCondition, a, dnAttributes, rule, cond⟩
        (pos + (a ++ colons dnAttributes rule ++ cond).length) := by
  have hhead : (colons dnAttributes rule ++ (cond ++ ch ')' :: suf)).head? = (str ":").head? := by
    rw [colons, List.append_assoc, head?_colonMark]
  rw [List.append_assoc, List.append_assoc, scan_attr rfl (hattr.congr hhead),
    scan_colons hrule { Scan.start with attr := Scan.start.attr ++ a } rfl rfl rfl, scan_condition rfl hread hclose]
  simp only [List.length_append, Nat.add_assoc]
  rfl

/-- The children of an extensible match, in the order they are written. -/
def MatchingRuleAssertion.children (m : MatchingRuleAssertion) : List Packet :=
  (if m.matchingRule.length > 0 then [newString .context .primitive matchingRuleAssertionMatchingRule m.matchingRule
    (matchingRuleAssertionMap matchingRuleAssertionMatchingRule)] else []) ++
  (if m.attr.length > 0 then [newString .context .primitive matchingRuleAssertionType m.attr
    (matchingRuleAssertionMap matchingRuleAssertionType)] else []) ++
  [newString .context .primitive matchingRuleAssertionMatchValue m.value
    (matchingRuleAssertionMap matchingRuleAssertionMatchValue)] ++
  (if m.dnAttributes then [newBoolean E .context .primitive matchingRuleAssertionDNAttributes true
    (matchingRuleAssertionMap matchingRuleAssertionDNAttributes)] else [])

theorem compileItem_extensible_value (m : MatchingRuleAssertion) (hattr : AttrText m.attr (str ":"))
    (hrule : RuleOf m.dnAttributes m.matchingRule) {cond : GoString} (hcond : ValueText cond m.value)
    (pre suf : GoString) :
    compileItem E (pre ++ (m.attr ++ colons m.dnAttributes m.matchingRule ++ cond ++ ch ')' :: suf)) pre.length =
      ⟨some (appendAll E (filterPacket filterExtensibleMatch) (m.children E)),
        pre.length + (m.attr ++ colons m.dnAttributes m.matchingRule ++ cond).length + 1, none⟩ := by
  refine compileItem_of_scan E (scan_extensible hattr hrule hcond.readable hcond.close pre.length suf) rfl ?_
  have htag : (filterPacket filterExtensibleMatch).tag = filterExtensibleMatch := rfl
  unfold buildItem
  dsimp only
  rw [if_pos htag]
  unfold buildExtensible MatchingRuleAssertion.children
  simp only [hcond.decodes]
  cases m.dnAttributes <;> split_ifs <;> simp_all [appendAll]

theorem compileItem_extensible (m : MatchingRuleAssertion) (hattr : AttrText m.attr (str ":"))
    (hrule : RuleOf m.dnAttributes m.matchingRule) (pre suf : GoString) :
    compileItem E (pre ++ (m.attr ++ colons m.dnAttributes m.matchingRule ++ escapeFilter m.value ++ ch ')' :: suf))
        pre.length =
      ⟨some (appendAll E (filterPacket filterExtensibleMatch) (m.children E)),
        pre.length + (m.attr ++ colons m.dnAttributes m.matchingRule ++ escapeFilter m.value).length + 1, none⟩ :=
  compileItem_extensible_value E m hattr hrule (valueText_escapeFilter m.value) pre suf

/-! ### Names -/

theorem FilterName.attrText {name : GoString} (h : FilterName name) (rest : GoString) : AttrText name rest := by
  have hne : ∀ {c : UInt8}, c ∈ reservedBytes → c ∉ name := fun hc hb => (h.2 _ hb).2 hc
  refine ⟨.of_isAscii fun b hb => (h.2 b hb).1, hne (by decide), hne (by decide), hne (by decide), ?_⟩
  intro _ b hb hop
  have hres : ∀ c ∈ [ch '>', ch '<', ch '~'], c ∈ reservedBytes := by simp [reservedBytes]
  exact hne (hres b hop) (List.mem_of_mem_getLast? hb)

/-- A name other than `dn` is read as a matching rule. -/
theorem FilterName.ruleOf {rule : GoString} {dnAttributes : Bool} (h : FilterName rule)
    (hdn : rule = str "dn" → dnAttributes = true) : RuleOf dnAttributes rule := by
  have hne : ∀ {c : UInt8}, c ∈ reservedBytes → c ∉ rule := fun hc hb => (h.2 _ hb).2 hc
  refine ⟨⟨.of_isAscii fun b hb => (h.2 b hb).1, hne (by decide), ?_⟩, ?_, ?_⟩
  · exact List.Pairwise.isChain (List.pairwise_of_forall_mem_list fun b hb c _ hbc => hne (by decide) (hbc.1 ▸ hb))
  · exact fun hhead => hne (by decide) (List.mem_of_mem_head? hhead)
  · rintro rfl ⟨t, ht⟩
    -- the colon after `dn` would have to come from the rule, or the rule is `dn`
    rcases rule with _ | ⟨a, _ | ⟨b, _ | ⟨c, rule⟩⟩⟩
    · exact h.1 rfl
    · exact absurd (List.cons.inj (List.cons.inj ht).2).1 (by decide)
    · obtain ⟨h1, ht⟩ := List.cons.inj ht
      obtain ⟨h2, -⟩ := List.cons.inj ht
      exact Bool.false_ne_true (hdn (by rw [← h1, ← h2]; rfl))
    · have hc := (List.cons.inj (List.cons.inj (List.cons.inj ht).2).2).1
      exact hne (c := ch ':') (by decide) (by rw [show ch ':' = c from hc]; simp)

/-- An extensible match with names as they can stand in a filter.  An empty name is an absent one.  A matching rule
`dn` without the DN attributes flag would be read as that flag. -/
structure ExtensibleAssertion extends MatchingRuleAssertion where
  attr_name : attr = [] ∨ FilterName attr
  rule_name : matchingRule = [] ∨ FilterName matchingRule
  dn_rule : matchingRule = str "dn" → dnAttributes = true

theorem ExtensibleAssertion.attrText (m : ExtensibleAssertion) : AttrText m.attr (str ":") := by
  rcases m.attr_name with h | h
  · rw [h]
    exact ⟨.nil, by simp, by simp, by simp, by simp⟩
  · exact h.attrText _

theorem ExtensibleAssertion.ruleOf (m : ExtensibleAssertion) : RuleOf m.dnAttributes m.matchingRule := by
  rcases m.rule_name with h | h
  · rw [h]
    exact ⟨⟨.nil, by simp, by simp⟩, by simp, fun _ => by decide⟩
  · exact h.ruleOf m.dn_rule

theorem ExtensibleAssertion.string_eq (m : ExtensibleAssertion) :
    m.string = m.attr ++ colons m.dnAttributes m.matchingRule ++ escapeFilter m.value := by
  have hself : ∀ {name : GoString}, name = [] ∨ FilterName name → escapeFilter name = name := by
    rintro name (rfl | h)
    · rfl
    · exact escapeFilter_name h
  rw [MatchingRuleAssertion.string_eq, hself m.attr_name, hself m.rule_name]

end Items

/-! ## Calls of the compiler -/

/-- The first byte of a set and the tag of its packet. -/
def setOps : List (ℕ × UInt8) := [(filterAnd, ch '&'), (filterOr, ch '|')]

/-- What the compiler makes of the result for a set. -/
def SetResult.compiled : SetResult → Compiled
  | .panic => .recovered
  | .done packet pos err => ⟨some packet, pos, err⟩

/-- What the compiler makes of the result for a negated filter. -/
def Compiled.negated (E : Encoder) : Compiled → Compiled
  | ⟨none, _, _⟩ => .recovered
  | ⟨some child, pos, err⟩ => ⟨some ((filterPacket filterNot).appendChild E child), pos, err⟩

section Equations

variable {E : Encoder} {filter : GoString} {pos fuel : ℕ}

/-- The code point a call starts with. -/
private theorem decodeRune_at {b : UInt8} (hb : b.toNat < 0x80) (hpos : filter[pos]? = some b) :
    ¬ pos > filter.length ∧ decodeRune (filter.drop pos) = (b.toNat, 1) := by
  refine ⟨Nat.not_lt.mpr (List.getElem?_eq_some_iff.mp hpos).1.le, ?_⟩
  obtain ⟨t, ht⟩ := List.head?_eq_some_iff.mp (List.head?_drop.trans hpos)
  rw [ht, decodeRune_ascii hb]

/-- A doubled parenthesis: the inner call, and one byte more. -/
theorem compileFilterAt_eq_open (hpos : filter[pos]? = some (ch '(')) :
    compileFilterAt E filter (fuel + 1) pos =
      (compileFilterAt E filter fuel (pos + 1)).map fun c => { c with pos := c.pos + 1 } := by
  obtain ⟨hle, hrune⟩ := decodeRune_at (by decide) hpos
  rw [compileFilterAt, if_neg hle, hrune]
  dsimp only
  rw [if_neg (by decide), if_pos rfl]
  cases compileFilterAt E filter fuel (pos + 1) <;> rfl

theorem compileFilterAt_eq_set {tag : ℕ} {op : UInt8} (hop : (tag, op) ∈ setOps) (hpos : filter[pos]? = some op) :
    compileFilterAt E filter (fuel + 1) pos =
      (compileFilterSet E filter fuel (pos + 1) (filterPacket tag)).map SetResult.compiled := by
  simp only [setOps, List.mem_cons, Prod.mk.injEq, List.not_mem_nil, or_false] at hop
  rcases hop with ⟨rfl, rfl⟩ | ⟨rfl, rfl⟩
  · obtain ⟨hle, hrune⟩ := decodeRune_at (by decide) hpos
    rw [compileFilterAt, if_neg hle, hrune]
    dsimp only
    rw [if_neg (by decide), if_neg (by decide), if_pos rfl]
    rcases compileFilterSet E filter fuel (pos + 1) (filterPacket filterAnd) with _ | _ | _ <;> rfl
  · obtain ⟨hle, hrune⟩ := decodeRune_at (by decide) hpos
    rw [compileFilterAt, if_neg hle, hrune]
    dsimp only
    rw [if_neg (by decide), if_neg (by decide), if_neg (by decide), if_pos rfl]
    rcases compileFilterSet E filter fuel (pos + 1) (filterPacket filterOr) with _ | _ | _ <;> rfl

theorem compileFilterAt_eq_not (hpos : filter[pos]? = some (ch '!')) :
    compileFilterAt E filter (fuel + 1) pos = (compileFilterAt E filter fuel (pos + 1)).map (Compiled.negated E) := by
  obtain ⟨hle, hrune⟩ := decodeRune_at (by decide) hpos
  rw [compileFilterAt, if_neg hle, hrune]
  dsimp only
  rw [if_neg (by decide), if_neg (by decide), if_neg (by decide), if_neg (by decide), if_pos rfl]
  rcases compileFilterAt E filter fuel (pos + 1) with _ | ⟨_ | _, _, _⟩ <;> rfl

end Equations

section Calls

variable (E : Encoder) (pre rest : GoString) (fuel : ℕ)

private theorem getElem?_pre (b : UInt8) : (pre ++ b :: rest)[pre.length]? = some b := by simp

theorem compileFilterAt_open {c : Compiled}
    (h : compileFilterAt E (pre ++ ch '(' :: rest) fuel (pre.length + 1) = some c) :
    compileFilterAt E (pre ++ ch '(' :: rest) (fuel + 1) pre.length = some { c with pos := c.pos + 1 } := by
  rw [compileFilterAt_eq_open (getElem?_pre pre rest _), h]
  rfl

theorem compileFilterAt_set {tag pos : ℕ} {op : UInt8} (hop : (tag, op) ∈ setOps) {packet : Packet}
    (h : compileFilterSet E (pre ++ op :: rest) fuel (pre.length + 1) (filterPacket tag) =
      some (.done packet pos none)) :
    compileFilterAt E (pre ++ op :: rest) (fuel + 1) pre.length = some ⟨some packet, pos, none⟩ := by
  rw [compileFilterAt_eq_set hop (getElem?_pre pre rest _), h]
  rfl

theorem compileFilterAt_not {child : Packet} {pos : ℕ}
    (h : compileFilterAt E (pre ++ ch '!' :: rest) fuel (pre.length + 1) = some ⟨some child, pos, none⟩) :
    compileFilterAt E (pre ++ ch '!' :: rest) (fuel + 1) pre.length =
      some ⟨some ((filterPacket filterNot).appendChild E child), pos, none⟩ := by
  rw [compileFilterAt_eq_not (getElem?_pre pre rest _), h]
  rfl

/-- Any other first byte starts an item. -/
theorem compileFilterAt_item {b : UInt8} (hb : b.toNat < 0x80)
    (hne : b ≠ ch '(' ∧ b ≠ ch '&' ∧ b ≠ ch '|' ∧ b ≠ ch '!') :
    compileFilterAt E (pre ++ b :: rest) (fuel + 1) pre.length = some (compileItem E (pre ++ b :: rest) pre.length) := by
  have hnat : ∀ {c : UInt8}, b ≠ c → b.toNat ≠ c.toNat := fun h he => h (UInt8.toNat_inj.mp he)
  have herr : b.toNat ≠ runeError := by
    unfold runeError
    omega
  obtain ⟨hle, hrune⟩ := decodeRune_at hb (getElem?_pre pre rest b)
  rw [compileFilterAt, if_neg hle, hrune]
  dsimp only
  rw [if_neg herr, if_neg (hnat hne.1), if_neg (hnat hne.2.1), if_neg (hnat hne.2.2.1), if_neg (hnat hne.2.2.2)]

/-- The loop of a set on one more child. -/
theorem compileFilterSet_child {child parent : Packet} {pos : ℕ}
    (h : compileFilterAt E (pre ++ ch '(' :: rest) fuel (pre.length + 1) = some ⟨some child, pos, none⟩) :
    compileFilterSet E (pre ++ ch '(' :: rest) (fuel + 1) pre.length parent =
      compileFilterSet E (pre ++ ch '(' :: rest) fuel pos (parent.appendChild E child) := by
  rw [compileFilterSet, if_pos (by simp), h]

/-- The loop of a set at its closing parenthesis. -/
theorem compileFilterSet_close (parent : Packet) :
    compileFilterSet E (pre ++ ch ')' :: rest) (fuel + 1) pre.length parent =
      some (.done parent (pre.length + 1) none) := by
  have hopen : ¬ (pre ++ ch ')' :: rest)[pre.length]? = some (ch '(') := by
    rw [List.getElem?_append_right (Nat.le_refl _), Nat.sub_self, List.getElem?_cons_zero]
    decide
  rw [compileFilterSet, if_neg hopen, if_neg (by simp)]

end Calls

end GoLdap
