import GoLdap.Filter.Compile

/-!
# Filter.RoundTrip — compiling what was decompiled

`FilterPacket` describes the packets of filters: sets, negations and the items, with arbitrary assertion values.
`compileFilter_decompileFilter` says that such a packet is decompiled to a string that compiles to the packet again, up
to descriptions and decoded values.

The induction carries `CompilesTo`: wherever the text of a filter stands in a string, the compiler reads exactly that
text.  So nothing an escaped value contains reaches past its own item.
-/

namespace GoLdap

open Go Ber

/-! ## Filter packets -/

/-- A primitive element with these contents. -/
structure IsPrimitive (cls : Ber.Class) (tag : ℕ) (data : GoString) (p : Packet) : Prop where
  classType : p.classType = cls
  tagType : p.tagType = .primitive
  tag : p.tag = tag
  data : p.data = data
  children : p.children = []

/-- A constructed element with these children. -/
structure IsConstructed (E : Encoder) (cls : Ber.Class) (tag : ℕ) (cs : List Packet) (p : Packet) : Prop where
  classType : p.classType = cls
  tagType : p.tagType = .constructed
  tag : p.tag = tag
  data : p.data = contents E cs
  children : p.children = cs

/-- A child of an extensible match; the flag `dnAttributes` is read from the decoded value. -/
def IsAssertionChild (c q : Packet) : Prop :=
  IsPrimitive .context c.tag c.data q ∧ (c.tag = matchingRuleAssertionDNAttributes → q.value = .bool true)

/-- The packets of filters. -/
inductive FilterPacket (E : Encoder) : Packet → Prop
  | set {p : Packet} {tag : ℕ} {cs : List Packet} (htag : tag = filterAnd ∨ tag = filterOr)
      (hp : IsConstructed E .context tag cs p) (hcs : ∀ c ∈ cs, FilterPacket E c) : FilterPacket E p
  | not {p c : Packet} (hp : IsConstructed E .context filterNot [c] p) (hc : FilterPacket E c) : FilterPacket E p
  | pair {p a v : Packet} {tag : ℕ} {name value : GoString}
      (htag : tag ∈ [filterEqualityMatch, filterGreaterOrEqual, filterLessOrEqual, filterApproxMatch])
      (hp : IsConstructed E .context tag [a, v] p) (ha : IsPrimitive .universal tagOctetString name a)
      (hv : IsPrimitive .universal tagOctetString value v) (hname : FilterName name) : FilterPacket E p
  | present {p : Packet} {name : GoString} (hp : IsPrimitive .context filterPresent name p) (hname : FilterName name) :
      FilterPacket E p
  | substrings {p a seq : Packet} {name : GoString} {cs : List Packet} (assertion : SubstringAssertion)
      (hp : IsConstructed E .context filterSubstrings [a, seq] p) (ha : IsPrimitive .universal tagOctetString name a)
      (hseq : IsConstructed E .universal tagSequence cs seq)
      (hcs : List.Forall₂ (fun c q => IsPrimitive .context c.1 c.2 q) assertion.components cs)
      (hname : FilterName name) : FilterPacket E p
  | extensible {p : Packet} {cs : List Packet} (assertion : ExtensibleAssertion)
      (hp : IsConstructed E .context filterExtensibleMatch cs p)
      (hcs : List.Forall₂ IsAssertionChild (assertion.children E) cs) : FilterPacket E p

section Skeleton

variable {E : Encoder}

theorem IsPrimitive.skeleton_eq {cls : Ber.Class} {tag : ℕ} {data : GoString} {p : Packet} (h : IsPrimitive cls tag data p) :
    p.skeleton = ⟨cls, .primitive, tag, [], .nil, [], data, []⟩ := by
  rw [Packet.skeleton_eq, h.classType, h.tagType, h.tag, h.data, h.children]
  rfl

theorem appendAll_eq (p : Packet) (cs : List Packet) :
    appendAll E p cs = { p with data := p.data ++ contents E cs, children := p.children ++ cs } :=
  foldl_appendChild E p cs

/-- A packet built from children that agree with those of `p` agrees with `p`. -/
theorem IsConstructed.skeleton_appendAll {cls : Ber.Class} {tag : ℕ} {cs ds : List Packet} {p : Packet}
    (h : IsConstructed E cls tag cs p) (hds : ds.map Packet.skeleton = cs.map Packet.skeleton) (d : GoString) :
    (appendAll E (encode cls .constructed tag d) ds).skeleton = p.skeleton := by
  rw [appendAll_eq, Packet.skeleton_eq, Packet.skeleton_eq p, h.classType, h.tagType, h.tag, h.data, h.children,
    ← contents_eq_of_skeleton E hds, ← hds]
  rfl

theorem IsPrimitive.skeleton_newString {cls : Ber.Class} {tag : ℕ} {data : GoString} {p : Packet}
    (h : IsPrimitive cls tag data p) (d : GoString) : (newString cls .primitive tag data d).skeleton = p.skeleton := by
  rw [h.skeleton_eq]
  rfl

end Skeleton

/-! ## Decompiling -/

section Decompile

variable {p : Packet}

theorem decompileFilter_set {tag : ℕ} {op : UInt8} (hop : (tag, op) ∈ setOps) (htag : p.tag = tag) {t : GoString}
    (h : decompileFilters p.children = .ok t) : decompileFilter p = .ok (ch '(' :: op :: t ++ [ch ')']) := by
  obtain ⟨cls, type, tag', d, v, bv, data, cs⟩ := p
  subst htag
  simp only [setOps, List.mem_cons, Prod.mk.injEq, List.not_mem_nil, or_false] at hop
  rcases hop with ⟨rfl, rfl⟩ | ⟨rfl, rfl⟩
  all_goals
    rw [decompileFilter.eq_def]
    show recoverDecompile (_ <$> (_ <$> Outcome.ofExcept (decompileFilters cs))) = _
    dsimp only at h
    rw [h]
    rfl

theorem decompileFilter_not (htag : p.tag = filterNot) {c : Packet} (hc : p.children = [c]) {s : GoString}
    (h : decompileFilter c = .ok s) : decompileFilter p = .ok (ch '(' :: ch '!' :: s ++ [ch ')']) := by
  obtain ⟨cls, type, tag', d, v, bv, data, cs⟩ := p
  subst htag hc
  rw [decompileFilter.eq_def]
  show recoverDecompile (_ <$> (_ <$> Outcome.ofExcept (decompileFilter c))) = _
  rw [h]
  rfl

theorem decompileFilter_pair {tag : ℕ} {op : GoString} (hop : (tag, op) ∈ pairOps) (htag : p.tag = tag)
    {a v : Packet} (hc : p.children = [a, v]) :
    decompileFilter p = .ok (ch '(' :: (escapeFilter a.data ++ op ++ escapeFilter v.data) ++ [ch ')']) := by
  obtain ⟨cls, type, tag', d, v', bv, data, cs⟩ := p
  subst htag hc
  simp only [pairOps, List.mem_cons, Prod.mk.injEq, List.not_mem_nil, or_false] at hop
  rcases hop with ⟨rfl, rfl⟩ | ⟨rfl, rfl⟩ | ⟨rfl, rfl⟩ | ⟨rfl, rfl⟩
  all_goals
    rw [decompileFilter.eq_def]
    rfl

theorem decompileFilter_present (htag : p.tag = filterPresent) :
    decompileFilter p = .ok (ch '(' :: (escapeFilter p.data ++ str "=*") ++ [ch ')']) := by
  obtain ⟨cls, type, tag', d, v', bv, data, cs⟩ := p
  subst htag
  rw [decompileFilter.eq_def]
  rfl

theorem decompileFilter_substrings (htag : p.tag = filterSubstrings) {a seq : Packet} (hc : p.children = [a, seq]) :
    decompileFilter p =
      .ok (ch '(' :: (escapeFilter a.data ++ [ch '='] ++ decompileSubstrings 0 seq.children) ++ [ch ')']) := by
  obtain ⟨cls, type, tag', d, v', bv, data, cs⟩ := p
  subst htag hc
  rw [decompileFilter.eq_def]
  rfl

theorem decompileFilter_extensible (htag : p.tag = filterExtensibleMatch) {m : MatchingRuleAssertion}
    (h : p.children.foldlM MatchingRuleAssertion.read ⟨[], false, [], []⟩ = .ok m) :
    decompileFilter p = .ok (ch '(' :: m.string ++ [ch ')']) := by
  obtain ⟨cls, type, tag', d, v', bv, data, cs⟩ := p
  subst htag
  rw [decompileFilter.eq_def]
  dsimp only at h
  show recoverDecompile (_ <$> (_ <$> List.foldlM MatchingRuleAssertion.read _ cs)) = _
  rw [h]
  rfl

theorem decompileSubstrings_any : ∀ {any : List GoString} {final : GoString} {cs : List Packet} {i : ℕ}, 0 < i →
    List.Forall₂ (fun c q => IsPrimitive .context c.1 c.2 q)
      (any.map (filterSubstringsAny, ·) ++ component filterSubstringsFinal final) cs →
    decompileSubstrings i cs = any.flatMap (fun v => escapeFilter v ++ [ch '*']) ++ escapeFilter final
  | [], final, cs, i, hi, h => by
    rw [List.map_nil, List.nil_append, component] at h
    split_ifs at h with hf
    · cases h
      rw [hf]
      rfl
    · obtain ⟨q, cs, hq, hcs, rfl⟩ := List.forall₂_cons_left_iff.mp h
      cases hcs
      rw [decompileSubstrings, hq.tag, hq.data, if_neg (by omega), if_neg (by simp)]
      simp [decompileSubstrings]
  | v :: any, final, cs, i, hi, h => by
    rw [List.map_cons, List.cons_append] at h
    obtain ⟨q, cs, hq, hcs, rfl⟩ := List.forall₂_cons_left_iff.mp h
    rw [decompileSubstrings, hq.tag, hq.data, if_neg (by omega), if_pos (by dsimp only; decide),
      decompileSubstrings_any (Nat.succ_pos i) hcs]
    simp [List.append_assoc]

/-- The text of the components is the text of the assertion. -/
theorem decompileSubstrings_components (a : SubstringAssertion) {cs : List Packet}
    (h : List.Forall₂ (fun c q => IsPrimitive .context c.1 c.2 q) a.components cs) :
    decompileSubstrings 0 cs = a.string := by
  obtain ⟨initial, any, final, hany, hne⟩ := a
  simp only [SubstringAssertion.components, SubstringAssertion.string] at h ⊢
  by_cases hi : initial = []
  · -- the first component is not an initial one: the loop writes an asterisk in front of it
    subst hi
    rw [component, if_pos rfl, List.nil_append] at h
    rcases any with _ | ⟨v, any⟩
    · have hf : final ≠ [] := by simpa using hne
      rw [List.map_nil, List.nil_append, component, if_neg hf] at h
      obtain ⟨q, cs, hq, hcs, rfl⟩ := List.forall₂_cons_left_iff.mp h
      cases hcs
      rw [decompileSubstrings, hq.tag, hq.data, if_pos ⟨rfl, by dsimp only; decide⟩, if_neg (by simp)]
      simp [decompileSubstrings, escapeFilter]
    · rw [List.map_cons, List.cons_append] at h
      obtain ⟨q, cs, hq, hcs, rfl⟩ := List.forall₂_cons_left_iff.mp h
      rw [decompileSubstrings, hq.tag, hq.data, if_pos ⟨rfl, by dsimp only; decide⟩, if_pos (by dsimp only; decide),
        decompileSubstrings_any (Nat.succ_pos 0) hcs]
      simp [escapeFilter, List.append_assoc]
  · rw [component, if_neg hi, List.append_assoc, List.singleton_append] at h
    obtain ⟨q, cs, hq, hcs, rfl⟩ := List.forall₂_cons_left_iff.mp h
    rw [decompileSubstrings, hq.tag, hq.data, if_neg (by simp), if_pos (by dsimp only; decide),
      decompileSubstrings_any (Nat.succ_pos 0) hcs]
    simp [List.append_assoc]

/-- A child of an extensible match is read as the child it stands for. -/
theorem read_isAssertionChild {E : Encoder} {a : ExtensibleAssertion} {c q : Packet}
    (hc : c ∈ a.children E) (h : IsAssertionChild c q) (m : MatchingRuleAssertion) : m.read q = m.read c := by
  have hv : c.tag = matchingRuleAssertionDNAttributes → c.value = .bool true := by
    simp only [MatchingRuleAssertion.children, List.mem_append] at hc
    intro ht
    rcases hc with ((hc | hc) | hc) | hc
    · split_ifs at hc
      · rw [List.mem_singleton.mp hc] at ht
        cases ht
      · simp at hc
    · split_ifs at hc
      · rw [List.mem_singleton.mp hc] at ht
        cases ht
      · simp at hc
    · rw [List.mem_singleton.mp hc] at ht
      cases ht
    · split_ifs at hc
      · rw [List.mem_singleton.mp hc]
        rfl
      · simp at hc
  unfold MatchingRuleAssertion.read
  rw [h.1.tag, h.1.data]
  by_cases ht : c.tag = matchingRuleAssertionDNAttributes
  · rw [h.2 ht, hv ht]
  · simp only [if_neg ht]

theorem foldlM_read_children (E : Encoder) (a : MatchingRuleAssertion) :
    (a.children E).foldlM MatchingRuleAssertion.read ⟨[], false, [], []⟩ = .ok a := by
  obtain ⟨attr, dnAttributes, rule, value⟩ := a
  unfold MatchingRuleAssertion.children
  dsimp only
  rcases attr with _ | ⟨x, attr⟩ <;> rcases rule with _ | ⟨y, rule⟩ <;> cases dnAttributes <;> rfl

theorem foldlM_read_congr : ∀ {cs ds : List Packet} (m : MatchingRuleAssertion),
    List.Forall₂ (fun c q : Packet => ∀ m : MatchingRuleAssertion, m.read q = m.read c) cs ds →
    ds.foldlM MatchingRuleAssertion.read m = cs.foldlM MatchingRuleAssertion.read m
  | [], _, m, h => by
    cases h
    rfl
  | c :: cs, _, m, h => by
    obtain ⟨q, ds, hq, hds, rfl⟩ := List.forall₂_cons_left_iff.mp h
    rw [List.foldlM_cons, List.foldlM_cons, hq m]
    congr 1
    funext m'
    exact foldlM_read_congr m' hds

end Decompile

/-! ## Compiling the text of a filter -/

section CompilesTo

variable {E : Encoder}

/-- Wherever the text stands, the compiler, called behind its opening parenthesis, reads exactly the text and returns a
packet that agrees with `p`. -/
def CompilesTo (E : Encoder) (text : GoString) (p : Packet) : Prop :=
  ∃ body, text = ch '(' :: body ∧ ∀ (pre suf : GoString) (fuel : ℕ), text.length < fuel →
    ∃ q, compileFilterAt E (pre ++ (body ++ suf)) fuel pre.length = some ⟨some q, pre.length + body.length, none⟩ ∧
      q.skeleton = p.skeleton

/-- A text that the compiler takes for an item. -/
def StartsItem (text : GoString) : Prop :=
  ∃ b rest, text = b :: rest ∧ b.toNat < 0x80 ∧ b ≠ ch '(' ∧ b ≠ ch '&' ∧ b ≠ ch '|' ∧ b ≠ ch '!'

theorem FilterName.startsItem {name : GoString} (h : FilterName name) (rest : GoString) : StartsItem (name ++ rest) := by
  obtain ⟨b, name, rfl⟩ := List.exists_cons_of_ne_nil h.1
  obtain ⟨hascii, hres⟩ := h.2 b (by simp)
  have hne : ∀ {c : UInt8}, c ∈ reservedBytes → b ≠ c := by
    rintro c hc rfl
    exact hres hc
  exact ⟨b, name ++ rest, rfl, hascii, hne (by decide), hne (by decide), hne (by decide), hne (by decide)⟩

theorem startsItem_colons (dnAttributes : Bool) (rule rest : GoString) :
    StartsItem (colons dnAttributes rule ++ rest) := by
  have hcolon : ∀ rest, StartsItem (ch ':' :: rest) := fun rest => ⟨ch ':', rest, rfl, by decide, by decide⟩
  rw [colons, List.append_assoc]
  cases dnAttributes <;> exact hcolon _

theorem compilesTo_item {text : GoString} {p q : Packet} (htext : StartsItem text)
    (h : ∀ pre suf : GoString, compileItem E (pre ++ (text ++ ch ')' :: suf)) pre.length =
      ⟨some q, pre.length + text.length + 1, none⟩)
    (hq : q.skeleton = p.skeleton) : CompilesTo E (ch '(' :: text ++ [ch ')']) p := by
  refine ⟨text ++ [ch ')'], rfl, fun pre suf fuel hfuel => ⟨q, ?_, hq⟩⟩
  obtain ⟨fuel, rfl⟩ := Nat.exists_eq_add_of_lt hfuel
  obtain ⟨b, rest, rfl, hascii, hne⟩ := htext
  have hcall := compileFilterAt_item E pre (rest ++ ch ')' :: suf)
    ((ch '(' :: (b :: rest) ++ [ch ')']).length + fuel) hascii hne
  rw [← List.cons_append, h pre suf] at hcall
  rw [List.append_assoc, List.singleton_append, hcall, List.length_append, List.length_singleton, Nat.add_assoc]

theorem compilesTo_not {text : GoString} {p c : Packet} (hp : IsConstructed E .context filterNot [c] p)
    (h : CompilesTo E text c) : CompilesTo E (ch '(' :: ch '!' :: text ++ [ch ')']) p := by
  obtain ⟨body, rfl, hbody⟩ := h
  refine ⟨ch '!' :: ch '(' :: body ++ [ch ')'], rfl, fun pre suf fuel hfuel => ?_⟩
  simp only [List.length_append, List.length_cons, List.length_nil] at hfuel
  obtain ⟨fuel, rfl⟩ : ∃ k, fuel = k + 2 := ⟨fuel - 2, by omega⟩
  obtain ⟨q, hq, hskel⟩ := hbody (pre ++ [ch '!', ch '(']) (ch ')' :: suf) fuel (by simp only [List.length_cons]; omega)
  have hskels : [q].map Packet.skeleton = [c].map Packet.skeleton := by simp [hskel]
  refine ⟨(filterPacket filterNot).appendChild E q, ?_, hp.skeleton_appendAll hskels (filterMap filterNot)⟩
  -- the call at `!` makes a call at the child's parenthesis, which takes the closing parenthesis along
  have hinner : compileFilterAt E (pre ++ [ch '!'] ++ ch '(' :: (body ++ ch ')' :: suf)) fuel
      ((pre ++ [ch '!']).length + 1) = some ⟨some q, pre.length + 2 + body.length, none⟩ := by
    simpa [List.append_assoc] using hq
  have hopen : compileFilterAt E (pre ++ ch '!' :: (ch '(' :: (body ++ ch ')' :: suf))) (fuel + 1) (pre.length + 1) =
      some ⟨some q, pre.length + 2 + body.length + 1, none⟩ := by
    simpa [List.append_assoc] using compileFilterAt_open E _ _ _ hinner
  have hnot := compileFilterAt_not E _ _ _ hopen
  have hlen : pre.length + (ch '!' :: ch '(' :: body ++ [ch ')']).length = pre.length + 2 + body.length + 1 := by
    simp only [List.length_append, List.length_cons, List.length_nil]
    omega
  rw [hlen]
  simpa [List.append_assoc] using hnot

/-- The loop of a set on the texts of its children. -/
theorem compileFilterSet_all : ∀ {texts : List GoString} {cs : List Packet}, List.Forall₂ (CompilesTo E) texts cs →
    ∀ (pre suf : GoString) (fuel : ℕ) (parent : Packet), texts.flatten.length + 1 < fuel →
    ∃ qs, compileFilterSet E (pre ++ (texts.flatten ++ ch ')' :: suf)) fuel pre.length parent =
        some (.done (appendAll E parent qs) (pre.length + texts.flatten.length + 1) none) ∧
      qs.map Packet.skeleton = cs.map Packet.skeleton
  | [], _, h, pre, suf, fuel, parent, hfuel => by
    cases h
    obtain ⟨fuel, rfl⟩ := Nat.exists_eq_add_of_lt hfuel
    exact ⟨[], compileFilterSet_close E pre suf _ parent, rfl⟩
  | text :: texts, _, h, pre, suf, fuel, parent, hfuel => by
    obtain ⟨c, cs, ⟨body, rfl, hbody⟩, hcs, rfl⟩ := List.forall₂_cons_left_iff.mp h
    simp only [List.flatten_cons, List.length_append, List.length_cons] at hfuel
    obtain ⟨fuel, rfl⟩ : ∃ k, fuel = k + 1 := ⟨fuel - 1, by omega⟩
    obtain ⟨q, hq, hskel⟩ := hbody (pre ++ [ch '(']) (texts.flatten ++ ch ')' :: suf) fuel
      (by simp only [List.length_cons]; omega)
    obtain ⟨qs, hqs, hskels⟩ := compileFilterSet_all hcs (pre ++ ch '(' :: body) suf fuel (parent.appendChild E q)
      (by omega)
    refine ⟨q :: qs, ?_, by rw [List.map_cons, List.map_cons, hskel, hskels]⟩
    have hcall : compileFilterAt E (pre ++ ch '(' :: (body ++ (texts.flatten ++ ch ')' :: suf))) fuel (pre.length + 1) =
        some ⟨some q, (pre ++ ch '(' :: body).length, none⟩ := by
      simpa [List.append_assoc, Nat.add_assoc, Nat.add_comm, Nat.add_left_comm] using hq
    rw [List.append_assoc, List.cons_append] at hqs
    rw [List.flatten_cons, List.append_assoc, List.cons_append, compileFilterSet_child E _ _ _ hcall, hqs]
    simp only [List.length_append, List.length_cons, appendAll, List.foldl_cons]
    congr 3
    omega

theorem compilesTo_set {tag : ℕ} {op : UInt8} (hop : (tag, op) ∈ setOps) {texts : List GoString} {cs : List Packet}
    {p : Packet} (hp : IsConstructed E .context tag cs p) (h : List.Forall₂ (CompilesTo E) texts cs) :
    CompilesTo E (ch '(' :: op :: texts.flatten ++ [ch ')']) p := by
  refine ⟨op :: texts.flatten ++ [ch ')'], rfl, fun pre suf fuel hfuel => ?_⟩
  simp only [List.length_append, List.length_cons, List.length_nil] at hfuel
  obtain ⟨fuel, rfl⟩ : ∃ k, fuel = k + 1 := ⟨fuel - 1, by omega⟩
  obtain ⟨qs, hqs, hskel⟩ := compileFilterSet_all h (pre ++ [op]) suf fuel (filterPacket tag) (by omega)
  refine ⟨appendAll E (filterPacket tag) qs, ?_, hp.skeleton_appendAll hskel _⟩
  have hcall : compileFilterSet E (pre ++ op :: (texts.flatten ++ ch ')' :: suf)) fuel (pre.length + 1)
      (filterPacket tag) =
        some (.done (appendAll E (filterPacket tag) qs) ((pre ++ [op]).length + texts.flatten.length + 1) none) := by
    simpa [List.append_assoc] using hqs
  have hset := compileFilterAt_set E _ _ _ hop hcall
  have hlen : pre.length + (op :: texts.flatten ++ [ch ')']).length =
      (pre ++ [op]).length + texts.flatten.length + 1 := by
    simp only [List.length_append, List.length_cons, List.length_nil]
    omega
  rw [hlen]
  simpa [List.append_assoc] using hset

theorem compilesTo_pair {tag : ℕ} {op name value : GoString} (hop : (tag, op) ∈ pairOps) {p a v : Packet}
    (hp : IsConstructed E .context tag [a, v] p) (ha : IsPrimitive .universal tagOctetString name a)
    (hv : IsPrimitive .universal tagOctetString value v) (hname : FilterName name) :
    CompilesTo E (ch '(' :: (name ++ op ++ escapeFilter value) ++ [ch ')']) p := by
  have hstart : StartsItem (name ++ op ++ escapeFilter value) := by
    rw [List.append_assoc]
    exact hname.startsItem _
  refine compilesTo_item hstart (compileItem_pair E hop (hname.attrText _) value) ?_
  have hds : [newString .universal .primitive tagOctetString name (str "Attribute"),
      newString .universal .primitive tagOctetString value (str "Condition")].map Packet.skeleton =
      [a, v].map Packet.skeleton := by
    simp only [List.map_cons, List.map_nil, ha.skeleton_newString, hv.skeleton_newString]
  exact hp.skeleton_appendAll hds (filterMap tag)

theorem compilesTo_present {name : GoString} {p : Packet} (hp : IsPrimitive .context filterPresent name p)
    (hname : FilterName name) : CompilesTo E (ch '(' :: (name ++ str "=*") ++ [ch ')']) p := by
  have hitem := compileItem_present E (hname.attrText _)
  rw [show name ++ str "=" ++ [ch '*'] = name ++ str "=*" from List.append_assoc _ _ _] at hitem
  exact compilesTo_item (hname.startsItem _) hitem (hp.skeleton_newString _)

theorem compilesTo_substrings {name : GoString} (assertion : SubstringAssertion) {p a seq : Packet} {cs : List Packet}
    (hp : IsConstructed E .context filterSubstrings [a, seq] p) (ha : IsPrimitive .universal tagOctetString name a)
    (hseq : IsConstructed E .universal tagSequence cs seq)
    (hcs : List.Forall₂ (fun c q => IsPrimitive .context c.1 c.2 q) assertion.components cs) (hname : FilterName name) :
    CompilesTo E (ch '(' :: (name ++ [ch '='] ++ assertion.string) ++ [ch ')']) p := by
  have hstart : StartsItem (name ++ [ch '='] ++ assertion.string) := by
    rw [List.append_assoc]
    exact hname.startsItem _
  refine compilesTo_item hstart (compileItem_substrings E (hname.attrText _) assertion) ?_
  have hcomp : (assertion.components.map componentPacket).map Packet.skeleton = cs.map Packet.skeleton := by
    rw [List.map_map, ← List.forall₂_eq_eq_eq, List.forall₂_map_left_iff, List.forall₂_map_right_iff]
    exact hcs.imp fun c q h => h.skeleton_newString _
  have hds : [newString .universal .primitive tagOctetString name (str "Attribute"),
      appendAll E (encode .universal .constructed tagSequence (str "Substrings"))
        (assertion.components.map componentPacket)].map Packet.skeleton = [a, seq].map Packet.skeleton := by
    simp only [List.map_cons, List.map_nil, ha.skeleton_newString, hseq.skeleton_appendAll hcomp]
  exact hp.skeleton_appendAll hds (filterMap filterSubstrings)

private theorem forall₂_mem_left {α β : Type} {R : α → β → Prop} {l : List α} {u : List β} (h : List.Forall₂ R l u) :
    List.Forall₂ (fun a b => a ∈ l ∧ R a b) l u :=
  (List.forall₂_and_left _ _).mpr ⟨fun _ ha => ha, h⟩

theorem children_skeleton (assertion : ExtensibleAssertion) {cs : List Packet}
    (hcs : List.Forall₂ IsAssertionChild (assertion.children E) cs) :
    (assertion.children E).map Packet.skeleton = cs.map Packet.skeleton := by
  have hprim : ∀ c ∈ assertion.children E, c.skeleton = ⟨.context, .primitive, c.tag, [], .nil, [], c.data, []⟩ := by
    intro c hc
    simp only [MatchingRuleAssertion.children, List.mem_append] at hc
    rcases hc with ((hc | hc) | hc) | hc
    all_goals
      first
        | (rw [List.mem_singleton.mp hc]; rfl)
        | (split_ifs at hc
           · rw [List.mem_singleton.mp hc]
             rfl
           · simp at hc)
  rw [← List.forall₂_eq_eq_eq, List.forall₂_map_left_iff, List.forall₂_map_right_iff]
  exact (forall₂_mem_left hcs).imp fun c q h => by rw [hprim c h.1, h.2.1.skeleton_eq]

theorem compilesTo_extensible (assertion : ExtensibleAssertion) {p : Packet} {cs : List Packet}
    (hp : IsConstructed E .context filterExtensibleMatch cs p)
    (hcs : List.Forall₂ IsAssertionChild (assertion.children E) cs) :
    CompilesTo E (ch '(' :: assertion.string ++ [ch ')']) p := by
  have hstart : StartsItem (assertion.attr ++ (colons assertion.dnAttributes assertion.matchingRule ++
      escapeFilter assertion.value)) := by
    rcases assertion.attr_name with h | h
    · -- without an attribute the text starts with a colon
      rw [h, List.nil_append]
      exact startsItem_colons _ _ _
    · exact h.startsItem _
  rw [← List.append_assoc, ← assertion.string_eq] at hstart
  have hitem := compileItem_extensible E _ assertion.attrText assertion.ruleOf
  rw [← assertion.string_eq] at hitem
  exact compilesTo_item hstart hitem (hp.skeleton_appendAll (children_skeleton assertion hcs) _)

end CompilesTo

/-! ## The round trip -/

theorem decompileFilters_compileTo {E : Encoder} : ∀ {cs : List Packet},
    (∀ c ∈ cs, ∃ s, decompileFilter c = .ok s ∧ CompilesTo E s c) →
    ∃ texts : List GoString, decompileFilters cs = .ok texts.flatten ∧ List.Forall₂ (CompilesTo E) texts cs
  | [], _ => ⟨[], rfl, .nil⟩
  | c :: cs, h => by
    obtain ⟨s, hs, hcomp⟩ := h c (by simp)
    obtain ⟨texts, htexts, hall⟩ := decompileFilters_compileTo fun d hd => h d (List.mem_cons_of_mem c hd)
    refine ⟨s :: texts, ?_, .cons hcomp hall⟩
    rw [decompileFilters, hs, htexts]
    rfl

/-- A filter packet is decompiled to a text that compiles to it wherever it stands. -/
theorem FilterPacket.compilesTo {E : Encoder} {p : Packet} (h : FilterPacket E p) :
    ∃ s, decompileFilter p = .ok s ∧ CompilesTo E s p := by
  induction h with
  | @set p tag cs htag hp _ ih =>
    obtain ⟨texts, htexts, hall⟩ := decompileFilters_compileTo ih
    rw [← hp.children] at htexts
    obtain ⟨op, hop⟩ : ∃ op, (tag, op) ∈ setOps := by
      rcases htag with rfl | rfl
      · exact ⟨ch '&', by simp [setOps]⟩
      · exact ⟨ch '|', by simp [setOps]⟩
    exact ⟨_, decompileFilter_set hop hp.tag htexts, compilesTo_set hop hp hall⟩
  | not hp _ ih =>
    obtain ⟨s, hs, hcomp⟩ := ih
    exact ⟨_, decompileFilter_not hp.tag hp.children hs, compilesTo_not hp hcomp⟩
  | @pair p a v tag name value htag hp ha hv hname =>
    obtain ⟨op, hop⟩ : ∃ op, (tag, op) ∈ pairOps := by
      simp only [List.mem_cons, List.not_mem_nil, or_false] at htag
      rcases htag with rfl | rfl | rfl | rfl
      · exact ⟨str "=", by simp [pairOps]⟩
      · exact ⟨str ">=", by simp [pairOps]⟩
      · exact ⟨str "<=", by simp [pairOps]⟩
      · exact ⟨str "~=", by simp [pairOps]⟩
    have hdec := decompileFilter_pair hop hp.tag hp.children
    rw [ha.data, hv.data, escapeFilter_name hname] at hdec
    exact ⟨_, hdec, compilesTo_pair hop hp ha hv hname⟩
  | present hp hname =>
    have hdec := decompileFilter_present hp.tag
    rw [hp.data, escapeFilter_name hname] at hdec
    exact ⟨_, hdec, compilesTo_present hp hname⟩
  | substrings assertion hp ha hseq hcs hname =>
    have hdec := decompileFilter_substrings hp.tag hp.children
    rw [ha.data, escapeFilter_name hname, hseq.children, decompileSubstrings_components assertion hcs] at hdec
    exact ⟨_, hdec, compilesTo_substrings assertion hp ha hseq hcs hname⟩
  | extensible assertion hp hcs =>
    have hread := (forall₂_mem_left hcs).imp fun c q h => read_isAssertionChild h.1 h.2
    have hfold := (foldlM_read_congr ⟨[], false, [], []⟩ hread).trans (foldlM_read_children _ _)
    rw [← hp.children] at hfold
    exact ⟨_, decompileFilter_extensible hp.tag hfold, compilesTo_extensible assertion hp hcs⟩

/-- A text that the compiler reads wherever it stands is accepted when it stands alone. -/
theorem CompilesTo.compileFilter_eq {E : Encoder} {text : GoString} {p : Packet} (h : CompilesTo E text p) :
    ∃ q, compileFilter E text = some (.ok (some q)) ∧ q.skeleton = p.skeleton := by
  obtain ⟨body, rfl, hbody⟩ := h
  obtain ⟨q, hq, hskel⟩ := hbody [ch '('] [] ((ch '(' :: body).length + 2) (by omega)
  refine ⟨q, ?_, hskel⟩
  rw [List.append_nil, List.singleton_append] at hq
  have hlen : [ch '('].length + body.length = (ch '(' :: body).length := by
    simp only [List.length_cons, List.length_nil]
    omega
  unfold compileFilter compileFilterFuel
  rw [if_neg (by simp)]
  rw [hlen, List.length_singleton] at hq
  rw [hq]
  dsimp only
  rw [if_neg (Nat.lt_irrefl _), if_neg (Nat.lt_irrefl _)]

/-- **Compiling undoes decompiling.**  Every filter packet, with arbitrary assertion values, is decompiled to a string
that compiles to a packet with the same classes, types, tags, contents and children. -/
theorem compileFilter_decompileFilter (E : Encoder) (p : Packet) (hp : FilterPacket E p) :
    ∃ s q, decompileFilter p = .ok s ∧ compileFilter E s = some (.ok (some q)) ∧ q.skeleton = p.skeleton := by
  obtain ⟨s, hs, hcomp⟩ := hp.compilesTo
  obtain ⟨q, hq, hskel⟩ := hcomp.compileFilter_eq
  exact ⟨s, q, hs, hq, hskel⟩

/-- The negation of an equality whose value is `)*\(` and a byte that is not ASCII. -/
theorem compileFilter_decompileFilter_not_equality :
    ∃ s q, decompileFilter ((filterPacket filterNot).appendChild shortEncoder
        (pairPacket shortEncoder filterEqualityMatch (str "cn") (str ")*\\(" ++ [0xC3]))) = .ok s ∧
      compileFilter shortEncoder s = some (.ok (some q)) ∧
      q.skeleton = ((filterPacket filterNot).appendChild shortEncoder
        (pairPacket shortEncoder filterEqualityMatch (str "cn") (str ")*\\(" ++ [0xC3]))).skeleton := by
  refine compileFilter_decompileFilter shortEncoder _ (.not ⟨rfl, rfl, rfl, rfl, rfl⟩ ?_)
  exact .pair (by decide) ⟨rfl, rfl, rfl, rfl, rfl⟩ ⟨rfl, rfl, rfl, rfl, rfl⟩ ⟨rfl, rfl, rfl, rfl, rfl⟩ (by decide)

end GoLdap
