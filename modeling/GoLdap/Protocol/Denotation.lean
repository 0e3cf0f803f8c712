import GoLdap.Protocol.Filter

/-!
# Protocol.Denotation — the meaning of a filter string

`Denotes c f` says that the text `c` between two parentheses means the filter `f`, by the grammar of filter strings and
without the compiler.

* `Denotes.unique`: a text means one filter only.  Two that it denotes can differ in how the components of a substring
  assertion are written down, not in the values that these match.
* `Reads.denotes`: whatever `CompileFilter` accepts with all its parentheses conveys a filter that the string denotes.
-/

namespace GoLdap

open Go Ber

/-! ## Interpretations -/

/-- A value has the components of a substring assertion: the initial one as a prefix, the final one as a suffix, and the
others in order between them. -/
def PartsMatch (initial : GoString) (any : List GoString) (final x : GoString) : Prop :=
  ∃ m, x = initial ++ m ++ final ∧ Wildcard.InOrder any m

/-- What the connectives and the assertions of a filter stand for, in whatever logic the server has.  For a substring
assertion it depends on the values that have its components. -/
structure FilterLogic (α : Type) where
  and : List α → α
  or : List α → α
  not : α → α
  compare : Comparison → GoString → GoString → α
  substrings : GoString → (GoString → Prop) → α
  present : GoString → α
  extensible : MatchingRuleAssertion → α

mutual

def SearchFilter.interpret {α : Type} (I : FilterLogic α) : SearchFilter → α
  | .and fs => I.and (SearchFilter.interprets I fs)
  | .or fs => I.or (SearchFilter.interprets I fs)
  | .not f => I.not (f.interpret I)
  | .compare op attr value => I.compare op attr value
  | .substrings attr initial any final => I.substrings attr (PartsMatch initial any final)
  | .present attr => I.present attr
  | .extensible assertion => I.extensible assertion

def SearchFilter.interprets {α : Type} (I : FilterLogic α) : List SearchFilter → List α
  | [] => []
  | f :: fs => f.interpret I :: SearchFilter.interprets I fs

end

/-- Two filters with the same meaning: they are built from the same assertions in the same way. -/
def SearchFilter.Agrees (f g : SearchFilter) : Prop := ∀ (α : Type) (I : FilterLogic α), f.interpret I = g.interpret I

namespace SearchFilter

theorem Agrees.refl (f : SearchFilter) : f.Agrees f := fun _ _ => rfl

theorem interprets_congr {fs gs : List SearchFilter} (h : List.Forall₂ Agrees fs gs) {α : Type} (I : FilterLogic α) :
    interprets I fs = interprets I gs := by
  induction h with
  | nil => rfl
  | cons hfg _ ih => rw [interprets, interprets, hfg, ih]

theorem Agrees.and {fs gs : List SearchFilter} (h : List.Forall₂ Agrees fs gs) :
    (SearchFilter.and fs).Agrees (.and gs) := by
  intro α I
  rw [interpret, interpret, interprets_congr h]

theorem Agrees.or {fs gs : List SearchFilter} (h : List.Forall₂ Agrees fs gs) :
    (SearchFilter.or fs).Agrees (.or gs) := by
  intro α I
  rw [interpret, interpret, interprets_congr h]

theorem Agrees.not {f g : SearchFilter} (h : f.Agrees g) : (SearchFilter.not f).Agrees (.not g) := by
  intro α I
  rw [interpret, interpret, h]

theorem Agrees.substrings {attr initial initial' final final' : GoString} {any any' : List GoString}
    (h : ∀ x, PartsMatch initial any final x ↔ PartsMatch initial' any' final' x) :
    (SearchFilter.substrings attr initial any final).Agrees (.substrings attr initial' any' final') := by
  intro α I
  rw [interpret, interpret, funext fun x => propext (h x)]

end SearchFilter

/-! ## The meaning of a text -/

/-- What an item means: the text in front of the operator is the attribute, and the text behind it is a value, with
escapes, or a pattern. -/
inductive ItemDenotes : GoString → SearchFilter → Prop
  | compare (op : Comparison) {a cond value : GoString} (ha : AttrText a op.symbol)
      (hplain : op = .equality → ch '*' ∉ cond) (hvalue : DecodesAs cond value) :
      ItemDenotes (a ++ op.symbol ++ cond) (.compare op a value)
  | present {a : GoString} (ha : AttrText a (str "=")) : ItemDenotes (a ++ str "=" ++ str "*") (.present a)
  | substrings {a cond initial final : GoString} {any : List GoString} {pattern : List (Option UInt8)}
      (ha : AttrText a (str "=")) (hstar : ch '*' ∈ cond) (hne : cond ≠ str "*")
      (hpattern : conditionPattern cond = some pattern)
      (hmatch : ∀ x, PartsMatch initial any final x ↔ Wildcard.Matches pattern x) :
      ItemDenotes (a ++ str "=" ++ cond) (.substrings a initial any final)
  | value {a cond value : GoString} {dn : Bool} (ha : AttrText a (str ":")) (hvalue : DecodesAs cond value) :
      ItemDenotes (a ++ (colonMark dn ++ (str "=" ++ cond))) (.extensible ⟨a, dn, [], value⟩)
  | rule {a r cond value : GoString} {dn : Bool} (ha : AttrText a (str ":")) (hr : RuleOf dn r)
      (hvalue : DecodesAs cond value) :
      ItemDenotes (a ++ (colonMark dn ++ (r ++ str ":=") ++ cond)) (.extensible ⟨a, dn, r, value⟩)
  -- a matching rule without `:=` behind it is taken for one with an empty value
  | openRule {a r : GoString} {dn : Bool} (ha : AttrText a (str ":")) (hr : RuleText r) (hhead : r.head? ≠ some (ch '='))
      (hdn : dn = false → ¬ str "dn:" <+: r) :
      ItemDenotes (a ++ (colonMark dn ++ r)) (.extensible ⟨a, dn, r, []⟩)

/-- What a component means: `comp ::= '&' filter* | '|' filter* | '!' comp | filter | item`. -/
inductive Denotes : GoString → SearchFilter → Prop
  | and (comps : List (GoString × SearchFilter)) (h : ∀ c ∈ comps, Denotes c.1 c.2) :
      Denotes (ch '&' :: comps.flatMap fun c => ch '(' :: c.1 ++ [ch ')']) (.and (comps.map Prod.snd))
  | or (comps : List (GoString × SearchFilter)) (h : ∀ c ∈ comps, Denotes c.1 c.2) :
      Denotes (ch '|' :: comps.flatMap fun c => ch '(' :: c.1 ++ [ch ')']) (.or (comps.map Prod.snd))
  | not {c : GoString} {f : SearchFilter} (h : Denotes c f) : Denotes (ch '!' :: c) (.not f)
  | filter {c : GoString} {f : SearchFilter} (h : Denotes c f) : Denotes (ch '(' :: c ++ [ch ')']) f
  | item {text : GoString} {f : SearchFilter} (hread : Readable text) (hclose : ch ')' ∉ text)
      (hfirst : ∀ b ∈ text.head?, FirstOfItem b) (h : ItemDenotes text f) : Denotes text f

/-! ## One meaning -/

/-- What the state of the scanner behind an item means. -/
inductive Scan.Means (s : Scan) : SearchFilter → Prop
  | compare (op : Comparison) {value : GoString} (hs : s.packet = some (filterPacket op.tag))
      (hplain : op = .equality → ch '*' ∉ s.condition) (hvalue : DecodesAs s.condition value) :
      s.Means (.compare op s.attr value)
  | present (hs : s.packet = some (filterPacket Comparison.equality.tag)) (hcond : s.condition = str "*") :
      s.Means (.present s.attr)
  | substrings {initial final : GoString} {any : List GoString} {pattern : List (Option UInt8)}
      (hs : s.packet = some (filterPacket Comparison.equality.tag)) (hstar : ch '*' ∈ s.condition)
      (hne : s.condition ≠ str "*") (hpattern : conditionPattern s.condition = some pattern)
      (hmatch : ∀ x, PartsMatch initial any final x ↔ Wildcard.Matches pattern x) :
      s.Means (.substrings s.attr initial any final)
  | extensible {value : GoString} (hs : s.packet = some (filterPacket filterExtensibleMatch))
      (hvalue : DecodesAs s.condition value) :
      s.Means (.extensible ⟨s.attr, s.extensibleDNAttributes, s.extensibleMatchingRule, value⟩)

/-- The scanner ends an item in a state that means the same. -/
theorem ItemDenotes.exists_scan {text : GoString} {f : SearchFilter} (h : ItemDenotes text f) :
    ∃ s, ItemForm text s ∧ s.Means f := by
  cases h with
  | compare op ha hplain hvalue => exact ⟨_, .pair op.mem_pairOps ha, .compare op rfl hplain hvalue⟩
  | present ha => exact ⟨_, .pair Comparison.equality.mem_pairOps ha, .present rfl rfl⟩
  | substrings ha hstar hne hpattern hmatch =>
    exact ⟨_, .pair Comparison.equality.mem_pairOps ha, .substrings rfl hstar hne hpattern hmatch⟩
  | value ha hvalue => exact ⟨_, .value ha, .extensible rfl hvalue⟩
  | rule ha hr hvalue => exact ⟨_, .rule ha hr, .extensible rfl hvalue⟩
  | openRule ha hr hhead hdn => exact ⟨_, .openRule ha hr hhead hdn, .extensible rfl .nil⟩

theorem DecodesAs.unique {s v w : GoString} (hv : DecodesAs s v) (hw : DecodesAs s w) : v = w := by
  induction hv generalizing w with
  | nil =>
    cases hw
    rfl
  | byte hb _ ih =>
    cases hw with
    | byte _ hw => rw [ih hw]
    | escape => exact absurd rfl hb
  | escape hc _ ih =>
    cases hw with
    | byte hb => exact absurd rfl hb
    | escape hc' hw => rw [ih hw, Option.some.inj (hc.symm.trans hc')]

theorem filterPacket_inj {tag tag' : ℕ} (h : some (filterPacket tag) = some (filterPacket tag')) : tag = tag' :=
  congrArg Packet.tag (Option.some.inj h)

theorem Comparison.tag_inj {op op' : Comparison} (h : op.tag = op'.tag) : op = op' := by
  have hsome : some op = some op' := by rw [← ofTag_tag op, ← ofTag_tag op', h]
  exact Option.some.inj hsome

theorem Comparison.tag_ne_extensible (op : Comparison) : op.tag ≠ filterExtensibleMatch := by cases op <;> decide

theorem Scan.Means.agrees {s : Scan} {f g : SearchFilter} (hf : s.Means f) (hg : s.Means g) : f.Agrees g := by
  cases hf with
  | compare op hs hplain hvalue =>
    cases hg with
    | compare op' hs' _ hvalue' =>
      obtain rfl := Comparison.tag_inj (filterPacket_inj (hs.symm.trans hs'))
      rw [hvalue.unique hvalue']
      exact .refl _
    | present hs' hcond =>
      obtain rfl := Comparison.tag_inj (filterPacket_inj (hs.symm.trans hs'))
      exact absurd (by rw [hcond]; decide) (hplain rfl)
    | substrings hs' hstar =>
      obtain rfl := Comparison.tag_inj (filterPacket_inj (hs.symm.trans hs'))
      exact absurd hstar (hplain rfl)
    | extensible hs' => exact absurd (filterPacket_inj (hs.symm.trans hs')) op.tag_ne_extensible
  | present hs hcond =>
    cases hg with
    | compare op hs' hplain =>
      obtain rfl := Comparison.tag_inj (filterPacket_inj (hs'.symm.trans hs))
      exact absurd (by rw [hcond]; decide) (hplain rfl)
    | present => exact .refl _
    | substrings _ _ hne => exact absurd hcond hne
    | extensible hs' => exact absurd (filterPacket_inj (hs.symm.trans hs')) (by decide)
  | substrings hs hstar hne hpattern hmatch =>
    cases hg with
    | compare op hs' hplain =>
      obtain rfl := Comparison.tag_inj (filterPacket_inj (hs'.symm.trans hs))
      exact absurd hstar (hplain rfl)
    | present _ hcond => exact absurd hcond hne
    | substrings _ _ _ hpattern' hmatch' =>
      obtain rfl := Option.some.inj (hpattern.symm.trans hpattern')
      exact .substrings fun x => (hmatch x).trans (hmatch' x).symm
    | extensible hs' => exact absurd (filterPacket_inj (hs.symm.trans hs')) (by decide)
  | extensible hs hvalue =>
    cases hg with
    | compare op hs' => exact absurd (filterPacket_inj (hs'.symm.trans hs)) op.tag_ne_extensible
    | present hs' => exact absurd (filterPacket_inj (hs'.symm.trans hs)) (by decide)
    | substrings hs' => exact absurd (filterPacket_inj (hs'.symm.trans hs)) (by decide)
    | extensible _ hvalue' =>
      rw [hvalue.unique hvalue']
      exact .refl _

theorem ItemDenotes.agrees {text : GoString} {f g : SearchFilter} (hread : Readable text) (hclose : ch ')' ∉ text)
    (hf : ItemDenotes text f) (hg : ItemDenotes text g) : f.Agrees g := by
  obtain ⟨s, hs, hmeans⟩ := hf.exists_scan
  obtain ⟨s', hs', hmeans'⟩ := hg.exists_scan
  have hscan := (hs.scan_eq hread hclose 0 []).symm.trans (hs'.scan_eq hread hclose 0 [])
  obtain ⟨rfl, -⟩ := ScanEnd.close.inj hscan
  exact hmeans.agrees hmeans'

/-- A text in front of a closing parenthesis is the only one there with a meaning, and it has only one. -/
def MeansAlone (c : GoString) (f : SearchFilter) : Prop :=
  ∀ {c' x y : GoString} {g : SearchFilter}, Denotes c' g → c ++ ch ')' :: x = c' ++ ch ')' :: y → c = c' ∧ f.Agrees g

/-- The byte in front of an item and a closing parenthesis is none that another form begins with. -/
theorem item_ne_cons {text x rest : GoString} {b : UInt8} (hfirst : ∀ b ∈ text.head?, FirstOfItem b)
    (hb : b ∈ [ch '(', ch '&', ch '|', ch '!']) : text ++ ch ')' :: x ≠ b :: rest := by
  intro h
  cases text with
  | nil =>
    obtain rfl : ch ')' = b := (List.cons.inj h).1
    exact absurd hb (by decide)
  | cons c text =>
    obtain rfl : c = b := (List.cons.inj h).1
    exact hfirst c rfl hb

/-- Two items in front of a closing parenthesis. -/
theorem items_unique {text text' x y : GoString} (h : ch ')' ∉ text) (h' : ch ')' ∉ text')
    (heq : text ++ ch ')' :: x = text' ++ ch ')' :: y) : text = text' := by
  induction text generalizing text' with
  | nil =>
    cases text' with
    | nil => rfl
    | cons b text' => exact absurd (by rw [(List.cons.inj heq).1]; simp) h'
  | cons b text ih =>
    cases text' with
    | nil => exact absurd (by rw [(List.cons.inj heq).1]; simp) h
    | cons b' text' =>
      obtain ⟨rfl, htail⟩ := List.cons.inj heq
      rw [List.mem_cons, not_or] at h h'
      rw [ih h.2 h'.2 htail]

/-- Two lists of filters in front of a closing parenthesis. -/
theorem comps_unique {comps comps' : List (GoString × SearchFilter)} {x y : GoString}
    (h : ∀ c ∈ comps, MeansAlone c.1 c.2) (h' : ∀ c ∈ comps', Denotes c.1 c.2)
    (heq : (comps.flatMap fun c => ch '(' :: c.1 ++ [ch ')']) ++ ch ')' :: x =
      (comps'.flatMap fun c => ch '(' :: c.1 ++ [ch ')']) ++ ch ')' :: y) :
    (comps.flatMap fun c => ch '(' :: c.1 ++ [ch ')']) = (comps'.flatMap fun c => ch '(' :: c.1 ++ [ch ')']) ∧
      List.Forall₂ SearchFilter.Agrees (comps.map Prod.snd) (comps'.map Prod.snd) := by
  induction comps generalizing comps' with
  | nil =>
    cases comps' with
    | nil => exact ⟨rfl, .nil⟩
    | cons c' comps' => exact absurd (List.cons.inj heq).1 (by decide)
  | cons c comps ih =>
    cases comps' with
    | nil => exact absurd (List.cons.inj heq).1 (by decide)
    | cons c' comps' =>
      obtain ⟨hc, hcomps⟩ := List.forall_mem_cons.mp h
      obtain ⟨hc', hcomps'⟩ := List.forall_mem_cons.mp h'
      simp only [List.flatMap_cons, List.append_assoc, List.cons_append, List.nil_append, List.cons.injEq, true_and] at heq
      obtain ⟨hfst, hagrees⟩ := hc hc' heq
      rw [hfst, List.append_cancel_left_eq, List.cons.injEq] at heq
      obtain ⟨htext, hall⟩ := ih hcomps hcomps' heq.2
      exact ⟨by rw [List.flatMap_cons, List.flatMap_cons, hfst, htext], .cons hagrees hall⟩

/-- **A text has one meaning.** -/
theorem Denotes.unique {c : GoString} {f : SearchFilter} (h : Denotes c f) : MeansAlone c f := by
  -- the first byte says which form both texts have
  induction h with
  | and comps _ ih =>
    intro c' x y g h' heq
    cases h' with
    | and comps' h' =>
      obtain ⟨htext, hall⟩ := comps_unique ih h' (List.cons.inj heq).2
      exact ⟨by rw [htext], .and hall⟩
    | or | not | filter => exact absurd (List.cons.inj heq).1 (by decide)
    | item _ _ hfirst => exact absurd heq.symm (item_ne_cons hfirst (by decide))
  | or comps _ ih =>
    intro c' x y g h' heq
    cases h' with
    | or comps' h' =>
      obtain ⟨htext, hall⟩ := comps_unique ih h' (List.cons.inj heq).2
      exact ⟨by rw [htext], .or hall⟩
    | and | not | filter => exact absurd (List.cons.inj heq).1 (by decide)
    | item _ _ hfirst => exact absurd heq.symm (item_ne_cons hfirst (by decide))
  | not _ ih =>
    intro c' x y g h' heq
    cases h' with
    | not h' =>
      obtain ⟨rfl, hagrees⟩ := ih h' (List.cons.inj heq).2
      exact ⟨rfl, .not hagrees⟩
    | and | or | filter => exact absurd (List.cons.inj heq).1 (by decide)
    | item _ _ hfirst => exact absurd heq.symm (item_ne_cons hfirst (by decide))
  | filter _ ih =>
    intro c' x y g h' heq
    cases h' with
    | filter h' =>
      simp only [List.append_assoc, List.cons_append, List.nil_append, List.cons.injEq, true_and] at heq
      obtain ⟨rfl, hagrees⟩ := ih h' heq
      exact ⟨rfl, hagrees⟩
    | and | or | not => exact absurd (List.cons.inj heq).1 (by decide)
    | item _ _ hfirst => exact absurd heq.symm (item_ne_cons hfirst (by decide))
  | item hread hclose hfirst h =>
    intro c' x y g h' heq
    cases h' with
    | item _ hclose' _ h' =>
      obtain rfl := items_unique hclose hclose' heq
      exact ⟨rfl, h.agrees hread hclose h'⟩
    | and | or | not | filter => exact absurd heq (item_ne_cons hfirst (by decide))

/-! ## Accepted strings -/

section

variable {L : LawfulCodec}

theorem exists_comparison {tag : ℕ} {op : GoString} (h : (tag, op) ∈ pairOps) :
    ∃ c : Comparison, tag = c.tag ∧ op = c.symbol := by
  simp only [pairOps, List.mem_cons, Prod.mk.injEq, List.not_mem_nil, or_false] at h
  rcases h with ⟨rfl, rfl⟩ | ⟨rfl, rfl⟩ | ⟨rfl, rfl⟩ | ⟨rfl, rfl⟩
  · exact ⟨.equality, rfl, rfl⟩
  · exact ⟨.greaterOrEqual, rfl, rfl⟩
  · exact ⟨.lessOrEqual, rfl, rfl⟩
  · exact ⟨.approx, rfl, rfl⟩

/-- The packet of an extensible match that was built. -/
theorem buildExtensible_decodes {E : Encoder} {s : Scan} {p : Packet}
    (h : buildExtensible E s (filterPacket filterExtensibleMatch) = (p, none)) :
    ∃ value, DecodesAs s.condition value ∧
      p = constructedOf E .context filterExtensibleMatch (filterMap filterExtensibleMatch)
        (MatchingRuleAssertion.children E ⟨s.attr, s.extensibleDNAttributes, s.extensibleMatchingRule, value⟩) := by
  unfold buildExtensible at h
  cases hdecode : decodeEscapedSymbols s.condition with
  | error e => simp [hdecode] at h
  | ok value =>
    refine ⟨value, decodesAs_of_decodeEscapedSymbols hdecode, ?_⟩
    simp only [hdecode, Prod.mk.injEq, and_true] at h
    rw [← h, constructedOf, MatchingRuleAssertion.children]
    cases s.extensibleDNAttributes <;> split_ifs <;> simp_all [filterPacket]

/-- The components of a substring assertion match what its pattern matches. -/
theorem partsMatch_iff (initial : GoString) (any : List GoString) (final x : GoString) :
    PartsMatch initial (any.filter fun v => !v.isEmpty) final x ↔
      Wildcard.Matches (Wildcard.ofParts initial (any ++ [final])) x := by
  rw [Wildcard.matches_ofParts]
  exact exists_congr fun m => and_congr_right fun _ => Wildcard.inOrder_filter

/-- A pair of an attribute and a condition that was built. -/
theorem pair_denotes {op : Comparison} {a cond : GoString} {p : Packet} (ha : AttrText a op.symbol)
    (h : buildItem L.toEncoder ⟨some (filterPacket op.tag), .readingCondition, a, false, [], cond⟩ (filterPacket op.tag) =
      (p, none)) : ∃ f, ItemDenotes (a ++ op.symbol ++ cond) f ∧ Conveys L readFilter p f := by
  have hext : (filterPacket op.tag).tag ≠ filterExtensibleMatch := by cases op <;> decide
  have heq : (filterPacket op.tag).tag = filterEqualityMatch ↔ op = .equality := by cases op <;> decide
  unfold buildItem at h
  dsimp only at h
  rw [if_neg hext] at h
  simp only [heq] at h
  split_ifs at h with hpresent hsub
  · obtain ⟨rfl, rfl⟩ := hpresent
    obtain ⟨rfl, -⟩ := Prod.mk.inj h
    exact ⟨_, .present ha, conveys_present a⟩
  · obtain ⟨rfl, hstar⟩ := hsub
    have hne : cond ≠ str "*" := fun hc => hpresent ⟨rfl, hc⟩
    obtain ⟨first, middle, last, hsplit⟩ := split_eq_cons_append hstar
    rw [hsplit] at h
    split at h
    · cases h
    · rename_i seq hseq
      obtain ⟨rfl, -⟩ := Prod.mk.inj h
      obtain ⟨initial, any, final, hinitial, hany, hfinal, rfl⟩ := appendSubstrings_parts hseq
      have hparts : List.Forall₂ DecodesAs (middle ++ [last]) (any ++ [final]) :=
        List.rel_append hany (.cons hfinal .nil)
      exact ⟨_, .substrings ha hstar hne (conditionPattern_parts hsplit hinitial hparts) (partsMatch_iff initial any final),
        conveys_substrings a initial (any.filter fun v => !v.isEmpty) final⟩
  · split at h
    · cases h
    · rename_i value hdecode
      obtain ⟨rfl, -⟩ := Prod.mk.inj h
      exact ⟨_, .compare op ha (fun hop hstar => hsub ⟨hop, hstar⟩) (decodesAs_of_decodeEscapedSymbols hdecode),
        conveys_compare op a value⟩

/-- An extensible match that was built. -/
theorem extensible_conveys {s : Scan} {p : Packet}
    (h : buildItem L.toEncoder s (filterPacket filterExtensibleMatch) = (p, none)) :
    ∃ value, DecodesAs s.condition value ∧ Conveys L readFilter p
      (.extensible ⟨s.attr, s.extensibleDNAttributes, s.extensibleMatchingRule, value⟩) := by
  have htag : (filterPacket filterExtensibleMatch).tag = filterExtensibleMatch := rfl
  unfold buildItem at h
  dsimp only at h
  rw [if_pos htag] at h
  obtain ⟨value, hvalue, rfl⟩ := buildExtensible_decodes h
  exact ⟨value, hvalue, conveys_assertion _⟩

/-- An item that was read and built. -/
theorem item_denotes {text : GoString} {s : Scan} {packet p : Packet} (hform : ItemForm text s)
    (hs : s.packet = some packet) (hbuild : buildItem L.toEncoder s packet = (p, none)) :
    ∃ f, ItemDenotes text f ∧ Conveys L readFilter p f := by
  cases hform with
  | attr _ => cases hs
  | pair hop ha =>
    obtain ⟨c, rfl, rfl⟩ := exists_comparison hop
    obtain rfl := Option.some.inj hs
    exact pair_denotes ha hbuild
  | value ha =>
    obtain rfl := Option.some.inj hs
    obtain ⟨value, hvalue, hconveys⟩ := extensible_conveys hbuild
    exact ⟨_, .value ha hvalue, hconveys⟩
  | rule ha hr =>
    obtain rfl := Option.some.inj hs
    obtain ⟨value, hvalue, hconveys⟩ := extensible_conveys hbuild
    exact ⟨_, .rule ha hr hvalue, hconveys⟩
  | openRule ha hr hhead hdn =>
    obtain rfl := Option.some.inj hs
    obtain ⟨value, hvalue, hconveys⟩ := extensible_conveys hbuild
    cases hvalue
    exact ⟨_, .openRule ha hr hhead hdn, hconveys⟩

/-- The texts in front of the closing parentheses of a list, with what they mean. -/
theorem exists_comps {rs : List Reading}
    (h : ∀ r ∈ rs, ∃ c f, r.text = c ++ [ch ')'] ∧ Denotes c f ∧ Conveys L readFilter r.packet f) :
    ∃ comps : List (GoString × SearchFilter), (∀ c ∈ comps, Denotes c.1 c.2) ∧
      (rs.flatMap fun r => ch '(' :: r.text) = (comps.flatMap fun c => ch '(' :: c.1 ++ [ch ')']) ∧
      List.Forall₂ (Conveys L readFilter) (rs.map Reading.packet) (comps.map Prod.snd) := by
  induction rs with
  | nil => exact ⟨[], by simp, rfl, .nil⟩
  | cons r rs ih =>
    obtain ⟨⟨c, f, htext, hdenotes, hconveys⟩, hrs⟩ := List.forall_mem_cons.mp h
    obtain ⟨comps, hcomps, htexts, hall⟩ := ih hrs
    refine ⟨(c, f) :: comps, List.forall_mem_cons.mpr ⟨hdenotes, hcomps⟩, ?_, .cons hconveys hall⟩
    rw [List.flatMap_cons, List.flatMap_cons, htexts, htext]
    rfl

/-- What was read and closed by parentheses only. -/
theorem Reads.denotes {r : Reading} (h : Reads L.toEncoder r) (hclosed : ∀ b, .closer b ∈ r.tokens → b = ch ')') :
    ∃ c f, r.text = c ++ [ch ')'] ∧ Denotes c f ∧ Conveys L readFilter r.packet f := by
  induction h with
  | @set tag op closer hop _ rs _ ih =>
    obtain rfl : closer = ch ')' := hclosed closer (by simp)
    obtain ⟨comps, hcomps, htexts, hall⟩ := exists_comps fun r hr => ih r hr fun b hb => hclosed b (by
      simp only [List.mem_append, List.mem_flatMap]
      exact .inl ⟨r, hr, hb⟩)
    simp only [setOps, List.mem_cons, Prod.mk.injEq, List.not_mem_nil, or_false] at hop
    rcases hop with ⟨rfl, rfl⟩ | ⟨rfl, rfl⟩
    · exact ⟨_, _, by rw [htexts], .and comps hcomps, conveys_set (.inl ⟨rfl, rfl⟩) hall⟩
    · exact ⟨_, _, by rw [htexts], .or comps hcomps, conveys_set (.inr ⟨rfl, rfl⟩) hall⟩
  | not _ ih =>
    obtain ⟨c, f, hc, hdenotes, hconveys⟩ := ih hclosed
    exact ⟨ch '!' :: c, .not f, by rw [List.cons_append, ← hc], .not hdenotes, conveys_not hconveys⟩
  | filter _ closer ih =>
    obtain rfl : closer = ch ')' := hclosed closer (by simp)
    obtain ⟨c, f, hc, hdenotes, hconveys⟩ := ih fun b hb => hclosed b (by simp [hb])
    exact ⟨ch '(' :: c ++ [ch ')'], f, by simp [hc], .filter hdenotes, hconveys⟩
  | item hread hclose hfirst hform hs hbuild =>
    obtain ⟨f, hdenotes, hconveys⟩ := item_denotes hform hs hbuild
    exact ⟨_, f, rfl, .item hread hclose hfirst hdenotes, hconveys⟩

end

/-- **The meaning of an accepted filter string arrives.**  If a well-bracketed string compiles, the server reads from the
octets of the packet a filter that the string denotes, and whatever else the string denotes means the same. -/
theorem readFilter_denotes (L : LawfulCodec) (s : GoString) (p : Packet)
    (h : compileFilter L.toEncoder s = some (.ok (some p))) (hs : IsFilter s) :
    ∃ c f q, s = ch '(' :: c ++ [ch ')'] ∧ Denotes c f ∧ (∀ g, Denotes c g → f.Agrees g) ∧
      L.decodePacketErr (p.bytes L.toEncoder) = .ok q ∧ readFilter q = some f := by
  obtain ⟨r, hr, rfl, rfl⟩ := compileFilter_reads h
  have hclosed : ∀ b, .closer b ∈ r.tokens → b = ch ')' := by
    intro b hb
    rw [← filterTokens_eq hr, ← mem_closers] at hb
    exact hs.closers_eq b hb
  obtain ⟨c, f, hc, hdenotes, hconveys⟩ := hr.denotes hclosed
  obtain ⟨q, hq, hread⟩ := hconveys.decode
  exact ⟨c, f, q, by rw [hc]; rfl, hdenotes, fun g hg => (hdenotes.unique hg (x := []) (y := []) rfl).2, hq, hread⟩

/-- A substring assertion with an empty part and an escaped asterisk. -/
theorem readFilter_denotes_substrings :
    ∃ c f q p, compileFilter basicLawful.toEncoder (str "(cn=a**\\2a)") = some (.ok (some p)) ∧
      str "(cn=a**\\2a)" = ch '(' :: c ++ [ch ')'] ∧ Denotes c f ∧ (∀ g, Denotes c g → f.Agrees g) ∧
      basicLawful.decodePacketErr (p.bytes basicLawful.toEncoder) = .ok q ∧ readFilter q = some f := by
  have hfilter : IsFilter (str "(cn=a**\\2a)") :=
    ⟨str "cn=a**\\2a", rfl, .item (by decide) (by decide) (by decide +kernel)⟩
  obtain ⟨c, f, q, h⟩ := readFilter_denotes basicLawful (str "(cn=a**\\2a)") _ rfl hfilter
  exact ⟨c, f, q, _, rfl, h⟩

end GoLdap
