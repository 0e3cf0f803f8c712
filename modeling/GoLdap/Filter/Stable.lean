import GoLdap.Filter.Substrings

/-!
# Filter.Stable — recompiling what was decompiled

`DecompileFilter` escapes attributes and matching rules, but the compiler never unescapes them; it writes the parts of a
substring filter, but writes nothing when all of them are empty; and it writes the rule `dn` like the flag `dn`.  So not
every filter string survives being compiled, decompiled and compiled again.

* `StableItem`: the items of a filter string that do survive, said on their text.
* `Reads.recompiles`: what was compiled is decompiled, and the text compiled again; the packets agree if and only if
  every item is stable.
* `compileFilter_stable_iff`: the same of `CompileFilter` and `DecompileFilter`.
-/

namespace GoLdap

open Go Ber

/-! ## The condition on the items -/

/-- `EscapeFilter` leaves the string as it is. -/
def NoEscape (s : GoString) : Prop := ∀ b ∈ s, mustEscape b = false

instance (s : GoString) : Decidable (NoEscape s) := List.decidableBAll (fun b : UInt8 => mustEscape b = false) s

/-- The matching rule of an extensible match, given what stands behind its attribute. -/
def itemRule (rest : GoString) : GoString :=
  let r := if (str ":dn:").isPrefixOf rest then rest.drop 4 else rest.drop 1
  if r.head? = some (ch '=') then [] else untilColonEq r

/-- What stands behind the attribute survives: a matching rule is not escaped and is not the rule `dn` without `:=`,
and a substring condition has a part. -/
def StableTail (rest : GoString) : Prop :=
  (rest.head? = some (ch ':') → NoEscape (itemRule rest) ∧ rest ≠ str ":dn") ∧
  (rest.head? = some (ch '=') → ¬ (2 < rest.length ∧ ∀ b ∈ rest.tail, b = ch '*'))

instance (rest : GoString) : Decidable (StableTail rest) := inferInstanceAs (Decidable (_ ∧ _))

/-- An item whose attribute is not escaped, and which is otherwise printed as it was read. -/
def StableItem (text : GoString) : Prop :=
  NoEscape (itemAttr text) ∧ StableTail (text.drop (itemAttr text).length)

instance (text : GoString) : Decidable (StableItem text) := inferInstanceAs (Decidable (_ ∧ _))

theorem stableItem_append {a rest : GoString} (ha : AttrText a rest) (hop : startsOperator rest = true) :
    StableItem (a ++ rest) ↔ NoEscape a ∧ StableTail rest := by
  rw [StableItem, itemAttr_append ha hop, List.drop_left]

theorem startsOperator_pairOp {tag : ℕ} {op : GoString} (h : (tag, op) ∈ pairOps) (cond : GoString) :
    startsOperator (op ++ cond) = true := by
  simp only [pairOps, List.mem_cons, Prod.mk.injEq, List.not_mem_nil, or_false] at h
  rcases h with ⟨-, rfl⟩ | ⟨-, rfl⟩ | ⟨-, rfl⟩ | ⟨-, rfl⟩ <;> rfl

theorem startsOperator_colonMark (dn : Bool) (rest : GoString) : startsOperator (colonMark dn ++ rest) = true := by
  cases dn <;> rfl

theorem stableTail_pairOp {tag : ℕ} {op : GoString} (h : (tag, op) ∈ pairOps) (cond : GoString) :
    StableTail (op ++ cond) ↔ (tag = filterEqualityMatch → ¬ (1 < cond.length ∧ ∀ b ∈ cond, b = ch '*')) := by
  have hne : ∀ b : UInt8, b ≠ ch ':' → b ≠ ch '=' → ∀ s, StableTail (b :: s) := by
    intro b hcolon heq s
    exact ⟨fun h => absurd (Option.some.inj h) hcolon, fun h => absurd (Option.some.inj h) heq⟩
  simp only [pairOps, List.mem_cons, Prod.mk.injEq, List.not_mem_nil, or_false] at h
  rcases h with ⟨rfl, rfl⟩ | ⟨rfl, rfl⟩ | ⟨rfl, rfl⟩ | ⟨rfl, rfl⟩
  · constructor
    · rintro ⟨-, h⟩ - ⟨hlen, hall⟩
      exact h rfl ⟨by simp [str]; omega, hall⟩
    · refine fun h => ⟨fun hhead => absurd (Option.some.inj hhead) (by decide), ?_⟩
      rintro - ⟨hlen, hall⟩
      refine h rfl ⟨?_, hall⟩
      simp [str] at hlen
      omega
  · exact iff_of_true (hne _ (by decide) (by decide) _) fun h => absurd h (by decide)
  · exact iff_of_true (hne _ (by decide) (by decide) _) fun h => absurd h (by decide)
  · exact iff_of_true (hne _ (by decide) (by decide) _) fun h => absurd h (by decide)

theorem itemRule_colonMark {dn : Bool} {r : GoString} (hdn : dn = false → ¬ str "dn:" <+: r) :
    itemRule (colonMark dn ++ r) = if r.head? = some (ch '=') then [] else untilColonEq r := by
  unfold itemRule
  cases dn with
  | false =>
    have hno : ¬ (str ":dn:").isPrefixOf (colonMark false ++ r) = true := by
      rw [List.isPrefixOf_iff_prefix]
      rintro ⟨t, ht⟩
      exact hdn rfl ⟨t, (List.cons.inj ht).2⟩
    rw [if_neg hno]
    rfl
  | true =>
    have hpre : (str ":dn:").isPrefixOf (colonMark true ++ r) = true := List.isPrefixOf_iff_prefix.mpr ⟨r, rfl⟩
    rw [if_pos hpre]
    rfl

theorem stableTail_colonMark {dn : Bool} {r : GoString} (hdn : dn = false → ¬ str "dn:" <+: r) :
    StableTail (colonMark dn ++ r) ↔
      NoEscape (if r.head? = some (ch '=') then [] else untilColonEq r) ∧ ¬ (dn = false ∧ r = str "dn") := by
  have hhead := head?_colonMark dn r
  have hmark : colonMark dn ++ r = str ":dn" ↔ dn = false ∧ r = str "dn" := by
    cases dn with
    | false =>
      constructor
      · exact fun h => ⟨rfl, (List.cons.inj h).2⟩
      · rintro ⟨-, rfl⟩
        rfl
    | true =>
      refine iff_of_false (fun h => ?_) (by simp)
      have := congrArg List.length h
      simp [colonMark, str] at this
  unfold StableTail
  rw [hhead, itemRule_colonMark hdn, Ne, hmark]
  constructor
  · exact fun h => h.1 rfl
  · exact fun h => ⟨fun _ => h, fun h => absurd (Option.some.inj h) (by decide)⟩

/-! ## Escaped attributes and rules -/

theorem noEscape_iff (s : GoString) : NoEscape s ↔ escapeFilter s = s := by
  constructor
  · intro h
    refine if_pos (List.countP_eq_zero.mpr fun b hb => ?_)
    simp [h b hb]
  · -- every escape makes the string longer
    have hlen : ∀ s : GoString, (s.flatMap escapeByte).length = s.length + 2 * s.countP mustEscape := by
      intro s
      induction s with
      | nil => rfl
      | cons b s ih =>
        rw [List.flatMap_cons, List.length_append, ih, List.length_cons, List.countP_cons]
        unfold escapeByte hexEncode
        split_ifs <;> simp <;> omega
    intro h b hb
    have := hlen s
    rw [← escapeFilter_eq, h] at this
    have hcount : s.countP mustEscape = 0 := by omega
    simpa using List.countP_eq_zero.mp hcount b hb

theorem escapeFilter_cons (b : UInt8) (s : GoString) : escapeFilter (b :: s) = escapeByte b ++ escapeFilter s := by
  rw [escapeFilter_eq, escapeFilter_eq, List.flatMap_cons]

theorem escapeFilter_append (s t : GoString) : escapeFilter (s ++ t) = escapeFilter s ++ escapeFilter t := by
  simp only [escapeFilter_eq, List.flatMap_append]

/-- The bytes of an operator. -/
def operatorBytes : GoString := [ch ':', ch '=', ch '>', ch '<', ch '~']

private theorem hex_table : ∀ c : UInt8, (ch '\\' :: hexEncode c).all (fun x => x ∉ operatorBytes) = true := by
  decide +kernel

/-- An escape is a backslash and no operator; other bytes stay. -/
theorem escapeByte_cases (b : UInt8) : escapeByte b = [b] ∨
    (∃ h l, escapeByte b = [ch '\\', h, l]) ∧ ∀ x ∈ escapeByte b, x ∉ operatorBytes := by
  unfold escapeByte
  split_ifs
  · exact .inr ⟨⟨_, _, rfl⟩, fun x hx => of_decide_eq_true (List.all_eq_true.mp (hex_table b) x hx)⟩
  · exact .inl rfl

theorem mem_of_mem_escapeFilter {s : GoString} {x : UInt8} (hx : x ∈ operatorBytes) (h : x ∈ escapeFilter s) : x ∈ s := by
  rw [escapeFilter_eq, List.mem_flatMap] at h
  obtain ⟨b, hb, h⟩ := h
  rcases escapeByte_cases b with heq | ⟨-, hno⟩
  · rw [heq, List.mem_singleton] at h
    rwa [h]
  · exact absurd hx (hno x h)

/-- A byte that is no backslash at the front of an escaped string was at the front before. -/
theorem cons_of_escapeFilter {s t : GoString} {x : UInt8} (hx : x ≠ ch '\\') (h : escapeFilter s = x :: t) :
    ∃ s', s = x :: s' ∧ t = escapeFilter s' := by
  rcases s with _ | ⟨b, s⟩
  · cases h
  · rw [escapeFilter_cons] at h
    rcases escapeByte_cases b with heq | ⟨⟨hi, lo, heq⟩, -⟩
    · rw [heq, List.singleton_append] at h
      obtain ⟨rfl, rfl⟩ := List.cons.inj h
      exact ⟨s, rfl, rfl⟩
    · rw [heq] at h
      exact absurd (List.cons.inj h).1.symm hx

theorem getLast?_escapeFilter {s : GoString} {x : UInt8} (hx : x ∈ operatorBytes)
    (h : (escapeFilter s).getLast? = some x) : s.getLast? = some x := by
  rcases List.eq_nil_or_concat s with rfl | ⟨s, b, rfl⟩
  · cases h
  · rw [List.concat_eq_append, escapeFilter_append, escapeFilter_cons] at h
    rcases escapeByte_cases b with heq | ⟨⟨hi, lo, heq⟩, hno⟩
    · rw [heq] at h
      have hnil : escapeFilter [] = [] := rfl
      simpa [hnil] using h
    · rw [heq] at h hno
      have hnil : escapeFilter [] = [] := rfl
      have hlo : lo = x := by simpa [hnil] using h
      exact absurd hx (hno x (by simp [hlo]))

theorem AttrText.escape {a rest : GoString} (h : AttrText a rest) : AttrText (escapeFilter a) rest := by
  refine ⟨readable_escapeFilter a, close_not_mem_escapeFilter a, ?_, ?_, ?_⟩
  · exact fun hmem => h.colon (mem_of_mem_escapeFilter (by decide) hmem)
  · exact fun hmem => h.eq (mem_of_mem_escapeFilter (by decide) hmem)
  · intro hhead b hb hmem
    have hop : b ∈ operatorBytes := by
      simp only [List.mem_cons, List.not_mem_nil, or_false] at hmem
      rcases hmem with rfl | rfl | rfl <;> decide
    exact h.last hhead b (getLast?_escapeFilter hop hb) hmem

theorem RuleText.escape {r : GoString} (h : RuleText r) : RuleText (escapeFilter r) := by
  refine ⟨readable_escapeFilter r, close_not_mem_escapeFilter r, ?_⟩
  have hchain := h.chain
  clear h
  induction r with
  | nil => exact List.IsChain.nil
  | cons b r ih =>
    rw [escapeFilter_cons, List.isChain_append]
    refine ⟨?_, ih hchain.tail, ?_⟩
    · rcases escapeByte_cases b with heq | ⟨⟨hi, lo, heq⟩, hno⟩
      · rw [heq]
        exact List.isChain_singleton b
      · refine List.Pairwise.isChain (List.pairwise_of_forall_mem_list ?_)
        rintro x hx y - ⟨rfl, -⟩
        exact hno _ hx (by decide)
    · -- a colon and an equals sign that meet were neighbours before
      rintro x hx y hy ⟨rfl, rfl⟩
      rcases escapeByte_cases b with heq | ⟨-, hno⟩
      · rw [heq, List.getLast?_singleton, Option.mem_def, Option.some.injEq] at hx
        subst hx
        obtain ⟨t, ht⟩ := List.head?_eq_some_iff.mp hy
        obtain ⟨r', rfl, -⟩ := cons_of_escapeFilter (by decide) ht
        exact (List.isChain_cons_cons.mp hchain).1 ⟨rfl, rfl⟩
      · exact hno _ (List.mem_of_mem_getLast? hx) (by decide)

theorem ruleOf_escape {dn : Bool} {r : GoString} (h : RuleText r) (hhead : r.head? ≠ some (ch '='))
    (hdn : dn = false → ¬ str "dn:" <+: r) (hne : ¬ (dn = false ∧ r = str "dn")) : RuleOf dn (escapeFilter r) := by
  refine ⟨h.escape, ?_, ?_⟩
  · intro he
    obtain ⟨t, ht⟩ := List.head?_eq_some_iff.mp he
    obtain ⟨r', rfl, -⟩ := cons_of_escapeFilter (by decide) ht
    exact hhead rfl
  · -- the flag can only be read where the rule itself starts with `dn`
    rintro hf ⟨t, ht⟩
    replace ht : ch 'd' :: ch 'n' :: ch ':' :: t = escapeFilter r ++ str ":=" := ht
    have hstep : ∀ {s t : GoString} {x : UInt8}, x ≠ ch '\\' → x ≠ ch ':' → x :: t = escapeFilter s ++ str ":=" →
        ∃ s', s = x :: s' ∧ t = escapeFilter s' ++ str ":=" := by
      intro s t x hx hcolon hxt
      cases hs : escapeFilter s with
      | nil =>
        rw [hs] at hxt
        exact absurd (List.cons.inj hxt).1 hcolon
      | cons y s' =>
        rw [hs] at hxt
        obtain ⟨rfl, rfl⟩ := List.cons.inj hxt
        obtain ⟨v, rfl, rfl⟩ := cons_of_escapeFilter hx hs
        exact ⟨v, rfl, rfl⟩
    obtain ⟨r1, rfl, h1⟩ := hstep (by decide) (by decide) ht
    obtain ⟨r2, rfl, h2⟩ := hstep (by decide) (by decide) h1
    rcases r2 with _ | ⟨b, r3⟩
    · exact hne ⟨hf, rfl⟩
    · have hb : b = ch ':' := by
        cases hs : escapeFilter (b :: r3) with
        | nil => exact absurd hs (escapeFilter_ne_nil (by simp))
        | cons y s' =>
          rw [hs] at h2
          rw [← (List.cons.inj h2).1] at hs
          obtain ⟨v, hv, -⟩ := cons_of_escapeFilter (by decide) hs
          exact (List.cons.inj hv).1
      exact hdn hf ⟨r3, by rw [hb]; rfl⟩

/-! ## Compiling the printed items -/

section Items

variable {E : Encoder}

theorem isConstructed_appendAll (cls : Ber.Class) (tag : ℕ) (d : GoString) (cs : List Packet) :
    IsConstructed E cls tag cs (appendAll E (encode cls .constructed tag d) cs) := by
  rw [appendAll_eq]
  exact ⟨rfl, rfl, rfl, rfl, rfl⟩

/-- Packets of the same form agree if and only if their children do. -/
theorem skeleton_appendAll_iff {cls : Ber.Class} {tag : ℕ} {d d' : GoString} {cs ds : List Packet} :
    (appendAll E (encode cls .constructed tag d') ds).skeleton = (appendAll E (encode cls .constructed tag d) cs).skeleton ↔
      ds.map Packet.skeleton = cs.map Packet.skeleton := by
  constructor
  · intro h
    have := congrArg Packet.children h
    rwa [Packet.skeleton_eq, Packet.skeleton_eq, (isConstructed_appendAll cls tag d' ds).children,
      (isConstructed_appendAll cls tag d cs).children] at this
  · exact fun h => (isConstructed_appendAll cls tag d cs).skeleton_appendAll h d'

theorem skeleton_newString_iff {cls : Ber.Class} {tag : ℕ} {v w d d' : GoString} :
    (newString cls .primitive tag v d).skeleton = (newString cls .primitive tag w d').skeleton ↔ v = w := by
  constructor
  · exact fun h => congrArg Packet.data h
  · rintro rfl
    rfl

/-- The packet is decompiled to a text that compiles, and what it compiles to agrees with the packet under this
condition only. -/
def Recompiles (E : Encoder) (p : Packet) (condition : Prop) : Prop :=
  ∃ t q, decompileFilter p = .ok t ∧ CompilesTo E t q ∧ (q.skeleton = p.skeleton ↔ condition)

theorem startsItem_pairOp {tag : ℕ} {op : GoString} (h : (tag, op) ∈ pairOps) (cond : GoString) :
    StartsItem (op ++ cond) := by
  simp only [pairOps, List.mem_cons, Prod.mk.injEq, List.not_mem_nil, or_false] at h
  rcases h with ⟨-, rfl⟩ | ⟨-, rfl⟩ | ⟨-, rfl⟩ | ⟨-, rfl⟩ <;> exact ⟨_, _, rfl, by decide, by decide⟩

theorem startsItem_escape {a rest rest' : GoString} (hfirst : ∀ b ∈ (a ++ rest).head?, FirstOfItem b)
    (hrest : StartsItem rest') : StartsItem (escapeFilter a ++ rest') := by
  rcases a with _ | ⟨b, a⟩
  · exact hrest
  · have hb : FirstOfItem b := hfirst b (by simp)
    simp only [FirstOfItem, List.mem_cons, List.not_mem_nil, or_false, not_or] at hb
    have hascii : ∀ x ∈ escapeFilter (b :: a), x.toNat < 0x80 := fun x hx => (mem_escapeFilter hx).1
    rw [escapeFilter_cons] at hascii ⊢
    rcases escapeByte_cases b with heq | ⟨⟨hi, lo, heq⟩, -⟩
    · rw [heq] at hascii ⊢
      exact ⟨b, escapeFilter a ++ rest', rfl, hascii b (by simp), hb⟩
    · rw [heq]
      exact ⟨ch '\\', hi :: lo :: (escapeFilter a ++ rest'), rfl, by decide, by decide⟩

theorem pairPacket_eq (tag : ℕ) (a v : GoString) :
    pairPacket E tag a v = appendAll E (filterPacket tag) [newString .universal .primitive tagOctetString a
      (str "Attribute"), newString .universal .primitive tagOctetString v (str "Condition")] := rfl

/-- An attribute and a value. -/
theorem recompiles_pair {tag : ℕ} {op a cond : GoString} (hop : (tag, op) ∈ pairOps) (ha : AttrText a op)
    (hfirst : ∀ b ∈ (a ++ (op ++ cond)).head?, FirstOfItem b) (v : GoString) :
    Recompiles E (pairPacket E tag a v) (NoEscape a) := by
  have hstart : StartsItem (escapeFilter a ++ op ++ escapeFilter v) := by
    rw [List.append_assoc]
    exact startsItem_escape hfirst (startsItem_pairOp hop _)
  refine ⟨_, pairPacket E tag (escapeFilter a) v, decompileFilter_pair hop rfl rfl,
    compilesTo_item hstart (compileItem_pair E hop ha.escape v) rfl, ?_⟩
  rw [noEscape_iff]
  rw [pairPacket_eq, pairPacket_eq, filterPacket, skeleton_appendAll_iff]
  simp only [List.map_cons, List.map_nil, List.cons.injEq, skeleton_newString_iff, and_true]

theorem recompiles_present {a cond : GoString} (ha : AttrText a (str "="))
    (hfirst : ∀ b ∈ (a ++ (str "=" ++ cond)).head?, FirstOfItem b) :
    Recompiles E (newString .context .primitive filterPresent a (filterMap filterPresent)) (NoEscape a) := by
  have hstart : StartsItem (escapeFilter a ++ str "=*") :=
    startsItem_escape hfirst (startsItem_pairOp equality_mem_pairOps (str "*"))
  have hitem := compileItem_present E ha.escape
  rw [show escapeFilter a ++ str "=" ++ [ch '*'] = escapeFilter a ++ str "=*" from List.append_assoc _ _ _] at hitem
  refine ⟨_, _, decompileFilter_present rfl, compilesTo_item hstart hitem rfl, ?_⟩
  rw [noEscape_iff]
  exact skeleton_newString_iff

/-! ### Substrings -/

theorem filter_eq_nil_of_decodesAs {parts vs : List GoString} (h : List.Forall₂ DecodesAs parts vs) :
    (vs.filter fun v => !v.isEmpty) = [] ↔ ∀ p ∈ parts, p = [] := by
  suffices (∀ v ∈ vs, v = []) ↔ ∀ p ∈ parts, p = [] by simpa using this
  induction h with
  | nil => exact Iff.rfl
  | cons hp _ ih => rw [List.forall_mem_cons, List.forall_mem_cons, hp.eq_nil_iff, ih]

/-- The parts of a substring condition: a substring assertion, or nothing when there are only asterisks. -/
theorem appendSubstrings_split {cond : GoString} {seq q : Packet} (hstar : ch '*' ∈ cond)
    (h : appendSubstrings E (split (ch '*') cond).length 0 (split (ch '*') cond) seq = .ok q) :
    ((∀ b ∈ cond, b = ch '*') ∧ q = seq) ∨
    ((¬ ∀ b ∈ cond, b = ch '*') ∧ ∃ a : SubstringAssertion, q = appendAll E seq (a.components.map componentPacket)) := by
  rw [← forall_mem_split_eq_nil]
  obtain ⟨first, middle, last, hsplit⟩ := split_eq_cons_append hstar
  rw [hsplit] at h ⊢
  obtain ⟨initial, any, final, hinitial, hany, hfinal, rfl⟩ := appendSubstrings_parts h
  have hall : (∀ p ∈ first :: (middle ++ [last]), p = []) ↔
      initial = [] ∧ (any.filter fun v => !v.isEmpty) = [] ∧ final = [] := by
    rw [hinitial.eq_nil_iff, filter_eq_nil_of_decodesAs hany, hfinal.eq_nil_iff]
    simp only [List.mem_cons, List.mem_append, List.not_mem_nil, or_false]
    constructor
    · exact fun hp => ⟨hp _ (.inl rfl), fun m hm => hp m (.inr (.inl hm)), hp _ (.inr (.inr rfl))⟩
    · rintro ⟨h1, h2, h3⟩ p (rfl | hp | rfl)
      · exact h1
      · exact h2 p hp
      · exact h3
  rw [hall]
  by_cases hempty : initial = [] ∧ (any.filter fun v => !v.isEmpty) = [] ∧ final = []
  · refine .inl ⟨hempty, ?_⟩
    rw [partComponents, hempty.1, hempty.2.1, hempty.2.2]
    rfl
  · have hne : initial ≠ [] ∨ (any.filter fun v => !v.isEmpty) ≠ [] ∨ final ≠ [] := by
      by_contra hcon
      simp only [not_or, not_not] at hcon
      exact hempty hcon
    exact .inr ⟨hempty, ⟨initial, any.filter fun v => !v.isEmpty, final, by simp, hne⟩, rfl⟩

theorem substringsPacket_eq (name : GoString) (a : SubstringAssertion) :
    substringsPacket E name a = appendAll E (filterPacket filterSubstrings)
      [newString .universal .primitive tagOctetString name (str "Attribute"),
        appendAll E (encode .universal .constructed tagSequence (str "Substrings")) (a.components.map componentPacket)] :=
  rfl

theorem isPrimitive_componentPacket (cs : List (ℕ × GoString)) :
    List.Forall₂ (fun c q => IsPrimitive .context c.1 c.2 q) cs (cs.map componentPacket) := by
  rw [List.forall₂_map_right_iff, List.forall₂_same]
  exact fun c _ => ⟨rfl, rfl, rfl, rfl, rfl⟩

theorem recompiles_substrings {a cond : GoString} (ha : AttrText a (str "="))
    (hfirst : ∀ b ∈ (a ++ (str "=" ++ cond)).head?, FirstOfItem b) (assertion : SubstringAssertion) :
    Recompiles E (substringsPacket E a assertion) (NoEscape a) := by
  have hstart : StartsItem (escapeFilter a ++ str "=" ++ assertion.string) := by
    rw [List.append_assoc]
    exact startsItem_escape hfirst (startsItem_pairOp equality_mem_pairOps _)
  have hdec : decompileFilter (substringsPacket E a assertion) =
      .ok (ch '(' :: (escapeFilter a ++ str "=" ++ assertion.string) ++ [ch ')']) := by
    have hseq := (isConstructed_appendAll (E := E) .universal tagSequence (str "Substrings")
      (assertion.components.map componentPacket)).children
    have := decompileFilter_substrings (p := substringsPacket E a assertion) rfl rfl
    rw [hseq, decompileSubstrings_components assertion (isPrimitive_componentPacket _)] at this
    exact this
  refine ⟨_, substringsPacket E (escapeFilter a) assertion, hdec,
    compilesTo_item hstart (compileItem_substrings E ha.escape assertion) rfl, ?_⟩
  rw [noEscape_iff, substringsPacket_eq, substringsPacket_eq, filterPacket, skeleton_appendAll_iff]
  simp only [List.map_cons, List.map_nil, List.cons.injEq, skeleton_newString_iff, and_true]

/-- A substring filter without parts is decompiled to an equality with the empty value. -/
theorem recompiles_asterisks {a cond : GoString} (ha : AttrText a (str "="))
    (hfirst : ∀ b ∈ (a ++ (str "=" ++ cond)).head?, FirstOfItem b) :
    Recompiles E (appendAll E (filterPacket filterSubstrings)
      [newString .universal .primitive tagOctetString a (str "Attribute"),
        encode .universal .constructed tagSequence (str "Substrings")]) False := by
  have hstart : StartsItem (escapeFilter a ++ str "=" ++ escapeFilter []) := by
    rw [List.append_assoc]
    exact startsItem_escape hfirst (startsItem_pairOp equality_mem_pairOps _)
  refine ⟨_, pairPacket E filterEqualityMatch (escapeFilter a) [], decompileFilter_substrings rfl rfl,
    compilesTo_item hstart (compileItem_pair E equality_mem_pairOps ha.escape []) rfl, ?_⟩
  refine iff_of_false (fun h => ?_) not_false
  have htag : filterEqualityMatch = filterSubstrings := congrArg Packet.tag h
  exact absurd htag (by decide)

/-! ### Extensible matches -/

theorem decompileFilter_children (m : MatchingRuleAssertion) :
    decompileFilter (appendAll E (filterPacket filterExtensibleMatch) (m.children E)) =
      .ok (ch '(' :: m.string ++ [ch ')']) := by
  have hp := isConstructed_appendAll (E := E) .context filterExtensibleMatch (filterMap filterExtensibleMatch)
    (m.children E)
  exact decompileFilter_extensible hp.tag (by rw [hp.children, foldlM_read_children])

theorem children_skeleton_iff {a a' r r' : GoString} (ha : a' = [] ↔ a = []) (hr : r' = [] ↔ r = []) (dn : Bool)
    (v : GoString) :
    ((⟨a', dn, r', v⟩ : MatchingRuleAssertion).children E).map Packet.skeleton =
      ((⟨a, dn, r, v⟩ : MatchingRuleAssertion).children E).map Packet.skeleton ↔ a' = a ∧ r' = r := by
  simp only [MatchingRuleAssertion.children, gt_iff_lt, List.length_pos_iff, ne_eq, ha, hr]
  by_cases hanil : a = [] <;> by_cases hrnil : r = [] <;> cases dn <;>
    simp [hanil, hrnil, ha.mpr, hr.mpr, skeleton_newString_iff, and_comm]

theorem escapeFilter_eq_nil {v : GoString} : escapeFilter v = [] ↔ v = [] := by
  constructor
  · intro h
    by_contra hne
    exact escapeFilter_ne_nil hne h
  · rintro rfl
    rfl

/-- A matching rule that is not read as the flag. -/
theorem recompiles_extensible {a r rest : GoString} {dn : Bool} (ha : AttrText a (str ":")) (hr : RuleText r)
    (hhead : r.head? ≠ some (ch '=')) (hdn : dn = false → ¬ str "dn:" <+: r) (hne : ¬ (dn = false ∧ r = str "dn"))
    (hfirst : ∀ b ∈ (a ++ rest).head?, FirstOfItem b) (v : GoString) :
    Recompiles E (appendAll E (filterPacket filterExtensibleMatch) ((⟨a, dn, r, v⟩ : MatchingRuleAssertion).children E))
      (NoEscape a ∧ NoEscape r) := by
  have hstart : StartsItem (escapeFilter a ++ colons dn (escapeFilter r) ++ escapeFilter v) := by
    rw [List.append_assoc]
    exact startsItem_escape hfirst (startsItem_colons _ _ _)
  have hitem := compileItem_extensible E ⟨escapeFilter a, dn, escapeFilter r, v⟩ ha.escape (ruleOf_escape hr hhead hdn hne)
  refine ⟨_, _, (decompileFilter_children _).trans ?_, compilesTo_item hstart hitem rfl, ?_⟩
  · rw [MatchingRuleAssertion.string_eq]
  · rw [filterPacket, skeleton_appendAll_iff, children_skeleton_iff escapeFilter_eq_nil escapeFilter_eq_nil,
      noEscape_iff, noEscape_iff]

/-- The rule `dn` is decompiled to the flag. -/
theorem recompiles_dn {a rest : GoString} (ha : AttrText a (str ":")) (hfirst : ∀ b ∈ (a ++ rest).head?, FirstOfItem b)
    (v : GoString) :
    Recompiles E (appendAll E (filterPacket filterExtensibleMatch)
      ((⟨a, false, str "dn", v⟩ : MatchingRuleAssertion).children E)) False := by
  have hstart : StartsItem (escapeFilter a ++ colons true [] ++ escapeFilter v) := by
    rw [List.append_assoc]
    exact startsItem_escape hfirst (startsItem_colons _ _ _)
  have hrule : RuleOf true [] := ⟨⟨.nil, by simp, by simp⟩, by simp, by simp⟩
  have hitem := compileItem_extensible E ⟨escapeFilter a, true, [], v⟩ ha.escape hrule
  refine ⟨_, _, (decompileFilter_children _).trans ?_, compilesTo_item hstart hitem rfl, ?_⟩
  · rw [MatchingRuleAssertion.string_eq]
    rfl
  · refine iff_of_false (fun h => ?_) not_false
    rw [filterPacket, skeleton_appendAll_iff] at h
    -- only one of them ends with the flag
    have hlast := congrArg (fun l => l.getLast?.map Packet.tag) h
    simp only [MatchingRuleAssertion.children, List.map_append, if_true, if_false, Bool.false_eq_true, List.map_cons,
      List.map_nil, List.append_nil, List.getLast?_concat, Option.map_some, Option.some.injEq] at hlast
    have htag : matchingRuleAssertionDNAttributes = matchingRuleAssertionMatchValue := hlast
    exact absurd htag (by decide)

/-! ### All items -/

theorem buildExtensible_eq_ok {s : Scan} {packet p : Packet} (h : buildExtensible E s packet = (p, none)) :
    ∃ v, p = appendAll E packet
      ((⟨s.attr, s.extensibleDNAttributes, s.extensibleMatchingRule, v⟩ : MatchingRuleAssertion).children E) := by
  unfold buildExtensible at h
  cases hv : decodeEscapedSymbols s.condition with
  | error e => simp [hv] at h
  | ok v =>
    refine ⟨v, ?_⟩
    rw [hv] at h
    obtain ⟨rfl, -⟩ := Prod.mk.inj h
    unfold MatchingRuleAssertion.children
    dsimp only
    cases s.extensibleDNAttributes <;> split_ifs <;> simp_all [appendAll]

theorem filterPacket_tag_pairOp {tag : ℕ} {op : GoString} (h : (tag, op) ∈ pairOps) :
    (filterPacket tag).tag ≠ filterExtensibleMatch := by
  simp only [pairOps, List.mem_cons, Prod.mk.injEq, List.not_mem_nil, or_false] at h
  rcases h with ⟨rfl, -⟩ | ⟨rfl, -⟩ | ⟨rfl, -⟩ | ⟨rfl, -⟩ <;> decide

theorem op_eq_of_equality {op : GoString} (h : (filterEqualityMatch, op) ∈ pairOps) : op = str "=" := by
  simp only [pairOps, List.mem_cons, Prod.mk.injEq, List.not_mem_nil, or_false] at h
  rcases h with ⟨-, rfl⟩ | ⟨h, -⟩ | ⟨h, -⟩ | ⟨h, -⟩
  · rfl
  · exact absurd h (by decide)
  · exact absurd h (by decide)
  · exact absurd h (by decide)

theorem Recompiles.congr {p : Packet} {c d : Prop} (h : Recompiles E p c) (hcd : c ↔ d) : Recompiles E p d := by
  obtain ⟨t, q, ht, hq, hiff⟩ := h
  exact ⟨t, q, ht, hq, hiff.trans hcd⟩

/-- What is built from an attribute, an operator and a condition. -/
theorem recompiles_buildItem_pair {tag : ℕ} {op a cond : GoString} {p : Packet} (hop : (tag, op) ∈ pairOps)
    (ha : AttrText a op) (hfirst : ∀ b ∈ (a ++ (op ++ cond)).head?, FirstOfItem b)
    (h : buildItem E ⟨some (filterPacket tag), .readingCondition, a, false, [], cond⟩ (filterPacket tag) = (p, none)) :
    Recompiles E p (StableItem (a ++ op ++ cond)) := by
  have hstable : StableItem (a ++ op ++ cond) ↔
      NoEscape a ∧ (tag = filterEqualityMatch → ¬ (1 < cond.length ∧ ∀ b ∈ cond, b = ch '*')) := by
    rw [List.append_assoc, stableItem_append (ha.congr (head?_pairOp hop cond)) (startsOperator_pairOp hop cond),
      stableTail_pairOp hop]
  have htag : (filterPacket tag).tag = tag := rfl
  unfold buildItem at h
  dsimp only at h
  rw [if_neg (filterPacket_tag_pairOp hop), htag] at h
  by_cases hpresent : tag = filterEqualityMatch ∧ cond = [ch '*']
  · rw [if_pos hpresent] at h
    obtain ⟨rfl, rfl⟩ := hpresent
    obtain rfl := op_eq_of_equality hop
    obtain ⟨rfl, -⟩ := Prod.mk.inj h
    exact (recompiles_present ha hfirst).congr (by rw [hstable]; simp)
  rw [if_neg hpresent] at h
  by_cases hsub : tag = filterEqualityMatch ∧ ch '*' ∈ cond
  · rw [if_pos hsub] at h
    obtain ⟨rfl, hstar⟩ := hsub
    obtain rfl := op_eq_of_equality hop
    have hlen : (∀ b ∈ cond, b = ch '*') → 1 < cond.length := by
      intro hall
      by_contra hle
      have hpos := List.length_pos_of_mem hstar
      obtain ⟨b, rfl⟩ := List.length_eq_one_iff.mp (by omega : cond.length = 1)
      exact hpresent ⟨rfl, by rw [hall b (by simp)]⟩
    split at h
    · simp at h
    · rename_i seq hseq
      obtain ⟨rfl, -⟩ := Prod.mk.inj h
      rcases appendSubstrings_split hstar hseq with ⟨hall, rfl⟩ | ⟨hnot, assertion, rfl⟩
      · exact (recompiles_asterisks ha hfirst).congr
          (iff_of_false not_false fun hs => (hstable.mp hs).2 rfl ⟨hlen hall, hall⟩)
      · exact (recompiles_substrings ha hfirst assertion).congr (by rw [hstable]; simp [hnot])
  rw [if_neg hsub] at h
  have hno : tag = filterEqualityMatch → ¬ (1 < cond.length ∧ ∀ b ∈ cond, b = ch '*') := by
    rintro htag ⟨hlen, hall⟩
    obtain ⟨b, cond, rfl⟩ := List.exists_cons_of_length_pos (by omega : 0 < cond.length)
    exact hsub ⟨htag, by rw [hall b (by simp)]; simp⟩
  split at h
  · simp at h
  · rename_i v hv
    obtain ⟨rfl, -⟩ := Prod.mk.inj h
    exact (recompiles_pair hop ha hfirst v).congr ⟨fun hesc => hstable.mpr ⟨hesc, hno⟩, fun hs => (hstable.mp hs).1⟩

/-- What is built from an attribute, a colon and a matching rule. -/
theorem recompiles_buildItem_rule {s : Scan} {r rest : GoString} {dn : Bool} {p : Packet}
    (ha : AttrText s.attr (str ":")) (hdn : s.extensibleDNAttributes = dn) (hr : s.extensibleMatchingRule = r)
    (htext : RuleText r) (hhead : r.head? ≠ some (ch '=')) (hpre : dn = false → ¬ str "dn:" <+: r)
    (hfirst : ∀ b ∈ (s.attr ++ rest).head?, FirstOfItem b)
    (h : buildItem E s (filterPacket filterExtensibleMatch) = (p, none)) :
    Recompiles E p (NoEscape s.attr ∧ NoEscape r ∧ ¬ (dn = false ∧ r = str "dn")) := by
  have htag : (filterPacket filterExtensibleMatch).tag = filterExtensibleMatch := rfl
  unfold buildItem at h
  dsimp only at h
  rw [if_pos htag] at h
  obtain ⟨v, rfl⟩ := buildExtensible_eq_ok h
  rw [hdn, hr]
  by_cases hflag : dn = false ∧ r = str "dn"
  · obtain ⟨rfl, rfl⟩ := hflag
    exact (recompiles_dn ha hfirst v).congr (by simp)
  · exact (recompiles_extensible ha htext hhead hpre hflag hfirst v).congr (by simp [hflag])

/-- **One item.**  What was built from an item is decompiled to a text that compiles; the packets agree if and only if
the item is stable. -/
theorem ItemForm.recompiles {text : GoString} {s : Scan} {packet p : Packet} (h : ItemForm text s)
    (hfirst : ∀ b ∈ text.head?, FirstOfItem b) (hs : s.packet = some packet) (hbuild : buildItem E s packet = (p, none)) :
    Recompiles E p (StableItem text) := by
  cases h with
  | attr ha => cases hs
  | pair hop ha =>
    obtain rfl := Option.some.inj hs
    rw [List.append_assoc] at hfirst
    exact recompiles_buildItem_pair hop ha hfirst hbuild
  | @value a cond dn ha =>
    obtain rfl := Option.some.inj hs
    have hdn : dn = false → ¬ str "dn:" <+: str "=" ++ cond := by
      rintro - ⟨t, ht⟩
      exact absurd (List.cons.inj ht).1 (by decide)
    have hne : ¬ (dn = false ∧ str "=" ++ cond = str "dn") := by
      rintro ⟨-, ht⟩
      exact absurd (List.cons.inj ht).1 (by decide)
    have hstable : StableItem (a ++ (colonMark dn ++ (str "=" ++ cond))) ↔ NoEscape a := by
      have hhead : (str "=" ++ cond).head? = some (ch '=') := rfl
      rw [stableItem_append (ha.congr (head?_colonMark dn _)) (startsOperator_colonMark dn _), stableTail_colonMark hdn,
        if_pos hhead]
      exact ⟨fun h => h.1, fun h => ⟨h, fun b hb => absurd hb List.not_mem_nil, hne⟩⟩
    refine (recompiles_buildItem_rule ha rfl rfl ⟨.nil, by simp, by simp⟩ (by simp) ?_ hfirst hbuild).congr ?_
    · rintro - ⟨t, ht⟩
      cases ht
    · rw [hstable]
      simp [NoEscape, str]
  | @rule a r cond dn ha hr =>
    obtain rfl := Option.some.inj hs
    have hpre : dn = false → ¬ str "dn:" <+: r := fun hf hpre => hr.dn hf (hpre.trans (List.prefix_append _ _))
    have hne : ∀ t, ¬ (dn = false ∧ r ++ (str ":=" ++ t) = str "dn") := by
      rintro t ⟨-, ht⟩
      have hcolon : ch ':' ∈ str "dn" := by
        rw [← ht]
        exact List.mem_append_right _ (List.mem_append_left _ (by decide))
      exact absurd hcolon (by decide)
    have hstable : StableItem (a ++ (colonMark dn ++ (r ++ str ":=") ++ cond)) ↔ NoEscape a ∧ NoEscape r := by
      rw [List.append_assoc (colonMark dn), List.append_assoc r,
        stableItem_append (ha.congr (head?_colonMark dn _)) (startsOperator_colonMark dn _),
        stableTail_colonMark (hr.dn_append cond), if_neg (hr.head_append cond),
        untilColonEq_append hr.chain (.inr ⟨cond, rfl⟩)]
      simp [hne]
    refine (recompiles_buildItem_rule ha rfl rfl hr.toRuleText hr.head hpre hfirst hbuild).congr ?_
    have hflag : ¬ (dn = false ∧ r = str "dn") := by
      rintro ⟨hf, rfl⟩
      exact hr.dn hf ⟨str "=", rfl⟩
    rw [hstable]
    simp [hflag]
  | @openRule a r dn ha hr hhead hdn =>
    obtain rfl := Option.some.inj hs
    refine (recompiles_buildItem_rule ha rfl rfl hr hhead hdn hfirst hbuild).congr ?_
    have huntil := untilColonEq_append hr.chain (.inl rfl)
    rw [List.append_nil] at huntil
    rw [stableItem_append (ha.congr (head?_colonMark dn _)) (startsOperator_colonMark dn _), stableTail_colonMark hdn,
      if_neg hhead, huntil]

end Items

/-! ## Whole filters -/

section Tree

variable {E : Encoder}

/-- The texts and packets of the filters of a set. -/
theorem decompileFilters_recompile {rs : List Reading} {c : Reading → Prop} (h : ∀ r ∈ rs, Recompiles E r.packet (c r)) :
    ∃ (texts : List GoString) (qs : List Packet), decompileFilters (rs.map Reading.packet) = .ok texts.flatten ∧
      List.Forall₂ (CompilesTo E) texts qs ∧
      (qs.map Packet.skeleton = (rs.map Reading.packet).map Packet.skeleton ↔ ∀ r ∈ rs, c r) := by
  induction rs with
  | nil => exact ⟨[], [], rfl, .nil, by simp⟩
  | cons r rs ih =>
    obtain ⟨t, q, ht, hq, hiff⟩ := h r (by simp)
    obtain ⟨texts, qs, htexts, hqs, hall⟩ := ih fun r' hr' => h r' (by simp [hr'])
    refine ⟨t :: texts, q :: qs, ?_, .cons hq hqs, ?_⟩
    · rw [List.map_cons, decompileFilters, ht, htexts]
      rfl
    · rw [List.map_cons, List.map_cons, List.map_cons, List.cons.injEq, hiff, hall, List.forall_mem_cons]

/-- The items of a reading are stable. -/
def Reading.Stable (r : Reading) : Prop := ∀ text, .item text ∈ r.tokens → StableItem text

/-- What was read is decompiled to a text that compiles; the packets agree if and only if all items are stable. -/
theorem Reads.recompiles {r : Reading} (h : Reads E r) : Recompiles E r.packet r.Stable := by
  induction h with
  | @set tag op closer hop _ rs _ ih =>
    obtain ⟨texts, qs, htexts, hqs, hall⟩ := decompileFilters_recompile ih
    have hp := isConstructed_appendAll (E := E) .context tag (filterMap tag) (rs.map Reading.packet)
    have hset := compilesTo_set hop (isConstructed_appendAll (E := E) .context tag (filterMap tag) qs) hqs
    refine ⟨_, _, decompileFilter_set hop hp.tag (by rw [hp.children, htexts]), hset, ?_⟩
    rw [filterPacket, skeleton_appendAll_iff, hall]
    simp only [Reading.Stable, List.mem_append, List.mem_flatMap, List.mem_singleton, reduceCtorEq, or_false]
    exact ⟨fun hs text ⟨r, hr, ht⟩ => hs r hr text ht, fun hs r hr text ht => hs text ⟨r, hr, ht⟩⟩
  | @not r _ ih =>
    obtain ⟨t, q, ht, hq, hiff⟩ := ih
    have hnot := compilesTo_not (isConstructed_appendAll (E := E) .context filterNot (filterMap filterNot) [q]) hq
    refine ⟨_, _, decompileFilter_not rfl rfl ht, hnot, ?_⟩
    show (appendAll E _ [q]).skeleton = (appendAll E (encode _ _ _ _) [r.packet]).skeleton ↔ _
    rw [skeleton_appendAll_iff, List.map_singleton, List.map_singleton, List.cons.injEq, hiff]
    simp only [and_true]
    rfl
  | @filter r _ closer ih =>
    refine ih.congr ?_
    simp only [Reading.Stable, List.mem_append, List.mem_singleton, reduceCtorEq, or_false]
  | item _ _ hfirst hform hs hbuild =>
    refine (hform.recompiles hfirst hs hbuild).congr ?_
    simp [Reading.Stable]

end Tree

/-- **Recompiling a decompiled filter.**  A packet that `CompileFilter` returns is decompiled, and compiling the result
gives a packet with the same classes, types, tags, contents and children, if and only if every item of the string is
stable. -/
theorem compileFilter_stable_iff (E : Encoder) (s : GoString) (p : Packet)
    (h : compileFilter E s = some (.ok (some p))) :
    (∃ t q, decompileFilter p = .ok t ∧ compileFilter E t = some (.ok (some q)) ∧ q.skeleton = p.skeleton) ↔
      ∀ text ∈ items s, StableItem text := by
  obtain ⟨r, hr, rfl, rfl⟩ := compileFilter_reads h
  obtain ⟨t, q, ht, hcomp, hiff⟩ := hr.recompiles
  obtain ⟨q', hq', hskel⟩ := hcomp.compileFilter_eq
  have hstable : r.Stable ↔ ∀ text ∈ items (ch '(' :: r.text), StableItem text := by
    simp only [Reading.Stable, mem_items, filterTokens_eq hr]
  rw [← hstable, ← hiff, ← hskel]
  constructor
  · rintro ⟨t', q'', ht', hq'', hskel'⟩
    -- the text and the packet are the ones above
    obtain rfl := Except.ok.inj (ht.symm.trans ht')
    have hsome := hq'.symm.trans hq''
    simp only [Option.some.injEq, Except.ok.injEq] at hsome
    rw [hsome]
    exact hskel'
  · exact fun heq => ⟨t, q', ht, hq', heq⟩

/-- A substring filter whose asterisk is doubled. -/
theorem compileFilter_stable_substrings :
    ∃ p t q, compileFilter shortEncoder (str "(a=b**c)") = some (.ok (some p)) ∧ decompileFilter p = .ok t ∧
      compileFilter shortEncoder t = some (.ok (some q)) ∧ q.skeleton = p.skeleton := by
  obtain ⟨p, hp⟩ : ∃ p, compileFilter shortEncoder (str "(a=b**c)") = some (.ok (some p)) := ⟨_, rfl⟩
  have hitems : items (str "(a=b**c)") = [str "a=b**c"] := by decide
  obtain ⟨t, q, hrest⟩ := (compileFilter_stable_iff shortEncoder _ p hp).mpr fun text htext => by
    rw [hitems, List.mem_singleton] at htext
    subst htext
    decide
  exact ⟨p, t, q, hp, hrest⟩

/-- The attribute is escaped when it is decompiled, and the escape is not undone. -/
theorem compileFilter_escaped_attribute :
    ∃ p t q, compileFilter shortEncoder (str "(a\\2a=b)") = some (.ok (some p)) ∧ decompileFilter p = .ok t ∧
      t = str "(a\\5c2a=b)" ∧ compileFilter shortEncoder t = some (.ok (some q)) ∧ q.skeleton ≠ p.skeleton := by
  refine ⟨pairPacket shortEncoder filterEqualityMatch (str "a\\2a") (str "b"), str "(a\\5c2a=b)",
    pairPacket shortEncoder filterEqualityMatch (str "a\\5c2a") (str "b"), rfl, rfl, rfl, rfl, fun h => ?_⟩
  have hlen := congrArg (fun p : Packet => p.data.length) h
  exact absurd hlen (by decide)

end GoLdap
