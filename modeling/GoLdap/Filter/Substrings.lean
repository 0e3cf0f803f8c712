import GoLdap.Filter.Brackets
import GoLdap.Filter.RoundTrip
import GoLdap.Lib.Wildcard

/-!
# Filter.Substrings — what the asterisks of a condition mean

`compileFilter` cuts the condition at its asterisks, drops the parts that are empty, unescapes the others and gives them
tags by their place among all parts.  The condition is meant as a pattern, in which an asterisk stands for any string
and an escape for its byte.

* `appendSubstrings_parts`: the loop over the parts, as the values it unescapes.
* `conditionPattern_parts`: the same values are the parts of the pattern, as `Wildcard.ofParts` puts them together.
* `substringsMatch_components`: the components match what the pattern matches.
-/

namespace GoLdap

open Go Ber

/-! ## The loop over the parts -/

section Loop

variable {E : Encoder}

theorem DecodesAs.eq_nil_iff {part v : GoString} (h : DecodesAs part v) : v = [] ↔ part = [] := by
  cases h with
  | nil => exact Iff.rfl
  | byte _ _ => simp
  | escape _ _ => simp

/-- One turn of the loop over the parts, whatever they are. -/
theorem appendSubstrings_part {n i : ℕ} {part : GoString} {parts : List GoString} {seq q : Packet}
    (h : appendSubstrings E n i (part :: parts) seq = .ok q) : ∃ v, DecodesAs part v ∧
      appendSubstrings E n (i + 1) parts (appendAll E seq ((component (substringTag i n) v).map componentPacket)) =
        .ok q := by
  rw [appendSubstrings] at h
  split_ifs at h with hlen
  · obtain rfl := List.length_eq_zero_iff.mp hlen
    exact ⟨[], .nil, h⟩
  · have hne : part ≠ [] := fun hnil => hlen (by rw [hnil]; rfl)
    split at h
    · cases h
    · rename_i v hv
      have hdecodes := decodesAs_of_decodeEscapedSymbols hv
      refine ⟨v, hdecodes, ?_⟩
      rw [component, if_neg fun hnil => hne (hdecodes.eq_nil_iff.mp hnil)]
      exact h

/-- The parts behind the first one. -/
theorem appendSubstrings_rest {n i : ℕ} {middle : List GoString} {last : GoString} {seq q : Packet} (hi : 0 < i)
    (hn : n = i + middle.length + 1) (h : appendSubstrings E n i (middle ++ [last]) seq = .ok q) :
    ∃ any final, List.Forall₂ DecodesAs middle any ∧ DecodesAs last final ∧
      q = appendAll E seq ((any.flatMap (component filterSubstringsAny) ++
        component filterSubstringsFinal final).map componentPacket) := by
  induction middle generalizing i seq with
  | nil =>
    obtain ⟨v, hv, h⟩ := appendSubstrings_part h
    have htag : substringTag i n = filterSubstringsFinal := by
      rw [substringTag, if_neg (by omega), if_pos (by simp at hn; omega)]
    rw [htag] at h
    exact ⟨[], v, .nil, hv, (Except.ok.inj h).symm⟩
  | cons part middle ih =>
    obtain ⟨v, hv, h⟩ := appendSubstrings_part h
    have htag : substringTag i n = filterSubstringsAny := by
      rw [substringTag, if_neg (by omega), if_neg (by simp at hn; omega)]
    rw [htag] at h
    obtain ⟨any, final, hany, hfinal, rfl⟩ := ih (by omega) (by simp at hn; omega) h
    refine ⟨v :: any, final, .cons hv hany, hfinal, ?_⟩
    simp only [appendAll, List.flatMap_cons, ← List.foldl_append, ← List.map_append, List.append_assoc]

/-- The components of the values of the parts: one that is empty is left out. -/
def partComponents (initial : GoString) (any : List GoString) (final : GoString) : List (ℕ × GoString) :=
  component filterSubstringsInitial initial ++ (any.filter fun v => !v.isEmpty).map (filterSubstringsAny, ·) ++
    component filterSubstringsFinal final

theorem flatMap_component (tag : ℕ) (vs : List GoString) :
    vs.flatMap (component tag) = (vs.filter fun v => !v.isEmpty).map (tag, ·) := by
  induction vs with
  | nil => rfl
  | cons v vs ih =>
    rw [List.flatMap_cons, ih]
    cases v with
    | nil => rfl
    | cons b v => rfl

/-- **The loop**: the components of the values of the parts, in order. -/
theorem appendSubstrings_parts {first last : GoString} {middle : List GoString} {seq q : Packet}
    (h : appendSubstrings E (first :: (middle ++ [last])).length 0 (first :: (middle ++ [last])) seq = .ok q) :
    ∃ initial any final, DecodesAs first initial ∧ List.Forall₂ DecodesAs middle any ∧ DecodesAs last final ∧
      q = appendAll E seq ((partComponents initial any final).map componentPacket) := by
  obtain ⟨initial, hinitial, h⟩ := appendSubstrings_part h
  obtain ⟨any, final, hany, hfinal, rfl⟩ := appendSubstrings_rest (by omega) (by simp; omega) h
  refine ⟨initial, any, final, hinitial, hany, hfinal, ?_⟩
  have htag : substringTag 0 (first :: (middle ++ [last])).length = filterSubstringsInitial := rfl
  rw [htag, partComponents, ← flatMap_component]
  simp only [appendAll, ← List.foldl_append, ← List.map_append, List.append_assoc]

end Loop

/-! ## The pattern -/

/-- The condition as a pattern, if its escapes are complete. -/
def conditionPattern : GoString → Option (List (Option UInt8))
  | [] => some []
  | b :: s =>
    if b = ch '*' then (conditionPattern s).map (none :: ·)
    else if b = ch '\\' then
      match s with
      | hi :: lo :: s =>
        match hexDecodePair hi lo with
        | some c => (conditionPattern s).map (some c :: ·)
        | none => none
      | _ => none
    else (conditionPattern s).map (some b :: ·)

theorem conditionPattern_star (s : GoString) : conditionPattern (ch '*' :: s) = (conditionPattern s).map (none :: ·) := by
  rw [conditionPattern.eq_def]
  exact if_pos rfl

/-- A part is read as the characters of its value. -/
theorem conditionPattern_part {part v : GoString} (h : DecodesAs part v) (hstar : ch '*' ∉ part) (s : GoString) :
    conditionPattern (part ++ s) = (conditionPattern s).map (v.map some ++ ·) := by
  induction h with
  | nil => simp
  | @byte b part v hslash _ ih =>
    rw [List.mem_cons, not_or] at hstar
    rw [List.cons_append, conditionPattern.eq_def]
    dsimp only
    rw [if_neg (Ne.symm hstar.1), if_neg hslash, ih hstar.2, Option.map_map]
    rfl
  | @escape hi lo c part v hc _ ih =>
    simp only [List.mem_cons, not_or] at hstar
    rw [List.cons_append, List.cons_append, List.cons_append, conditionPattern.eq_def]
    dsimp only
    rw [if_neg (by decide), if_pos rfl, hc]
    dsimp only
    rw [ih hstar.2.2.2, Option.map_map]
    rfl

theorem conditionPattern_wild_parts {parts vs : List GoString} (h : List.Forall₂ DecodesAs parts vs)
    (hstar : ∀ part ∈ parts, ch '*' ∉ part) :
    conditionPattern (parts.flatMap (ch '*' :: ·)) = some (vs.flatMap fun v => none :: v.map some) := by
  induction h with
  | nil => rfl
  | @cons part v parts vs hpart _ ih =>
    rw [List.flatMap_cons, List.cons_append, conditionPattern_star,
      conditionPattern_part hpart (hstar part (by simp)), ih fun q hq => hstar q (by simp [hq])]
    rfl

/-- The values of the parts are the parts of the pattern. -/
theorem conditionPattern_parts {cond first v : GoString} {parts vs : List GoString}
    (hsplit : split (ch '*') cond = first :: parts) (hfirst : DecodesAs first v) (h : List.Forall₂ DecodesAs parts vs) :
    conditionPattern cond = some (Wildcard.ofParts v vs) := by
  obtain ⟨rfl, hstar⟩ := eq_of_split hsplit
  rw [conditionPattern_part hfirst (hstar first (by simp)),
    conditionPattern_wild_parts h fun q hq => hstar q (by simp [hq])]
  rfl

/-! ## The components -/

/-- The values of the components with this tag. -/
def valuesOf (tag : ℕ) (cs : List Packet) : List GoString := (cs.filter fun c => c.tag = tag).map Packet.data

/-- A string has the initial component as a prefix and the final one as a suffix, and the others occur in order between
them. -/
def SubstringsMatch (cs : List Packet) (x : GoString) : Prop :=
  ∃ m, x = (valuesOf filterSubstringsInitial cs).flatten ++ m ++ (valuesOf filterSubstringsFinal cs).flatten ∧
    Wildcard.InOrder (valuesOf filterSubstringsAny cs) m

/-- At most one initial component, then the others, then at most one final component, none of them empty. -/
structure InPlace (cs : List Packet) : Prop where
  order : ∃ initial any final, cs = initial ++ any ++ final ∧ initial.length ≤ 1 ∧ final.length ≤ 1 ∧
    (∀ c ∈ initial, c.tag = filterSubstringsInitial) ∧ (∀ c ∈ any, c.tag = filterSubstringsAny) ∧
    ∀ c ∈ final, c.tag = filterSubstringsFinal
  ne_nil : ∀ c ∈ cs, c.data ≠ []

theorem valuesOf_append (tag : ℕ) (cs ds : List Packet) :
    valuesOf tag (cs ++ ds) = valuesOf tag cs ++ valuesOf tag ds := by
  rw [valuesOf, List.filter_append, List.map_append]
  rfl

theorem valuesOf_self {tag : ℕ} {cs : List Packet} (h : ∀ c ∈ cs, c.tag = tag) :
    valuesOf tag cs = cs.map Packet.data := by
  rw [valuesOf, List.filter_eq_self.mpr fun c hc => decide_eq_true (h c hc)]

theorem valuesOf_other {tag tag' : ℕ} (hne : tag' ≠ tag) {cs : List Packet} (h : ∀ c ∈ cs, c.tag = tag') :
    valuesOf tag cs = [] := by
  have hnone : ∀ c ∈ cs, ¬ decide (c.tag = tag) = true := by
    intro c hc
    rw [h c hc]
    simpa using hne
  rw [valuesOf, List.filter_eq_nil_iff.mpr hnone]
  rfl

theorem substringsMatch_append {initial any final : List Packet}
    (hinitial : ∀ c ∈ initial, c.tag = filterSubstringsInitial) (hany : ∀ c ∈ any, c.tag = filterSubstringsAny)
    (hfinal : ∀ c ∈ final, c.tag = filterSubstringsFinal) (x : GoString) :
    SubstringsMatch (initial ++ any ++ final) x ↔
      ∃ m, x = (initial.map Packet.data).flatten ++ m ++ (final.map Packet.data).flatten ∧
        Wildcard.InOrder (any.map Packet.data) m := by
  unfold SubstringsMatch
  simp only [valuesOf_append]
  rw [valuesOf_self hinitial, valuesOf_other (by decide) hany, valuesOf_other (by decide) hfinal,
    valuesOf_other (by decide) hinitial, valuesOf_other (by decide) hany, valuesOf_self hfinal,
    valuesOf_other (by decide) hinitial, valuesOf_self hany, valuesOf_other (by decide) hfinal]
  simp only [List.append_nil, List.nil_append]

/-! ### The components of parts -/

section Components

variable {tag : ℕ} {v : GoString} {c : Packet}

theorem mem_map_component (h : c ∈ (component tag v).map componentPacket) : c.tag = tag ∧ c.data = v ∧ v ≠ [] := by
  obtain ⟨d, hd, rfl⟩ := List.mem_map.mp h
  rw [component] at hd
  split_ifs at hd with hnil
  · cases hd
  · obtain rfl := List.mem_singleton.mp hd
    exact ⟨rfl, rfl, hnil⟩

theorem length_component_le (tag : ℕ) (v : GoString) : ((component tag v).map componentPacket).length ≤ 1 := by
  rw [component]
  split_ifs <;> simp

theorem flatten_component (tag : ℕ) (v : GoString) :
    (((component tag v).map componentPacket).map Packet.data).flatten = v := by
  rw [component]
  split_ifs with hnil
  · rw [hnil]
    rfl
  · exact List.append_nil v

theorem mem_map_any {vs : List GoString}
    (h : c ∈ ((vs.filter fun v => !v.isEmpty).map (tag, ·)).map componentPacket) : c.tag = tag ∧ c.data ≠ [] := by
  rw [List.map_map, List.mem_map] at h
  obtain ⟨v, hv, rfl⟩ := h
  have hne : v ≠ [] := by simpa using (List.mem_filter.mp hv).2
  exact ⟨rfl, hne⟩

variable (initial : GoString) (any : List GoString) (final : GoString)

theorem inPlace_partComponents : InPlace ((partComponents initial any final).map componentPacket) := by
  rw [partComponents, List.map_append, List.map_append]
  refine ⟨⟨_, _, _, rfl, length_component_le _ _, length_component_le _ _, fun c hc => (mem_map_component hc).1,
    fun c hc => (mem_map_any hc).1, fun c hc => (mem_map_component hc).1⟩, fun c hc => ?_⟩
  rcases List.mem_append.mp hc with hc | hc
  · rcases List.mem_append.mp hc with hc | hc
    · obtain ⟨-, hdata, hne⟩ := mem_map_component hc
      rwa [hdata]
    · exact (mem_map_any hc).2
  · obtain ⟨-, hdata, hne⟩ := mem_map_component hc
    rwa [hdata]

/-- **The components** match what the pattern with these parts matches. -/
theorem substringsMatch_components (x : GoString) :
    SubstringsMatch ((partComponents initial any final).map componentPacket) x ↔
      Wildcard.Matches (Wildcard.ofParts initial (any ++ [final])) x := by
  rw [partComponents, List.map_append, List.map_append, substringsMatch_append (fun c hc => (mem_map_component hc).1)
    (fun c hc => (mem_map_any hc).1) (fun c hc => (mem_map_component hc).1), flatten_component, flatten_component,
    Wildcard.matches_ofParts]
  have hdata : (((any.filter fun v => !v.isEmpty).map (filterSubstringsAny, ·)).map componentPacket).map Packet.data =
      any.filter fun v => !v.isEmpty := by
    rw [List.map_map, List.map_map]
    exact List.map_id _
  rw [hdata]
  exact exists_congr fun m => and_congr_right fun _ => Wildcard.inOrder_filter

end Components

/-! ## The item -/

/-- The text `attribute=condition` is read as an equality of this attribute and this condition. -/
structure EqualityItem (a cond : GoString) : Prop where
  first : ∀ b ∈ a.head?, FirstOfItem b
  close : ch ')' ∉ a ∧ ch ')' ∉ cond
  operator : ch ':' ∉ a ∧ ch '=' ∉ a
  last : ∀ b ∈ a.getLast?, b ∉ [ch '>', ch '<', ch '~']

section Item

variable {E : Encoder}

/-- A call that does not start with a parenthesis or an operator is for an item. -/
theorem compileItem_of_compileFilterAt {filter : GoString} {fuel pos n : ℕ} {p : Packet}
    (hfirst : ∀ b ∈ filter[pos]?, FirstOfItem b) (h : compileFilterAt E filter fuel pos = some ⟨some p, n, none⟩) :
    compileItem E filter pos = ⟨some p, n, none⟩ := by
  cases fuel with
  | zero =>
    rw [compileFilterAt] at h
    cases h
  | succ fuel =>
    have hstep := @compileFilterAt_succ E filter fuel pos
    rw [h] at hstep
    generalize hc : some (⟨some p, n, none⟩ : Compiled) = c at hstep
    cases hstep with
    | outside => simp [Compiled.recovered] at hc
    | badRune e => simp at hc
    | nested hpos => exact absurd (hfirst _ hpos) (by simp [FirstOfItem])
    | @set tag op hop hpos =>
      refine absurd (hfirst _ hpos) ?_
      simp only [setOps, List.mem_cons, Prod.mk.injEq, List.not_mem_nil, or_false] at hop
      rcases hop with ⟨-, rfl⟩ | ⟨-, rfl⟩ <;> simp [FirstOfItem]
    | not hpos => exact absurd (hfirst _ hpos) (by simp [FirstOfItem])
    | item _ => exact (Option.some.inj hc).symm

/-- An equality item that was compiled was built from its attribute and its condition. -/
theorem buildItem_of_compileItem {pre suf a cond : GoString} {n : ℕ} {p : Packet} (hitem : EqualityItem a cond)
    (h : compileItem E (pre ++ (a ++ str "=" ++ cond ++ ch ')' :: suf)) pre.length = ⟨some p, n, none⟩) :
    buildItem E ⟨some (filterPacket filterEqualityMatch), .readingCondition, a, false, [], cond⟩
      (filterPacket filterEqualityMatch) = (p, none) := by
  obtain ⟨text, s, packet, htext, hread, hclose, hform, hs, hbuild⟩ := compileItem_eq_ok h
  rw [List.drop_left] at htext
  have hclose' : ch ')' ∉ a ++ str "=" ++ cond := by
    have heq : ch ')' ∉ str "=" := by decide
    simp only [List.mem_append, not_or]
    exact ⟨⟨hitem.close.1, heq⟩, hitem.close.2⟩
  -- both texts are what stands in front of the first closing parenthesis
  have hsplit := congrArg (split (ch ')')) htext
  rw [split_append_cons hclose', split_append_cons hclose] at hsplit
  obtain ⟨rfl, -⟩ := List.cons.inj hsplit
  have hparts : Readable a ∧ Readable cond := by
    rw [List.append_assoc] at hread
    exact hread.of_append (by decide) (by decide)
  have hattr : AttrText a (str "=") := ⟨hparts.1, hitem.close.1, hitem.operator.1, hitem.operator.2, fun _ => hitem.last⟩
  -- the scanner has read the item in one way only
  have hscan := hform.scan_eq hread hclose pre.length suf
  rw [scan_pair equality_mem_pairOps hattr hparts.2 hitem.close.2 pre.length suf] at hscan
  obtain ⟨rfl, -⟩ := ScanEnd.close.inj hscan
  obtain rfl := Option.some.inj hs
  exact hbuild

/-- What is built from a condition with an asterisk. -/
theorem buildItem_substrings {a cond : GoString} {p : Packet} (hstar : ch '*' ∈ cond) (hne : cond ≠ str "*")
    (h : buildItem E ⟨some (filterPacket filterEqualityMatch), .readingCondition, a, false, [], cond⟩
      (filterPacket filterEqualityMatch) = (p, none)) :
    ∃ attr seq, p.tag = filterSubstrings ∧ p.children = [attr, seq] ∧ attr.data = a ∧
      appendSubstrings E (split (ch '*') cond).length 0 (split (ch '*') cond)
        (encode .universal .constructed tagSequence (str "Substrings")) = .ok seq := by
  unfold buildItem at h
  dsimp only at h
  rw [if_neg (by decide), if_neg fun heq => hne heq.2, if_pos ⟨rfl, hstar⟩] at h
  split at h
  · cases h
  · rename_i seq hseq
    obtain ⟨rfl, -⟩ := Prod.mk.inj h
    exact ⟨_, seq, rfl, rfl, rfl, hseq⟩

end Item

/-- A condition with an asterisk is compiled to components that match what the condition matches as a pattern. -/
theorem substringsMatch_iff_pattern (E : Encoder) (pre suf a cond : GoString) (fuel n : ℕ) (p : Packet)
    (hitem : EqualityItem a cond) (hstar : ch '*' ∈ cond) (hne : cond ≠ str "*")
    (h : compileFilterAt E (pre ++ (a ++ str "=" ++ cond ++ ch ')' :: suf)) fuel pre.length =
      some ⟨some p, n, none⟩) :
    ∃ attr seq pat, p.tag = filterSubstrings ∧ p.children = [attr, seq] ∧ attr.data = a ∧ InPlace seq.children ∧
      conditionPattern cond = some pat ∧ ∀ x, SubstringsMatch seq.children x ↔ Wildcard.Matches pat x := by
  have hfirst : ∀ b ∈ (pre ++ (a ++ str "=" ++ cond ++ ch ')' :: suf))[pre.length]?, FirstOfItem b := by
    rw [List.getElem?_append_right le_rfl, Nat.sub_self, ← List.head?_eq_getElem?]
    cases ha : a with
    | nil =>
      rintro b ⟨⟩
      exact (by decide : FirstOfItem (ch '='))
    | cons c a' =>
      rw [ha] at hitem
      exact hitem.first
  obtain ⟨attr, seq, htag, hchildren, hattr, hseq⟩ :=
    buildItem_substrings hstar hne (buildItem_of_compileItem hitem (compileItem_of_compileFilterAt hfirst h))
  obtain ⟨first, middle, last, hsplit⟩ := split_eq_cons_append hstar
  rw [hsplit] at hseq
  obtain ⟨initial, any, final, hinitial, hany, hfinal, rfl⟩ := appendSubstrings_parts hseq
  have hcomponents : (appendAll E (encode .universal .constructed tagSequence (str "Substrings"))
      ((partComponents initial any final).map componentPacket)).children =
      (partComponents initial any final).map componentPacket := by
    rw [appendAll_eq]
    rfl
  have hparts : List.Forall₂ DecodesAs (middle ++ [last]) (any ++ [final]) :=
    List.rel_append hany (.cons hfinal .nil)
  refine ⟨attr, _, _, htag, hchildren, hattr, ?_, conditionPattern_parts hsplit hinitial hparts, ?_⟩
  · rw [hcomponents]
    exact inPlace_partComponents initial any final
  · rw [hcomponents]
    exact substringsMatch_components initial any final

/-- `cn=a**\2a`: the empty part is dropped and the escaped asterisk is literal. -/
theorem substringsMatch_iff_pattern_escaped : ∃ p n,
    compileFilterAt shortEncoder (str "(" ++ (str "cn" ++ str "=" ++ str "a**\\2a" ++ ch ')' :: [])) 1 1 =
        some ⟨some p, n, none⟩ ∧
      ∃ attr seq pat, p.tag = filterSubstrings ∧ p.children = [attr, seq] ∧ attr.data = str "cn" ∧ InPlace seq.children ∧
        conditionPattern (str "a**\\2a") = some pat ∧ ∀ x, SubstringsMatch seq.children x ↔ Wildcard.Matches pat x :=
  ⟨_, _, rfl, substringsMatch_iff_pattern shortEncoder (str "(") [] (str "cn") (str "a**\\2a") 1 _ _
    ⟨by decide +kernel, by decide +kernel, by decide +kernel, by decide +kernel⟩ (by decide) (by decide) rfl⟩

end GoLdap
