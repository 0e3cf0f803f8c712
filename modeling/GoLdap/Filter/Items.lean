import GoLdap.Filter.Compile

/-!
# Filter.Items — what the compiler reads as one item

An item is a text without a closing parenthesis.  The scanner takes the bytes up to the first operator for the
attribute; behind a colon it looks for the flag `dn`, a matching rule and `:=`, all of which may be missing.  `ItemForm`
lists the forms a text can have, with the state the scanner ends in.

* `scan_eq_close`: the text of an item ends at the first closing parenthesis.
* `exists_itemForm`: every text has a form, and `ItemForm.scan_eq`: the form says what the scanner does.
* `compileItem_eq_ok`: what was compiled has been read from such a text.
-/

namespace GoLdap

open Go Ber

/-! ## The end of an item -/

/-- So many bytes at the front of the text are ASCII and do not close the item. -/
def Advance (text : GoString) (n : ℕ) : Prop :=
  ∃ p rest, text = p ++ rest ∧ p.length = n ∧ p ≠ [] ∧ IsAscii p ∧ ch ')' ∉ p

theorem advance_of_isPrefixOf {text op : GoString} (h : op.isPrefixOf text = true)
    (hop : op ≠ [] ∧ IsAscii op ∧ ch ')' ∉ op) : Advance text op.length := by
  obtain ⟨rest, hrest⟩ := List.isPrefixOf_iff_prefix.mp h
  exact ⟨op, rest, hrest.symm, rfl, hop⟩

theorem advance_ite {text : GoString} {c : Prop} [Decidable c] {x y : Scan × ℕ} (hx : c → Advance text x.2)
    (hy : Advance text y.2) : Advance text (if c then x else y).2 := by
  by_cases h : c
  · rw [if_pos h]
    exact hx h
  · rwa [if_neg h]

/-- One turn of the loop on an ASCII byte advances over ASCII bytes. -/
theorem advance_step (s : Scan) {b : UInt8} (hascii : b.toNat < 0x80) (hclose : b ≠ ch ')') (rest : GoString) :
    Advance (b :: rest) (s.step b.toNat 1 (b :: rest)).2 := by
  have hone : Advance (b :: rest) 1 :=
    ⟨[b], rest, rfl, rfl, by simp, by simpa [IsAscii] using hascii, by simpa using Ne.symm hclose⟩
  unfold Scan.step
  cases s.state with
  | readingAttr =>
    refine advance_ite (fun h => advance_of_isPrefixOf h.2 (by decide)) ?_
    refine advance_ite (fun h => advance_of_isPrefixOf h.2 (by decide)) ?_
    refine advance_ite (fun h => advance_of_isPrefixOf h.2 (by decide)) ?_
    refine advance_ite (fun _ => hone) (advance_ite (fun _ => hone) ?_)
    refine advance_ite (fun h => advance_of_isPrefixOf h.2 (by decide)) ?_
    refine advance_ite (fun h => advance_of_isPrefixOf h.2 (by decide)) ?_
    exact advance_ite (fun h => advance_of_isPrefixOf h.2 (by decide)) hone
  | readingExtensibleMatchingRule => exact advance_ite (fun h => advance_of_isPrefixOf h.2 (by decide)) hone
  | readingCondition => exact hone

/-- The scanner stops at the first closing parenthesis behind a readable text. -/
theorem scan_eq_close {s t : Scan} {pos n : ℕ} {rest : GoString} (h : scan s pos 0 rest = .close t n) :
    ∃ text suf, rest = text ++ ch ')' :: suf ∧ Readable text ∧ ch ')' ∉ text ∧ n = pos + text.length := by
  induction hk : rest.length using Nat.strong_induction_on generalizing s pos rest with
  | _ k ih =>
    subst hk
    rcases decodeRune_cases rest with herr | ⟨b, rest, hb, rfl⟩ | ⟨r, rest, hv, hr, hne, rfl⟩
    · -- nothing readable: the loop ends with an error
      rcases rest with _ | ⟨b, rest⟩
      · simp [scan] at h
      · rw [scan, herr, if_neg (by decide), if_pos rfl] at h
        cases h
    · by_cases hclose : b = ch ')'
      · subst hclose
        rw [scan_close] at h
        exact ⟨[], rest, rfl, .nil, by simp, (ScanEnd.close.inj h).2.symm⟩
      · obtain ⟨p, rest', hp, hlen, hne, hascii, hpclose⟩ := advance_step s hb hclose rest
        rw [scan_step hb hclose] at h
        obtain ⟨c, p, rfl⟩ := List.exists_cons_of_ne_nil hne
        rw [List.cons_append] at hp
        obtain ⟨rfl, rfl⟩ := List.cons.inj hp
        rw [← hlen, List.length_cons, Nat.add_sub_cancel, scan_skip] at h
        have hlt : rest'.length < (b :: (p ++ rest')).length := by
          rw [List.length_cons, List.length_append]
          omega
        obtain ⟨text, suf, rfl, hread, htext, rfl⟩ := ih rest'.length hlt h rfl
        refine ⟨b :: p ++ text, suf, by simp, (Readable.of_isAscii hascii).append hread, ?_, ?_⟩
        · rw [List.mem_append, not_or]
          exact ⟨hpclose, htext⟩
        · rw [List.length_append, List.length_cons]
          omega
    · rw [scan_wide hv hr hne] at h
      have hpos := List.length_pos_of_ne_nil (encodeRune_ne_nil r)
      have hlt : rest.length < (encodeRune r ++ rest).length := by
        rw [List.length_append]
        omega
      obtain ⟨text, suf, rfl, hread, htext, rfl⟩ := ih rest.length hlt h rfl
      refine ⟨encodeRune r ++ text, suf, by simp, .wide hv hr hne hread, ?_, ?_⟩
      · rw [List.mem_append, not_or]
        refine ⟨fun hmem => ?_, htext⟩
        have := encodeRune_wide hv hr _ hmem
        exact absurd this (by decide)
      · rw [List.length_append]
        omega

/-! ## The attribute -/

/-- An operator stands at the front. -/
def startsOperator : GoString → Bool
  | [] => false
  | b :: s => b = ch ':' ∨ b = ch '=' ∨ (b ∈ [ch '>', ch '<', ch '~'] ∧ s.head? = some (ch '='))

theorem startsOperator_cons {b : UInt8} {s : GoString} : startsOperator (b :: s) = true ↔
    b = ch ':' ∨ b = ch '=' ∨ (b ∈ [ch '>', ch '<', ch '~'] ∧ s.head? = some (ch '=')) :=
  decide_eq_true_iff

/-- The bytes of an item up to the first operator. -/
def itemAttr : GoString → GoString
  | [] => []
  | b :: s => if startsOperator (b :: s) then [] else b :: itemAttr s

theorem itemAttr_append {a rest : GoString} (h : AttrText a rest) (hrest : startsOperator rest = true) :
    itemAttr (a ++ rest) = a := by
  obtain ⟨-, -, hcolon, heq, hlast⟩ := h
  induction a with
  | nil =>
    rcases rest with _ | ⟨b, rest⟩
    · cases hrest
    · exact if_pos hrest
  | cons b a ih =>
    simp only [List.mem_cons, not_or] at hcolon heq
    have hnext : (a ++ rest).head? = some (ch '=') → b ∉ [ch '>', ch '<', ch '~'] := by
      intro hhead
      rcases a with _ | ⟨c, a⟩
      · exact hlast hhead b (by simp)
      · simp only [List.cons_append, List.head?_cons, Option.some.injEq] at hhead
        exact absurd (by simp [hhead]) heq.2
    have hno : ¬ startsOperator (b :: (a ++ rest)) = true := by
      rw [startsOperator_cons]
      rintro (h | h | ⟨h, hhead⟩)
      · exact hcolon.1 h.symm
      · exact heq.1 h.symm
      · exact hnext hhead h
    rw [List.cons_append, itemAttr, if_neg hno, ih hcolon.2 heq.2]
    intro hhead c hc
    refine hlast hhead c ?_
    rcases a with _ | ⟨d, a⟩
    · simp at hc
    · simpa using hc

theorem itemAttr_split (text : GoString) : ∃ rest, text = itemAttr text ++ rest ∧ (rest = [] ∨ startsOperator rest = true) ∧
    ch ':' ∉ itemAttr text ∧ ch '=' ∉ itemAttr text ∧
    (rest.head? = some (ch '=') → ∀ b ∈ (itemAttr text).getLast?, b ∉ [ch '>', ch '<', ch '~']) := by
  induction text with
  | nil => exact ⟨[], rfl, .inl rfl, by simp [itemAttr], by simp [itemAttr], by simp⟩
  | cons b s ih =>
    by_cases hop : startsOperator (b :: s) = true
    · rw [itemAttr, if_pos hop]
      exact ⟨b :: s, rfl, .inr hop, by simp, by simp, by simp⟩
    · obtain ⟨rest, hs, hrest, hcolon, heq, hlast⟩ := ih
      rw [itemAttr, if_neg hop]
      rw [startsOperator_cons, not_or, not_or] at hop
      refine ⟨rest, by rw [List.cons_append, ← hs], hrest, ?_, ?_, ?_⟩
      · exact List.not_mem_cons_of_ne_of_not_mem (Ne.symm hop.1) hcolon
      · exact List.not_mem_cons_of_ne_of_not_mem (Ne.symm hop.2.1) heq
      · intro hhead c hc
        cases ha : itemAttr s with
        | nil =>
          -- the byte stands right before the equals sign
          rw [ha, List.nil_append] at hs
          rw [ha, List.getLast?_singleton, Option.mem_def, Option.some.injEq] at hc
          rw [← hs] at hhead
          subst hc
          exact fun hmem => hop.2.2 ⟨hmem, hhead⟩
        | cons d a =>
          rw [ha] at hlast hc
          exact hlast hhead c (by simpa using hc)

/-- Every item text is an attribute, and either nothing or an operator behind it. -/
theorem exists_attrText {text : GoString} (hread : Readable text) (hclose : ch ')' ∉ text) :
    ∃ rest, text = itemAttr text ++ rest ∧ AttrText (itemAttr text) rest ∧
      (rest = [] ∨ startsOperator rest = true) := by
  obtain ⟨rest, htext, hrest, hcolon, heq, hlast⟩ := itemAttr_split text
  refine ⟨rest, htext, ⟨?_, fun h => hclose (by rw [htext]; simp [h]), hcolon, heq, hlast⟩, hrest⟩
  rcases rest with _ | ⟨b, rest⟩
  · rw [List.append_nil] at htext
    rwa [← htext]
  · rw [htext] at hread
    refine (hread.of_append_cons ?_).1
    have hop := hrest.resolve_left (by simp)
    rw [startsOperator_cons] at hop
    simp only [List.mem_cons, List.not_mem_nil, or_false] at hop
    rcases hop with rfl | rfl | ⟨rfl | rfl | rfl, -⟩ <;> decide

/-! ## The matching rule -/

/-- The bytes up to `:=`. -/
def untilColonEq : GoString → GoString
  | [] => []
  | b :: s => if (str ":=").isPrefixOf (b :: s) then [] else b :: untilColonEq s

/-- What may follow a matching rule: nothing, or `:=` and the condition. -/
def RuleEnd (tail : GoString) : Prop := tail = [] ∨ ∃ cond, tail = str ":=" ++ cond

theorem untilColonEq_split (text : GoString) : ∃ tail, text = untilColonEq text ++ tail ∧ RuleEnd tail ∧
    (untilColonEq text).IsChain fun b c => ¬ (b = ch ':' ∧ c = ch '=') := by
  induction text with
  | nil => exact ⟨[], rfl, .inl rfl, by simp [untilColonEq]⟩
  | cons b s ih =>
    by_cases hend : (str ":=").isPrefixOf (b :: s) = true
    · rw [untilColonEq, if_pos hend]
      obtain ⟨cond, hcond⟩ := List.isPrefixOf_iff_prefix.mp hend
      exact ⟨b :: s, rfl, .inr ⟨cond, hcond.symm⟩, by simp⟩
    · obtain ⟨tail, hs, htail, hchain⟩ := ih
      rw [untilColonEq, if_neg hend]
      refine ⟨tail, by rw [List.cons_append, ← hs], htail, ?_⟩
      cases hr : untilColonEq s with
      | nil => simp
      | cons c r =>
        rw [hr] at hchain hs
        refine List.isChain_cons_cons.mpr ⟨?_, hchain⟩
        rintro ⟨rfl, rfl⟩
        rw [hs] at hend
        exact hend (by simp [str, ch])

theorem untilColonEq_append {rule tail : GoString}
    (hchain : rule.IsChain fun b c => ¬ (b = ch ':' ∧ c = ch '=')) (htail : RuleEnd tail) :
    untilColonEq (rule ++ tail) = rule := by
  induction rule with
  | nil =>
    rcases htail with rfl | ⟨cond, rfl⟩
    · rfl
    · exact if_pos (List.isPrefixOf_iff_prefix.mpr ⟨cond, rfl⟩)
  | cons b rule ih =>
    have hno : ¬ (str ":=").isPrefixOf (b :: (rule ++ tail)) = true := by
      intro hpre
      obtain ⟨t, ht⟩ := List.isPrefixOf_iff_prefix.mp hpre
      obtain ⟨hb, ht⟩ := List.cons.inj ht
      rcases rule with _ | ⟨c, rule⟩
      · rcases htail with rfl | ⟨cond, rfl⟩
        · cases ht
        · exact absurd (List.cons.inj ht).1 (by decide)
      · exact (List.isChain_cons_cons.mp hchain).1 ⟨hb.symm, (List.cons.inj ht).1.symm⟩
    rw [List.cons_append, untilColonEq, if_neg hno, ih hchain.tail]

/-! ## The forms of an item -/

/-- The forms of an item text, with the state the scanner ends in. -/
inductive ItemForm : GoString → Scan → Prop
  | attr {a : GoString} (ha : AttrText a []) : ItemForm a { Scan.start with attr := a }
  | pair {a op cond : GoString} {tag : ℕ} (hop : (tag, op) ∈ pairOps) (ha : AttrText a op) :
      ItemForm (a ++ op ++ cond) ⟨some (filterPacket tag), .readingCondition, a, false, [], cond⟩
  | value {a cond : GoString} {dn : Bool} (ha : AttrText a (str ":")) :
      ItemForm (a ++ (colonMark dn ++ (str "=" ++ cond)))
        ⟨some (filterPacket filterExtensibleMatch), .readingCondition, a, dn, [], cond⟩
  | rule {a r cond : GoString} {dn : Bool} (ha : AttrText a (str ":")) (hr : RuleOf dn r) :
      ItemForm (a ++ (colonMark dn ++ (r ++ str ":=") ++ cond))
        ⟨some (filterPacket filterExtensibleMatch), .readingCondition, a, dn, r, cond⟩
  | openRule {a r : GoString} {dn : Bool} (ha : AttrText a (str ":")) (hr : RuleText r) (hhead : r.head? ≠ some (ch '='))
      (hdn : dn = false → ¬ str "dn:" <+: r) :
      ItemForm (a ++ (colonMark dn ++ r))
        ⟨some (filterPacket filterExtensibleMatch), .readingExtensibleMatchingRule, a, dn, r, []⟩

/-- The operator behind an attribute. -/
theorem startsOperator_cases {rest : GoString} (h : startsOperator rest = true) :
    (∃ tag op cond, (tag, op) ∈ pairOps ∧ rest = op ++ cond) ∨ ∃ r, rest = ch ':' :: r := by
  rcases rest with _ | ⟨b, rest⟩
  · cases h
  rw [startsOperator_cons] at h
  rcases h with rfl | rfl | ⟨hb, hhead⟩
  · exact .inr ⟨rest, rfl⟩
  · exact .inl ⟨filterEqualityMatch, str "=", rest, by simp [pairOps], rfl⟩
  · obtain ⟨c, cond, rfl⟩ : ∃ c cond, rest = c :: cond := by
      cases rest with
      | nil => cases hhead
      | cons c cond => exact ⟨c, cond, rfl⟩
    simp only [List.head?_cons, Option.some.injEq] at hhead
    subst hhead
    simp only [List.mem_cons, List.not_mem_nil, or_false] at hb
    rcases hb with rfl | rfl | rfl
    · exact .inl ⟨filterGreaterOrEqual, str ">=", cond, by simp [pairOps], rfl⟩
    · exact .inl ⟨filterLessOrEqual, str "<=", cond, by simp [pairOps], rfl⟩
    · exact .inl ⟨filterApproxMatch, str "~=", cond, by simp [pairOps], rfl⟩

/-- The colon behind an attribute is followed by the flag or not. -/
theorem exists_colonMark (r : GoString) :
    ∃ dn r', ch ':' :: r = colonMark dn ++ r' ∧ (dn = false → ¬ str "dn:" <+: r') := by
  by_cases hdn : str "dn:" <+: r
  · obtain ⟨r', rfl⟩ := hdn
    exact ⟨true, r', rfl, by simp⟩
  · exact ⟨false, r, rfl, fun _ => hdn⟩

theorem isAscii_colonMark (dn : Bool) : IsAscii (colonMark dn) := by
  cases dn <;> decide

theorem colonMark_ne_nil (dn : Bool) : colonMark dn ≠ [] := by
  cases dn <;> decide

theorem isAscii_pairOp {tag : ℕ} {op : GoString} (h : (tag, op) ∈ pairOps) : op ≠ [] ∧ IsAscii op ∧ ch ')' ∉ op := by
  simp only [pairOps, List.mem_cons, Prod.mk.injEq, List.not_mem_nil, or_false] at h
  rcases h with ⟨-, rfl⟩ | ⟨-, rfl⟩ | ⟨-, rfl⟩ | ⟨-, rfl⟩ <;> decide

theorem exists_itemForm {text : GoString} (hread : Readable text) (hclose : ch ')' ∉ text) :
    ∃ s, ItemForm text s ∧ s.attr = itemAttr text := by
  obtain ⟨rest, htext, ha, hrest⟩ := exists_attrText hread hclose
  generalize itemAttr text = a at htext ha
  subst htext
  rw [List.mem_append, not_or] at hclose
  rcases hrest with rfl | hop
  · exact ⟨_, by simpa using ItemForm.attr ha, rfl⟩
  rcases startsOperator_cases hop with ⟨tag, op, cond, hmem, rfl⟩ | ⟨r, rfl⟩
  · rw [← List.append_assoc]
    exact ⟨_, .pair hmem (ha.congr (head?_pairOp hmem cond).symm), rfl⟩
  · obtain ⟨dn, r', hr', hdn⟩ := exists_colonMark r
    have hread' : Readable r' := by
      rw [hr'] at hread
      exact (hread.of_append (colonMark_ne_nil dn) (isAscii_colonMark dn)).2
    have ha' : AttrText a (str ":") := ha.congr rfl
    have hclose' : ch ')' ∉ r' := fun h => hclose.2 (by rw [hr']; simp [h])
    rw [hr']
    by_cases hhead : r'.head? = some (ch '=')
    · obtain ⟨cond, rfl⟩ : ∃ cond, r' = str "=" ++ cond := by
        rcases r' with _ | ⟨b, cond⟩
        · cases hhead
        · exact ⟨cond, by rw [Option.some.inj hhead]; rfl⟩
      exact ⟨_, .value ha', rfl⟩
    · obtain ⟨tail, hsplit, htail, hchain⟩ := untilColonEq_split r'
      generalize untilColonEq r' = rule at hsplit hchain
      subst hsplit
      rw [List.mem_append, not_or] at hclose'
      rcases htail with rfl | ⟨cond, rfl⟩
      · rw [List.append_nil] at hread' hhead hdn ⊢
        exact ⟨_, .openRule ha' ⟨hread', hclose'.1, hchain⟩ hhead hdn, rfl⟩
      · have hr : RuleOf dn rule := by
          refine ⟨⟨(hread'.of_append_cons (by decide)).1, hclose'.1, hchain⟩, ?_, ?_⟩
          · rintro h
            rcases rule with _ | ⟨b, rule⟩
            · cases h
            · exact hhead h
          · exact fun hf hpre => hdn hf (hpre.trans ⟨cond, by simp⟩)
        rw [← List.append_assoc rule, ← List.append_assoc (colonMark dn)]
        exact ⟨_, .rule ha' hr, rfl⟩

private theorem head?_close_ne (suf : GoString) : (ch ')' :: suf).head? ≠ some (ch '=') := by
  show some (ch ')') ≠ some (ch '=')
  decide

private theorem prefix_of_prefix_append_cons {p r suf : GoString} {b : UInt8} (hb : b ∉ p) (h : p <+: r ++ b :: suf) :
    p <+: r := by
  rcases List.prefix_or_prefix_of_prefix h (List.prefix_append r _) with hpre | ⟨q, rfl⟩
  · exact hpre
  · rw [List.prefix_append_right_inj] at h
    rcases q with _ | ⟨c, q⟩
    · simp
    · rw [(List.cons_prefix_cons.mp h).1] at hb
      exact absurd (by simp) hb

/-- The form of an item says what the scanner does. -/
theorem ItemForm.scan_eq {text : GoString} {s : Scan} (h : ItemForm text s) (hread : Readable text)
    (hclose : ch ')' ∉ text) (pos : ℕ) (suf : GoString) :
    scan .start pos 0 (text ++ ch ')' :: suf) = .close s (pos + text.length) := by
  cases h with
  | attr ha =>
    rw [scan_attr rfl ⟨ha.readable, ha.close, ha.colon, ha.eq, fun h => absurd h (head?_close_ne suf)⟩, scan_close]
    rfl
  | @pair a op cond tag hop ha =>
    obtain ⟨hne, hascii, -⟩ := isAscii_pairOp hop
    rw [List.append_assoc] at hread
    simp only [List.mem_append, not_or] at hclose
    exact scan_pair hop ha (hread.of_append hne hascii).2 hclose.2 pos suf
  | @value a cond dn ha =>
    have hcond : Readable cond := by
      rw [← List.append_assoc (colonMark dn)] at hread
      refine (hread.of_append (by simp [str]) ?_).2
      exact isAscii_append.mpr ⟨isAscii_colonMark dn, by decide⟩
    simp only [List.mem_append, not_or] at hclose
    rw [List.append_assoc, scan_attr rfl (ha.congr (by simp only [List.append_assoc, head?_colonMark])), List.append_assoc,
      List.append_assoc, scan_mark_eq _ rfl _ _ rfl, scan_condition rfl hcond hclose.2.2.2]
    simp only [List.length_append, Nat.add_assoc]
    rfl
  | @rule a r cond dn ha hr =>
    have hcond : Readable cond := by
      rw [← List.append_assoc, ← List.append_assoc, ← List.append_assoc, List.append_assoc] at hread
      exact (hread.of_append (by decide) (by decide)).2
    simp only [List.mem_append, not_or] at hclose
    rw [List.append_assoc, scan_attr rfl (ha.congr (by simp only [List.append_assoc, head?_colonMark])), List.append_assoc,
      scan_rule_mark hr _ rfl rfl rfl, scan_condition rfl hcond hclose.2.2]
    simp only [List.length_append, Nat.add_assoc]
    rfl
  | @openRule a r dn ha hr hhead hdn =>
    have hhead' : (r ++ ch ')' :: suf).head? ≠ some (ch '=') := by
      cases r with
      | nil => exact head?_close_ne suf
      | cons b r => exact hhead
    have hdn' : dn = false → ¬ str "dn:" <+: r ++ ch ')' :: suf :=
      fun hf hpre => hdn hf (prefix_of_prefix_append_cons (by decide) hpre)
    rw [List.append_assoc, scan_attr rfl (ha.congr (by simp only [List.append_assoc, head?_colonMark])), List.append_assoc,
      scan_mark _ rfl _ _ rfl dn hhead' hdn', scan_rule rfl hr (head?_close_ne suf), scan_close]
    simp only [List.length_append, Nat.add_assoc]
    rfl

/-- What the compiler makes of an item has been read from a text up to the closing parenthesis. -/
theorem compileItem_eq_ok {E : Encoder} {filter : GoString} {pos n : ℕ} {p : Packet}
    (h : compileItem E filter pos = ⟨some p, n, none⟩) :
    ∃ text s packet, filter.drop pos = text ++ ch ')' :: filter.drop n ∧ Readable text ∧ ch ')' ∉ text ∧
      ItemForm text s ∧ s.packet = some packet ∧ buildItem E s packet = (p, none) := by
  unfold compileItem at h
  split at h
  · simp at h
  · simp at h
  · rename_i s newPos hscan
    obtain ⟨text, suf, htext, hread, hclose, rfl⟩ := scan_eq_close hscan
    obtain ⟨s', hform, -⟩ := exists_itemForm hread hclose
    rw [htext, hform.scan_eq hread hclose] at hscan
    obtain ⟨rfl, -⟩ := ScanEnd.close.inj hscan
    split at h
    · simp at h
    · rename_i packet hpacket
      split at h
      · simp at h
      · rename_i q hbuild
        simp only [Compiled.mk.injEq, Option.some.injEq, and_true] at h
        obtain ⟨rfl, rfl⟩ := h
        have hdrop : filter.drop (pos + text.length + 1) = suf := by
          rw [Nat.add_assoc, ← List.drop_drop, htext, List.drop_append]
          simp
        exact ⟨text, s', packet, by rw [hdrop, htext], hread, hclose, hform, hpacket, hbuild⟩

end GoLdap
