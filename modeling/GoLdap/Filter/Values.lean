import GoLdap.Filter.Items
import GoLdap.Filter.RoundTrip

/-!
# Filter.Values — raw and escaped values

A value may stand in a filter as it is or escaped.  Both texts are read as the same value, by one lemma about conditions
that are one value (`compileFilter_valueFilter`), with one exception: the scanner takes the code point U+FFFD for a
decoding error, also where its three bytes are in the text.  So a raw value is read exactly if it is `Readable`.
-/

namespace GoLdap

open Go Ber

/-- Letters, digits, `-`, `.` and `;`. -/
def IsNameByte (b : UInt8) : Prop :=
  (ch 'a' ≤ b ∧ b ≤ ch 'z') ∨ (ch 'A' ≤ b ∧ b ≤ ch 'Z') ∨ (ch '0' ≤ b ∧ b ≤ ch '9') ∨ b ∈ [ch '-', ch '.', ch ';']

instance (b : UInt8) : Decidable (IsNameByte b) := inferInstanceAs (Decidable (_ ∨ _))

/-- An attribute name. -/
structure AttributeName (a : GoString) : Prop where
  ne_nil : a ≠ []
  bytes : ∀ b ∈ a, IsNameByte b

private theorem isNameByte_table : ∀ b : UInt8, IsNameByte b → b.toNat < 0x80 ∧ b ∉ reservedBytes := by
  decide +kernel

theorem AttributeName.filterName {a : GoString} (h : AttributeName a) : FilterName a :=
  ⟨h.ne_nil, fun b hb => isNameByte_table b (h.bytes b hb)⟩

theorem AttributeName.startsItem {a : GoString} (h : AttributeName a) (op cond : GoString) :
    StartsItem (a ++ op ++ cond) := by
  rw [List.append_assoc]
  exact h.filterName.startsItem _

/-- UTF-8 in which nothing has to be escaped for the grammar of filters. -/
structure PlainValue (v : GoString) : Prop where
  valid : ValidString v
  plain : ∀ b ∈ v, b ∉ [ch '(', ch ')', ch '*', ch '\\', 0]

theorem PlainValue.not_mem {v : GoString} (h : PlainValue v) {b : UInt8} (hb : b ∈ [ch '(', ch ')', ch '*', ch '\\', 0]) :
    b ∉ v :=
  fun hmem => h.plain b hmem hb

/-- The operators in front of a value, with the tags of their packets. -/
def valueOps : List (ℕ × GoString) := pairOps ++ [(filterExtensibleMatch, str ":=")]

theorem isAscii_valueOp {tag : ℕ} {op : GoString} (h : (tag, op) ∈ valueOps) : op ≠ [] ∧ IsAscii op := by
  rcases List.mem_append.mp h with h | h
  · obtain ⟨hne, hascii, -⟩ := isAscii_pairOp h
    exact ⟨hne, hascii⟩
  · cases List.mem_singleton.mp h
    decide

/-- The filter `(attribute operator condition)`. -/
def valueFilter (a op cond : GoString) : GoString := ch '(' :: (a ++ op ++ cond) ++ [ch ')']

/-- The packet of an attribute and a value. -/
def valuePacket (E : Encoder) (tag : ℕ) (a v : GoString) : Packet :=
  if tag = filterExtensibleMatch then
    appendAll E (filterPacket filterExtensibleMatch) ((⟨a, false, [], v⟩ : MatchingRuleAssertion).children E)
  else pairPacket E tag a v

section

variable {E : Encoder}

/-- `CompileFilter` on one item is the compiler of items. -/
theorem compileFilter_item_iff {text : GoString} (htext : StartsItem text) {p : Packet} :
    compileFilter E (ch '(' :: text ++ [ch ')']) = some (.ok (some p)) ↔
      compileItem E (ch '(' :: text ++ [ch ')']) 1 = ⟨some p, 1 + text.length + 1, none⟩ := by
  obtain ⟨b, rest, rfl, hascii, hne⟩ := htext
  have hcall := compileFilterAt_item E [ch '('] (rest ++ [ch ')']) ((ch '(' :: (b :: rest) ++ [ch ')']).length + 1) hascii
    hne
  unfold compileFilter compileFilterFuel
  rw [if_neg (by simp)]
  rw [List.length_singleton] at hcall
  have hcall' : compileFilterAt E (ch '(' :: (b :: rest) ++ [ch ')']) ((ch '(' :: (b :: rest) ++ [ch ')']).length + 2) 1 =
      some (compileItem E (ch '(' :: (b :: rest) ++ [ch ')']) 1) := hcall
  rw [hcall']
  have hlen : (ch '(' :: (b :: rest) ++ [ch ')']).length = 1 + (b :: rest).length + 1 := by
    simp only [List.length_append, List.length_cons, List.length_nil]
    omega
  rcases compileItem E (ch '(' :: (b :: rest) ++ [ch ')']) 1 with ⟨packet, pos, _ | e⟩
  · dsimp only
    rw [hlen]
    split_ifs with hlt hgt
    · simp only [reduceCtorEq, Option.some.injEq, Compiled.mk.injEq, false_iff, and_true, not_and]
      omega
    · simp only [reduceCtorEq, Option.some.injEq, Compiled.mk.injEq, false_iff, and_true, not_and]
      omega
    · have hpos : pos = 1 + (b :: rest).length + 1 := by omega
      simp [hpos]
  · simp

/-- A condition that is read as one value. -/
theorem compileFilter_valueFilter {tag : ℕ} {a op cond v : GoString} (ha : AttributeName a) (hop : (tag, op) ∈ valueOps)
    (hcond : ValueText cond v) : compileFilter E (valueFilter a op cond) = some (.ok (some (valuePacket E tag a v))) := by
  have hname := ha.filterName
  rw [valueFilter, compileFilter_item_iff (ha.startsItem op cond)]
  rcases List.mem_append.mp hop with hop | hop
  · have hitem := compileItem_pair_value E hop (hname.attrText op) hcond [ch '('] []
    have htag : tag ≠ filterExtensibleMatch := by
      rintro rfl
      exact absurd hop (by simp [pairOps, filterExtensibleMatch, filterEqualityMatch, filterGreaterOrEqual,
        filterLessOrEqual, filterApproxMatch])
    rw [valuePacket, if_neg htag]
    exact hitem
  · cases List.mem_singleton.mp hop
    rw [valuePacket, if_pos rfl]
    have hrule : RuleOf false [] := ⟨⟨.nil, by simp, by simp⟩, by simp, by decide⟩
    exact compileItem_extensible_value E ⟨a, false, [], v⟩ (hname.attrText _) hrule hcond [ch '('] []

/-- The scanner reads a raw value to its end only if it is readable. -/
theorem readable_of_compileFilter {tag : ℕ} {a op v : GoString} {p : Packet} (ha : AttributeName a)
    (hop : (tag, op) ∈ valueOps) (h : compileFilter E (valueFilter a op v) = some (.ok (some p))) : Readable v := by
  rw [valueFilter, compileFilter_item_iff (ha.startsItem op v)] at h
  obtain ⟨text, s, packet, htext, hread, -⟩ := compileItem_eq_ok h
  have hend : (ch '(' :: (a ++ op ++ v) ++ [ch ')']).drop (1 + (a ++ op ++ v).length + 1) = [] := by
    refine List.drop_eq_nil_of_le ?_
    simp only [List.length_append, List.length_cons, List.length_nil]
    omega
  rw [hend] at htext
  obtain rfl : a ++ op ++ v = text := (List.append_inj' htext rfl).1
  obtain ⟨hne, hascii⟩ := isAscii_valueOp hop
  rw [List.append_assoc] at hread
  exact (hread.of_append hne hascii).2

end

/-- A raw value and the escaped one compile to the same packet exactly if the value has no U+FFFD. -/
theorem compileFilter_raw_iff (E : Encoder) (a v : GoString) (ha : AttributeName a) (hv : PlainValue v) (tag : ℕ)
    (op : GoString) (hop : (tag, op) ∈ valueOps) :
    (compileFilter E (valueFilter a op v) = some (.ok (some (valuePacket E tag a v))) ∧
      compileFilter E (valueFilter a op (escapeFilter v)) = some (.ok (some (valuePacket E tag a v)))) ↔
      runeError ∉ runes v := by
  constructor
  · rintro ⟨hraw, -⟩
    exact (readable_iff.mp (readable_of_compileFilter ha hop hraw)).2
  · intro herr
    have hread : Readable v := readable_iff.mpr ⟨hv.valid, herr⟩
    have hslash : ch '\\' ∉ v := hv.not_mem (by simp)
    have htext : ValueText v v := by
      refine ⟨hread, hv.not_mem (by simp), hv.not_mem (by simp), ?_⟩
      exact decodeEscapedSymbols_of_readable hread hslash
    exact ⟨compileFilter_valueFilter ha hop htext, compileFilter_valueFilter ha hop (valueText_escapeFilter v)⟩

/-- `(cn~=é)`. -/
theorem compileFilter_raw_approx :
    compileFilter shortEncoder (valueFilter (str "cn") (str "~=") [0xC3, 0xA9]) =
        some (.ok (some (valuePacket shortEncoder filterApproxMatch (str "cn") [0xC3, 0xA9]))) ∧
      compileFilter shortEncoder (valueFilter (str "cn") (str "~=") (escapeFilter [0xC3, 0xA9])) =
        some (.ok (some (valuePacket shortEncoder filterApproxMatch (str "cn") [0xC3, 0xA9]))) :=
  (compileFilter_raw_iff shortEncoder (str "cn") [0xC3, 0xA9] ⟨by decide, by decide +kernel⟩
    ⟨by decide +kernel, by decide +kernel⟩ filterApproxMatch (str "~=") (by decide)).mpr (by decide)

/-- The value U+FFFD in UTF-8 is an error, its escaped form is not. -/
theorem compileFilter_raw_replacement : AttributeName (str "cn") ∧ PlainValue [0xEF, 0xBF, 0xBD] ∧
    compileFilter shortEncoder (valueFilter (str "cn") (str "=") [0xEF, 0xBF, 0xBD]) =
      some (.error (compileError (.fmtNum "ldap: error reading rune at position %d" 4))) ∧
    compileFilter shortEncoder (valueFilter (str "cn") (str "=") (escapeFilter [0xEF, 0xBF, 0xBD])) =
      some (.ok (some (valuePacket shortEncoder filterEqualityMatch (str "cn") [0xEF, 0xBF, 0xBD]))) :=
  ⟨⟨by decide, by decide +kernel⟩, ⟨by decide +kernel, by decide +kernel⟩, rfl, rfl⟩

end GoLdap
