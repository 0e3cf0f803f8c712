import GoLdap.Filter.Model

/-!
# Filter.Escape — what `EscapeFilter` writes

* `decodeEscapedSymbols_escapeFilter`: unescaping undoes escaping, for every byte string.
* `decodeEscapedSymbols_of_readable`: a text without escapes is its own value, if the decoder can read it.
* `decodesAs_of_decodeEscapedSymbols`: a text that is unescaped was read as `DecodesAs` says.
* `mem_escapeFilter`: an escaped string is ASCII without parentheses and asterisks.
-/

namespace GoLdap

open Go Ber

/-! ## Escaping -/

private theorem flatMap_escapeByte_self : ∀ {v : GoString}, v.countP mustEscape = 0 → v.flatMap escapeByte = v
  | [], _ => rfl
  | c :: v, h => by
    rw [List.countP_eq_zero] at h
    have hc : ¬ mustEscape c = true := h c (by simp)
    have hv : v.countP mustEscape = 0 := List.countP_eq_zero.mpr fun x hx => h x (by simp [hx])
    rw [List.flatMap_cons, flatMap_escapeByte_self hv, escapeByte, if_neg hc, List.singleton_append]

/-- The early return of `EscapeFilter` is what the loop would give. -/
theorem escapeFilter_eq (v : GoString) : escapeFilter v = v.flatMap escapeByte := by
  unfold escapeFilter
  split_ifs with h
  · exact (flatMap_escapeByte_self h).symm
  · rfl

/-- A byte that needs no escape and does not close an item. -/
def IsPlain (b : UInt8) : Prop := b.toNat < 0x80 ∧ b ≠ ch ')' ∧ b ≠ ch '*'

instance (b : UInt8) : Decidable (IsPlain b) := inferInstanceAs (Decidable (_ ∧ _))

private theorem isPlain_table : ∀ c : UInt8, (escapeByte c).all (fun b => IsPlain b) = true ∧
    (mustEscape c = false → IsPlain c ∧ c ≠ ch '\\') := by
  decide +kernel

theorem mem_escapeFilter {v : GoString} {b : UInt8} (h : b ∈ escapeFilter v) : IsPlain b := by
  rw [escapeFilter_eq, List.mem_flatMap] at h
  obtain ⟨c, -, hb⟩ := h
  exact of_decide_eq_true (List.all_eq_true.mp (isPlain_table c).1 b hb)

theorem escapeFilter_ne_nil {v : GoString} (h : v ≠ []) : escapeFilter v ≠ [] := by
  obtain ⟨c, v, rfl⟩ := List.exists_cons_of_ne_nil h
  rw [escapeFilter_eq, List.flatMap_cons]
  unfold escapeByte
  split_ifs <;> simp

/-! ## Unescaping -/

theorem decodeEscapedLoop_hex (offset : ℕ) (c : UInt8) (s : GoString) :
    decodeEscapedLoop offset 0 (ch '\\' :: hexEncode c ++ s) = (c :: ·) <$> decodeEscapedLoop (offset + 1) 0 s := by
  rw [hexEncode, List.cons_append, List.cons_append, List.cons_append, List.nil_append, decodeEscapedLoop.eq_def]
  dsimp only
  rw [decodeRune_ascii (by decide), if_neg (by decide), if_pos rfl]
  dsimp only
  rw [hexDecodePair_hexDigit]
  rfl

theorem decodeEscapedLoop_ascii (offset : ℕ) {b : UInt8} (hb : b.toNat < 0x80) (hslash : b ≠ ch '\\') (s : GoString) :
    decodeEscapedLoop offset 0 (b :: s) = (b :: ·) <$> decodeEscapedLoop (offset + 1) 0 s := by
  have herr : b.toNat ≠ runeError := by
    rw [runeError]
    omega
  rw [decodeEscapedLoop.eq_def]
  dsimp only
  rw [decodeRune_ascii hb, if_neg herr, if_neg fun h => hslash (UInt8.toNat_inj.mp h), encodeRune_ascii hb]
  rfl

theorem decodeEscapedLoop_escapeByte (offset : ℕ) (c : UInt8) (s : GoString) :
    decodeEscapedLoop offset 0 (escapeByte c ++ s) = (c :: ·) <$> decodeEscapedLoop (offset + 1) 0 s := by
  unfold escapeByte
  split_ifs with hc
  · exact decodeEscapedLoop_hex offset c s
  · obtain ⟨⟨hascii, -⟩, hslash⟩ := (isPlain_table c).2 (by simpa using hc)
    exact decodeEscapedLoop_ascii offset hascii hslash s

theorem decodeEscapedLoop_flatMap : ∀ (v : GoString) (offset : ℕ),
    decodeEscapedLoop offset 0 (v.flatMap escapeByte) = .ok v
  | [], _ => rfl
  | c :: v, offset => by
    rw [List.flatMap_cons, decodeEscapedLoop_escapeByte, decodeEscapedLoop_flatMap v]
    rfl

/-- Unescaping undoes escaping. -/
theorem decodeEscapedSymbols_escapeFilter (v : GoString) : decodeEscapedSymbols (escapeFilter v) = .ok v := by
  rw [escapeFilter_eq]
  exact decodeEscapedLoop_flatMap v 0

theorem decodeEscapedLoop_skip (offset : ℕ) (p s : GoString) :
    decodeEscapedLoop offset p.length (p ++ s) = decodeEscapedLoop offset 0 s := by
  induction p with
  | nil => rfl
  | cons b p ih => rw [List.length_cons, List.cons_append, decodeEscapedLoop, ih]

/-- A code point outside of ASCII is written back as it was read. -/
theorem decodeEscapedLoop_wide (offset : ℕ) {r : ℕ} (hv : ValidRune r) (hr : 0x80 ≤ r) (hne : r ≠ runeError)
    (s : GoString) : decodeEscapedLoop offset 0 (encodeRune r ++ s) =
      (encodeRune r ++ ·) <$> decodeEscapedLoop (offset + (encodeRune r).length) 0 s := by
  have hdecode := decodeRune_encodeRune hv s
  have hslash : r ≠ (ch '\\').toNat := by
    have : (ch '\\').toNat < 0x80 := by decide
    omega
  obtain ⟨b, p, hbp⟩ := List.exists_cons_of_ne_nil (encodeRune_ne_nil r)
  rw [hbp, List.cons_append] at hdecode ⊢
  rw [decodeEscapedLoop.eq_def]
  dsimp only
  rw [hdecode, if_neg hne, if_neg hslash, hbp]
  dsimp only
  rw [List.length_cons, Nat.add_sub_cancel, decodeEscapedLoop_skip]

/-- A text without escapes stays as it is. -/
theorem decodeEscapedSymbols_of_readable {v : GoString} (hread : Readable v) (hslash : ch '\\' ∉ v) :
    decodeEscapedSymbols v = .ok v := by
  suffices ∀ offset, decodeEscapedLoop offset 0 v = .ok v from this 0
  induction hread with
  | nil => exact fun _ => rfl
  | @ascii b s hb _ ih =>
    intro offset
    rw [List.mem_cons, not_or] at hslash
    rw [decodeEscapedLoop_ascii offset hb (Ne.symm hslash.1), ih hslash.2]
    rfl
  | @wide r s hv hr hne _ ih =>
    intro offset
    rw [List.mem_append, not_or] at hslash
    rw [decodeEscapedLoop_wide offset hv hr hne, ih hslash.2]
    rfl

/-- What unescaping is meant to do: an escape becomes its byte, every other byte stays. -/
inductive DecodesAs : GoString → GoString → Prop
  | nil : DecodesAs [] []
  | byte {b : UInt8} {s v : GoString} (hb : b ≠ ch '\\') (h : DecodesAs s v) : DecodesAs (b :: s) (b :: v)
  | escape {hi lo c : UInt8} {s v : GoString} (hc : hexDecodePair hi lo = some c) (h : DecodesAs s v) :
      DecodesAs (ch '\\' :: hi :: lo :: s) (c :: v)

theorem DecodesAs.append_left {p s v : GoString} (hp : ch '\\' ∉ p) (h : DecodesAs s v) :
    DecodesAs (p ++ s) (p ++ v) := by
  induction p with
  | nil => exact h
  | cons b p ih =>
    rw [List.mem_cons, not_or] at hp
    exact .byte (Ne.symm hp.1) (ih hp.2)

theorem decodesAs_of_decodeEscapedLoop {offset : ℕ} {s v : GoString} (h : decodeEscapedLoop offset 0 s = .ok v) :
    DecodesAs s v := by
  induction hn : s.length using Nat.strong_induction_on generalizing offset s v with
  | _ n ih =>
    subst hn
    rcases decodeRune_cases s with herr | ⟨b, t, hb, rfl⟩ | ⟨r, t, hv, hr, hne, rfl⟩
    · cases s with
      | nil =>
        cases h
        exact .nil
      | cons b t =>
        rw [decodeEscapedLoop.eq_def] at h
        dsimp only at h
        rw [if_pos herr] at h
        cases h
    · by_cases hslash : b = ch '\\'
      · subst hslash
        rw [decodeEscapedLoop.eq_def] at h
        dsimp only at h
        rw [decodeRune_ascii hb, if_neg (by decide), if_pos rfl] at h
        rcases t with _ | ⟨hi, _ | ⟨lo, t⟩⟩
        · cases h
        · cases h
        · dsimp only at h
          cases hpair : hexDecodePair hi lo with
          | none =>
            rw [hpair] at h
            cases h
          | some c =>
            rw [hpair] at h
            obtain ⟨w, hw, rfl⟩ := except_map_eq_ok.mp h
            have hw' := (decodeEscapedLoop_skip _ [hi, lo] t).symm.trans hw
            exact .escape hpair (ih t.length (by simp; omega) hw' rfl)
      · rw [decodeEscapedLoop_ascii offset hb hslash] at h
        obtain ⟨w, hw, rfl⟩ := except_map_eq_ok.mp h
        exact .byte hslash (ih t.length (by simp) hw rfl)
    · rw [decodeEscapedLoop_wide offset hv hr hne] at h
      obtain ⟨w, hw, rfl⟩ := except_map_eq_ok.mp h
      have hlen : 0 < (encodeRune r).length := List.length_pos_iff.mpr (encodeRune_ne_nil r)
      refine (ih t.length (by rw [List.length_append]; omega) hw rfl).append_left fun hmem => ?_
      -- the bytes of the code point are outside of ASCII
      exact absurd (encodeRune_wide hv hr _ hmem) (by decide)

theorem decodesAs_of_decodeEscapedSymbols {s v : GoString} (h : decodeEscapedSymbols s = .ok v) : DecodesAs s v :=
  decodesAs_of_decodeEscapedLoop h

/-! ## Names -/

/-- The characters that may not occur in an attribute name or a matching rule. -/
def reservedBytes : GoString :=
  [0, ch '(', ch ')', ch '*', ch '\\', ch '=', ch ':', ch '<', ch '>', ch '~', ch '&', ch '|', ch '!']

/-- An attribute name or a matching rule as it can stand in a filter. -/
def FilterName (s : GoString) : Prop := s ≠ [] ∧ ∀ b ∈ s, b.toNat < 0x80 ∧ b ∉ reservedBytes

instance (s : GoString) : Decidable (FilterName s) :=
  @instDecidableAnd _ _ _ (List.decidableBAll (fun b : UInt8 => b.toNat < 0x80 ∧ b ∉ reservedBytes) s)

private theorem name_table : ∀ b : UInt8, b.toNat < 0x80 → b ∉ reservedBytes →
    mustEscape b = false ∧ IsPlain b := by
  decide +kernel

theorem escapeFilter_name {s : GoString} (h : FilterName s) : escapeFilter s = s := by
  refine if_pos (List.countP_eq_zero.mpr fun b hb => ?_)
  have hb' := (name_table b (h.2 b hb).1 (h.2 b hb).2).1
  simp [hb']

end GoLdap
