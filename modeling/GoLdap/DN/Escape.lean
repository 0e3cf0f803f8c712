import GoLdap.DN.Grammar

/-!
# DN.Escape — what `encodeString` writes and how it is read back

`encodeString` writes one of three things for a byte: the byte, the byte behind a backslash, or two hexadecimal digits
behind a backslash (`encodeChar_cases`).  Every reader of escaped text is followed through these three shapes:

* `decodeString` gives the byte back (`unescapes_encodeChar`), whatever the byte;
* `stripLeadingAndTrailingSpaces` changes nothing, because a space at either end is escaped (`strip_encodeString`);
* nothing in it cuts a name or ends a type (`free_encodeChar`).
-/

namespace GoLdap

open Go Escaped

/-! ## The three shapes -/

/-- Printable ASCII without the characters that are always escaped. -/
def PlainChar (c : UInt8) : Prop :=
  0x20 ≤ c ∧ c ≤ 0x7E ∧ c ∉ [ch '"', ch '+', ch ',', ch ';', ch '<', ch '>', ch '\\']

instance (c : UInt8) : Decidable (PlainChar c) := inferInstanceAs (Decidable (_ ∧ _))

theorem isEscapable_of_special {c : UInt8}
    (h : [ch '"', ch '+', ch ',', ch ';', ch '<', ch '>', ch '\\'].contains c = true) :
    isEscapable c.toNat = true := by
  revert h
  revert c
  decide +kernel

theorem encodeChar_cases (isValue first last : Bool) (c : UInt8) :
    (encodeChar isValue first last c = [c] ∧ PlainChar c ∧ (c = ch ' ' → first = false ∧ last = false) ∧
      (c = ch '#' → first = false) ∧ (c = ch '=' → isValue = true)) ∨
    (encodeChar isValue first last c = [ch '\\', c] ∧ isEscapable c.toNat = true) ∨
    (encodeChar isValue first last c = ch '\\' :: hexEncode c ∧ (c < ch ' ' ∨ ch '~' < c)) := by
  unfold encodeChar escapeChar escapeHex
  split_ifs with h1 h2 h3 h4 h5
  · refine Or.inr (Or.inl ⟨rfl, ?_⟩)
    simp only [Bool.and_eq_true, Bool.or_eq_true, beq_iff_eq] at h1
    rcases h1.2 with rfl | rfl <;> decide
  · refine Or.inr (Or.inl ⟨rfl, ?_⟩)
    simp only [Bool.and_eq_true, beq_iff_eq] at h2
    rw [h2.2]
    decide
  · exact Or.inr (Or.inl ⟨rfl, isEscapable_of_special h3⟩)
  · refine Or.inr (Or.inl ⟨rfl, ?_⟩)
    simp only [Bool.and_eq_true, beq_iff_eq] at h4
    rw [h4.2]
    decide
  · exact Or.inr (Or.inr ⟨rfl, by simpa using h5⟩)
  · refine Or.inl ⟨rfl, ⟨?_, ?_, ?_⟩, ?_, ?_, ?_⟩
    · have h : ¬ c < ch ' ' := fun h => h5 (by simp [h])
      exact UInt8.not_lt.mp h
    · have h : ¬ ch '~' < c := fun h => h5 (by simp [h])
      exact UInt8.not_lt.mp h
    · simpa using h3
    · rintro rfl
      exact ⟨by simpa using h1, by simpa using h2⟩
    · rintro rfl
      simpa [show ¬ ch '#' = ch ' ' by decide] using h1
    · rintro rfl
      simpa using h4

/-! ## Byte tables -/

theorem plainChar_table {c : UInt8} (h : PlainChar c) : c.toNat < 0x80 ∧ c.toNat ≠ rn '\\' ∧ c.toNat ≠ 0 ∧
    mustBeEscaped c.toNat = false ∧ c ≠ ch '\\' ∧ ¬ (c = ch ',' ∨ c = ch '+' ∨ c = ch ';') := by
  revert h
  revert c
  decide +kernel

theorem isEscapable_table {c : UInt8} (h : isEscapable c.toNat = true) : c.toNat < 0x80 := by
  revert h
  revert c
  decide +kernel

/-- A hexadecimal digit is no escapable character and no separator. -/
theorem hexDigit_table {d : UInt8} (h : 0x30 ≤ d ∧ d ≤ 0x66) (h' : fromHexChar d ≠ none) : d.toNat < 0x80 ∧
    isEscapable d.toNat = false ∧ d ≠ ch '\\' ∧ d ≠ ch '=' ∧ ¬ (d = ch ',' ∨ d = ch '+' ∨ d = ch ';') ∧ d ≠ ch ' ' := by
  revert h h'
  revert d
  decide +kernel

theorem hexDigits_ne_none (c : UInt8) :
    fromHexChar (hexDigit (c / 16)) ≠ none ∧ fromHexChar (hexDigit (c % 16)) ≠ none := by
  revert c
  decide +kernel

theorem hexDigits_table (c : UInt8) : ∀ d ∈ hexEncode c, d.toNat < 0x80 ∧ isEscapable d.toNat = false ∧ d ≠ ch '\\' ∧
    d ≠ ch '=' ∧ ¬ (d = ch ',' ∨ d = ch '+' ∨ d = ch ';') ∧ d ≠ ch ' ' := by
  intro d hd
  have hr := hexDigit_range c
  have hn := hexDigits_ne_none c
  rw [hexEncode, List.mem_cons, List.mem_singleton] at hd
  rcases hd with rfl | rfl
  · exact hexDigit_table hr.1 hn.1
  · exact hexDigit_table hr.2 hn.2

theorem encodeChar_ascii (isValue first last : Bool) (c : UInt8) : IsAscii (encodeChar isValue first last c) := by
  rcases encodeChar_cases isValue first last c with ⟨h, hp, -⟩ | ⟨h, he⟩ | ⟨h, -⟩ <;> rw [h] <;> intro d hd
  · rw [List.mem_singleton] at hd
    subst hd
    exact (plainChar_table hp).1
  · rw [List.mem_cons, List.mem_singleton] at hd
    rcases hd with rfl | rfl
    · decide
    · exact isEscapable_table he
  · rw [List.mem_cons] at hd
    rcases hd with rfl | hd
    · decide
    · exact (hexDigits_table c d hd).1

theorem encodeLoop_ascii (isValue : Bool) : ∀ (first : Bool) (v : GoString), IsAscii (encodeLoop isValue first v)
  | _, [] => by simp [encodeLoop, IsAscii]
  | first, c :: v => by
    rw [encodeLoop, isAscii_append]
    exact ⟨encodeChar_ascii _ _ _ _, encodeLoop_ascii isValue false v⟩

theorem encodeString_ascii (v : GoString) (isValue : Bool) : IsAscii (encodeString v isValue) :=
  encodeLoop_ascii isValue true v

/-! ## Unescaping -/

/-- One encoded byte is read back. -/
theorem unescapes_encodeChar (isValue first last : Bool) (c : UInt8) :
    Unescapes ((encodeChar isValue first last c).map UInt8.toNat) [c] := by
  rcases encodeChar_cases isValue first last c with ⟨h, hp, -⟩ | ⟨h, he⟩ | ⟨h, -⟩ <;> rw [h]
  · obtain ⟨hlt, hslash, hzero, hmust, -⟩ := plainChar_table hp
    have hplain := Unescapes.plain hslash hmust hzero .nil
    rwa [encodeRune_ascii hlt] at hplain
  · have hescaped := Unescapes.escaped he .nil
    rwa [encodeRune_ascii (isEscapable_table he)] at hescaped
  · obtain ⟨hlt, hesc, -⟩ := hexDigits_table c (hexDigit (c / 16)) (by simp [hexEncode])
    obtain ⟨hlt', -⟩ := hexDigits_table c (hexDigit (c % 16)) (by simp [hexEncode])
    refine .hex hesc ?_ (hexDecodePair_hexDigit c) .nil
    rw [encodeRune_ascii hlt, encodeRune_ascii hlt']
    rfl

theorem unescapes_encodeLoop (isValue first : Bool) (v : GoString) :
    Unescapes ((encodeLoop isValue first v).map UInt8.toNat) v := by
  induction v generalizing first with
  | nil => exact .nil
  | cons c v ih =>
    rw [encodeLoop, List.map_append]
    exact (unescapes_encodeChar isValue first v.isEmpty c).append (ih false)

/-! ## Cuts -/

/-- An encoded byte leaves no escape open. -/
theorem pending_encodeChar (isValue first last : Bool) (c : UInt8) :
    pending (ch '\\') false (encodeChar isValue first last c) = false := by
  rw [← pending_runes, runes_of_ascii (encodeChar_ascii isValue first last c)]
  exact (unescapes_encodeChar isValue first last c).pending_eq

variable {p : UInt8 → Prop}

/-- What is neither written as it is nor a hexadecimal digit does not come from an encoded byte. -/
theorem free_encodeChar {isValue : Bool} (hplain : ∀ c, PlainChar c → (c = ch '=' → isValue = true) → ¬ p c)
    (hhex : ∀ c, ∀ d ∈ hexEncode c, ¬ p d) (first last : Bool) (c : UInt8) :
    Free (ch '\\') p false (encodeChar isValue first last c) := by
  rcases encodeChar_cases isValue first last c with ⟨h, hp, -, -, hv⟩ | ⟨h, -⟩ | ⟨h, -⟩ <;> rw [h]
  · exact ⟨fun hcut => hplain c hp hv hcut.2.2, trivial⟩
  · exact ⟨fun hcut => hcut.2.1 rfl, fun hcut => absurd hcut.1 (by decide), trivial⟩
  · exact ⟨fun hcut => hcut.2.1 rfl, free_of_forall (fun d hd _ => hhex c d hd) _⟩

theorem free_encodeLoop {isValue : Bool} (hplain : ∀ c, PlainChar c → (c = ch '=' → isValue = true) → ¬ p c)
    (hhex : ∀ c, ∀ d ∈ hexEncode c, ¬ p d) (first : Bool) (v : GoString) :
    Free (ch '\\') p false (encodeLoop isValue first v) := by
  induction v generalizing first with
  | nil => trivial
  | cons c v ih =>
    rw [encodeLoop, free_append, pending_encodeChar]
    exact ⟨free_encodeChar hplain hhex first v.isEmpty c, ih false⟩

/-- No separator in encoded text cuts a name. -/
theorem free_separator_encodeString (v : GoString) (isValue : Bool) :
    Free (ch '\\') IsSeparator false (encodeString v isValue) :=
  free_encodeLoop (fun _ hc _ => (plainChar_table hc).2.2.2.2.2) (fun c d hd => (hexDigits_table c d hd).2.2.2.2.1) true v

/-- No `=` in an encoded type ends it. -/
theorem free_equals_encodeString (v : GoString) : Free (ch '\\') (· = ch '=') false (encodeString v false) :=
  free_encodeLoop (fun _ _ hv heq => absurd (hv heq) (by decide)) (fun c d hd => (hexDigits_table c d hd).2.2.2.1) true v

/-! ## Padding -/

theorem encodeChar_ne_nil (isValue first last : Bool) (c : UInt8) : encodeChar isValue first last c ≠ [] := by
  rcases encodeChar_cases isValue first last c with ⟨h, -⟩ | ⟨h, -⟩ | ⟨h, -⟩ <;> simp [h]

/-- The first byte written is neither a space nor a number sign. -/
theorem head_encodeString (v : GoString) (isValue : Bool) :
    (encodeString v isValue).head? ≠ some (ch ' ') ∧ (encodeString v isValue).head? ≠ some (ch '#') := by
  cases v with
  | nil => simp [encodeString, encodeLoop]
  | cons c v =>
    rw [encodeString, encodeLoop, List.head?_append_of_ne_nil _ (encodeChar_ne_nil _ _ _ _)]
    rcases encodeChar_cases isValue true v.isEmpty c with ⟨h, -, h1, h2, -⟩ | ⟨h, -⟩ | ⟨h, -⟩ <;> rw [h]
    · refine ⟨fun e => ?_, fun e => ?_⟩ <;> simp only [List.head?_cons, Option.some.injEq] at e
      · simpa using (h1 e).1
      · simpa using h2 e
    · simp only [List.head?_cons]
      decide
    · simp only [List.head?_cons]
      decide

/-- `encodeLoop` with the last byte set apart: in front of it no byte is treated as the last one. -/
def encodeInit (isValue : Bool) : Bool → GoString → GoString
  | _, [] => []
  | first, c :: v => encodeChar isValue first false c ++ encodeInit isValue false v

theorem encodeLoop_concat (isValue : Bool) (c : UInt8) : ∀ (first : Bool) (v : GoString),
    encodeLoop isValue first (v ++ [c]) =
      encodeInit isValue first v ++ encodeChar isValue (first && v.isEmpty) true c
  | first, [] => by simp [encodeLoop, encodeInit]
  | first, d :: v => by
    have hne : (v ++ [c]).isEmpty = false := by cases v <;> rfl
    rw [List.cons_append, encodeLoop, hne, encodeLoop_concat isValue c false v, encodeInit, List.append_assoc]
    simp

theorem pending_encodeInit (isValue first : Bool) (v : GoString) :
    pending (ch '\\') false (encodeInit isValue first v) = false := by
  induction v generalizing first with
  | nil => rfl
  | cons c v ih => rw [encodeInit, pending_append, pending_encodeChar, ih]

/-- The last byte written is a space only behind the backslash that escapes it. -/
theorem getLast_encodeChar (isValue first : Bool) (c : UInt8) :
    (encodeChar isValue first true c).getLast? ≠ some (ch ' ') ∨ encodeChar isValue first true c = [ch '\\', ch ' '] := by
  rcases encodeChar_cases isValue first true c with ⟨h, -, h1, -⟩ | ⟨h, -⟩ | ⟨h, -⟩ <;> rw [h]
  · left
    simp only [List.getLast?_singleton, ne_eq, Option.some.injEq]
    intro e
    simpa using (h1 e).2
  · by_cases hc : c = ch ' '
    · right; rw [hc]
    · left; simpa using hc
  · left
    have hd := (hexDigits_table c (hexDigit (c % 16)) (by simp [hexEncode])).2.2.2.2.2
    simpa [hexEncode] using hd

/-- Encoded text has no padding to strip. -/
theorem strip_encodeString (v : GoString) (isValue : Bool) :
    stripLeadingAndTrailingSpaces (encodeString v isValue) = encodeString v isValue := by
  refine strip_eq_self (head_encodeString v isValue).1 ?_
  rcases List.eq_nil_or_concat' v with rfl | ⟨u, c, rfl⟩
  · exact .inl (by simp [encodeString, encodeLoop])
  · rw [encodeString, encodeLoop_concat]
    refine (getLast_encodeChar isValue (true && u.isEmpty) c).imp (fun hlast => ?_) fun hspace => ?_
    · rwa [List.getLast?_append_of_ne_nil _ (encodeChar_ne_nil _ _ _ _)]
    · exact ⟨_, by rw [hspace], pending_encodeInit isValue true u⟩

/-- **Unescaping undoes escaping**, for every byte string in both positions. -/
theorem decodeString_encodeString (v : GoString) (isValue : Bool) :
    decodeString (encodeString v isValue) = .ok v := by
  rw [decodeString_eq_ok_iff, strip_encodeString, runes_of_ascii (encodeString_ascii v isValue)]
  exact unescapes_encodeLoop isValue true v

/-- An encoded value does not start with `#`, so `setValue` unescapes it. -/
theorem setValue_encodeString (readPacket : GoString → Except Error (GoString × GoString)) (v : GoString) :
    setValue readPacket (encodeString v true) = .ok v := by
  rw [setValue_of_ne (head_encodeString v true).2, decodeString_encodeString]

end GoLdap
