import GoLdap.Go.Bytes

/-!
# Go.Utf8 — the `unicode/utf8` view of a byte string

`decodeRune` is `utf8.DecodeRuneInString`: it reads one code point and its width, and reads `runeError` of width one
from the front of anything that is not UTF-8.  `runes` is the conversion `[]rune(s)`, which a `range` loop over a
string also performs.  Code points are natural numbers.  `encodeRune` is `utf8.AppendRune`.

* `runes_of_ascii`: on ASCII bytes the code points are the bytes.
* `runes_flatMap_encodeRune`: the code points of an encoded list of valid code points are that list.
* `decodeRune_spec`: decoding fails, or reads back an encoded valid code point.
* `runes_induction`: induction along the code points of any byte string.
-/

namespace Go

/-- `utf8.RuneError`. -/
def runeError : ℕ := 0xFFFD

/-- `unicode.MaxRune`. -/
def maxRune : ℕ := 0x10FFFF

/-- `utf8.ValidRune`: in range and not a surrogate. -/
def ValidRune (r : ℕ) : Prop := r < 0xD800 ∨ (0xE000 ≤ r ∧ r ≤ maxRune)

instance (r : ℕ) : Decidable (ValidRune r) := inferInstanceAs (Decidable (_ ∨ _))

/-- The byte lies in an accept range of the decoder. -/
def within (lo hi : ℕ) (b : UInt8) : Bool := lo ≤ b.toNat && b.toNat ≤ hi

theorem within_iff {lo hi : ℕ} {b : UInt8} : within lo hi b = true ↔ lo ≤ b.toNat ∧ b.toNat ≤ hi := by
  simp [within]

/-- `utf8.DecodeRuneInString`: the first code point and its width.  The accept range of the second byte depends on
the first one, which excludes overlong forms, surrogates and values past `maxRune`. -/
def decodeRune : GoString → ℕ × ℕ
  | [] => (runeError, 0)
  | b0 :: s =>
    let n := b0.toNat
    if n < 0x80 then (n, 1)
    else if 0xC2 ≤ n ∧ n ≤ 0xDF then
      match s with
      | b1 :: _ =>
        if within 0x80 0xBF b1 then ((n - 0xC0) * 64 + (b1.toNat - 0x80), 2) else (runeError, 1)
      | _ => (runeError, 1)
    else if 0xE0 ≤ n ∧ n ≤ 0xEF then
      match s with
      | b1 :: b2 :: _ =>
        if within (if n = 0xE0 then 0xA0 else 0x80) (if n = 0xED then 0x9F else 0xBF) b1 && within 0x80 0xBF b2 then
          ((n - 0xE0) * 4096 + (b1.toNat - 0x80) * 64 + (b2.toNat - 0x80), 3)
        else (runeError, 1)
      | _ => (runeError, 1)
    else if 0xF0 ≤ n ∧ n ≤ 0xF4 then
      match s with
      | b1 :: b2 :: b3 :: _ =>
        if within (if n = 0xF0 then 0x90 else 0x80) (if n = 0xF4 then 0x8F else 0xBF) b1 && within 0x80 0xBF b2 &&
            within 0x80 0xBF b3 then
          ((n - 0xF0) * 262144 + (b1.toNat - 0x80) * 4096 + (b2.toNat - 0x80) * 64 + (b3.toNat - 0x80), 4)
        else (runeError, 1)
      | _ => (runeError, 1)
    else (runeError, 1)

/-- The code points of a string after `skip` bytes that belong to a code point already read. -/
def runesFrom : ℕ → GoString → List ℕ
  | _, [] => []
  | skip + 1, _ :: s => runesFrom skip s
  | 0, b :: s => (decodeRune (b :: s)).1 :: runesFrom ((decodeRune (b :: s)).2 - 1) s

/-- `[]rune(s)`. -/
def runes (s : GoString) : List ℕ := runesFrom 0 s

/-- The code points with the positions of their first bytes, `i` being the position of the next byte. -/
def runesAtFrom : ℕ → ℕ → GoString → List (ℕ × ℕ)
  | _, _, [] => []
  | i, skip + 1, _ :: s => runesAtFrom (i + 1) skip s
  | i, 0, b :: s => (i, (decodeRune (b :: s)).1) :: runesAtFrom (i + 1) ((decodeRune (b :: s)).2 - 1) s

/-- What `for i, r := range s` runs over. -/
def runesAt (s : GoString) : List (ℕ × ℕ) := runesAtFrom 0 0 s

/-- `utf8.AppendRune(nil, r)`; an invalid code point is written as `runeError`. -/
def encodeRune (r : ℕ) : GoString :=
  if r < 0x80 then [UInt8.ofNat r]
  else if r < 0x800 then [UInt8.ofNat (0xC0 + r / 64), UInt8.ofNat (0x80 + r % 64)]
  else if ¬ ValidRune r then [0xEF, 0xBF, 0xBD]
  else if r < 0x10000 then
    [UInt8.ofNat (0xE0 + r / 4096), UInt8.ofNat (0x80 + r / 64 % 64), UInt8.ofNat (0x80 + r % 64)]
  else
    [UInt8.ofNat (0xF0 + r / 262144), UInt8.ofNat (0x80 + r / 4096 % 64), UInt8.ofNat (0x80 + r / 64 % 64),
      UInt8.ofNat (0x80 + r % 64)]

/-! ## ASCII -/

/-- Every byte is below `utf8.RuneSelf`. -/
def IsAscii (s : GoString) : Prop := ∀ b ∈ s, b.toNat < 0x80

instance (s : GoString) : Decidable (IsAscii s) := List.decidableBAll (fun b : UInt8 => b.toNat < 0x80) s

theorem isAscii_append {s t : GoString} : IsAscii (s ++ t) ↔ IsAscii s ∧ IsAscii t := by
  simp only [IsAscii, List.mem_append]
  exact ⟨fun h => ⟨fun b hb => h b (Or.inl hb), fun b hb => h b (Or.inr hb)⟩,
    fun h b hb => hb.elim (h.1 b) (h.2 b)⟩

theorem decodeRune_ascii {b : UInt8} (h : b.toNat < 0x80) (s : GoString) : decodeRune (b :: s) = (b.toNat, 1) := by
  simp [decodeRune, h]

@[simp] theorem runes_nil : runes [] = [] := rfl

theorem runes_cons_ascii {b : UInt8} (h : b.toNat < 0x80) (s : GoString) :
    runes (b :: s) = b.toNat :: runes s := by
  simp [runes, runesFrom, decodeRune_ascii h]

theorem runes_of_ascii : ∀ {s : GoString}, IsAscii s → runes s = s.map UInt8.toNat
  | [], _ => rfl
  | b :: s, h => by
    rw [runes_cons_ascii (h b (by simp)), runes_of_ascii (fun c hc => h c (by simp [hc])), List.map_cons]

theorem encodeRune_ascii {b : UInt8} (h : b.toNat < 0x80) : encodeRune b.toNat = [b] := by
  simp [encodeRune, h]

/-! ## Decoding an encoded code point -/

theorem runesFrom_length : ∀ (p : GoString) (s : GoString), runesFrom p.length (p ++ s) = runesFrom 0 s
  | [], _ => rfl
  | _ :: p, s => by rw [List.length_cons, List.cons_append, runesFrom, runesFrom_length p s]

theorem encodeRune_ne_nil (r : ℕ) : encodeRune r ≠ [] := by
  unfold encodeRune
  split_ifs <;> simp

private theorem toNat_ofNat_lt {n : ℕ} (h : n < 256) : (UInt8.ofNat n).toNat = n := by
  rw [UInt8.toNat_ofNat']
  omega

/-- What is encoded is decoded, with its width, whatever follows. -/
theorem decodeRune_encodeRune {r : ℕ} (h : ValidRune r) (s : GoString) :
    decodeRune (encodeRune r ++ s) = (r, (encodeRune r).length) := by
  have hv := h
  unfold ValidRune maxRune at h
  unfold encodeRune
  by_cases h1 : r < 0x80
  · rw [if_pos h1]
    have e0 := toNat_ofNat_lt (n := r) (by omega)
    simp [decodeRune, e0, h1]
  rw [if_neg h1]
  by_cases h2 : r < 0x800
  · rw [if_pos h2]
    have e0 := toNat_ofNat_lt (n := 0xC0 + r / 64) (by omega)
    have e1 := toNat_ofNat_lt (n := 0x80 + r % 64) (by omega)
    have hw : within 0x80 0xBF (UInt8.ofNat (0x80 + r % 64)) = true := by
      rw [within_iff, e1]
      omega
    simp only [List.cons_append, List.nil_append, decodeRune, e0, e1, hw, if_true]
    rw [if_neg (by omega), if_pos (by omega)]
    simp only [Prod.mk.injEq, List.length_cons, List.length_nil, and_true]
    omega
  rw [if_neg h2, if_neg (not_not.mpr hv)]
  by_cases h3 : r < 0x10000
  · rw [if_pos h3]
    have e0 := toNat_ofNat_lt (n := 0xE0 + r / 4096) (by omega)
    have e1 := toNat_ofNat_lt (n := 0x80 + r / 64 % 64) (by omega)
    have e2 := toNat_ofNat_lt (n := 0x80 + r % 64) (by omega)
    have hw : within (if 0xE0 + r / 4096 = 0xE0 then 0xA0 else 0x80) (if 0xE0 + r / 4096 = 0xED then 0x9F else 0xBF)
        (UInt8.ofNat (0x80 + r / 64 % 64)) = true := by
      rw [within_iff, e1]
      -- the first byte decides which half of the continuation range is legal
      constructor <;> split_ifs <;> omega
    have hw' : within 0x80 0xBF (UInt8.ofNat (0x80 + r % 64)) = true := by
      rw [within_iff, e2]
      omega
    simp only [List.cons_append, List.nil_append, decodeRune, e0, e1, e2, hw, hw', Bool.and_self, if_true]
    rw [if_neg (by omega), if_neg (by omega), if_pos (by omega)]
    simp only [Prod.mk.injEq, List.length_cons, List.length_nil, and_true]
    omega
  · rw [if_neg h3]
    have e0 := toNat_ofNat_lt (n := 0xF0 + r / 262144) (by omega)
    have e1 := toNat_ofNat_lt (n := 0x80 + r / 4096 % 64) (by omega)
    have e2 := toNat_ofNat_lt (n := 0x80 + r / 64 % 64) (by omega)
    have e3 := toNat_ofNat_lt (n := 0x80 + r % 64) (by omega)
    have hw : within (if 0xF0 + r / 262144 = 0xF0 then 0x90 else 0x80)
        (if 0xF0 + r / 262144 = 0xF4 then 0x8F else 0xBF) (UInt8.ofNat (0x80 + r / 4096 % 64)) = true := by
      rw [within_iff, e1]
      constructor <;> split_ifs <;> omega
    have hw' : within 0x80 0xBF (UInt8.ofNat (0x80 + r / 64 % 64)) = true := by
      rw [within_iff, e2]
      omega
    have hw'' : within 0x80 0xBF (UInt8.ofNat (0x80 + r % 64)) = true := by
      rw [within_iff, e3]
      omega
    simp only [List.cons_append, List.nil_append, decodeRune, e0, e1, e2, e3, hw, hw', hw'', Bool.and_self, if_true]
    rw [if_neg (by omega), if_neg (by omega), if_neg (by omega), if_pos (by omega)]
    simp only [Prod.mk.injEq, List.length_cons, List.length_nil, and_true]
    omega

theorem runes_encodeRune_append {r : ℕ} (h : ValidRune r) (s : GoString) :
    runes (encodeRune r ++ s) = r :: runes s := by
  have hd := decodeRune_encodeRune h s
  obtain ⟨b, p, hbp⟩ := List.exists_cons_of_ne_nil (encodeRune_ne_nil r)
  rw [hbp] at hd ⊢
  rw [List.cons_append] at hd ⊢
  rw [runes, runesFrom, hd]
  simp only [List.length_cons, Nat.add_sub_cancel]
  rw [runesFrom_length]
  rfl

/-- The code points of an encoded list of valid code points. -/
theorem runes_flatMap_encodeRune : ∀ {l : List ℕ}, (∀ r ∈ l, ValidRune r) → runes (l.flatMap encodeRune) = l
  | [], _ => rfl
  | r :: l, h => by
    rw [List.flatMap_cons, runes_encodeRune_append (h r (by simp)),
      runes_flatMap_encodeRune (fun x hx => h x (by simp [hx]))]

/-! ## Positions -/

theorem map_snd_runesAtFrom (i skip : ℕ) (s : GoString) : (runesAtFrom i skip s).map Prod.snd = runesFrom skip s := by
  induction s generalizing i skip with
  | nil => simp [runesAtFrom, runesFrom]
  | cons b s ih => cases skip <;> simp [runesAtFrom, runesFrom, ih]

theorem runesAtFrom_length (i : ℕ) : ∀ (p s : GoString), runesAtFrom i p.length (p ++ s) = runesAtFrom (i + p.length) 0 s
  | [], _ => rfl
  | _ :: p, s => by
    rw [List.length_cons, List.cons_append, runesAtFrom, runesAtFrom_length (i + 1) p s]
    congr 1
    omega

theorem runesAtFrom_encodeRune (i : ℕ) {r : ℕ} (h : ValidRune r) (s : GoString) :
    runesAtFrom i 0 (encodeRune r ++ s) = (i, r) :: runesAtFrom (i + (encodeRune r).length) 0 s := by
  have hd := decodeRune_encodeRune h s
  obtain ⟨b, p, hbp⟩ := List.exists_cons_of_ne_nil (encodeRune_ne_nil r)
  rw [hbp, List.cons_append] at hd ⊢
  rw [runesAtFrom, hd]
  simp only [List.length_cons, Nat.add_sub_cancel]
  rw [runesAtFrom_length]
  congr 2
  omega

/-- The positions behind a list of encoded code points are shifted by their bytes. -/
theorem runesAtFrom_append (i : ℕ) {l : List ℕ} (h : ∀ r ∈ l, ValidRune r) (s : GoString) :
    ∃ at_, runesAtFrom i 0 (l.flatMap encodeRune ++ s) =
      at_ ++ runesAtFrom (i + (l.flatMap encodeRune).length) 0 s := by
  induction l generalizing i with
  | nil => exact ⟨[], rfl⟩
  | cons r l ih =>
    obtain ⟨at_, hat⟩ := ih (i + (encodeRune r).length) fun x hx => h x (by simp [hx])
    refine ⟨(i, r) :: at_, ?_⟩
    rw [List.flatMap_cons, List.append_assoc, runesAtFrom_encodeRune i (h r (by simp)), hat, List.length_append,
      List.cons_append, Nat.add_assoc]

/-! ## What a decoded code point was read from -/

section Branches

variable {b0 b1 b2 b3 : UInt8}

private theorem ofNat_toNat_eq {n : ℕ} {b : UInt8} (h : n = b.toNat) : UInt8.ofNat n = b := by
  subst h
  exact UInt8.ofNat_toNat

private theorem exists_encodeRune_two (h0 : 0xC2 ≤ b0.toNat ∧ b0.toNat ≤ 0xDF) (h1 : within 0x80 0xBF b1 = true) :
    ∃ r, ValidRune r ∧ encodeRune r = [b0, b1] := by
  rw [within_iff] at h1
  refine ⟨(b0.toNat - 0xC0) * 64 + (b1.toNat - 0x80), .inl (by omega), ?_⟩
  rw [encodeRune, if_neg (by omega), if_pos (by omega), ofNat_toNat_eq (b := b0) (by omega),
    ofNat_toNat_eq (b := b1) (by omega)]

/-- Only `0xED` reaches the surrogates, and its second byte stops short of them. -/
private theorem exists_encodeRune_three (h0 : 0xE0 ≤ b0.toNat ∧ b0.toNat ≤ 0xEF)
    (h1 : within (if b0.toNat = 0xE0 then 0xA0 else 0x80) (if b0.toNat = 0xED then 0x9F else 0xBF) b1 = true)
    (h2 : within 0x80 0xBF b2 = true) : ∃ r, ValidRune r ∧ encodeRune r = [b0, b1, b2] := by
  rw [within_iff] at h1 h2
  have hlow : b0.toNat = 0xE0 → 0xA0 ≤ b1.toNat := fun he => by simpa [he] using h1.1
  have hhigh : b0.toNat = 0xED → b1.toNat ≤ 0x9F := fun he => by simpa [he] using h1.2
  have hbounds : 0x80 ≤ b1.toNat ∧ b1.toNat ≤ 0xBF := by split_ifs at h1 <;> omega
  have hv : ValidRune ((b0.toNat - 0xE0) * 4096 + (b1.toNat - 0x80) * 64 + (b2.toNat - 0x80)) := by
    unfold ValidRune maxRune
    omega
  refine ⟨_, hv, ?_⟩
  rw [encodeRune, if_neg (by omega), if_neg (by omega), if_neg (not_not.mpr hv), if_pos (by omega),
    ofNat_toNat_eq (b := b0) (by omega), ofNat_toNat_eq (b := b1) (by omega), ofNat_toNat_eq (b := b2) (by omega)]

private theorem exists_encodeRune_four (h0 : 0xF0 ≤ b0.toNat ∧ b0.toNat ≤ 0xF4)
    (h1 : within (if b0.toNat = 0xF0 then 0x90 else 0x80) (if b0.toNat = 0xF4 then 0x8F else 0xBF) b1 = true)
    (h2 : within 0x80 0xBF b2 = true) (h3 : within 0x80 0xBF b3 = true) :
    ∃ r, ValidRune r ∧ encodeRune r = [b0, b1, b2, b3] := by
  rw [within_iff] at h1 h2 h3
  have hlow : b0.toNat = 0xF0 → 0x90 ≤ b1.toNat := fun he => by simpa [he] using h1.1
  have hhigh : b0.toNat = 0xF4 → b1.toNat ≤ 0x8F := fun he => by simpa [he] using h1.2
  have hbounds : 0x80 ≤ b1.toNat ∧ b1.toNat ≤ 0xBF := by split_ifs at h1 <;> omega
  have hv : ValidRune ((b0.toNat - 0xF0) * 262144 + (b1.toNat - 0x80) * 4096 + (b2.toNat - 0x80) * 64 +
      (b3.toNat - 0x80)) := by
    unfold ValidRune maxRune
    omega
  refine ⟨_, hv, ?_⟩
  rw [encodeRune, if_neg (by omega), if_neg (by omega), if_neg (not_not.mpr hv), if_neg (by omega),
    ofNat_toNat_eq (b := b0) (by omega), ofNat_toNat_eq (b := b1) (by omega), ofNat_toNat_eq (b := b2) (by omega),
    ofNat_toNat_eq (b := b3) (by omega)]

end Branches

/-- Decoding fails with at most one byte, or the string starts with the encoding of a valid code point, which
`decodeRune_encodeRune` says is the one that is read. -/
theorem decodeRune_spec (s : GoString) :
    decodeRune s = (runeError, min 1 s.length) ∨ ∃ r t, ValidRune r ∧ s = encodeRune r ++ t := by
  fun_cases decodeRune s with
  | case1 => exact .inl rfl
  | case2 b0 s n h =>
    refine .inr ⟨b0.toNat, s, .inl (by omega), ?_⟩
    rw [encodeRune_ascii h]
    rfl
  | case3 b0 n _ h0 b1 s h1 =>
    obtain ⟨r, hv, hr⟩ := exists_encodeRune_two h0 h1
    exact .inr ⟨r, s, hv, by rw [hr]; rfl⟩
  | case6 b0 n _ _ h0 b1 b2 s h =>
    obtain ⟨h1, h2⟩ := Bool.and_eq_true_iff.mp h
    obtain ⟨r, hv, hr⟩ := exists_encodeRune_three h0 h1 h2
    exact .inr ⟨r, s, hv, by rw [hr]; rfl⟩
  | case9 b0 n _ _ _ h0 b1 b2 b3 s h =>
    obtain ⟨h12, h3⟩ := Bool.and_eq_true_iff.mp h
    obtain ⟨h1, h2⟩ := Bool.and_eq_true_iff.mp h12
    obtain ⟨r, hv, hr⟩ := exists_encodeRune_four h0 h1 h2 h3
    exact .inr ⟨r, s, hv, by rw [hr]; rfl⟩
  | _ => exact .inl (by simp)

/-- The width of a code point is at least one byte and at most what is there. -/
theorem decodeRune_width {s : GoString} (h : s ≠ []) : 0 < (decodeRune s).2 ∧ (decodeRune s).2 ≤ s.length := by
  have hpos := List.length_pos_iff.mpr h
  obtain herr | ⟨r, t, hv, rfl⟩ := decodeRune_spec s
  · rw [herr]
    exact ⟨by omega, by omega⟩
  · rw [decodeRune_encodeRune hv]
    exact ⟨List.length_pos_iff.mpr (encodeRune_ne_nil r), List.length_append ▸ Nat.le_add_right _ _⟩

theorem validRune_runeError : ValidRune runeError := by decide

theorem decodeRune_valid (s : GoString) : ValidRune (decodeRune s).1 := by
  obtain herr | ⟨r, t, hv, rfl⟩ := decodeRune_spec s
  · rw [herr]
    exact validRune_runeError
  · rwa [decodeRune_encodeRune hv]

/-- Unless decoding failed, the string starts with the encoding of what was decoded. -/
theorem encodeRune_decodeRune {s : GoString} (h : (decodeRune s).1 ≠ runeError) :
    ∃ t, s = encodeRune (decodeRune s).1 ++ t := by
  obtain herr | ⟨r, t, hv, rfl⟩ := decodeRune_spec s
  · rw [herr] at h
    exact absurd rfl h
  · rw [decodeRune_encodeRune hv]
    exact ⟨t, rfl⟩

theorem runesFrom_valid : ∀ (k : ℕ) (s : GoString), ∀ r ∈ runesFrom k s, ValidRune r
  | _, [], r, h => by simp [runesFrom] at h
  | k + 1, _ :: s, r, h => runesFrom_valid k s r (by simpa [runesFrom] using h)
  | 0, b :: s, r, h => by
    rw [runesFrom, List.mem_cons] at h
    rcases h with rfl | h
    · exact decodeRune_valid _
    · exact runesFrom_valid _ s r h

theorem runes_valid {s : GoString} {r : ℕ} (h : r ∈ runes s) : ValidRune r := runesFrom_valid 0 s r h

theorem runes_ne_nil {s : GoString} (h : s ≠ []) : runes s ≠ [] := by
  obtain ⟨b, t, rfl⟩ := List.exists_cons_of_ne_nil h
  simp [runes, runesFrom]

/-- The bytes of a code point that is not ASCII are not ASCII. -/
theorem encodeRune_wide {r : ℕ} (hv : ValidRune r) (hr : 0x80 ≤ r) : ∀ b ∈ encodeRune r, 0x80 ≤ b.toNat := by
  have hbound : r ≤ maxRune := by
    unfold ValidRune maxRune at *
    omega
  unfold maxRune at hbound
  unfold encodeRune
  rw [if_neg (by omega)]
  split_ifs with h2 h3
  · simp only [List.mem_cons, List.not_mem_nil, or_false]
    rintro b (rfl | rfl) <;> rw [toNat_ofNat_lt (by omega)] <;> omega
  · simp only [List.mem_cons, List.not_mem_nil, or_false]
    rintro b (rfl | rfl | rfl) <;> rw [toNat_ofNat_lt (by omega)] <;> omega
  · simp only [List.mem_cons, List.not_mem_nil, or_false]
    rintro b (rfl | rfl | rfl | rfl) <;> rw [toNat_ofNat_lt (by omega)] <;> omega

/-- An ASCII byte stands for itself only. -/
theorem eq_of_mem_encodeRune {r : ℕ} (hv : ValidRune r) {b : UInt8} (hb : b.toNat < 0x80) (h : b ∈ encodeRune r) :
    r = b.toNat := by
  by_cases hr : r < 0x80
  · rw [encodeRune, if_pos hr, List.mem_singleton] at h
    rw [h, toNat_ofNat_lt (by omega)]
  · have hwide := encodeRune_wide hv (Nat.le_of_not_lt hr) b h
    omega

/-- What `utf8.ValidString` accepts: the string is the encoding of its code points. -/
def ValidString (s : GoString) : Prop := (runes s).flatMap encodeRune = s

instance (s : GoString) : Decidable (ValidString s) := inferInstanceAs (Decidable (_ = _))

/-- UTF-8 without the replacement character: what a loop that stops at `runeError` reads to its end. -/
inductive Readable : GoString → Prop
  | nil : Readable []
  | ascii {b : UInt8} {s : GoString} (hb : b.toNat < 0x80) (hs : Readable s) : Readable (b :: s)
  | wide {r : ℕ} {s : GoString} (hv : ValidRune r) (hr : 0x80 ≤ r) (hne : r ≠ runeError) (hs : Readable s) :
      Readable (encodeRune r ++ s)

theorem Readable.of_isAscii : ∀ {s : GoString}, IsAscii s → Readable s
  | [], _ => .nil
  | b :: s, h => .ascii (h b (by simp)) (of_isAscii fun c hc => h c (by simp [hc]))

theorem Readable.append {s t : GoString} (hs : Readable s) (ht : Readable t) : Readable (s ++ t) := by
  induction hs with
  | nil => exact ht
  | ascii hb _ ih => exact .ascii hb ih
  | wide hv hr hne _ ih =>
    rw [List.append_assoc]
    exact .wide hv hr hne ih

theorem readable_flatMap_encodeRune {l : List ℕ} (h : ∀ r ∈ l, ValidRune r ∧ r ≠ runeError) :
    Readable (l.flatMap encodeRune) := by
  induction l with
  | nil => exact .nil
  | cons r l ih =>
    obtain ⟨hv, hne⟩ := h r (by simp)
    have hrest := ih fun q hq => h q (by simp [hq])
    rw [List.flatMap_cons]
    by_cases hr : 0x80 ≤ r
    · exact .wide hv hr hne hrest
    · rw [encodeRune, if_pos (by omega)]
      refine .ascii ?_ hrest
      rw [toNat_ofNat_lt (by omega)]
      omega

theorem readable_iff {s : GoString} : Readable s ↔ ValidString s ∧ runeError ∉ runes s := by
  constructor
  · intro h
    induction h with
    | nil => exact ⟨rfl, List.not_mem_nil⟩
    | @ascii b s hb _ ih =>
      rw [ValidString, runes_cons_ascii hb, List.flatMap_cons, encodeRune_ascii hb, ih.1]
      refine ⟨rfl, fun hmem => ?_⟩
      rcases List.mem_cons.mp hmem with heq | hmem
      · rw [runeError] at heq
        omega
      · exact ih.2 hmem
    | @wide r s hv hr hne _ ih =>
      rw [ValidString, runes_encodeRune_append hv, List.flatMap_cons, ih.1]
      refine ⟨rfl, fun hmem => ?_⟩
      rcases List.mem_cons.mp hmem with heq | hmem
      · exact hne heq.symm
      · exact ih.2 hmem
  · rintro ⟨hvalid, herr⟩
    rw [← hvalid]
    exact readable_flatMap_encodeRune fun r hr => ⟨runes_valid hr, fun heq => herr (heq ▸ hr)⟩

/-- What stands behind an ASCII byte of a readable string is readable. -/
theorem Readable.of_append_cons {s t : GoString} {b : UInt8} (hb : b.toNat < 0x80) (h : Readable (s ++ b :: t)) :
    Readable s ∧ Readable t := by
  generalize hu : s ++ b :: t = u at h
  induction h generalizing s with
  | nil => simp at hu
  | @ascii c u hc hs ih =>
    rcases s with _ | ⟨c', s⟩
    · obtain ⟨-, rfl⟩ := List.cons.inj hu
      exact ⟨.nil, hs⟩
    · obtain ⟨rfl, hu'⟩ := List.cons.inj hu
      exact ⟨.ascii hc (ih hu').1, (ih hu').2⟩
  | @wide r u hv hr hne hs ih =>
    rcases List.append_eq_append_iff.mp hu with ⟨p, hp, hcons⟩ | ⟨p, hp, hu'⟩
    · rcases p with _ | ⟨c, p⟩
      · obtain ⟨-, hrest⟩ := ih (s := []) hcons
        rw [List.append_nil] at hp
        exact ⟨by simpa [← hp] using Readable.wide hv hr hne .nil, hrest⟩
      · -- the byte would be one of the code point
        obtain ⟨rfl, -⟩ := List.cons.inj hcons
        have := encodeRune_wide hv hr b (by rw [hp]; simp)
        omega
    · obtain ⟨hp', hrest⟩ := ih hu'.symm
      rw [hp]
      exact ⟨.wide hv hr hne hp', hrest⟩

/-- A readable string can be cut at ASCII bytes. -/
theorem Readable.of_append {s p t : GoString} (hne : p ≠ []) (hp : IsAscii p) (h : Readable (s ++ (p ++ t))) :
    Readable s ∧ Readable t := by
  induction p generalizing s with
  | nil => exact absurd rfl hne
  | cons b p ih =>
    obtain ⟨hs, ht⟩ := h.of_append_cons (hp b (by simp))
    by_cases hnil : p = []
    · subst hnil
      exact ⟨hs, ht⟩
    · exact ⟨hs, (ih (s := []) hnil (fun c hc => hp c (by simp [hc])) ht).2⟩

/-- What a string starts with: nothing readable, an ASCII byte, or a wider code point. -/
theorem decodeRune_cases (s : GoString) : (decodeRune s).1 = runeError ∨ (∃ b t, b.toNat < 0x80 ∧ s = b :: t) ∨
    ∃ r t, ValidRune r ∧ 0x80 ≤ r ∧ r ≠ runeError ∧ s = encodeRune r ++ t := by
  by_cases hne : (decodeRune s).1 = runeError
  · exact .inl hne
  · obtain ⟨t, ht⟩ := encodeRune_decodeRune hne
    by_cases hr : 0x80 ≤ (decodeRune s).1
    · exact .inr (.inr ⟨_, t, decodeRune_valid s, hr, hne, ht⟩)
    · refine .inr (.inl ⟨UInt8.ofNat (decodeRune s).1, t, ?_, ?_⟩)
      · rw [toNat_ofNat_lt (by omega)]
        omega
      · rwa [encodeRune, if_pos (by omega)] at ht

/-! ## Bytes outside of ASCII -/

/-- A code point that starts with a byte outside of ASCII is outside of it, with all of its bytes. -/
theorem decodeRune_wide {b : UInt8} (hb : 0x80 ≤ b.toNat) (s : GoString) :
    0x80 ≤ (decodeRune (b :: s)).1 ∧ ∀ x ∈ s.take ((decodeRune (b :: s)).2 - 1), 0x80 ≤ x.toNat := by
  obtain herr | ⟨r, t, hv, heq⟩ := decodeRune_spec (b :: s)
  · rw [herr]
    simp [runeError]
  · have hr : 0x80 ≤ r := by
      by_contra hlt
      rw [encodeRune, if_pos (by omega)] at heq
      rw [(List.cons.inj heq).1, toNat_ofNat_lt (by omega)] at hb
      exact hlt hb
    have hwide := encodeRune_wide hv hr
    rw [heq, decodeRune_encodeRune hv]
    obtain ⟨c, p, hp⟩ := List.exists_cons_of_ne_nil (encodeRune_ne_nil r)
    rw [hp, List.cons_append] at heq
    rw [hp] at hwide ⊢
    obtain ⟨-, rfl⟩ := List.cons.inj heq
    refine ⟨hr, fun x hx => hwide x (List.mem_cons_of_mem _ ?_)⟩
    rwa [List.length_cons, Nat.add_sub_cancel, List.take_left] at hx

/-- Induction along the code points of a string, valid or not. -/
theorem runes_induction {motive : GoString → Prop} (nil : motive [])
    (ascii : ∀ b s, b.toNat < 0x80 → motive s → motive (b :: s))
    (wide : ∀ b p s r, (∀ x ∈ b :: p, 0x80 ≤ x.toNat) → 0x80 ≤ r → runes (b :: p ++ s) = r :: runes s → motive s →
      motive (b :: p ++ s))
    (s : GoString) : motive s := by
  induction hn : s.length using Nat.strongRecOn generalizing s with
  | _ n ih =>
    rcases s with _ | ⟨b, s⟩
    · exact nil
    · rw [List.length_cons] at hn
      by_cases hb : b.toNat < 0x80
      · exact ascii b s hb (ih s.length (by omega) s rfl)
      · obtain ⟨hr, hbytes⟩ := decodeRune_wide (Nat.le_of_not_lt hb) s
        have hk := (decodeRune_width (List.cons_ne_nil b s)).2
        rw [List.length_cons] at hk
        -- the bytes of the code point, and the rest
        generalize hdec : decodeRune (b :: s) = d at hr hbytes hk
        have htake : (s.take (d.2 - 1)).length = d.2 - 1 := by
          rw [List.length_take]
          omega
        have hrunes : runes (b :: s.take (d.2 - 1) ++ s.drop (d.2 - 1)) = d.1 :: runes (s.drop (d.2 - 1)) := by
          rw [List.cons_append, List.take_append_drop, runes, runesFrom, hdec]
          have := runesFrom_length (s.take (d.2 - 1)) (s.drop (d.2 - 1))
          rw [htake, List.take_append_drop] at this
          rw [this]
          rfl
        have hmotive := wide b (s.take (d.2 - 1)) (s.drop (d.2 - 1)) d.1
          (List.forall_mem_cons.mpr ⟨Nat.le_of_not_lt hb, hbytes⟩) hr hrunes
          (ih (s.drop (d.2 - 1)).length (by rw [List.length_drop]; omega) _ rfl)
        rwa [List.cons_append, List.take_append_drop] at hmotive

/-- An ASCII byte of a string is one of its code points. -/
theorem mem_runes_of_ascii {b : UInt8} (hb : b.toNat < 0x80) {s : GoString} (h : b ∈ s) : b.toNat ∈ runes s := by
  induction s using runes_induction with
  | nil => cases h
  | ascii c s hc ih =>
    rw [runes_cons_ascii hc]
    rcases List.mem_cons.mp h with rfl | h
    · simp
    · exact List.mem_cons_of_mem _ (ih h)
  | wide c p s r hbytes hr hrunes ih =>
    rw [hrunes]
    rcases List.mem_append.mp h with h | h
    · have := hbytes b h
      omega
    · exact List.mem_cons_of_mem _ (ih h)

/-! ## White space -/

/-- `unicode.IsSpace`: the code points with the White_Space property. -/
def isSpace (r : ℕ) : Bool :=
  (0x09 ≤ r && r ≤ 0x0D) || r == 0x20 || r == 0x85 || r == 0xA0 || r == 0x1680 || (0x2000 ≤ r && r ≤ 0x200A) ||
    r == 0x2028 || r == 0x2029 || r == 0x202F || r == 0x205F || r == 0x3000

/-- `strings.TrimSpace(s) == ""`. -/
def isBlank (s : GoString) : Bool := (runes s).all isSpace

/-- A string with an ASCII byte that is not a space is not blank. -/
theorem isBlank_eq_false {s : GoString} {b : UInt8} (hb : b ∈ s) (hascii : b.toNat < 0x80)
    (hs : isSpace b.toNat = false) : isBlank s = false := by
  unfold isBlank
  rw [List.all_eq_false]
  exact ⟨b.toNat, mem_runes_of_ascii hascii hb, by simp [hs]⟩

end Go
