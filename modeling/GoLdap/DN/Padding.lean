import GoLdap.DN.Compose

/-!
# DN.Padding — spaces around separators

`decodeString` removes unescaped spaces at both ends, so spaces around a type or a value make no difference.  But
`setValue` looks for the `#` of a hexadecimal value before it removes anything: with a space before the `#` the value is
read as it is written, and with a space behind the digits it is rejected.

* `pad`: spaces inserted into a name, around each separator and around each `=` that ends a type.
* `setValue_pad_iff`: what they do to a value.
* `parseDN_pad_iff`: the padded name is read as the name exactly if no hexadecimal value got spaces.
-/

namespace GoLdap

open Go Escaped

/-! ## Inserting spaces -/

/-- The text before and behind the `=` that ends the type of a piece: `ParseDN` goes on behind a `=` with only spaces
before it. -/
def typeEnd (piece : GoString) : Option (GoString × GoString) :=
  match _h : typeAndValue piece with
  | none => none
  | some (t, v) =>
    if decodeString t = .ok [] then (typeEnd v).map fun q => (t ++ ch '=' :: q.1, q.2) else some (t, v)
termination_by piece.length
decreasing_by
  rw [(typeAndValue_eq_some _h).1, List.length_append, List.length_cons]
  omega

/-- How many spaces are inserted into a piece. -/
structure Padding where
  start : ℕ
  beforeEquals : ℕ
  afterEquals : ℕ
  stop : ℕ

/-- A piece with spaces at its ends and around the `=` that ends its type. -/
def padPiece (q : Padding) (piece : GoString) : GoString :=
  match typeEnd piece with
  | none => spaces q.start ++ piece ++ spaces q.stop
  | some (u, v) =>
    spaces q.start ++ u ++ spaces q.beforeEquals ++ ch '=' :: (spaces q.afterEquals ++ v ++ spaces q.stop)

/-- The pieces behind the first, padded, with the separators in front of them. -/
def padPieces (padding : ℕ → Padding) : List (UInt8 × GoString) → GoString
  | [] => []
  | (c, w) :: rest => c :: (padPiece (padding 0) w ++ padPieces (fun i => padding (i + 1)) rest)

/-- A name with `padding i` inserted into its `i`-th piece. -/
def pad (padding : ℕ → Padding) (s : GoString) : GoString :=
  padPiece (padding 0) (pieces s).1 ++ padPieces (fun i => padding (i + 1)) (pieces s).2

/-- No space next to the value, if it is a hexadecimal one. -/
def Padding.KeepsHex (q : Padding) (piece : GoString) : Prop :=
  ∀ u v, typeEnd piece = some (u, v) → v.head? = some (ch '#') → q.afterEquals = 0 ∧ q.stop = 0

theorem pad_free (padding : ℕ → Padding) {w : GoString} (hw : Free (ch '\\') IsSeparator false w) :
    pad padding w = padPiece (padding 0) w := by
  rw [pad, pieces, cut_of_free hw]
  exact List.append_nil _

theorem pad_piece (padding : ℕ → Padding) {w r : GoString} {c : UInt8} (hw : Free (ch '\\') IsSeparator false w)
    (hc : Cuts (ch '\\') IsSeparator (pending (ch '\\') false w) c) :
    pad padding (w ++ c :: r) = padPiece (padding 0) w ++ c :: pad (fun i => padding (i + 1)) r := by
  rw [pad, pieces, cut_append hc, cut_of_free hw]
  rfl

/-! ## The type -/

section TypeText

variable {readPacket : GoString → Except Error (GoString × GoString)} {w t u v : GoString}

theorem typeEnd_of_none (h : typeAndValue w = none) : typeEnd w = none := by
  rw [typeEnd]
  split
  · rfl
  · simp_all

theorem typeEnd_of_empty (h : typeAndValue w = some (t, v)) (ht : decodeString t = .ok []) :
    typeEnd w = (typeEnd v).map fun q => (t ++ ch '=' :: q.1, q.2) := by
  rw [typeEnd]
  split
  · simp_all
  · rename_i heq
    cases h.symm.trans heq
    rw [if_pos ht]

theorem typeEnd_of_ne (h : typeAndValue w = some (t, v)) (ht : decodeString t ≠ .ok []) : typeEnd w = some (t, v) := by
  rw [typeEnd]
  split
  · simp_all
  · rename_i heq
    cases h.symm.trans heq
    rw [if_neg ht]

theorem typeEnd_eq_some (h : typeEnd w = some (u, v)) :
    w = u ++ ch '=' :: v ∧ pending (ch '\\') false u = false := by
  induction w using typeEnd.induct generalizing u with
  | case1 w hnone => simp [typeEnd_of_none hnone] at h
  | case2 w t v' hsome hempty ih =>
    rw [typeEnd_of_empty hsome hempty, Option.map_eq_some_iff] at h
    obtain ⟨⟨u', v''⟩, hrest, hq⟩ := h
    cases hq
    obtain ⟨rfl, -, hflag⟩ := typeAndValue_eq_some hsome
    obtain ⟨rfl, hflag'⟩ := ih hrest
    refine ⟨by simp, ?_⟩
    rw [pending_append, hflag]
    exact hflag'
  | case3 w t v' hsome hne =>
    rw [typeEnd_of_ne hsome hne] at h
    cases h
    exact ⟨(typeAndValue_eq_some hsome).1, (typeAndValue_eq_some hsome).2.2⟩

/-- The attribute of a type and a value. -/
def attributeFrom (readPacket : GoString → Except Error (GoString × GoString)) (t v : GoString) :
    Option AttributeTypeAndValue :=
  match decodeString t, setValue readPacket v with
  | .ok type, .ok value => some ⟨type, value⟩
  | _, _ => none

theorem attributeFrom_eq_some {a : AttributeTypeAndValue} :
    attributeFrom readPacket t v = some a ↔ decodeString t = .ok a.type ∧ setValue readPacket v = .ok a.value := by
  obtain ⟨type, value⟩ := a
  unfold attributeFrom
  cases decodeString t <;> cases setValue readPacket v <;> simp

theorem free_spaces {p : UInt8 → Prop} (hp : ¬ p (ch ' ')) (n : ℕ) (flag : Bool) : Free (ch '\\') p flag (spaces n) := by
  refine free_of_forall (fun c hc _ => ?_) flag
  rwa [List.eq_of_mem_replicate hc]

/-- Spaces around a type outside of any escape. -/
theorem free_padded {p : UInt8 → Prop} (hp : ¬ p (ch ' ')) (ht : Free (ch '\\') p false t)
    (hflag : pending (ch '\\') false t = false) (a b : ℕ) :
    Free (ch '\\') p false (spaces a ++ t ++ spaces b) ∧
      pending (ch '\\') false (spaces a ++ t ++ spaces b) = false := by
  have hstart : pending (ch '\\') false (spaces a ++ t) = false := by rw [pending_spaces_append, hflag]
  refine ⟨free_append.mpr ⟨free_append.mpr ⟨free_spaces hp a false, ?_⟩, free_spaces hp b _⟩, ?_⟩
  · rwa [pending_spaces]
  · rw [pending_append, hstart, pending_spaces]

theorem readAttribute_of_type (hfree : Free (ch '\\') (· = ch '=') false t) (hflag : pending (ch '\\') false t = false)
    (ht : decodeString t ≠ .ok []) (v : GoString) :
    readAttribute readPacket (t ++ ch '=' :: v) = attributeFrom readPacket t v := by
  have hpiece := typeAndValue_append hfree hflag v
  rw [readAttribute, skipEmptyTypes_of_ne hpiece ht, attributeOf, hpiece, attributeFrom]
  dsimp only
  cases hdecode : decodeString t with
  | error e => rfl
  | ok type =>
    cases setValue readPacket v with
    | error e => rfl
    | ok value => exact if_neg fun hnil => ht (by rw [hdecode, hnil])

/-- **Spaces around the type make no difference**, whatever value follows. -/
theorem readAttribute_padType (readPacket : GoString → Except Error (GoString × GoString))
    (h : typeEnd w = some (u, v)) :
    ∃ t, ∀ a b v', readAttribute readPacket (spaces a ++ u ++ spaces b ++ ch '=' :: v') =
      attributeFrom readPacket t v' := by
  induction w using typeEnd.induct generalizing u with
  | case1 w hnone => simp [typeEnd_of_none hnone] at h
  | case2 w t v₀ hsome hempty ih =>
    rw [typeEnd_of_empty hsome hempty, Option.map_eq_some_iff] at h
    obtain ⟨⟨u', v''⟩, hrest, hq⟩ := h
    cases hq
    obtain ⟨t', ht'⟩ := ih hrest
    refine ⟨t', fun a b v' => ?_⟩
    -- the spaces at the start go to the empty type, which stays empty
    obtain ⟨-, hfree, hflag⟩ := typeAndValue_eq_some hsome
    have hpad := free_padded (p := (· = ch '=')) (by decide) hfree hflag a 0
    rw [show spaces 0 = [] from rfl, List.append_nil] at hpad
    have hpiece := typeAndValue_append hpad.1 hpad.2 (u' ++ spaces b ++ ch '=' :: v')
    have hstill : decodeString (spaces a ++ t) = .ok [] := by
      have h0 := decodeString_pad hflag a 0
      rwa [show spaces 0 = [] from rfl, List.append_nil, hempty] at h0
    have hassoc : spaces a ++ (t ++ ch '=' :: u') ++ spaces b ++ ch '=' :: v' =
        spaces a ++ t ++ ch '=' :: (u' ++ spaces b ++ ch '=' :: v') := by simp
    rw [hassoc, readAttribute, skipEmptyTypes_of_empty hpiece hstill]
    exact ht' 0 b v'
  | case3 w t v₀ hsome hne =>
    rw [typeEnd_of_ne hsome hne] at h
    cases h
    obtain ⟨-, hfree, hflag⟩ := typeAndValue_eq_some hsome
    refine ⟨t, fun a b v' => ?_⟩
    have hpad := free_padded (p := (· = ch '=')) (by decide) hfree hflag a b
    have hsame := decodeString_pad hflag a b
    rw [readAttribute_of_type hpad.1 hpad.2 (by rwa [hsame]), attributeFrom, attributeFrom, hsame]

theorem readAttribute_of_typeEnd_none (h : typeEnd w = none) : readAttribute readPacket w = none := by
  rw [readAttribute, attributeOf]
  induction w using typeEnd.induct with
  | case1 w hnone => rw [skipEmptyTypes_of_none hnone, hnone]
  | case2 w t v hsome hempty ih =>
    rw [typeEnd_of_empty hsome hempty, Option.map_eq_none_iff] at h
    rw [skipEmptyTypes_of_empty hsome hempty, ih h]
  | case3 w t v hsome hne =>
    rw [typeEnd_of_ne hsome hne] at h
    cases h

end TypeText

/-! ## The value -/

section Value

variable {readPacket : GoString → Except Error (GoString × GoString)} {v value : GoString}

/-- The data of an element is at most twice as long as the bytes it was read from.  For a primitive element it is its
contents, and for a constructed one the contents encoded anew, with definite lengths. -/
def BoundedData (readPacket : GoString → Except Error (GoString × GoString)) : Prop :=
  ∀ decoded data left, readPacket decoded = .ok (data, left) → data.length ≤ 2 * decoded.length

theorem length_of_hexDecodeString {s d : GoString} (h : hexDecodeString s = some d) : s.length = 2 * d.length := by
  fun_induction hexDecodeString s generalizing d with
  | case1 =>
    cases h
    rfl
  | case2 => cases h
  | case3 x y s ih =>
    obtain ⟨b, -, rest, hrest, rfl⟩ : ∃ b, hexDecodePair x y = some b ∧ ∃ rest, hexDecodeString s = some rest ∧
        b :: rest = d := by
      simpa [Option.bind_eq_some_iff] using h
    simp only [List.length_cons, ih hrest]
    omega

/-- A hexadecimal value is longer than its data. -/
theorem length_lt_of_setValue (hlen : BoundedData readPacket) {s : GoString}
    (h : setValue readPacket (ch '#' :: s) = .ok value) : value.length < (ch '#' :: s).length := by
  rw [setValue_hash] at h
  obtain ⟨decoded, hdecoded⟩ := hexDecodeString_of_decodeEncodedString h
  rw [decodeEncodedString, hdecoded] at h
  dsimp only at h
  rcases hread : readPacket decoded with e | ⟨data, left⟩
  · simp [hread] at h
  · have hdata := hlen decoded data left hread
    rw [hread] at h
    dsimp only at h
    split_ifs at h
    cases h
    rw [List.length_cons, length_of_hexDecodeString hdecoded]
    omega

theorem Unescapes.of_plain {rs : List ℕ} (h : ∀ r ∈ rs, r ≠ rn '\\' ∧ mustBeEscaped r = false ∧ r ≠ 0) :
    Unescapes rs (rs.flatMap encodeRune) := by
  induction rs with
  | nil => exact .nil
  | cons r rs ih =>
    obtain ⟨hr, hm, h0⟩ := h r (by simp)
    exact .plain hr hm h0 (ih fun x hx => h x (by simp [hx]))

theorem hexChar_table {c : UInt8} (hc : c = ch '#' ∨ fromHexChar c ≠ none) : c.toNat < 0x80 ∧ c ≠ ch ' ' ∧
    c.toNat ≠ rn '\\' ∧ mustBeEscaped c.toNat = false ∧ c.toNat ≠ 0 := by
  revert hc
  revert c
  decide +kernel

/-- Taken as it is written, a hexadecimal value stands for itself. -/
theorem decodeString_hex {s : GoString} (h : setValue readPacket (ch '#' :: s) = .ok value) :
    decodeString (ch '#' :: s) = .ok (ch '#' :: s) := by
  rw [setValue_hash] at h
  obtain ⟨d, hd⟩ := hexDecodeString_of_decodeEncodedString h
  have hchar : ∀ c ∈ ch '#' :: s, c = ch '#' ∨ fromHexChar c ≠ none := by
    intro c hc
    rcases List.mem_cons.mp hc with rfl | hc
    · exact .inl rfl
    · exact .inr (fromHexChar_of_hexDecodeString hd c hc)
  have hascii : IsAscii (ch '#' :: s) := fun c hc => (hexChar_table (hchar c hc)).1
  have hlast : (ch '#' :: s).getLast? ≠ some (ch ' ') := fun hl =>
    (hexChar_table (hchar _ (List.mem_of_mem_getLast? hl))).2.1 rfl
  rw [decodeString_eq_ok_iff, strip_eq_self (by simp; decide) (.inl hlast), runes_of_ascii hascii]
  have hplain := Unescapes.of_plain fun r (hr : r ∈ (ch '#' :: s).map UInt8.toNat) => by
    obtain ⟨c, hc, rfl⟩ := List.mem_map.mp hr
    exact (hexChar_table (hchar c hc)).2.2
  have hsame : ((ch '#' :: s).map UInt8.toNat).flatMap encodeRune = ch '#' :: s := by
    rw [List.flatMap_map]
    refine (List.flatMap_congr fun c hc => encodeRune_ascii (hascii c hc)).trans ?_
    simp
  rwa [hsame] at hplain

/-- **Spaces around a value make no difference, unless it is a hexadecimal one.** -/
theorem setValue_pad_iff (hlen : BoundedData readPacket) (hv : setValue readPacket v = .ok value) (c d : ℕ) :
    setValue readPacket (spaces c ++ v ++ spaces d) = .ok value ↔ (v.head? = some (ch '#') → c = 0 ∧ d = 0) := by
  have hflag := pending_of_setValue hv
  by_cases hhash : v.head? = some (ch '#')
  · obtain ⟨s, rfl⟩ := List.head?_eq_some_iff.mp hhash
    rcases Nat.eq_zero_or_pos c with rfl | hc
    · rcases Nat.eq_zero_or_pos d with rfl | hd
      · simpa [spaces] using hv
      · -- the spaces are no hexadecimal digits
        refine iff_of_false (fun h => ?_) fun h => absurd (h hhash).2 (by omega)
        rw [show spaces 0 = [] from rfl, List.nil_append, List.cons_append, setValue_hash] at h
        obtain ⟨decoded, hdecoded⟩ := hexDecodeString_of_decodeEncodedString h
        have hmem : ch ' ' ∈ s ++ spaces d := by simp [spaces, hd.ne']
        exact fromHexChar_of_hexDecodeString hdecoded _ hmem rfl
    · -- the value is taken as it is written
      refine iff_of_false (fun h => ?_) fun h => absurd (h hhash).1 (by omega)
      obtain ⟨c, rfl⟩ := Nat.exists_eq_succ_of_ne_zero hc.ne'
      have hhead : (spaces (c + 1) ++ ch '#' :: s ++ spaces d).head? ≠ some (ch '#') := by
        simp only [spaces, List.replicate_succ, List.cons_append, List.head?_cons]
        decide
      rw [setValue_of_ne hhead, decodeString_pad hflag, decodeString_hex hv] at h
      have hlt := length_lt_of_setValue hlen hv
      rw [← Except.ok.inj h] at hlt
      exact Nat.lt_irrefl _ hlt
  · have hhead : (spaces c ++ v ++ spaces d).head? ≠ some (ch '#') := by
      rw [List.append_assoc, List.head?_append, List.head?_append]
      rcases Nat.eq_zero_or_pos c with rfl | hc
      · cases v with
        | nil =>
          rw [show spaces 0 = [] from rfl, spaces, List.head?_replicate]
          split_ifs <;> decide
        | cons x v => simpa [spaces] using hhash
      · rw [spaces, List.head?_replicate, if_neg hc.ne', Option.some_or]
        decide
    rw [setValue_of_ne hhash] at hv
    rw [setValue_of_ne hhead, decodeString_pad hflag, hv]
    exact iff_of_true rfl fun h => absurd h hhash

end Value

/-! ## Pieces and names -/

section Names

variable {readPacket : GoString → Except Error (GoString × GoString)} {s w : GoString}

theorem padPiece_of_typeEnd {u v : GoString} (h : typeEnd w = some (u, v)) (q : Padding) :
    padPiece q w =
      spaces q.start ++ u ++ spaces q.beforeEquals ++ ch '=' :: (spaces q.afterEquals ++ v ++ spaces q.stop) := by
  rw [padPiece, h]

theorem readAttribute_padPiece_iff (hlen : BoundedData readPacket) {a : AttributeTypeAndValue}
    (ha : readAttribute readPacket w = some a) (q : Padding) :
    readAttribute readPacket (padPiece q w) = some a ↔ q.KeepsHex w := by
  rcases hend : typeEnd w with _ | ⟨u, v⟩
  · rw [readAttribute_of_typeEnd_none hend] at ha
    cases ha
  · obtain ⟨t, ht⟩ := readAttribute_padType readPacket hend
    have hw : spaces 0 ++ u ++ spaces 0 ++ ch '=' :: v = w := by
      rw [(typeEnd_eq_some hend).1]
      simp [spaces]
    have hsome := ht 0 0 v
    rw [hw, ha, eq_comm, attributeFrom_eq_some] at hsome
    rw [padPiece_of_typeEnd hend, ht, attributeFrom_eq_some, and_iff_right hsome.1, setValue_pad_iff hlen hsome.2]
    refine ⟨fun h u' v' h' => ?_, fun h => h u v hend⟩
    cases hend.symm.trans h'
    exact h

/-- Spaces do not cut a piece. -/
theorem free_padPiece (hw : Free (ch '\\') IsSeparator false w) (hflag : pending (ch '\\') false w = false)
    (q : Padding) : Free (ch '\\') IsSeparator false (padPiece q w) ∧ pending (ch '\\') false (padPiece q w) = false := by
  rcases hend : typeEnd w with _ | ⟨u, v⟩
  · rw [padPiece, hend]
    exact free_padded (by decide) hw hflag _ _
  · obtain ⟨rfl, hu⟩ := typeEnd_eq_some hend
    rw [free_append, hu] at hw
    rw [pending_append, hu] at hflag
    obtain ⟨hfreeu, hcut, hfreev⟩ := hw
    have hpadu := free_padded (by decide) hfreeu hu q.start q.beforeEquals
    have hpadv := free_padded (by decide) hfreev hflag q.afterEquals q.stop
    rw [padPiece_of_typeEnd hend]
    constructor
    · refine free_append.mpr ⟨hpadu.1, ?_⟩
      rw [hpadu.2]
      exact ⟨hcut, hpadv.1⟩
    · rw [pending_append, hpadu.2]
      exact hpadv.2

/-- The attributes of a padded name: the same, or others with the same separators. -/
theorem attributesOf_pad (hlen : BoundedData readPacket) (padding : ℕ → Padding)
    {p : AttributeTypeAndValue × List (UInt8 × AttributeTypeAndValue)}
    (h : attributesOf (readAttribute readPacket) s = some p) :
    (attributesOf (readAttribute readPacket) (pad padding s) = some p ↔
      ∀ i piece, (allPieces s)[i]? = some piece → (padding i).KeepsHex piece) ∧
    ∀ p', attributesOf (readAttribute readPacket) (pad padding s) = some p' →
      p'.2.map Prod.fst = p.2.map Prod.fst := by
  induction s using cut_induction (ch '\\') IsSeparator generalizing p padding with
  | free w hw =>
    rw [attributesOf_free hw, Option.map_eq_some_iff] at h
    obtain ⟨a, ha, rfl⟩ := h
    have hpad := free_padPiece hw (pending_of_readAttribute ha) (padding 0)
    rw [pad_free padding hw, attributesOf_free hpad.1, allPieces_free hw]
    constructor
    · have hone : (∀ i piece, [w][i]? = some piece → (padding i).KeepsHex piece) ↔ (padding 0).KeepsHex w := by
        refine ⟨fun h => h 0 w rfl, fun h i piece hi => ?_⟩
        obtain ⟨rfl, rfl⟩ : i = 0 ∧ w = piece := by simpa [List.getElem?_singleton] using hi
        exact h
      rw [hone, ← readAttribute_padPiece_iff hlen ha]
      simp
    · intro p' hp'
      obtain ⟨a', -, rfl⟩ := Option.map_eq_some_iff.mp hp'
      rfl
  | piece w c r hw hc ih =>
    rw [attributesOf_piece hw hc, Option.bind_eq_some_iff] at h
    obtain ⟨a, ha, hr⟩ := h
    obtain ⟨p, hp, rfl⟩ := Option.map_eq_some_iff.mp hr
    have hpad := free_padPiece hw (pending_of_readAttribute ha) (padding 0)
    have hcut : Cuts (ch '\\') IsSeparator (pending (ch '\\') false (padPiece (padding 0) w)) c :=
      ⟨hpad.2, hc.2⟩
    obtain ⟨ih1, ih2⟩ := ih (fun i => padding (i + 1)) hp
    rw [pad_piece padding hw hc, attributesOf_piece hpad.1 hcut, allPieces_piece hw hc]
    constructor
    · have hcons : (∀ i piece, (w :: allPieces r)[i]? = some piece → (padding i).KeepsHex piece) ↔
          (padding 0).KeepsHex w ∧ ∀ i piece, (allPieces r)[i]? = some piece → (padding (i + 1)).KeepsHex piece := by
        refine ⟨fun h => ⟨h 0 w rfl, fun i piece hi => h (i + 1) piece hi⟩, fun h i piece hi => ?_⟩
        cases i with
        | zero =>
          cases hi
          exact h.1
        | succ i => exact h.2 i piece hi
      rw [hcons, ← readAttribute_padPiece_iff hlen ha, ← ih1]
      cases readAttribute readPacket (padPiece (padding 0) w) with
      | none => simp
      | some a' =>
        cases attributesOf (readAttribute readPacket) (pad (fun i => padding (i + 1)) r) with
        | none => simp
        | some p' => simp [Prod.ext_iff]
    · intro p' hp'
      obtain ⟨a', -, hr'⟩ := Option.bind_eq_some_iff.mp hp'
      obtain ⟨p'', hp'', rfl⟩ := Option.map_eq_some_iff.mp hr'
      simp [ih2 p'' hp'']

theorem attributes_rdnsOf (a : AttributeTypeAndValue) (as : List (UInt8 × AttributeTypeAndValue)) :
    (rdnsOf a as).flatMap RelativeDN.attributes = a :: as.map Prod.snd := by
  induction as generalizing a with
  | nil => rfl
  | cons q as ih =>
    obtain ⟨r, rs, hrs⟩ := List.exists_cons_of_ne_nil (rdnsOf_ne_nil q.2 as)
    have hq := ih q.2
    rw [rdnsOf]
    split_ifs
    · rw [hrs] at hq ⊢
      simpa [joinFirst] using hq
    · rw [List.flatMap_cons, hq]
      rfl

/-- The RDNs and the separators determine the attributes. -/
theorem rdnsOf_inj {a a' : AttributeTypeAndValue} {as as' : List (UInt8 × AttributeTypeAndValue)}
    (hsep : as'.map Prod.fst = as.map Prod.fst) (h : rdnsOf a' as' = rdnsOf a as) : a' = a ∧ as' = as := by
  have hattr := congrArg (List.flatMap RelativeDN.attributes) h
  rw [attributes_rdnsOf, attributes_rdnsOf, List.cons.injEq] at hattr
  refine ⟨hattr.1, ?_⟩
  rw [← List.zip_unzip as', ← List.zip_unzip as, List.unzip_eq_map, List.unzip_eq_map, hsep, hattr.2]

/-- There is a `=` in a padded name. -/
theorem isBlank_pad {d : DN} (hs : isBlank s = false) (hd : parseDN readPacket s = .ok d) (padding : ℕ → Padding) :
    isBlank (pad padding s) = false := by
  have hfirst : readAttribute readPacket (pieces s).1 ≠ none := by
    intro hnone
    obtain ⟨a, as, has, -⟩ := (parseDN_eq_ok_iff hs).mp hd
    rw [attributesOf_eq_none_iff.mpr ⟨_, by simp [allPieces], hnone⟩] at has
    cases has
  rcases hend : typeEnd (pieces s).1 with _ | ⟨u, v⟩
  · exact absurd (readAttribute_of_typeEnd_none hend) hfirst
  · refine isBlank_of_equals ?_
    rw [pad, padPiece_of_typeEnd hend]
    simp

end Names

/-- A padded name is read as the name exactly if no spaces were inserted next to a hexadecimal value. -/
theorem parseDN_pad_iff (readPacket : GoString → Except Error (GoString × GoString)) (hlen : BoundedData readPacket)
    (s : GoString) (d : DN) (hs : isBlank s = false) (hd : parseDN readPacket s = .ok d) (padding : ℕ → Padding) :
    parseDN readPacket (pad padding s) = .ok d ↔
      ∀ i piece, (allPieces s)[i]? = some piece → (padding i).KeepsHex piece := by
  have hblank := isBlank_pad hs hd padding
  obtain ⟨a, as, has, rfl⟩ := (parseDN_eq_ok_iff hs).mp hd
  obtain ⟨hiff, hsep⟩ := attributesOf_pad hlen padding has
  rw [← hiff, parseDN_eq_ok_iff hblank]
  constructor
  · rintro ⟨a', as', has', heq⟩
    obtain ⟨rfl, rfl⟩ := rdnsOf_inj (hsep _ has') (congrArg DN.rdns heq).symm
    exact has'
  · exact fun h => ⟨a, as, h, rfl⟩

/-- A reader of elements with a length of one byte. -/
def readShort : GoString → Except Error (GoString × GoString)
  | _ :: n :: s => .ok (s.take n.toNat, s.drop n.toNat)
  | _ => .error (.new "unexpected EOF")

theorem boundedData_readShort : BoundedData readShort := by
  rintro (_ | ⟨x, _ | ⟨n, s⟩⟩) data left h
  · cases h
  · cases h
  · cases h
    simp only [List.length_take, List.length_cons]
    omega

/-- One space at each place of a name of one attribute. -/
theorem parseDN_pad_one :
    parseDN readShort (str "cn=x") = .ok ⟨[⟨[⟨str "cn", str "x"⟩]⟩]⟩ ∧
      (parseDN readShort (pad (fun _ => ⟨1, 1, 1, 1⟩) (str "cn=x")) = .ok ⟨[⟨[⟨str "cn", str "x"⟩]⟩]⟩ ↔
        ∀ (i : ℕ) piece, (allPieces (str "cn=x"))[i]? = some piece → Padding.KeepsHex ⟨1, 1, 1, 1⟩ piece) :=
  ⟨rfl, parseDN_pad_iff readShort boundedData_readShort _ _ (by decide) rfl fun _ => ⟨1, 1, 1, 1⟩⟩

/-- The element `04 01 48` as a value: with a space before the `#` it is read as it is written, and with a space behind
the digits it is rejected. -/
theorem parseDN_pad_hex :
    parseDN readShort (str "a=#040148") = .ok ⟨[⟨[⟨str "a", str "H"⟩]⟩]⟩ ∧
      pad (fun _ => ⟨0, 0, 1, 0⟩) (str "a=#040148") = str "a= #040148" ∧
      parseDN readShort (str "a= #040148") = .ok ⟨[⟨[⟨str "a", str "#040148"⟩]⟩]⟩ ∧
      pad (fun _ => ⟨0, 0, 0, 1⟩) (str "a=#040148") = str "a=#040148 " ∧
      (parseDN readShort (str "a=#040148 ")).toOption = none := by
  have hpieces : pieces (str "a=#040148") = (str "a=#040148", []) := by decide +kernel
  have hend : typeEnd (str "a=#040148") = some (str "a", str "#040148") :=
    typeEnd_of_ne (by decide +kernel) (by decide +kernel)
  refine ⟨except_toOption_eq_some.mp (by decide +kernel), ?_, except_toOption_eq_some.mp (by decide +kernel), ?_,
    by decide +kernel⟩
  · rw [pad, hpieces, padPiece_of_typeEnd hend]
    rfl
  · rw [pad, hpieces, padPiece_of_typeEnd hend]
    rfl

end GoLdap
