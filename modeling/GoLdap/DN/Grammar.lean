import GoLdap.DN.Decode

/-!
# DN.Grammar — the grammar of names and what `ParseDN` makes of it

A name is cut into pieces at its unescaped separators, and a piece into a type and a value at its first unescaped `=`.
`ParseDN` finds the same pieces in one scan.  It keeps no flag for "the type was read" but looks at the type itself, so a
`=` behind an empty type starts the type anew.

* `parseFrom_eq`: the scan, with any RDNs and attributes read before, is the reading of the pieces.
* `parseDN_eq_nameOf`: `ParseDN` is the grammar on pieces whose empty types are skipped.
* `parseDN_eq_grammar_iff`: so it accepts the grammar unless only an empty type makes the difference.
-/

namespace GoLdap

open Go Escaped

/-! ## The grammar -/

/-- The characters between attributes. -/
def IsSeparator (c : UInt8) : Prop := c = ch ',' ∨ c = ch '+' ∨ c = ch ';'

instance : DecidablePred IsSeparator := fun _ => inferInstanceAs (Decidable (_ ∨ _))

/-- The first piece of a name, and the others with the separators in front of them. -/
def pieces (s : GoString) : GoString × List (UInt8 × GoString) := cut (ch '\\') IsSeparator false s

/-- The text before and behind the first unescaped `=` of a piece. -/
def typeAndValue (piece : GoString) : Option (GoString × GoString) :=
  (first (ch '\\') (· = ch '=') false piece).map fun r => (r.1, r.2.2)

/-- Attributes in front of those of the first RDN. -/
def joinFirst (attributes : List AttributeTypeAndValue) : List RelativeDN → List RelativeDN
  | [] => []
  | r :: rs => ⟨attributes ++ r.attributes⟩ :: rs

/-- The RDNs of attributes with separators between them; a `+` joins two attributes in one RDN. -/
def rdnsOf : AttributeTypeAndValue → List (UInt8 × AttributeTypeAndValue) → List RelativeDN
  | a, [] => [⟨[a]⟩]
  | a, (c, b) :: rest => if c = ch '+' then joinFirst [a] (rdnsOf b rest) else ⟨[a]⟩ :: rdnsOf b rest

/-- The attributes that `read` finds in the pieces of a name. -/
def attributesOf (read : GoString → Option AttributeTypeAndValue) (s : GoString) :
    Option (AttributeTypeAndValue × List (UInt8 × AttributeTypeAndValue)) := do
  let a ← read (pieces s).1
  let rest ← (pieces s).2.mapM fun q => (read q.2).map (q.1, ·)
  some (a, rest)

/-- The name whose pieces are read by `read`. -/
def nameOf (read : GoString → Option AttributeTypeAndValue) (s : GoString) : Option DN :=
  (attributesOf read s).map fun p => ⟨rdnsOf p.1 p.2⟩

section

variable (readPacket : GoString → Except Error (GoString × GoString))

/-- The attribute a piece stands for: a type that is not empty, and a value. -/
def attributeOf (piece : GoString) : Option AttributeTypeAndValue :=
  match typeAndValue piece with
  | none => none
  | some (t, v) =>
    match decodeString t, setValue readPacket v with
    | .ok type, .ok value => if type = [] then none else some ⟨type, value⟩
    | _, _ => none

end

/-- Only spaces before the first unescaped `=`. -/
def EmptyType (piece : GoString) : Prop := ∃ t v, typeAndValue piece = some (t, v) ∧ decodeString t = .ok []

theorem typeAndValue_eq_some {piece t v : GoString} (h : typeAndValue piece = some (t, v)) :
    piece = t ++ ch '=' :: v ∧ Free (ch '\\') (· = ch '=') false t ∧ pending (ch '\\') false t = false := by
  obtain ⟨⟨t', c, v'⟩, hfirst, heq⟩ := Option.map_eq_some_iff.mp h
  cases heq
  obtain ⟨rfl, hfree, hflag, -, rfl⟩ := first_eq_some hfirst
  exact ⟨rfl, hfree, hflag⟩

/-- The value starts anew, outside of any escape. -/
theorem pending_value {w t v : GoString} (h : typeAndValue w = some (t, v)) :
    pending (ch '\\') false w = pending (ch '\\') false v := by
  obtain ⟨rfl, -, hflag⟩ := typeAndValue_eq_some h
  rw [pending_append, hflag]
  rfl

theorem free_value {w t v : GoString} {p : UInt8 → Prop} (hw : Free (ch '\\') p false w)
    (h : typeAndValue w = some (t, v)) : Free (ch '\\') p false v := by
  obtain ⟨rfl, -, hflag⟩ := typeAndValue_eq_some h
  have hv := (free_append.mp hw).2.2
  rwa [hflag] at hv

theorem typeAndValue_append {t : GoString} (hfree : Free (ch '\\') (· = ch '=') false t)
    (hflag : pending (ch '\\') false t = false) (v : GoString) : typeAndValue (t ++ ch '=' :: v) = some (t, v) := by
  rw [typeAndValue, first_append hfree ⟨hflag, by decide, rfl⟩]
  rfl

/-- A piece behind its empty types. -/
def skipEmptyTypes (piece : GoString) : GoString :=
  match _h : typeAndValue piece with
  | none => piece
  | some (t, v) => if decodeString t = .ok [] then skipEmptyTypes v else piece
termination_by piece.length
decreasing_by
  rw [(typeAndValue_eq_some _h).1, List.length_append, List.length_cons]
  omega

theorem skipEmptyTypes_of_none {w : GoString} (h : typeAndValue w = none) : skipEmptyTypes w = w := by
  rw [skipEmptyTypes]
  split
  · rfl
  · simp_all

theorem skipEmptyTypes_of_empty {w t v : GoString} (h : typeAndValue w = some (t, v)) (ht : decodeString t = .ok []) :
    skipEmptyTypes w = skipEmptyTypes v := by
  rw [skipEmptyTypes]
  split
  · simp_all
  · rename_i heq
    cases h.symm.trans heq
    rw [if_pos ht]

theorem skipEmptyTypes_of_ne {w t v : GoString} (h : typeAndValue w = some (t, v)) (ht : decodeString t ≠ .ok []) :
    skipEmptyTypes w = w := by
  rw [skipEmptyTypes]
  split
  · rfl
  · rename_i heq
    cases h.symm.trans heq
    rw [if_neg ht]

theorem pending_skipEmptyTypes (w : GoString) :
    pending (ch '\\') false (skipEmptyTypes w) = pending (ch '\\') false w := by
  induction w using skipEmptyTypes.induct with
  | case1 w hnone => rw [skipEmptyTypes_of_none hnone]
  | case2 w t v hsome hempty ih =>
    rw [skipEmptyTypes_of_empty hsome hempty, ih, pending_value hsome]
  | case3 w t v hsome hne => rw [skipEmptyTypes_of_ne hsome hne]

theorem attributesOf_free {read : GoString → Option AttributeTypeAndValue} {w : GoString}
    (hw : Free (ch '\\') IsSeparator false w) : attributesOf read w = (read w).map fun a => (a, []) := by
  rw [attributesOf, pieces, cut_of_free hw]
  cases read w <;> rfl

/-- Two names with a separator between them have the attributes of both. -/
theorem attributesOf_append {read : GoString → Option AttributeTypeAndValue} {s r : GoString} {c : UInt8}
    (hc : Cuts (ch '\\') IsSeparator (pending (ch '\\') false s) c) :
    attributesOf read (s ++ c :: r) =
      (attributesOf read s).bind fun p => (attributesOf read r).map fun q => (p.1, p.2 ++ (c, q.1) :: q.2) := by
  unfold attributesOf pieces
  rw [cut_append hc]
  dsimp only
  rw [List.mapM_append, List.mapM_cons]
  cases read (cut (ch '\\') IsSeparator false s).1 with
  | none => rfl
  | some a =>
    cases (cut (ch '\\') IsSeparator false s).2.mapM fun q => (read q.2).map (q.1, ·) with
    | none => rfl
    | some as =>
      cases read (cut (ch '\\') IsSeparator false r).1 with
      | none => rfl
      | some b => cases (cut (ch '\\') IsSeparator false r).2.mapM fun q => (read q.2).map (q.1, ·) <;> rfl

theorem attributesOf_piece {read : GoString → Option AttributeTypeAndValue} {w r : GoString} {c : UInt8}
    (hw : Free (ch '\\') IsSeparator false w) (hc : Cuts (ch '\\') IsSeparator (pending (ch '\\') false w) c) :
    attributesOf read (w ++ c :: r) =
      (read w).bind fun a => (attributesOf read r).map fun p => (a, (c, p.1) :: p.2) := by
  rw [attributesOf_append hc, attributesOf_free hw, Option.bind_map]
  rfl

/-! ## The scan of one piece -/

section Scan

variable {readPacket : GoString → Except Error (GoString × GoString)}

/-- A character that does not end a type, a value or an attribute is added to the token. -/
theorem parseStep_token {st : ParseState} {c : UInt8}
    (h : ¬ Cuts (ch '\\') (fun c => IsSeparator c ∨ c = ch '=' ∧ st.type = []) st.escaping c) :
    parseStep readPacket st c =
      .ok { st with escaping := next (ch '\\') st.escaping c, token := st.token ++ [c] } := by
  unfold parseStep
  split_ifs with hesc hslash heq hsep
  · simp [next, hesc]
  · have hesc' : st.escaping = false := by simpa using hesc
    simp [next, hesc', hslash]
  · exact absurd ⟨by simpa using hesc, hslash, .inr ⟨heq.1, List.length_eq_zero_iff.mp heq.2⟩⟩ h
  · exact absurd ⟨by simpa using hesc, hslash, .inl hsep⟩ h
  · exact absurd ⟨by simpa using hesc, hslash, .inl hsep⟩ h
  · have hesc' : st.escaping = false := by simpa using hesc
    simp [next_of_ne _ hslash, hesc']

/-- The scan of a text in which nothing ends. -/
theorem foldlM_token {st : ParseState} {w : GoString}
    (h : Free (ch '\\') (fun c => IsSeparator c ∨ c = ch '=' ∧ st.type = []) st.escaping w) :
    w.foldlM (parseStep readPacket) st =
      .ok { st with escaping := pending (ch '\\') st.escaping w, token := st.token ++ w } := by
  induction w generalizing st with
  | nil => simp [pure, Except.pure]
  | cons c w ih =>
    rw [List.foldlM_cons, parseStep_token h.1, except_ok_bind, ih h.2]
    simp

/-- The state at the start of a piece. -/
def ParseState.fresh (rdns : List RelativeDN) (attributes : List AttributeTypeAndValue) : ParseState :=
  ⟨rdns, attributes, [], false, []⟩

/-- A `=` without a type before it. -/
theorem parseStep_equals {st : ParseState} (hesc : st.escaping = false) (htype : st.type = []) :
    parseStep readPacket st (ch '=') =
      match decodeString st.token with
      | .error e => .error ⟨e, none⟩
      | .ok t => .ok { st with type := t, token := [] } := by
  unfold parseStep
  rw [hesc, if_neg (by simp), if_neg (by decide)]
  exact if_pos ⟨rfl, by rw [htype]; rfl⟩

/-- A separator ends an attribute. -/
theorem parseStep_separator {st : ParseState} {c : UInt8} (hesc : st.escaping = false) (hc : IsSeparator c) :
    (parseStep readPacket st c).toOption =
      if st.type = [] then none
      else (setValue readPacket st.token).toOption.map fun v =>
        st.appendAttributesToRDN v (c = ch ',' ∨ c = ch ';') := by
  have hslash : c ≠ ch '\\' := by rcases hc with rfl | rfl | rfl <;> decide
  have heq : c ≠ ch '=' := by rcases hc with rfl | rfl | rfl <;> decide
  unfold parseStep
  rw [hesc, if_neg (by simp), if_neg hslash, if_neg (fun h => heq h.1), if_pos (show c = _ ∨ _ from hc)]
  by_cases htype : st.type = []
  · rw [if_pos (by rw [htype]; rfl), if_pos htype]
    rfl
  · rw [if_neg (fun h => htype (List.length_eq_zero_iff.mp h)), if_neg htype]
    cases setValue readPacket st.token <;> rfl

theorem parseEnd_toOption (st : ParseState) :
    (parseEnd readPacket st).toOption =
      if st.type = [] then none
      else (setValue readPacket st.token).toOption.map fun v => ⟨(st.appendAttributesToRDN v true).rdns⟩ := by
  unfold parseEnd
  by_cases htype : st.type = []
  · rw [if_pos (by rw [htype]; rfl), if_pos htype]
    rfl
  · rw [if_neg (fun h => htype (List.length_eq_zero_iff.mp h)), if_neg htype]
    cases setValue readPacket st.token <;> rfl

/-- The scan up to the first `=` of a piece. -/
theorem foldlM_typeAndValue {w t v : GoString} (hw : Free (ch '\\') IsSeparator false w)
    (h : typeAndValue w = some (t, v)) (rdns : List RelativeDN) (attributes : List AttributeTypeAndValue) :
    w.foldlM (parseStep readPacket) (.fresh rdns attributes) =
      match decodeString t with
      | .error e => .error ⟨e, none⟩
      | .ok type => v.foldlM (parseStep readPacket) ⟨rdns, attributes, type, false, []⟩ := by
  obtain ⟨rfl, hfree, hflag⟩ := typeAndValue_eq_some h
  have htoken : t.foldlM (parseStep readPacket) (.fresh rdns attributes) = .ok ⟨rdns, attributes, [], false, t⟩ := by
    rw [foldlM_token ((free_append.mp hw).1.or (hfree.mono fun c hc => hc.1))]
    simp [ParseState.fresh, hflag]
  rw [List.foldlM_append, htoken, except_ok_bind, List.foldlM_cons, parseStep_equals rfl rfl]
  dsimp only
  cases decodeString t <;> rfl

/-- The scan of a piece: behind its empty types it has a type and a value, or no type at all. -/
theorem foldlM_piece {w : GoString} (hw : Free (ch '\\') IsSeparator false w) (rdns : List RelativeDN)
    (attributes : List AttributeTypeAndValue) :
    (w.foldlM (parseStep readPacket) (.fresh rdns attributes)).toOption =
      match typeAndValue (skipEmptyTypes w) with
      | none => some ⟨rdns, attributes, [], pending (ch '\\') false w, skipEmptyTypes w⟩
      | some (t, v) =>
        (decodeString t).toOption.map fun type => ⟨rdns, attributes, type, pending (ch '\\') false w, v⟩ := by
  induction w using skipEmptyTypes.induct with
  | case1 w hnone =>
    have hfree : Free (ch '\\') (· = ch '=') false w := by
      rwa [typeAndValue, Option.map_eq_none_iff, first_eq_none_iff] at hnone
    rw [skipEmptyTypes_of_none hnone, hnone, foldlM_token (hw.or (hfree.mono fun c hc => hc.1))]
    rfl
  | case2 w t v hsome hempty ih =>
    -- the type is still empty, and the scan goes on as at the start of a piece
    rw [foldlM_typeAndValue hw hsome, hempty, skipEmptyTypes_of_empty hsome hempty, pending_value hsome]
    exact ih (free_value hw hsome)
  | case3 w t v hsome hne =>
    rw [foldlM_typeAndValue hw hsome, skipEmptyTypes_of_ne hsome hne, hsome, pending_value hsome]
    dsimp only
    cases ht : decodeString t with
    | error e => rfl
    | ok type =>
      have htype : type ≠ [] := fun h => hne (by rw [ht, h])
      have hrun : v.foldlM (parseStep readPacket) ⟨rdns, attributes, type, false, []⟩ =
          .ok ⟨rdns, attributes, type, pending (ch '\\') false v, v⟩ := by
        refine foldlM_token ((free_value hw hsome).mono fun c hc => ?_)
        exact hc.resolve_right fun h => htype h.2
      dsimp only
      rw [hrun]
      rfl

theorem except_toOption_bind {ε α β : Type} (x : Except ε α) (f : α → Except ε β) :
    (x >>= f).toOption = x.toOption.bind fun a => (f a).toOption := by
  cases x <;> rfl

/-- The attribute of a piece, read by the scan. -/
def readAttribute (readPacket : GoString → Except Error (GoString × GoString)) (piece : GoString) :
    Option AttributeTypeAndValue := attributeOf readPacket (skipEmptyTypes piece)

/-- What the scan makes of a piece, when `finish` is what ends its attribute. -/
theorem foldlM_piece_bind {β : Type} {w : GoString} (hw : Free (ch '\\') IsSeparator false w)
    {rdns : List RelativeDN} {attributes : List AttributeTypeAndValue} {finish : ParseState → Option β}
    (result : AttributeTypeAndValue → β)
    (hfinish : ∀ type v, finish ⟨rdns, attributes, type, pending (ch '\\') false w, v⟩ =
      if type = [] then none else (setValue readPacket v).toOption.map fun value => result ⟨type, value⟩) :
    (w.foldlM (parseStep readPacket) (.fresh rdns attributes)).toOption.bind finish =
      (readAttribute readPacket w).map result := by
  rw [foldlM_piece hw, readAttribute, attributeOf]
  rcases typeAndValue (skipEmptyTypes w) with _ | ⟨t, v⟩
  · exact hfinish [] _
  · dsimp only
    cases decodeString t with
    | error e => rfl
    | ok type =>
      refine (hfinish type v).trans ?_
      cases setValue readPacket v with
      | error e => split_ifs <;> rfl
      | ok value =>
        by_cases htype : type = []
        · simp [htype]
        · simp [htype, Except.toOption]

/-- The end of a name ends the attribute of its last piece. -/
theorem parse_lastPiece {w : GoString} (hw : Free (ch '\\') IsSeparator false w) (rdns : List RelativeDN)
    (attributes : List AttributeTypeAndValue) :
    (w.foldlM (parseStep readPacket) (.fresh rdns attributes) >>= parseEnd readPacket).toOption =
      (readAttribute readPacket w).map fun a => ⟨rdns ++ [⟨attributes ++ [a]⟩]⟩ := by
  rw [except_toOption_bind]
  refine foldlM_piece_bind hw (fun a => (⟨rdns ++ [⟨attributes ++ [a]⟩]⟩ : DN)) fun type v => ?_
  rw [parseEnd_toOption]
  rfl

/-- A separator ends the attribute of the piece before it. -/
theorem parse_piece {w : GoString} {c : UInt8} (hw : Free (ch '\\') IsSeparator false w)
    (hc : Cuts (ch '\\') IsSeparator (pending (ch '\\') false w) c) (rdns : List RelativeDN)
    (attributes : List AttributeTypeAndValue) :
    (w.foldlM (parseStep readPacket) (.fresh rdns attributes) >>= (parseStep readPacket · c)).toOption =
      (readAttribute readPacket w).map fun a =>
        if c = ch '+' then .fresh rdns (attributes ++ [a]) else .fresh (rdns ++ [⟨attributes ++ [a]⟩]) [] := by
  obtain ⟨hflag, -, hsep⟩ := hc
  rw [except_toOption_bind]
  refine foldlM_piece_bind hw
    (fun a => if c = ch '+' then ParseState.fresh rdns (attributes ++ [a])
      else .fresh (rdns ++ [⟨attributes ++ [a]⟩]) [])
    fun type v => ?_
  rw [parseStep_separator hflag hsep]
  have hlast : decide (c = ch ',' ∨ c = ch ';') = !decide (c = ch '+') := by
    rcases hsep with rfl | rfl | rfl <;> rfl
  simp only [ParseState.appendAttributesToRDN, hlast]
  by_cases hplus : c = ch '+'
  · simp [hplus, ParseState.fresh]
  · simp [hplus, ParseState.fresh]

theorem joinFirst_cons (xs : List AttributeTypeAndValue) (r : RelativeDN) (l : List RelativeDN) :
    joinFirst xs (r :: l) = ⟨xs ++ r.attributes⟩ :: l := rfl

theorem joinFirst_nil (l : List RelativeDN) : joinFirst [] l = l := by
  cases l <;> rfl

theorem joinFirst_joinFirst (xs ys : List AttributeTypeAndValue) (l : List RelativeDN) :
    joinFirst xs (joinFirst ys l) = joinFirst (xs ++ ys) l := by
  cases l with
  | nil => rfl
  | cons r l => simp [joinFirst]

/-- The scan from the start of a piece on reads the attributes of the pieces, behind what was read before. -/
theorem parseFrom_eq (s : GoString) (rdns : List RelativeDN) (attributes : List AttributeTypeAndValue) :
    (s.foldlM (parseStep readPacket) (.fresh rdns attributes) >>= parseEnd readPacket).toOption =
      (attributesOf (readAttribute readPacket) s).map fun p =>
        ⟨rdns ++ joinFirst attributes (rdnsOf p.1 p.2)⟩ := by
  induction s using cut_induction (ch '\\') IsSeparator generalizing rdns attributes with
  | free w hw =>
    rw [parse_lastPiece hw, attributesOf_free hw, Option.map_map]
    rfl
  | piece w c r hw hc ih =>
    have hcut : ((w ++ c :: r).foldlM (parseStep readPacket) (.fresh rdns attributes) >>= parseEnd readPacket) =
        (w.foldlM (parseStep readPacket) (.fresh rdns attributes) >>= (parseStep readPacket · c)) >>=
          fun st => r.foldlM (parseStep readPacket) st >>= parseEnd readPacket := by
      simp only [List.foldlM_append, List.foldlM_cons, bind_assoc]
    rw [hcut, except_toOption_bind, parse_piece hw hc, attributesOf_piece hw hc]
    cases readAttribute readPacket w with
    | none => rfl
    | some a =>
      simp only [Option.map_some, Option.bind_some, Option.map_map]
      split_ifs with hplus
      · rw [ih]
        congr 1
        funext p
        simp [rdnsOf, hplus, joinFirst_joinFirst]
      · rw [ih]
        congr 1
        funext p
        simp [rdnsOf, hplus, joinFirst_cons, joinFirst_nil]

/-- **`ParseDN` reads the pieces**, skipping empty types. -/
theorem parseDN_eq_nameOf {s : GoString} (hs : isBlank s = false) :
    (parseDN readPacket s).toOption = nameOf (readAttribute readPacket) s := by
  unfold parseDN
  rw [hs, if_neg (by simp)]
  refine (parseFrom_eq s [] []).trans ?_
  simp only [nameOf, List.nil_append, joinFirst_nil]

end Scan

/-! ## The grammar and the scan -/

/-- All pieces of a name. -/
def allPieces (s : GoString) : List GoString := (pieces s).1 :: (pieces s).2.map Prod.snd

theorem allPieces_free {w : GoString} (hw : Free (ch '\\') IsSeparator false w) : allPieces w = [w] := by
  rw [allPieces, pieces, cut_of_free hw]
  rfl

theorem allPieces_piece {w r : GoString} {c : UInt8} (hw : Free (ch '\\') IsSeparator false w)
    (hc : Cuts (ch '\\') IsSeparator (pending (ch '\\') false w) c) :
    allPieces (w ++ c :: r) = w :: allPieces r := by
  rw [allPieces, pieces, cut_append hc, cut_of_free hw]
  rfl

theorem attributesOf_congr {read read' : GoString → Option AttributeTypeAndValue} {s : GoString}
    (h : ∀ piece ∈ allPieces s, read piece = read' piece) : attributesOf read s = attributesOf read' s := by
  induction s using cut_induction (ch '\\') IsSeparator with
  | free w hw =>
    rw [allPieces_free hw, List.forall_mem_singleton] at h
    rw [attributesOf_free hw, attributesOf_free hw, h]
  | piece w c r hw hc ih =>
    rw [allPieces_piece hw hc, List.forall_mem_cons] at h
    rw [attributesOf_piece hw hc, attributesOf_piece hw hc, h.1, ih h.2]

/-- A name is read exactly if all its pieces are. -/
theorem attributesOf_eq_none_iff {read : GoString → Option AttributeTypeAndValue} {s : GoString} :
    attributesOf read s = none ↔ ∃ piece ∈ allPieces s, read piece = none := by
  induction s using cut_induction (ch '\\') IsSeparator with
  | free w hw =>
    rw [allPieces_free hw, attributesOf_free hw, Option.map_eq_none_iff]
    simp
  | piece w c r hw hc ih =>
    rw [allPieces_piece hw hc, attributesOf_piece hw hc, List.exists_mem_cons_iff, ← ih]
    cases read w with
    | none => simp
    | some a => simp

section

variable {readPacket : GoString → Except Error (GoString × GoString)}

theorem attributeOf_of_emptyType {piece : GoString} (h : EmptyType piece) : attributeOf readPacket piece = none := by
  obtain ⟨t, v, hsome, ht⟩ := h
  rw [attributeOf, hsome]
  dsimp only
  rw [ht]
  cases setValue readPacket v <;> rfl

theorem readAttribute_of_not_emptyType {piece : GoString} (h : ¬ EmptyType piece) :
    readAttribute readPacket piece = attributeOf readPacket piece := by
  rw [readAttribute]
  cases hpiece : typeAndValue piece with
  | none => rw [skipEmptyTypes_of_none hpiece]
  | some tv => rw [skipEmptyTypes_of_ne hpiece fun ht => h ⟨tv.1, tv.2, hpiece, ht⟩]

end

/-- `ParseDN` accepts the grammar, with the name of the grammar, unless a piece has an empty type and every piece is an
attribute behind its empty types. -/
theorem parseDN_eq_grammar_iff (readPacket : GoString → Except Error (GoString × GoString)) (s : GoString)
    (hs : isBlank s = false) :
    (parseDN readPacket s).toOption = nameOf (attributeOf readPacket) s ↔
      (∀ piece ∈ allPieces s, ¬ EmptyType piece) ∨
        ∃ piece ∈ allPieces s, attributeOf readPacket (skipEmptyTypes piece) = none := by
  rw [parseDN_eq_nameOf hs]
  by_cases hempty : ∃ piece ∈ allPieces s, EmptyType piece
  · obtain ⟨piece, hmem, hpiece⟩ := hempty
    have hgrammar : attributesOf (attributeOf readPacket) s = none :=
      attributesOf_eq_none_iff.mpr ⟨piece, hmem, attributeOf_of_emptyType hpiece⟩
    have hread : attributesOf (readAttribute readPacket) s = none ↔
        ∃ piece ∈ allPieces s, attributeOf readPacket (skipEmptyTypes piece) = none := attributesOf_eq_none_iff
    rw [nameOf, nameOf, hgrammar, Option.map_none, Option.map_eq_none_iff, hread]
    exact (or_iff_right fun hall => hall piece hmem hpiece).symm
  · have hall : ∀ piece ∈ allPieces s, ¬ EmptyType piece := fun piece hmem h => hempty ⟨piece, hmem, h⟩
    refine iff_of_true ?_ (.inl hall)
    rw [nameOf, nameOf, attributesOf_congr fun piece hmem => readAttribute_of_not_emptyType (hall piece hmem)]

/-- A name of two pieces, with a `=` in the value of the second. -/
theorem parseDN_eq_grammar_two :
    isBlank (str "o=a,cn=b=c") = false ∧
      ((parseDN (fun _ => .error (.new "unexpected EOF")) (str "o=a,cn=b=c")).toOption =
          nameOf (attributeOf fun _ => .error (.new "unexpected EOF")) (str "o=a,cn=b=c") ↔
        (∀ piece ∈ allPieces (str "o=a,cn=b=c"), ¬ EmptyType piece) ∨
          ∃ piece ∈ allPieces (str "o=a,cn=b=c"),
            attributeOf (fun _ => .error (.new "unexpected EOF")) (skipEmptyTypes piece) = none) :=
  ⟨by decide, parseDN_eq_grammar_iff _ _ (by decide)⟩

/-- A piece with an empty type is accepted. -/
theorem parseDN_empty_type :
    parseDN (fun _ => .error (.new "unexpected EOF")) (str "=cn=x") = .ok ⟨[⟨[⟨str "cn", str "x"⟩]⟩]⟩ ∧
      nameOf (attributeOf fun _ => .error (.new "unexpected EOF")) (str "=cn=x") = none :=
  ⟨rfl, by decide +kernel⟩

end GoLdap
