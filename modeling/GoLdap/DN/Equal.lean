import GoLdap.DN.RoundTrip

/-!
# DN.Equal — equality of names and of their strings

`Equal` matches the attributes of two RDNs greedily in both directions; `String` folds, escapes, sorts and joins.

* `parseDN_wellFormed`: what `ParseDN` returns can be printed and read back.  So a printed name determines the
  normalized name, whatever bytes the values have.
* `equal_of_normalize_eq`: names that are normalized to the same name are equal.
* `string_eq_of_equal`: equal names with ASCII types print the same, since folding then picks one member of each orbit.
-/

namespace GoLdap

open Go

/-! ## Parsed names are well formed -/

section Parse

variable {readPacket : GoString → Except Error (GoString × GoString)}

/-- What the loop of `ParseDN` has collected can be printed. -/
structure ParseState.WellFormed (st : ParseState) : Prop where
  rdns : ∀ r ∈ st.rdns, r.WellFormed
  attributes : ∀ a ∈ st.attributes, a.type ≠ []

theorem wellFormed_appendAttributesToRDN {st : ParseState} (h : st.WellFormed) (htype : st.type.length ≠ 0)
    (value : GoString) (last : Bool) : (st.appendAttributesToRDN value last).WellFormed := by
  have hattr : ∀ a ∈ st.attributes ++ [⟨st.type, value⟩], a.type ≠ [] := by
    intro a ha
    rw [List.mem_append, List.mem_singleton] at ha
    rcases ha with ha | rfl
    · exact h.attributes a ha
    · exact fun hnil => htype (List.length_eq_zero_iff.mpr hnil)
  unfold ParseState.appendAttributesToRDN
  cases last with
  | false => exact ⟨h.rdns, hattr⟩
  | true =>
    refine ⟨fun r hr => ?_, by simp⟩
    simp only [if_true, List.mem_append, List.mem_singleton] at hr
    rcases hr with hr | rfl
    · exact h.rdns r hr
    · exact ⟨by simp, hattr⟩

theorem wellFormed_parseStep {st st' : ParseState} {c : UInt8} (h : st.WellFormed)
    (hstep : parseStep readPacket st c = .ok st') : st'.WellFormed := by
  unfold parseStep at hstep
  split_ifs at hstep with hesc hslash heq hsep htype
  · obtain rfl := Except.ok.inj hstep
    exact ⟨h.rdns, h.attributes⟩
  · obtain rfl := Except.ok.inj hstep
    exact ⟨h.rdns, h.attributes⟩
  · split at hstep
    · cases hstep
    · obtain rfl := Except.ok.inj hstep
      exact ⟨h.rdns, h.attributes⟩
  · split at hstep
    · cases hstep
    · obtain rfl := Except.ok.inj hstep
      exact wellFormed_appendAttributesToRDN h htype _ _
  · obtain rfl := Except.ok.inj hstep
    exact ⟨h.rdns, h.attributes⟩

theorem wellFormed_foldlM : ∀ {s : GoString} {st st' : ParseState}, st.WellFormed →
    s.foldlM (parseStep readPacket) st = .ok st' → st'.WellFormed
  | [], st, st', h, hrun => by
    obtain rfl := Except.ok.inj hrun
    exact h
  | c :: s, st, st', h, hrun => by
    rw [List.foldlM_cons] at hrun
    cases hstep : parseStep readPacket st c with
    | error e =>
      rw [hstep] at hrun
      cases hrun
    | ok st1 =>
      rw [hstep, except_ok_bind] at hrun
      exact wellFormed_foldlM (wellFormed_parseStep h hstep) hrun

/-- A parsed name has an attribute in every RDN and a type in every attribute. -/
theorem parseDN_wellFormed {s : GoString} {d : DN} (h : parseDN readPacket s = .ok d) : d.WellFormed := by
  unfold parseDN at h
  split_ifs at h
  · obtain rfl := Except.ok.inj h
    intro r hr
    cases hr
  · cases hrun : s.foldlM (parseStep readPacket) ⟨[], [], [], false, []⟩ with
    | error e =>
      rw [hrun] at h
      cases h
    | ok st =>
      rw [hrun, except_ok_bind] at h
      have hst : st.WellFormed := wellFormed_foldlM ⟨by simp, by simp⟩ hrun
      unfold parseEnd at h
      split_ifs at h with htype
      split at h
      · cases h
      · obtain rfl := Except.ok.inj h
        exact (wellFormed_appendAttributesToRDN hst htype _ true).rdns

end Parse

/-! ## From strings to equality -/

section Normalize

variable (F : FoldOrbits)

/-- A printed name determines the normalized name: it is what `ParseDN` makes of it. -/
theorem normalize_eq_of_string_eq {d d' : DN} (hd : d.WellFormed) (hd' : d'.WellFormed) (h : d.string F = d'.string F) :
    d.normalize F = d'.normalize F := by
  have hparse := parseDN_string_eq F (fun _ => .error (.new "unexpected EOF")) hd
  rw [h, parseDN_string_eq F _ hd'] at hparse
  exact (Except.ok.inj hparse).symm

theorem equal_of_normalize_attribute {a b : AttributeTypeAndValue} (h : a.normalize F = b.normalize F) :
    a.equal F b = true := by
  have hb := equal_symm F (equal_normalize F b)
  rw [← h] at hb
  exact equal_trans F (equal_normalize F a) hb

theorem equal_of_normalize_rdn {r r' : RelativeDN} (h : r.normalize F = r'.normalize F) : r.equal F r' = true := by
  have hsorted : (r.sorted F).map (·.normalize F) = (r'.sorted F).map (·.normalize F) :=
    congrArg RelativeDN.attributes h
  have hp : (r.attributes.map (·.normalize F)).Perm (r'.attributes.map (·.normalize F)) := by
    refine ((sorted_perm F r).symm.map _).trans ?_
    rw [hsorted]
    exact (sorted_perm F r').map _
  exact (equalBy_iff_matching (equivalence_equal F)).mpr (.of_perm_map (equal_of_normalize_attribute F) hp)

theorem equal_of_normalize_eq {d d' : DN} (h : d.normalize F = d'.normalize F) : d.equal F d' = true := by
  rw [dn_equal_eq, equalBy_iff_forall₂]
  have hmap : d.rdns.map (·.normalize F) = d'.rdns.map (·.normalize F) := congrArg DN.rdns h
  rw [← List.forall₂_eq_eq_eq, List.forall₂_map_left_iff, List.forall₂_map_right_iff] at hmap
  exact hmap.imp fun _ _ => equal_of_normalize_rdn F

end Normalize

/-! ## From equality to strings -/

section Ascii

variable (F : SimpleFold)

/-- The attribute types are ASCII. -/
def RelativeDN.AsciiTypes (r : RelativeDN) : Prop := ∀ a ∈ r.attributes, IsAscii a.type

def DN.AsciiTypes (d : DN) : Prop := ∀ r ∈ d.rdns, r.AsciiTypes

theorem asciiAlike_of_ascii {s t : GoString} (hs : IsAscii s) (ht : IsAscii t) (h : F.equalFold s t = true) :
    AsciiAlike s t := by
  rw [F.equalFold_iff, runes_of_ascii hs, runes_of_ascii ht] at h
  rw [AsciiAlike, runes_of_ascii hs, runes_of_ascii ht, List.forall₂_map_left_iff, List.forall₂_map_right_iff]
  rw [List.forall₂_map_left_iff, List.forall₂_map_right_iff] at h
  induction h with
  | nil => exact .nil
  | @cons b c s t _ _ ih =>
    refine .cons (iff_of_true (hs b (by simp)) (ht c (by simp))) ?_
    exact ih (fun x hx => hs x (by simp [hx])) fun x hx => ht x (by simp [hx])

theorem foldString_eq_of_equalFold {s t : GoString} (hs : IsAscii s) (ht : IsAscii t)
    (h : F.equalFold s t = true) : foldString F.toFoldOrbits s = foldString F.toFoldOrbits t :=
  (foldString_eq_iff F s t).mpr ⟨h, asciiAlike_of_ascii F hs ht h⟩

/-- For ASCII types, attributes are equal exactly when they are normalized to the same attribute. -/
theorem equal_iff_normalize {a b : AttributeTypeAndValue} (ha : IsAscii a.type) (hb : IsAscii b.type) :
    a.equal F.toFoldOrbits b = true ↔ a.normalize F.toFoldOrbits = b.normalize F.toFoldOrbits := by
  constructor
  · intro h
    simp only [AttributeTypeAndValue.equal, Bool.and_eq_true, beq_iff_eq] at h
    unfold AttributeTypeAndValue.normalize
    rw [foldString_eq_of_equalFold F ha hb h.1, h.2]
  · exact equal_of_normalize_attribute _

theorem string_eq_of_equal_rdn {r r' : RelativeDN} (hr : r.AsciiTypes) (hr' : r'.AsciiTypes)
    (h : r.equal F.toFoldOrbits r' = true) : r.string F.toFoldOrbits = r'.string F.toFoldOrbits := by
  rw [rdn_equal_eq, equalBy_iff_matching (equivalence_equal _)] at h
  have hperm : (r.attributes.map (·.normalize F.toFoldOrbits)).Perm (r'.attributes.map (·.normalize F.toFoldOrbits)) :=
    h.perm_map fun a ha b hb => (equal_iff_normalize F (hr a ha) (hr' b hb)).mp
  -- the printed forms are a function of the normalized attributes
  have hstrings : (r.attributes.map (·.string F.toFoldOrbits)).Perm (r'.attributes.map (·.string F.toFoldOrbits)) := by
    have := hperm.map (·.string F.toFoldOrbits)
    rwa [map_string_normalize, map_string_normalize] at this
  unfold RelativeDN.string sortStrings
  congr 1
  refine List.Perm.eq_of_pairwise' (List.pairwise_insertionSort _ _) (List.pairwise_insertionSort _ _) ?_
  exact ((List.perm_insertionSort _ _).trans hstrings).trans (List.perm_insertionSort _ _).symm

theorem string_eq_of_equal {d d' : DN} (hd : d.AsciiTypes) (hd' : d'.AsciiTypes)
    (h : d.equal F.toFoldOrbits d' = true) : d.string F.toFoldOrbits = d'.string F.toFoldOrbits := by
  have hmap : d.rdns.map (·.string F.toFoldOrbits) = d'.rdns.map (·.string F.toFoldOrbits) := by
    rw [dn_equal_eq, equalBy_iff_forall₂] at h
    unfold DN.AsciiTypes at hd hd'
    generalize d.rdns = l at h hd
    generalize d'.rdns = m at h hd'
    induction h with
    | nil => rfl
    | @cons r r' l m hrr' _ ih =>
      rw [List.map_cons, List.map_cons, string_eq_of_equal_rdn F (hd r (by simp)) (hd' r' (by simp)) hrr',
        ih (fun x hx => hd x (by simp [hx])) fun x hx => hd' x (by simp [hx])]
  unfold DN.string
  rw [hmap]

end Ascii

/-- **Equality of names is equality of strings.**  Two parsed names with ASCII attribute types, whatever their values,
are equal if and only if they print the same. -/
theorem equal_iff_string_eq (F : SimpleFold) (readPacket : GoString → Except Error (GoString × GoString))
    (s t : GoString) (a b : DN) (hs : parseDN readPacket s = .ok a) (ht : parseDN readPacket t = .ok b)
    (ha : a.AsciiTypes) (hb : b.AsciiTypes) :
    a.equal F.toFoldOrbits b = true ↔ a.string F.toFoldOrbits = b.string F.toFoldOrbits := by
  constructor
  · exact string_eq_of_equal F ha hb
  · intro h
    exact equal_of_normalize_eq _ (normalize_eq_of_string_eq _ (parseDN_wellFormed hs) (parseDN_wellFormed ht) h)

/-- Two spellings of one name: the type in another case, the value escaped. -/
theorem equal_iff_string_eq_escaped :
    ∃ a b, parseDN (fun _ => .error (.new "unexpected EOF")) (str "O=\\+") = .ok a ∧
      parseDN (fun _ => .error (.new "unexpected EOF")) (str "o=\\2b") = .ok b ∧ a.AsciiTypes ∧ b.AsciiTypes ∧
      (a.equal latinFold.toFoldOrbits b = true ↔ a.string latinFold.toFoldOrbits = b.string latinFold.toFoldOrbits) := by
  have hs : parseDN (fun _ => .error (.new "unexpected EOF")) (str "O=\\+") = .ok ⟨[⟨[⟨str "O", str "+"⟩]⟩]⟩ := rfl
  have ht : parseDN (fun _ => .error (.new "unexpected EOF")) (str "o=\\2b") = .ok ⟨[⟨[⟨str "o", str "+"⟩]⟩]⟩ := rfl
  have hascii : ∀ type value, IsAscii type → DN.AsciiTypes ⟨[⟨[⟨type, value⟩]⟩]⟩ := by
    intro type value h
    simpa [DN.AsciiTypes, RelativeDN.AsciiTypes] using h
  have ha := hascii (str "O") (str "+") (by decide)
  have hb := hascii (str "o") (str "+") (by decide)
  exact ⟨_, _, hs, ht, ha, hb, equal_iff_string_eq latinFold _ _ _ _ _ hs ht ha hb⟩

end GoLdap
