import GoLdap.DN.Compare
import GoLdap.DN.Grammar

/-!
# DN.Compose — `ParseDN` on names that are put together

An accepted name does not end inside an escape, since the decoder of its last value would fail.  So a separator behind
it cuts, and the two names are read one after the other.

* `attributesOf_join`: the attributes of two accepted names with a separator between them.
* `parseDN_append_comma`, `parseDN_append_plus`: what the separator does to their RDNs.
-/

namespace GoLdap

open Go Escaped

/-! ## The RDNs of attributes put together -/

theorem rdnsOf_ne_nil (a : AttributeTypeAndValue) (as : List (UInt8 × AttributeTypeAndValue)) : rdnsOf a as ≠ [] := by
  induction as generalizing a with
  | nil => simp [rdnsOf]
  | cons q as ih =>
    rw [rdnsOf]
    split_ifs
    · obtain ⟨r, rs, hrs⟩ := List.exists_cons_of_ne_nil (ih q.2)
      rw [hrs]
      simp [joinFirst]
    · simp

/-- RDNs behind others, where a `+` makes one RDN of the last and the first. -/
def joinRdns : List RelativeDN → List RelativeDN → List RelativeDN
  | [], m => m
  | [r], m => joinFirst r.attributes m
  | r :: r' :: l, m => r :: joinRdns (r' :: l) m

theorem joinRdns_concat (init : List RelativeDN) (last first : RelativeDN) (rest : List RelativeDN) :
    joinRdns (init ++ [last]) (first :: rest) = init ++ ⟨last.attributes ++ first.attributes⟩ :: rest := by
  induction init with
  | nil => rfl
  | cons r init ih =>
    obtain ⟨r', l, hl⟩ := List.exists_cons_of_ne_nil (show init ++ [last] ≠ [] by simp)
    rw [hl] at ih
    rw [List.cons_append, hl, joinRdns, ih, List.cons_append]

/-- Attributes in front of the first RDN stay there. -/
theorem joinFirst_joinRdns (xs : List AttributeTypeAndValue) {l : List RelativeDN} (hl : l ≠ []) (m : List RelativeDN) :
    joinFirst xs (joinRdns l m) = joinRdns (joinFirst xs l) m := by
  rcases l with _ | ⟨r, _ | ⟨r', l⟩⟩
  · exact absurd rfl hl
  · exact joinFirst_joinFirst xs r.attributes m
  · rfl

theorem joinFirst_append (xs : List AttributeTypeAndValue) {l : List RelativeDN} (hl : l ≠ []) (m : List RelativeDN) :
    joinFirst xs (l ++ m) = joinFirst xs l ++ m := by
  obtain ⟨r, rs, rfl⟩ := List.exists_cons_of_ne_nil hl
  rfl

variable (a b : AttributeTypeAndValue) (as bs : List (UInt8 × AttributeTypeAndValue))

theorem rdnsOf_append_comma {c : UInt8} (hc : c ≠ ch '+') :
    rdnsOf a (as ++ (c, b) :: bs) = rdnsOf a as ++ rdnsOf b bs := by
  induction as generalizing a with
  | nil => simp [rdnsOf, hc]
  | cons q as ih =>
    rw [List.cons_append, rdnsOf, rdnsOf, ih]
    split_ifs
    · exact joinFirst_append [a] (rdnsOf_ne_nil q.2 as) _
    · rfl

theorem rdnsOf_append_plus :
    rdnsOf a (as ++ (ch '+', b) :: bs) = joinRdns (rdnsOf a as) (rdnsOf b bs) := by
  induction as generalizing a with
  | nil => simp [rdnsOf, joinRdns]
  | cons q as ih =>
    rw [List.cons_append, rdnsOf, rdnsOf, ih]
    split_ifs
    · exact joinFirst_joinRdns [a] (rdnsOf_ne_nil q.2 as) _
    · obtain ⟨r, rs, hrs⟩ := List.exists_cons_of_ne_nil (rdnsOf_ne_nil q.2 as)
      rw [hrs]
      rfl

/-! ## Accepted names -/

section Accepted

variable {readPacket : GoString → Except Error (GoString × GoString)}

theorem pending_of_readAttribute {w : GoString} {a : AttributeTypeAndValue} (h : readAttribute readPacket w = some a) :
    pending (ch '\\') false w = false := by
  rw [readAttribute, attributeOf] at h
  rw [← pending_skipEmptyTypes]
  rcases hpiece : typeAndValue (skipEmptyTypes w) with _ | ⟨t, v⟩
  · rw [hpiece] at h
    cases h
  · rw [hpiece] at h
    dsimp only at h
    rw [pending_value hpiece]
    cases hvalue : setValue readPacket v with
    | ok value => exact pending_of_setValue hvalue
    | error e =>
      rw [hvalue] at h
      split at h
      · rename_i heq
        cases heq
      · cases h

/-- An accepted name does not end inside an escape. -/
theorem pending_of_attributesOf {s : GoString} {p : AttributeTypeAndValue × List (UInt8 × AttributeTypeAndValue)}
    (h : attributesOf (readAttribute readPacket) s = some p) : pending (ch '\\') false s = false := by
  induction s using cut_induction (ch '\\') IsSeparator generalizing p with
  | free w hw =>
    rw [attributesOf_free hw, Option.map_eq_some_iff] at h
    obtain ⟨a, ha, -⟩ := h
    exact pending_of_readAttribute ha
  | piece w c r hw hc ih =>
    rw [attributesOf_piece hw hc, Option.bind_eq_some_iff] at h
    obtain ⟨a, -, hr⟩ := h
    obtain ⟨q, hq, -⟩ := Option.map_eq_some_iff.mp hr
    rw [pending_append_cuts hc]
    exact ih hq

variable {s c p : GoString} {d dc dp : DN}

theorem except_toOption_eq_some {ε α : Type} {x : Except ε α} {a : α} : x.toOption = some a ↔ x = .ok a := by
  cases x <;> simp [Except.toOption]

theorem parseDN_eq_ok_iff (hs : isBlank s = false) :
    parseDN readPacket s = .ok d ↔
      ∃ a as, attributesOf (readAttribute readPacket) s = some (a, as) ∧ d = ⟨rdnsOf a as⟩ := by
  rw [← except_toOption_eq_some, parseDN_eq_nameOf hs, nameOf, Option.map_eq_some_iff, Prod.exists]
  simp only [eq_comm]

theorem attributesOf_join {sep : UInt8} (hsep : IsSeparator sep) {a b : AttributeTypeAndValue}
    {as bs : List (UInt8 × AttributeTypeAndValue)} (hc : attributesOf (readAttribute readPacket) c = some (a, as))
    (hp : attributesOf (readAttribute readPacket) p = some (b, bs)) :
    attributesOf (readAttribute readPacket) (c ++ sep :: p) = some (a, as ++ (sep, b) :: bs) := by
  have hslash : sep ≠ ch '\\' := by rcases hsep with rfl | rfl | rfl <;> decide
  rw [attributesOf_append ⟨pending_of_attributesOf hc, hslash, hsep⟩, hc, hp]
  rfl

theorem isBlank_of_equals (h : ch '=' ∈ s) : isBlank s = false := isBlank_eq_false h (by decide) (by decide)

theorem isBlank_append_separator {sep : UInt8} (hsep : IsSeparator sep) (c p : GoString) :
    isBlank (c ++ sep :: p) = false := by
  refine isBlank_eq_false (show sep ∈ c ++ sep :: p by simp) ?_ ?_
  · rcases hsep with rfl | rfl | rfl <;> decide
  · rcases hsep with rfl | rfl | rfl <;> decide

/-- A `,` or `;` between two accepted names. -/
theorem parseDN_append_comma {sep : UInt8} (hsep : sep = ch ',' ∨ sep = ch ';') (hc : isBlank c = false)
    (hp : isBlank p = false) (hdc : parseDN readPacket c = .ok dc) (hdp : parseDN readPacket p = .ok dp) :
    parseDN readPacket (c ++ sep :: p) = .ok ⟨dc.rdns ++ dp.rdns⟩ := by
  have hsep' : IsSeparator sep := hsep.imp_right .inr
  have hplus : sep ≠ ch '+' := by rcases hsep with rfl | rfl <;> decide
  obtain ⟨a, as, has, rfl⟩ := (parseDN_eq_ok_iff hc).mp hdc
  obtain ⟨b, bs, hbs, rfl⟩ := (parseDN_eq_ok_iff hp).mp hdp
  rw [parseDN_eq_ok_iff (isBlank_append_separator hsep' c p)]
  exact ⟨a, _, attributesOf_join hsep' has hbs, by rw [rdnsOf_append_comma a b as bs hplus]⟩

/-- A `+` between two accepted names. -/
theorem parseDN_append_plus (hc : isBlank c = false) (hp : isBlank p = false) (hdc : parseDN readPacket c = .ok dc)
    (hdp : parseDN readPacket p = .ok dp) :
    parseDN readPacket (c ++ ch '+' :: p) = .ok ⟨joinRdns dc.rdns dp.rdns⟩ := by
  have hsep : IsSeparator (ch '+') := .inr (.inl rfl)
  obtain ⟨a, as, has, rfl⟩ := (parseDN_eq_ok_iff hc).mp hdc
  obtain ⟨b, bs, hbs, rfl⟩ := (parseDN_eq_ok_iff hp).mp hdp
  rw [parseDN_eq_ok_iff (isBlank_append_separator hsep c p)]
  exact ⟨a, _, attributesOf_join hsep has hbs, by rw [rdnsOf_append_plus a b as bs]⟩

/-- A name of one attribute. -/
theorem parseDN_attribute {et ev t v : GoString} (hfree : Free (ch '\\') (· = ch '=') false et)
    (hsept : Free (ch '\\') IsSeparator false et) (hsepv : Free (ch '\\') IsSeparator false ev)
    (ht : decodeString et = .ok t) (hne : t ≠ []) (hv : setValue readPacket ev = .ok v) :
    parseDN readPacket (et ++ ch '=' :: ev) = .ok ⟨[⟨[⟨t, v⟩]⟩]⟩ := by
  have hflag := pending_of_decodeString ht
  have hpiece := typeAndValue_append hfree hflag ev
  have hread : readAttribute readPacket (et ++ ch '=' :: ev) = some ⟨t, v⟩ := by
    rw [readAttribute, skipEmptyTypes_of_ne hpiece (by rw [ht]; simpa using hne), attributeOf, hpiece]
    dsimp only
    rw [ht, hv]
    exact if_neg hne
  have hsep : Free (ch '\\') IsSeparator false (et ++ ch '=' :: ev) := by
    rw [free_append, hflag]
    refine ⟨hsept, fun hcut => ?_, hsepv⟩
    rcases hcut.2.2 with h | h | h <;> exact absurd h (by decide)
  rw [parseDN_eq_ok_iff (isBlank_of_equals (by simp))]
  exact ⟨⟨t, v⟩, [], by rw [attributesOf_free hsep, hread]; rfl, rfl⟩

theorem rdns_ne_nil (hs : isBlank s = false) (hd : parseDN readPacket s = .ok d) : d.rdns ≠ [] := by
  obtain ⟨a, as, -, rfl⟩ := (parseDN_eq_ok_iff hs).mp hd
  exact rdnsOf_ne_nil a as

end Accepted

/-- **`ParseDN` is compositional.**  A `,` or a `;` puts the RDNs of two names one after the other, so that the second
name is an ancestor; a `+` makes one RDN of the last and the first. -/
theorem parseDN_append (F : FoldOrbits) (readPacket : GoString → Except Error (GoString × GoString)) (c p : GoString)
    (dc dp : DN) (hc : isBlank c = false) (hp : isBlank p = false) (hdc : parseDN readPacket c = .ok dc)
    (hdp : parseDN readPacket p = .ok dp) :
    parseDN readPacket (c ++ ch ',' :: p) = .ok ⟨dc.rdns ++ dp.rdns⟩ ∧
      parseDN readPacket (c ++ ch ';' :: p) = .ok ⟨dc.rdns ++ dp.rdns⟩ ∧
      dp.ancestorOf F ⟨dc.rdns ++ dp.rdns⟩ = true ∧
      ∃ init last first rest, dc.rdns = init ++ [last] ∧ dp.rdns = first :: rest ∧
        parseDN readPacket (c ++ ch '+' :: p) = .ok ⟨init ++ ⟨last.attributes ++ first.attributes⟩ :: rest⟩ := by
  have hne := rdns_ne_nil hc hdc
  refine ⟨parseDN_append_comma (.inl rfl) hc hp hdc hdp, parseDN_append_comma (.inr rfl) hc hp hdc hdp, ?_, ?_⟩
  · have hequiv := Pointwise.equivalence (equivalence_equalBy (equivalence_equal F))
    exact ancestorBy_iff.mpr ⟨dc.rdns, dp.rdns, hne, rfl, hequiv.refl dp.rdns⟩
  · obtain ⟨first, rest, hfirst⟩ := List.exists_cons_of_ne_nil (rdns_ne_nil hp hdp)
    obtain ⟨init, last, hlast⟩ : ∃ init last, dc.rdns = init ++ [last] :=
      ⟨_, _, (List.dropLast_append_getLast hne).symm⟩
    refine ⟨init, last, first, rest, hlast, hfirst, ?_⟩
    rw [parseDN_append_plus hc hp hdc hdp, hfirst, hlast, joinRdns_concat]

/-- Two names of one attribute each. -/
theorem parseDN_append_pair :
    ∃ dc dp, parseDN (fun _ => .error (.new "unexpected EOF")) (str "cn=a") = .ok dc ∧
      parseDN (fun _ => .error (.new "unexpected EOF")) (str "o=b") = .ok dp ∧
      parseDN (fun _ => .error (.new "unexpected EOF")) (str "cn=a" ++ ch ',' :: str "o=b") =
        .ok ⟨dc.rdns ++ dp.rdns⟩ := by
  have hc : parseDN (fun _ => .error (.new "unexpected EOF")) (str "cn=a") = .ok ⟨[⟨[⟨str "cn", str "a"⟩]⟩]⟩ := rfl
  have hp : parseDN (fun _ => .error (.new "unexpected EOF")) (str "o=b") = .ok ⟨[⟨[⟨str "o", str "b"⟩]⟩]⟩ := rfl
  exact ⟨_, _, hc, hp, (parseDN_append latinFold.toFoldOrbits _ _ _ _ _ (by decide) (by decide) hc hp).1⟩

end GoLdap
