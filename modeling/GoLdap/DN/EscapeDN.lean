import GoLdap.DN.Compose
import GoLdap.DN.Escape

/-!
# DN.EscapeDN — `EscapeDN` makes a value safe inside a name (`ldap.go`)

`EscapeDN` runs over code points and escapes less than `encodeString`: a control character or a byte outside of ASCII
stays as it is.

* `escapeDNRune_cases`: what is written for a code point.
* `decodeString_escapeDN`: unescaping gives the value back.
* `parseDN_escapeDN`: an attribute with an escaped value, between any two names.
-/

namespace GoLdap

open Go Escaped

/-! ## The function -/

/-- One pass of the loop of `EscapeDN`: the code points written for `r`, knowing whether it starts at the first and
whether it starts at the last byte. -/
def escapeDNRune (first last : Bool) (r : ℕ) : List ℕ :=
  -- leading and trailing spaces
  if (first || last) && r == rn ' ' then [rn '\\', r]
  -- a leading `#`
  else if first && r == rn '#' then [rn '\\', r]
  else if [rn '"', rn '+', rn ',', rn ';', rn '<', rn '>', rn '\\'].contains r then [rn '\\', r]
  else if r = 0 then [rn '\\', rn '0', rn '0']
  else [r]

/-- The code points `EscapeDN` writes. -/
def escapeDNRunes (dn : GoString) : List ℕ :=
  (runesAt dn).flatMap fun q => escapeDNRune (q.1 = 0) (q.1 = dn.length - 1) q.2

/-- `EscapeDN`. -/
def escapeDN (dn : GoString) : GoString := if dn = [] then [] else ofRunes (escapeDNRunes dn)

/-! ## One code point -/

theorem escapeDNRune_cases (first last : Bool) (r : ℕ) :
    (escapeDNRune first last r = [rn '\\', r] ∧ isEscapable r = true) ∨
      (escapeDNRune first last r = [rn '\\', rn '0', rn '0'] ∧ r = 0) ∨
      (escapeDNRune first last r = [r] ∧ r ≠ 0 ∧ r ∉ [rn '"', rn '+', rn ',', rn ';', rn '<', rn '>', rn '\\'] ∧
        (r = rn ' ' → first = false ∧ last = false) ∧ (r = rn '#' → first = false)) := by
  unfold escapeDNRune
  split_ifs with hspace hhash hspecial hzero
  · refine .inl ⟨rfl, ?_⟩
    rw [Bool.and_eq_true, beq_iff_eq] at hspace
    rw [hspace.2]
    rfl
  · refine .inl ⟨rfl, ?_⟩
    rw [Bool.and_eq_true, beq_iff_eq] at hhash
    rw [hhash.2]
    rfl
  · refine .inl ⟨rfl, ?_⟩
    simp only [List.contains_eq_mem, List.mem_cons, List.not_mem_nil, or_false, decide_eq_true_eq] at hspecial
    rcases hspecial with rfl | rfl | rfl | rfl | rfl | rfl | rfl <;> rfl
  · exact .inr (.inl ⟨rfl, hzero⟩)
  · refine .inr (.inr ⟨rfl, hzero, by simpa using hspecial, ?_, ?_⟩)
    · rintro rfl
      simpa using hspace
    · rintro rfl
      simpa [show rn '#' ≠ rn ' ' by decide] using hhash

theorem unescapes_escapeDNRune (first last : Bool) (r : ℕ) : Unescapes (escapeDNRune first last r) (encodeRune r) := by
  rcases escapeDNRune_cases first last r with ⟨h, hr⟩ | ⟨h, rfl⟩ | ⟨h, h0, hspecial, -⟩
  · rw [h, ← List.append_nil (encodeRune r)]
    exact .escaped hr .nil
  · rw [h]
    exact .hex rfl rfl rfl .nil
  · rw [h, ← List.append_nil (encodeRune r)]
    refine .plain ?_ ?_ h0 .nil
    · rintro rfl
      exact hspecial (by decide)
    · rw [mustBeEscaped, List.contains_eq_mem, decide_eq_false_iff_not]
      intro hmem
      refine hspecial ?_
      simp only [List.mem_cons, List.not_mem_nil, or_false] at hmem
      rcases hmem with rfl | rfl | rfl | rfl <;> decide

theorem validRune_escapeDNRune {first last : Bool} {r : ℕ} (hr : ValidRune r) :
    ∀ c ∈ escapeDNRune first last r, ValidRune c := by
  rcases escapeDNRune_cases first last r with ⟨h, -⟩ | ⟨h, -⟩ | ⟨h, -⟩ <;> rw [h]
  · simp only [List.forall_mem_cons]
    exact ⟨by decide, hr, by simp⟩
  · decide
  · simpa using hr

/-- No separator is written outside of an escape. -/
theorem free_escapeDNRune {first last : Bool} {r : ℕ} (hr : ValidRune r) :
    Free (ch '\\') IsSeparator false (ofRunes (escapeDNRune first last r)) := by
  rcases escapeDNRune_cases first last r with ⟨h, he⟩ | ⟨h, -⟩ | ⟨h, -, hspecial, -⟩ <;> rw [h]
  · have hlt : r < 0x80 := by
      simp only [isEscapable, List.contains_eq_mem, List.mem_cons, List.not_mem_nil, or_false, decide_eq_true_eq] at he
      rcases he with rfl | rfl | rfl | rfl | rfl | rfl | rfl | rfl | rfl | rfl <;> decide
    have hbytes : ofRunes [rn '\\', r] = [ch '\\', UInt8.ofNat r] := by
      simp only [ofRunes, List.flatMap_cons, List.flatMap_nil, List.append_nil]
      rw [encodeRune.eq_def r, if_pos hlt]
      rfl
    rw [hbytes]
    exact ⟨fun hcut => hcut.2.1 rfl, fun hcut => absurd hcut.1 (by decide), trivial⟩
  · rw [show ofRunes [rn '\\', rn '0', rn '0'] = [ch '\\', ch '0', ch '0'] from rfl]
    exact ⟨fun hcut => hcut.2.1 rfl, fun hcut => absurd hcut.1 (by decide), fun hcut => absurd hcut.2.2 (by decide),
      trivial⟩
  · refine free_of_forall (fun c hc _ hsep => hspecial ?_) false
    have hmem : c ∈ encodeRune r := by simpa [ofRunes] using hc
    rcases hsep with rfl | rfl | rfl <;> rw [eq_of_mem_encodeRune hr (by decide) hmem] <;> decide

/-! ## The whole value -/

section Value

variable {v : GoString}

theorem runesAt_valid {q : ℕ × ℕ} (hq : q ∈ runesAt v) : ValidRune q.2 := by
  refine runes_valid (s := v) ?_
  rw [runes, ← map_snd_runesAtFrom 0]
  exact List.mem_map_of_mem hq

theorem runes_ofRunes_escapeDN : runes (ofRunes (escapeDNRunes v)) = escapeDNRunes v := by
  refine runes_flatMap_encodeRune fun c hc => ?_
  obtain ⟨q, hq, hc⟩ := List.mem_flatMap.mp hc
  exact validRune_escapeDNRune (runesAt_valid hq) c hc

theorem unescapes_escapeDNRunes (hv : ValidString v) : Unescapes (escapeDNRunes v) v := by
  have hmap : (runesAt v).flatMap (fun q => encodeRune q.2) = v := by
    rw [← List.flatMap_map Prod.snd encodeRune, runesAt, map_snd_runesAtFrom]
    exact hv
  have h := Unescapes.flatMap fun q (_ : q ∈ runesAt v) =>
    unescapes_escapeDNRune (q.1 = 0) (q.1 = v.length - 1) q.2
  rwa [hmap] at h

/-- Text put together from what is written for code points: no separator in it cuts, and it ends outside of an
escape. -/
theorem free_escapeDNRunes {l : List (ℕ × ℕ)} (hl : ∀ q ∈ l, ValidRune q.2) (first last : ℕ → Bool) :
    Free (ch '\\') IsSeparator false (ofRunes (l.flatMap fun q => escapeDNRune (first q.1) (last q.1) q.2)) ∧
      pending (ch '\\') false (ofRunes (l.flatMap fun q => escapeDNRune (first q.1) (last q.1) q.2)) = false := by
  rw [ofRunes, List.flatMap_assoc]
  refine free_flatMap fun q hq => ⟨free_escapeDNRune (hl q hq), ?_⟩
  rw [← pending_runes, runes_flatMap_encodeRune (validRune_escapeDNRune (hl q hq))]
  exact (unescapes_escapeDNRune _ _ _).pending_eq

/-- The escaped value does not start with a space or a `#`. -/
theorem head_escapeDN {b : UInt8} (hb : b = ch ' ' ∨ b = ch '#') : (escapeDN v).head? ≠ some b := by
  cases v with
  | nil => simp [escapeDN]
  | cons x v =>
    intro hhead
    have hat : runesAt (x :: v) = (0, (decodeRune (x :: v)).1) :: runesAtFrom 1 ((decodeRune (x :: v)).2 - 1) v := rfl
    have hvalid := decodeRune_valid (x :: v)
    rw [escapeDN, if_neg (by simp), escapeDNRunes, hat, List.flatMap_cons] at hhead
    generalize (decodeRune (x :: v)).1 = r at hhead hvalid
    obtain ⟨c, cs, hcs, hc⟩ : ∃ c cs, escapeDNRune (decide (0 = 0)) (decide (0 = (x :: v).length - 1)) r = c :: cs ∧
        c ≠ b.toNat := by
      rcases escapeDNRune_cases (decide (0 = 0)) (decide (0 = (x :: v).length - 1)) r with
        ⟨h, -⟩ | ⟨h, -⟩ | ⟨h, -, -, hspace, hhash⟩
      · exact ⟨_, _, h, by rcases hb with rfl | rfl <;> decide⟩
      · exact ⟨_, _, h, by rcases hb with rfl | rfl <;> decide⟩
      · refine ⟨_, _, h, ?_⟩
        rintro rfl
        rcases hb with rfl | rfl
        · simpa using hspace rfl
        · simpa using hhash rfl
    have hmem : b ∈ encodeRune c := by
      rw [hcs, ofRunes, List.cons_append, List.flatMap_cons, List.head?_append_of_ne_nil _ (encodeRune_ne_nil c)] at hhead
      exact List.mem_of_mem_head? hhead
    have hvalidc : ValidRune c := validRune_escapeDNRune hvalid c (by rw [hcs]; simp)
    exact hc (eq_of_mem_encodeRune hvalidc (by rcases hb with rfl | rfl <;> decide) hmem)

/-- The last code point starts behind the bytes of the others. -/
theorem runesAt_concat {l : List ℕ} {r : ℕ} (hl : ∀ x ∈ l, ValidRune x) (hr : ValidRune r) :
    ∃ at_, runesAt (l.flatMap encodeRune ++ encodeRune r) = at_ ++ [((l.flatMap encodeRune).length, r)] := by
  obtain ⟨at_, hat⟩ := runesAtFrom_append 0 hl (encodeRune r)
  have hlast := runesAtFrom_encodeRune (0 + (l.flatMap encodeRune).length) hr []
  rw [List.append_nil] at hlast
  refine ⟨at_, ?_⟩
  rw [runesAt, hat, hlast, Nat.zero_add]
  rfl

/-- A space at the end of the escaped value is escaped. -/
theorem last_escapeDN (hv : ValidString v) : (escapeDN v).getLast? ≠ some (ch ' ') ∨
    ∃ n, escapeDN v = n ++ [ch '\\', ch ' '] ∧ pending (ch '\\') false n = false := by
  have hvalid : ∀ r ∈ runes v, ValidRune r := fun r => runes_valid
  rw [ValidString] at hv
  rcases List.eq_nil_or_concat' (runes v) with hnil | ⟨l, r, hl⟩
  · have hv' : v = [] := by rw [← hv, hnil]; rfl
    exact .inl (by simp [hv', escapeDN])
  · rw [hl] at hv hvalid
    have hne : v ≠ [] := fun h => by simp [h] at hl
    have hr : ValidRune r := hvalid r (by simp)
    have hsplit : v = l.flatMap encodeRune ++ encodeRune r := by rw [← hv]; simp
    obtain ⟨at_, hat⟩ := runesAt_concat (l := l) (fun x hx => hvalid x (by simp [hx])) hr
    rw [← hsplit] at hat
    have hatv : ∀ q ∈ at_, ValidRune q.2 := fun q hq => runesAt_valid (v := v) (by rw [hat]; simp [hq])
    have hesc : escapeDN v = ofRunes (at_.flatMap fun q => escapeDNRune (q.1 = 0) (q.1 = v.length - 1) q.2) ++
        ofRunes (escapeDNRune ((l.flatMap encodeRune).length = 0) ((l.flatMap encodeRune).length = v.length - 1) r) := by
      rw [escapeDN, if_neg hne, escapeDNRunes, hat]
      simp [ofRunes]
    by_cases hspace : r = rn ' '
    · right
      subst hspace
      have hlen : (l.flatMap encodeRune).length = v.length - 1 := by
        rw [hsplit, List.length_append]
        rfl
      refine ⟨_, ?_, (free_escapeDNRunes hatv (fun i => i = 0) fun i => i = v.length - 1).2⟩
      rw [hesc, hlen]
      simp only [decide_true, escapeDNRune, Bool.or_true, beq_self_eq_true, Bool.and_self, if_true]
      rfl
    · left
      generalize decide ((l.flatMap encodeRune).length = 0) = isFirst at hesc
      generalize decide ((l.flatMap encodeRune).length = v.length - 1) = isLast at hesc
      obtain ⟨cs, c, hcs, hc⟩ : ∃ cs c, escapeDNRune isFirst isLast r = cs ++ [c] ∧ c ≠ rn ' ' := by
        rcases escapeDNRune_cases isFirst isLast r with ⟨h, -⟩ | ⟨h, -⟩ | ⟨h, -⟩
        · exact ⟨[rn '\\'], r, h, hspace⟩
        · exact ⟨[rn '\\', rn '0'], rn '0', h, by decide⟩
        · exact ⟨[], r, h, hspace⟩
      have hvalidc : ValidRune c := validRune_escapeDNRune hr c (by rw [hcs]; simp)
      have hbytes : ofRunes (cs ++ [c]) = ofRunes cs ++ encodeRune c := by simp [ofRunes]
      rw [hesc, hcs, hbytes, ← List.append_assoc, List.getLast?_append_of_ne_nil _ (encodeRune_ne_nil c)]
      intro hmem
      exact hc (eq_of_mem_encodeRune hvalidc (by decide) (List.mem_of_mem_getLast? hmem))

/-- **Unescaping undoes `EscapeDN`** on valid UTF-8. -/
theorem decodeString_escapeDN (hv : ValidString v) : decodeString (escapeDN v) = .ok v := by
  rw [decodeString_eq_ok_iff, strip_eq_self (head_escapeDN (.inl rfl)) (last_escapeDN hv), escapeDN]
  split_ifs with hnil
  · rw [hnil]
    exact .nil
  · rw [runes_ofRunes_escapeDN]
    exact unescapes_escapeDNRunes hv

theorem free_escapeDN (v : GoString) : Free (ch '\\') IsSeparator false (escapeDN v) := by
  rw [escapeDN]
  split_ifs
  · trivial
  · exact (free_escapeDNRunes (fun q hq => runesAt_valid hq) (fun i => i = 0) fun i => i = v.length - 1).1

theorem setValue_escapeDN (readPacket : GoString → Except Error (GoString × GoString)) (hv : ValidString v) :
    setValue readPacket (escapeDN v) = .ok v := by
  rw [setValue_of_ne (head_escapeDN (.inr rfl)), decodeString_escapeDN hv]

end Value

/-! ## Types -/

/-- ASCII letters, digits, `-` and `.`. -/
def IsTypeChar (c : UInt8) : Prop :=
  (ch 'a' ≤ c ∧ c ≤ ch 'z') ∨ (ch 'A' ≤ c ∧ c ≤ ch 'Z') ∨ (ch '0' ≤ c ∧ c ≤ ch '9') ∨ c = ch '-' ∨ c = ch '.'

instance (c : UInt8) : Decidable (IsTypeChar c) := inferInstanceAs (Decidable (_ ∨ _))

theorem encodeChar_isTypeChar {c : UInt8} (hc : IsTypeChar c) : (∀ first last, encodeChar false first last c = [c]) ∧
    c ≠ ch '=' ∧ ¬ IsSeparator c := by
  revert hc
  revert c
  decide +kernel

/-- Such a type is not escaped at all. -/
theorem encodeLoop_isTypeChar {t : GoString} (ht : ∀ c ∈ t, IsTypeChar c) (first : Bool) : encodeLoop false first t = t := by
  induction t generalizing first with
  | nil => rfl
  | cons c t ih =>
    rw [encodeLoop, (encodeChar_isTypeChar (ht c (by simp))).1, ih (fun d hd => ht d (by simp [hd]))]
    rfl

/-- **`EscapeDN` makes a value safe inside a name**: between two names, an attribute with an escaped value is read back as
one RDN with the value, byte by byte. -/
theorem parseDN_escapeDN (readPacket : GoString → Except Error (GoString × GoString)) (v t c p : GoString) (dc dp : DN)
    (hv : ValidString v) (hne : t ≠ []) (ht : ∀ b ∈ t, IsTypeChar b) (hc : isBlank c = false) (hp : isBlank p = false)
    (hdc : parseDN readPacket c = .ok dc) (hdp : parseDN readPacket p = .ok dp) :
    parseDN readPacket (c ++ str "," ++ t ++ str "=" ++ escapeDN v ++ str "," ++ p) =
      .ok ⟨dc.rdns ++ [⟨[⟨t, v⟩]⟩] ++ dp.rdns⟩ := by
  have htype : decodeString t = .ok t := by
    have h := decodeString_encodeString t false
    rwa [encodeString, encodeLoop_isTypeChar ht] at h
  have hattr : parseDN readPacket (t ++ ch '=' :: escapeDN v) = .ok ⟨[⟨[⟨t, v⟩]⟩]⟩ := by
    refine parseDN_attribute (free_of_forall (fun b hb _ => ?_) false) (free_of_forall (fun b hb _ => ?_) false)
      (free_escapeDN v) htype hne (setValue_escapeDN readPacket hv)
    · exact (encodeChar_isTypeChar (ht b hb)).2.1
    · exact (encodeChar_isTypeChar (ht b hb)).2.2
  have hright := parseDN_append_comma (.inl rfl) (isBlank_of_equals (by simp)) hp hattr hdp
  have hall := parseDN_append_comma (.inl rfl) hc (isBlank_append_separator (.inl rfl) _ p) hdc hright
  simpa [show str "," = [ch ','] from rfl, show str "=" = [ch '='] from rfl] using hall

/-- A value that tries to add an RDN. -/
theorem parseDN_escapeDN_injection :
    ValidString (str "x,o=y ") ∧
      parseDN (fun _ => .error (.new "unexpected EOF"))
          (str "a=b" ++ str "," ++ str "cn" ++ str "=" ++ escapeDN (str "x,o=y ") ++ str "," ++ str "c=d") =
        .ok ⟨[⟨[⟨str "a", str "b"⟩]⟩] ++ [⟨[⟨str "cn", str "x,o=y "⟩]⟩] ++ [⟨[⟨str "c", str "d"⟩]⟩]⟩ := by
  have ha : parseDN (fun _ => .error (.new "unexpected EOF")) (str "a=b") = .ok ⟨[⟨[⟨str "a", str "b"⟩]⟩]⟩ := rfl
  have hc : parseDN (fun _ => .error (.new "unexpected EOF")) (str "c=d") = .ok ⟨[⟨[⟨str "c", str "d"⟩]⟩]⟩ := rfl
  have hv : ValidString (str "x,o=y ") := by decide +kernel
  exact ⟨hv, parseDN_escapeDN _ _ (str "cn") _ _ _ _ hv (by decide) (by decide +kernel) (by decide) (by decide) ha hc⟩

end GoLdap
