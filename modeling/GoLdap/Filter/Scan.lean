import GoLdap.Filter.Escape

/-!
# Filter.Scan — the scanner of one item

The scanner reads code points, but its decisions are about ASCII bytes, and what it does not take for an operator it
copies.  So it can be described on bytes:

* `AttrText` and `RuleText` say which bytes are read into the attribute and into the matching rule;
* `scan_attr`, `scan_rule`, `scan_condition` read such a run in one go.
-/

namespace GoLdap

open Go Ber

theorem scan_skip (s : Scan) : ∀ (p rest : GoString) (pos : ℕ),
    scan s pos p.length (p ++ rest) = scan s (pos + p.length) 0 rest
  | [], _, _ => rfl
  | b :: p, rest, pos => by
    rw [List.length_cons, List.cons_append, scan, scan_skip s p rest, Nat.add_right_comm, Nat.add_assoc]

theorem scan_step {b : UInt8} (hascii : b.toNat < 0x80) (hclose : b ≠ ch ')') (s : Scan) (pos : ℕ) (rest : GoString) :
    scan s pos 0 (b :: rest) =
      scan (s.step b.toNat 1 (b :: rest)).1 (pos + 1) ((s.step b.toNat 1 (b :: rest)).2 - 1) rest := by
  have hne : b.toNat ≠ (ch ')').toNat := fun h => hclose (UInt8.toNat_inj.mp h)
  have herr : b.toNat ≠ runeError := by
    unfold runeError
    omega
  rw [scan, decodeRune_ascii hascii, if_neg hne, if_neg herr]

theorem scan_close (s : Scan) (pos : ℕ) (rest : GoString) : scan s pos 0 (ch ')' :: rest) = .close s pos := by
  rw [scan, decodeRune_ascii (by decide), if_pos rfl]

/-- Bytes that are no operator go to the field that is being read. -/
def Scan.push (s : Scan) (t : GoString) : Scan :=
  match s.state with
  | .readingAttr => { s with attr := s.attr ++ t }
  | .readingExtensibleMatchingRule => { s with extensibleMatchingRule := s.extensibleMatchingRule ++ t }
  | .readingCondition => { s with condition := s.condition ++ t }

@[simp] theorem Scan.state_push (s : Scan) (t : GoString) : (s.push t).state = s.state := by
  cases h : s.state <;> simp [Scan.push, h]

@[simp] theorem Scan.push_nil (s : Scan) : s.push [] = s := by
  obtain ⟨p, state, attr, dn, rule, cond⟩ := s
  cases state <;> simp [Scan.push]

theorem Scan.push_push (s : Scan) (t u : GoString) : (s.push t).push u = s.push (t ++ u) := by
  cases h : s.state <;> simp [Scan.push, h, List.append_assoc]

theorem scan_wide {r : ℕ} (hv : ValidRune r) (hr : 0x80 ≤ r) (hne : r ≠ runeError) (s : Scan) (pos : ℕ)
    (rest : GoString) :
    scan s pos 0 (encodeRune r ++ rest) = scan (s.push (encodeRune r)) (pos + (encodeRune r).length) 0 rest := by
  have hdec := decodeRune_encodeRune hv rest
  have hop : ∀ c : UInt8, c.toNat < 0x80 → r ≠ c.toNat := by
    intro c hc
    omega
  have hstep : ∀ w rem, s.step r w rem = (s.push (encodeRune r), w) := by
    intro w rem
    cases h : s.state <;>
      simp only [Scan.step, Scan.push, h, hop (ch ':') (by decide), hop (ch '=') (by decide), hop (ch '>') (by decide),
        hop (ch '<') (by decide), hop (ch '~') (by decide), false_and, if_false]
  obtain ⟨b, p, hbp⟩ := List.exists_cons_of_ne_nil (encodeRune_ne_nil r)
  rw [hbp, List.cons_append] at hdec ⊢
  rw [scan, hdec]
  dsimp only
  rw [if_neg (hop _ (by decide)), if_neg hne, hstep, hbp]
  show scan _ (pos + 1) p.length (p ++ rest) = _
  rw [scan_skip, List.length_cons, Nat.add_assoc, Nat.add_comm 1]

theorem scan_push {b : UInt8} (hascii : b.toNat < 0x80) (hclose : b ≠ ch ')') {s : Scan} {rest : GoString}
    (hstep : s.step b.toNat 1 (b :: rest) = (s.push [b], 1)) (pos : ℕ) :
    scan s pos 0 (b :: rest) = scan (s.push [b]) (pos + 1) 0 rest := by
  rw [scan_step hascii hclose, hstep]
  rfl

/-! ## Runs of bytes -/

/-- Bytes that are read into the attribute when `rest` follows them: none of them starts an operator. -/
structure AttrText (a rest : GoString) : Prop where
  readable : Readable a
  close : ch ')' ∉ a
  colon : ch ':' ∉ a
  eq : ch '=' ∉ a
  last : rest.head? = some (ch '=') → ∀ b ∈ a.getLast?, b ∉ [ch '>', ch '<', ch '~']

/-- Bytes that are read into the matching rule: they do not contain `:=`. -/
structure RuleText (r : GoString) : Prop where
  readable : Readable r
  close : ch ')' ∉ r
  chain : r.IsChain fun b c => ¬ (b = ch ':' ∧ c = ch '=')

private theorem two_isPrefixOf {b c d : UInt8} {s : GoString} (h : [c, d].isPrefixOf (b :: s) = true) :
    b = c ∧ s.head? = some d := by
  rcases s with _ | ⟨e, s⟩ <;> simp_all [List.isPrefixOf]

private theorem toNat_ne {b c : UInt8} (h : b ≠ c) : b.toNat ≠ c.toNat := fun he => h (UInt8.toNat_inj.mp he)

theorem step_attr {s : Scan} (hs : s.state = .readingAttr) {b : UInt8} {rest : GoString} (hascii : b.toNat < 0x80)
    (hcolon : b ≠ ch ':') (heq : b ≠ ch '=') (hnext : rest.head? = some (ch '=') → b ∉ [ch '>', ch '<', ch '~']) :
    s.step b.toNat 1 (b :: rest) = (s.push [b], 1) := by
  have hop : ∀ c ∈ [ch '>', ch '<', ch '~'], ¬ (b.toNat = c.toNat ∧ [c, ch '='].isPrefixOf (b :: rest) = true) := by
    rintro c hc ⟨-, hpre⟩
    obtain ⟨rfl, hhead⟩ := two_isPrefixOf hpre
    exact hnext hhead hc
  have hgt : ¬ (b.toNat = (ch '>').toNat ∧ (str ">=").isPrefixOf (b :: rest) = true) := hop _ (by simp)
  have hlt : ¬ (b.toNat = (ch '<').toNat ∧ (str "<=").isPrefixOf (b :: rest) = true) := hop _ (by simp)
  have htilde : ¬ (b.toNat = (ch '~').toNat ∧ (str "~=").isPrefixOf (b :: rest) = true) := hop _ (by simp)
  simp only [Scan.step, Scan.push, hs, toNat_ne hcolon, toNat_ne heq, false_and, if_false, encodeRune_ascii hascii]
  rw [if_neg hgt, if_neg hlt, if_neg htilde]

theorem scan_attr {s : Scan} (hs : s.state = .readingAttr) {a rest : GoString} (h : AttrText a rest) (pos : ℕ) :
    scan s pos 0 (a ++ rest) = scan { s with attr := s.attr ++ a } (pos + a.length) 0 rest := by
  have hpush : { s with attr := s.attr ++ a } = s.push a := by simp [Scan.push, hs]
  rw [hpush]
  obtain ⟨hread, hclose, hcolon, heq, hlast⟩ := h
  clear hpush
  induction hread generalizing s pos with
  | nil => simp
  | @ascii b a hb _ ih =>
    simp only [List.mem_cons, not_or] at hclose hcolon heq
    have hnext : (a ++ rest).head? = some (ch '=') → b ∉ [ch '>', ch '<', ch '~'] := by
      intro hhead
      rcases a with _ | ⟨c, a⟩
      · exact hlast hhead b (by simp)
      · simp only [List.cons_append, List.head?_cons, Option.some.injEq] at hhead
        exact absurd (by simp [hhead]) heq.2
    rw [List.cons_append, scan_push hb (Ne.symm hclose.1) (step_attr hs hb (Ne.symm hcolon.1) (Ne.symm heq.1) hnext),
      ih (s := s.push [b]) (by simpa using hs) (pos + 1) hclose.2 hcolon.2 heq.2 ?_, Scan.push_push, List.length_cons, Nat.add_assoc,
      Nat.add_comm 1]
    · rfl
    · intro hhead c hc
      refine hlast hhead c ?_
      rcases a with _ | ⟨d, a⟩
      · simp at hc
      · simpa using hc
  | @wide r a hv hr hne _ ih =>
    simp only [List.mem_append, not_or] at hclose hcolon heq
    rw [List.append_assoc, scan_wide hv hr hne, ih (s := s.push _) (by simpa using hs) _ hclose.2 hcolon.2 heq.2 ?_, Scan.push_push,
      List.length_append, Nat.add_assoc]
    intro hhead c hc
    refine hlast hhead c ?_
    rcases List.eq_nil_or_concat a with rfl | ⟨a, d, rfl⟩
    · simp at hc
    · simpa using hc

theorem step_rule {s : Scan} (hs : s.state = .readingExtensibleMatchingRule) {b : UInt8} {rest : GoString}
    (hascii : b.toNat < 0x80) (hnext : ¬ (b = ch ':' ∧ rest.head? = some (ch '='))) :
    s.step b.toNat 1 (b :: rest) = (s.push [b], 1) := by
  have hop : ¬ (b.toNat = (ch ':').toNat ∧ (str ":=").isPrefixOf (b :: rest) = true) := by
    rintro ⟨-, hpre⟩
    exact hnext (two_isPrefixOf hpre)
  simp only [Scan.step, Scan.push, hs, encodeRune_ascii hascii]
  rw [if_neg hop]

theorem scan_rule {s : Scan} (hs : s.state = .readingExtensibleMatchingRule) {r rest : GoString} (h : RuleText r)
    (hrest : rest.head? ≠ some (ch '=')) (pos : ℕ) :
    scan s pos 0 (r ++ rest) =
      scan { s with extensibleMatchingRule := s.extensibleMatchingRule ++ r } (pos + r.length) 0 rest := by
  have hpush : { s with extensibleMatchingRule := s.extensibleMatchingRule ++ r } = s.push r := by
    simp [Scan.push, hs]
  rw [hpush]
  obtain ⟨hread, hclose, hchain⟩ := h
  clear hpush
  induction hread generalizing s pos with
  | nil => simp
  | @ascii b r hb _ ih =>
    simp only [List.mem_cons, not_or] at hclose
    have hnext : ¬ (b = ch ':' ∧ (r ++ rest).head? = some (ch '=')) := by
      rintro ⟨rfl, hhead⟩
      rcases r with _ | ⟨c, r⟩
      · exact hrest hhead
      · simp only [List.cons_append, List.head?_cons, Option.some.injEq] at hhead
        exact (List.isChain_cons_cons.mp hchain).1 ⟨rfl, hhead⟩
    rw [List.cons_append, scan_push hb (Ne.symm hclose.1) (step_rule hs hb hnext),
      ih (s := s.push [b]) (by simpa using hs) (pos + 1) hclose.2 hchain.tail, Scan.push_push, List.length_cons, Nat.add_assoc, Nat.add_comm 1]
    rfl
  | @wide u r hv hr hne _ ih =>
    simp only [List.mem_append, not_or] at hclose
    rw [List.append_assoc, scan_wide hv hr hne,
      ih (s := s.push _) (by simpa using hs) _ hclose.2 (List.isChain_append.mp hchain).2.1, Scan.push_push, List.length_append,
      Nat.add_assoc]

/-- Everything up to the closing parenthesis is read into the condition. -/
theorem scan_condition {s : Scan} (hs : s.state = .readingCondition) {v : GoString} (hread : Readable v)
    (hclose : ch ')' ∉ v) (rest : GoString) (pos : ℕ) :
    scan s pos 0 (v ++ ch ')' :: rest) = .close { s with condition := s.condition ++ v } (pos + v.length) := by
  have hpush : { s with condition := s.condition ++ v } = s.push v := by simp [Scan.push, hs]
  rw [hpush]
  clear hpush
  induction hread generalizing s pos with
  | nil => simp [scan_close]
  | @ascii b v hb _ ih =>
    simp only [List.mem_cons, not_or] at hclose
    have hstep : s.step b.toNat 1 (b :: (v ++ ch ')' :: rest)) = (s.push [b], 1) := by
      simp only [Scan.step, Scan.push, hs, encodeRune_ascii hb]
    rw [List.cons_append, scan_push hb (Ne.symm hclose.1) hstep, ih (s := s.push [b]) (by simpa using hs) hclose.2 (pos + 1),
      Scan.push_push, List.length_cons, Nat.add_assoc, Nat.add_comm 1]
    rfl
  | @wide u v hv hr hne _ ih =>
    simp only [List.mem_append, not_or] at hclose
    rw [List.append_assoc, scan_wide hv hr hne, ih (s := s.push _) (by simpa using hs) hclose.2, Scan.push_push,
      List.length_append, Nat.add_assoc]

end GoLdap
