import GoLdap.DN.Model
import GoLdap.Lib.Escaped

/-!
# DN.Decode — what `decodeString` and `setValue` accept

`decodeString` removes padding and then unescapes code points, while `ParseDN` follows the escapes of the same text byte
by byte.

* `decodeLoop_eq_ok_iff`: the loop of `decodeString` as a relation, with one rule for each form of a character.
* `strip_padded`: what `stripLeadingAndTrailingSpaces` leaves of a text with its spaces set apart.  The parity of the
  backslashes it counts is the flag that `ParseDN` keeps (`pending_eq_trailing`).
* `strip_eq_trimForward`: it removes what a reading from left to right would remove.
* `pending_of_setValue`: a value that is accepted does not end inside an escape.  So where `ParseDN` sees the end of an
  accepted value, it sees it outside of any escape.
-/

namespace GoLdap

open Go Escaped

/-! ## Unescaping -/

/-- The code points of an escaped text and the bytes it stands for. -/
inductive Unescapes : List ℕ → GoString → Prop
  | nil : Unescapes [] []
  | plain {r : ℕ} {rs : List ℕ} {v : GoString} (hr : r ≠ rn '\\') (hm : mustBeEscaped r = false) (h0 : r ≠ 0)
      (hs : Unescapes rs v) : Unescapes (r :: rs) (encodeRune r ++ v)
  | escaped {e : ℕ} {rs : List ℕ} {v : GoString} (he : isEscapable e = true) (hs : Unescapes rs v) :
      Unescapes (rn '\\' :: e :: rs) (encodeRune e ++ v)
  | hex {e e' : ℕ} {x y b : UInt8} {rs : List ℕ} {v : GoString} (he : isEscapable e = false)
      (hxy : encodeRune e ++ encodeRune e' = [x, y]) (hb : hexDecodePair x y = some b) (hs : Unescapes rs v) :
      Unescapes (rn '\\' :: e :: e' :: rs) (b :: v)

theorem Unescapes.decodeLoop_eq {rs : List ℕ} {v : GoString} (h : Unescapes rs v) (w : List ℕ) :
    decodeLoop w rs = .ok v := by
  induction h with
  | nil => simp [decodeLoop]
  | plain hr hm h0 _ ih =>
    rw [decodeLoop.eq_def]
    dsimp only
    rw [if_pos hr, hm, if_neg (by simp), if_neg h0, ih]
    rfl
  | escaped he _ ih =>
    rw [decodeLoop.eq_def]
    dsimp only
    rw [if_neg (by simp), if_pos he, ih]
    rfl
  | hex he hxy hb _ ih =>
    rw [decodeLoop.eq_def]
    dsimp only
    rw [if_neg (by simp), he, if_neg (by simp), hxy]
    dsimp only
    rw [hb]
    dsimp only
    rw [ih]
    rfl

/-- The loop of `decodeString` accepts exactly the escaped texts. -/
theorem decodeLoop_eq_ok_iff {w rs : List ℕ} {v : GoString} : decodeLoop w rs = .ok v ↔ Unescapes rs v := by
  refine ⟨fun h => ?_, fun h => h.decodeLoop_eq w⟩
  fun_induction decodeLoop w rs generalizing v with
  | case1 =>
    cases h
    exact .nil
  | case4 r rs hr hm h0 ih =>
    obtain ⟨v', hv', h⟩ := except_bind_eq_ok.mp h
    cases h
    exact .plain hr (by simpa using hm) h0 (ih hv')
  | case6 r hr e rs he ih =>
    obtain ⟨v', hv', h⟩ := except_bind_eq_ok.mp h
    cases h
    rw [not_not.mp hr]
    exact .escaped he (ih hv')
  | case9 r hr e he e' rs x y hxy b hb ih =>
    obtain ⟨v', hv', h⟩ := except_bind_eq_ok.mp h
    cases h
    rw [not_not.mp hr]
    exact .hex (by simpa using he) hxy hb (ih hv')
  | _ => cases h

theorem Unescapes.eq_nil {rs : List ℕ} (h : Unescapes rs []) : rs = [] := by
  generalize hv : ([] : GoString) = v at h
  cases h with
  | nil => rfl
  | plain =>
    obtain ⟨hnil, -⟩ := List.append_eq_nil_iff.mp hv.symm
    exact absurd hnil (encodeRune_ne_nil _)
  | escaped =>
    obtain ⟨hnil, -⟩ := List.append_eq_nil_iff.mp hv.symm
    exact absurd hnil (encodeRune_ne_nil _)
  | hex => cases hv

theorem Unescapes.append {rs rs' : List ℕ} {v v' : GoString} (h : Unescapes rs v) (h' : Unescapes rs' v') :
    Unescapes (rs ++ rs') (v ++ v') := by
  induction h with
  | nil => exact h'
  | plain hr hm h0 _ ih =>
    rw [List.append_assoc]
    exact .plain hr hm h0 ih
  | escaped he _ ih =>
    rw [List.append_assoc]
    exact .escaped he ih
  | hex he hxy hb _ ih => exact .hex he hxy hb ih

theorem Unescapes.flatMap {α : Type} {f : α → List ℕ} {g : α → GoString} {l : List α}
    (h : ∀ x ∈ l, Unescapes (f x) (g x)) : Unescapes (l.flatMap f) (l.flatMap g) := by
  induction l with
  | nil => exact .nil
  | cons x l ih => exact (h x (by simp)).append (ih fun y hy => h y (by simp [hy]))

/-- The second of two code points that are hexadecimal digits is not a backslash. -/
theorem hexPair_ne_backslash {e e' : ℕ} {x y b : UInt8} (hxy : encodeRune e ++ encodeRune e' = [x, y])
    (hb : hexDecodePair x y = some b) : e' ≠ rn '\\' := by
  rintro rfl
  have hy : y = ch '\\' := by
    have h1 : encodeRune (rn '\\') = [ch '\\'] := rfl
    have hlast := congrArg List.getLast? hxy
    rw [h1, List.getLast?_append, List.getLast?_singleton, Option.some_or] at hlast
    simpa using hlast.symm
  rw [hy, hexDecodePair] at hb
  simp [show fromHexChar (ch '\\') = none from rfl] at hb

/-- An escaped text does not end inside an escape. -/
theorem Unescapes.pending_eq {rs : List ℕ} {v : GoString} (h : Unescapes rs v) : pending (rn '\\') false rs = false := by
  induction h with
  | nil => rfl
  | plain hr _ _ _ ih => rwa [pending_cons, next_of_ne _ hr]
  | escaped _ _ ih => exact ih
  | @hex e e' x y b rs v _ hxy hb _ ih =>
    show pending (rn '\\') (next (rn '\\') false e') rs = false
    rwa [next_of_ne _ (hexPair_ne_backslash hxy hb)]

/-- The escapes of a string are the same, byte by byte and code point by code point. -/
theorem pending_runes (flag : Bool) (s : GoString) : pending (rn '\\') flag (runes s) = pending (ch '\\') flag s := by
  induction s using runes_induction generalizing flag with
  | nil => rfl
  | ascii b s hb ih =>
    have hnext : next (rn '\\') flag b.toNat = next (ch '\\') flag b := by
      have hiff : b.toNat = rn '\\' ↔ b = ch '\\' := by
        rw [show rn '\\' = (ch '\\').toNat from rfl, UInt8.toNat_inj]
      simp only [next, hiff]
    rw [runes_cons_ascii hb, pending_cons, pending_cons, hnext, ih]
  | wide b p s r hbytes hr hrunes ih =>
    have hp : pending (ch '\\') flag (b :: p) = false := by
      refine pending_of_not_mem flag (by simp) fun hmem => ?_
      have := hbytes _ hmem
      revert this
      decide
    have hne : r ≠ rn '\\' := by
      rintro rfl
      revert hr
      decide
    rw [hrunes, pending_cons, next_of_ne flag hne, pending_append, hp, ih]

/-! ## Padding -/

def spaces (n : ℕ) : GoString := List.replicate n (ch ' ')

theorem pending_spaces (n : ℕ) : pending (ch '\\') false (spaces n) = false := by
  rcases Nat.eq_zero_or_pos n with rfl | hn
  · rfl
  · refine pending_of_not_mem false (by simpa [spaces] using hn.ne') fun h => ?_
    exact absurd (List.eq_of_mem_replicate h) (by decide)

theorem exists_spaces_append (s : GoString) : ∃ a t, s = spaces a ++ t ∧ t.head? ≠ some (ch ' ') := by
  induction s with
  | nil => exact ⟨0, [], rfl, by simp⟩
  | cons c s ih =>
    by_cases hc : c = ch ' '
    · obtain ⟨a, t, rfl, ht⟩ := ih
      exact ⟨a + 1, t, by rw [hc, spaces, spaces, List.replicate_succ, List.cons_append], ht⟩
    · exact ⟨0, c :: s, rfl, by simpa using hc⟩

/-- A string with the spaces at both ends set apart. -/
theorem exists_padded (s : GoString) : ∃ a n b, s = spaces a ++ n ++ spaces b ∧ n.head? ≠ some (ch ' ') ∧
    n.getLast? ≠ some (ch ' ') := by
  obtain ⟨a, t, rfl, ht⟩ := exists_spaces_append s
  obtain ⟨b, u, hu, hlast⟩ := exists_spaces_append t.reverse
  have ht' : t = u.reverse ++ spaces b := by
    rw [← List.reverse_reverse t, hu, List.reverse_append, spaces, List.reverse_replicate]
  refine ⟨a, u.reverse, b, by rw [ht', List.append_assoc], ?_, by rwa [List.getLast?_reverse]⟩
  by_cases hnil : u.reverse = []
  · simp [hnil]
  · rwa [ht', List.head?_append_of_ne_nil _ hnil] at ht

/-- Trimming removes the padding. -/
theorem trim_padded {n : GoString} (h1 : n.head? ≠ some (ch ' ')) (h2 : n.getLast? ≠ some (ch ' ')) (a b : ℕ) :
    trim (ch ' ') (spaces a ++ n ++ spaces b) = n := by
  have hleft : (spaces a ++ n ++ spaces b).dropWhile (· == ch ' ') = (n ++ spaces b).dropWhile (· == ch ' ') := by
    rw [List.append_assoc]
    exact List.dropWhile_append_of_pos (by simp [spaces])
  rw [trim, hleft, List.rdropWhile]
  by_cases hnil : n = []
  · subst hnil
    have hall : (([] : GoString) ++ spaces b).dropWhile (· == ch ' ') = [] := by simp [spaces]
    rw [hall]
    rfl
  · have hdrop : (n ++ spaces b).dropWhile (· == ch ' ') = n ++ spaces b := by
      refine dropWhile_eq_self ?_
      rwa [List.head?_append_of_ne_nil _ hnil]
    rw [hdrop, List.reverse_append, List.dropWhile_append_of_pos (by simp [spaces]), dropWhile_eq_self (by simpa using h2),
      List.reverse_reverse]

/-- The parity of the backslashes at the end says whether the last of them escapes what follows. -/
theorem pending_eq_trailing (s : GoString) :
    pending (ch '\\') false s = decide (trailing (ch '\\') s % 2 = 1) := by
  induction s using List.reverseRecOn with
  | nil => rfl
  | append_singleton s c ih =>
    rw [pending_append, ih, pending_cons, pending_nil, next]
    by_cases hc : c = ch '\\'
    · subst hc
      rw [trailing_append_singleton_self]
      by_cases hodd : trailing (ch '\\') s % 2 = 1
      · have : ¬ (trailing (ch '\\') s + 1) % 2 = 1 := by omega
        simp [hodd, this]
      · have : (trailing (ch '\\') s + 1) % 2 = 1 := by omega
        simp [hodd, this]
    · rw [trailing_append_singleton_ne _ hc]
      simp [hc]

/-- What is left of a string: the text without its padding, and one space if the text ends with a backslash for it. -/
theorem strip_padded {n : GoString} (h1 : n.head? ≠ some (ch ' ')) (h2 : n.getLast? ≠ some (ch ' ')) (a b : ℕ) :
    stripLeadingAndTrailingSpaces (spaces a ++ n ++ spaces b) =
      if 0 < b ∧ pending (ch '\\') false n = true then n ++ [ch ' '] else n := by
  unfold stripLeadingAndTrailingSpaces
  dsimp only
  rw [trim_padded h1 h2]
  have hpend : pending (ch '\\') false n = true ↔ trailing (ch '\\') n % 2 = 1 := by
    rw [pending_eq_trailing, decide_eq_true_iff]
  have hlast : 0 < n.length → ((spaces a ++ n ++ spaces b).getLast? = some (ch ' ') ↔ 0 < b) := by
    intro hn
    have hne : n ≠ [] := List.length_pos_iff.mp hn
    rcases Nat.eq_zero_or_pos b with rfl | hb
    · rw [show spaces 0 = [] from rfl, List.append_nil, List.getLast?_append_of_ne_nil _ hne]
      exact iff_of_false h2 (Nat.lt_irrefl 0)
    · have hb' : spaces b ≠ [] := by simpa [spaces] using hb.ne'
      rw [List.getLast?_append_of_ne_nil _ hb']
      refine iff_of_true ?_ hb
      rw [spaces, List.getLast?_replicate, if_neg hb.ne']
  by_cases hn : 0 < n.length
  · simp only [hn, true_and, hlast hn, hpend]
    split_ifs <;> simp_all
  · have hnil : n = [] := List.length_eq_zero_iff.mp (Nat.eq_zero_of_not_pos hn)
    subst hnil
    simp

/-! ### Reading from left to right -/

/-- The bytes of a string without the spaces in front of it, and without the spaces at its end that are not escaped. -/
def trimForward (s : GoString) : GoString :=
  (((marks (ch '\\') false s).dropWhile fun m => m.1 == ch ' ').rdropWhile fun m => m.1 == ch ' ' && !m.2).map Prod.fst

/-- Only the first of some spaces can be escaped. -/
theorem marks_spaces (flag : Bool) (b : ℕ) :
    marks (ch '\\') flag (spaces (b + 1)) = (ch ' ', flag) :: List.replicate b (ch ' ', false) := by
  induction b generalizing flag with
  | zero => rfl
  | succ b ih =>
    have hnext : next (ch '\\') flag (ch ' ') = false := next_of_ne flag (by decide)
    have hspaces : spaces (b + 1 + 1) = ch ' ' :: spaces (b + 1) := rfl
    rw [hspaces, marks, hnext, ih, List.replicate_succ]

theorem rdropWhile_marks_spaces (l : List (UInt8 × Bool)) (b : ℕ) :
    (l ++ List.replicate b (ch ' ', false)).rdropWhile (fun m => m.1 == ch ' ' && !m.2) =
      l.rdropWhile fun m => m.1 == ch ' ' && !m.2 := by
  induction b with
  | zero => rw [List.replicate_zero, List.append_nil]
  | succ b ih => rw [List.replicate_succ', ← List.append_assoc, List.rdropWhile_concat_pos _ _ _ rfl, ih]

theorem rdropWhile_marks {n : GoString} (h : n.getLast? ≠ some (ch ' ')) :
    (marks (ch '\\') false n).rdropWhile (fun m => m.1 == ch ' ' && !m.2) = marks (ch '\\') false n := by
  rw [List.rdropWhile_eq_self_iff]
  intro hne hlast
  have hspace : ((marks (ch '\\') false n).getLast hne).1 = ch ' ' := by
    rw [Bool.and_eq_true, beq_iff_eq] at hlast
    exact hlast.1
  apply h
  rw [← map_fst_marks (ch '\\') false n, List.getLast?_map, List.getLast?_eq_some_getLast hne, Option.map_some, hspace]

theorem dropWhile_marks_spaces (a : ℕ) (t : GoString) :
    (marks (ch '\\') false (spaces a ++ t)).dropWhile (fun m => m.1 == ch ' ') =
      (marks (ch '\\') false t).dropWhile fun m => m.1 == ch ' ' := by
  rw [marks_append, pending_spaces]
  refine List.dropWhile_append_of_pos fun m hm => ?_
  have hmem : m.1 ∈ spaces a := by
    rw [← map_fst_marks (ch '\\') false (spaces a)]
    exact List.mem_map_of_mem hm
  exact beq_iff_eq.mpr (List.eq_of_mem_replicate hmem)

theorem trimForward_padded {n : GoString} (h1 : n.head? ≠ some (ch ' ')) (h2 : n.getLast? ≠ some (ch ' ')) (a b : ℕ) :
    trimForward (spaces a ++ n ++ spaces b) =
      if 0 < b ∧ pending (ch '\\') false n = true then n ++ [ch ' '] else n := by
  rw [trimForward, List.append_assoc, dropWhile_marks_spaces]
  cases n with
  | nil =>
    have hnil : (marks (ch '\\') false ([] ++ spaces b)).dropWhile (fun m => m.1 == ch ' ') = [] := by
      rw [List.nil_append, ← List.append_nil (spaces b), dropWhile_marks_spaces]
      rfl
    rw [hnil, if_neg (by simp)]
    rfl
  | cons c n =>
    have hc : ¬ (c == ch ' ') = true := by simpa using h1
    have hdrop : (marks (ch '\\') false (c :: n ++ spaces b)).dropWhile (fun m => m.1 == ch ' ') =
        marks (ch '\\') false (c :: n) ++ marks (ch '\\') (pending (ch '\\') false (c :: n)) (spaces b) := by
      rw [← marks_append]
      exact List.dropWhile_cons_of_neg hc
    rw [hdrop]
    cases b with
    | zero => rw [if_neg (by simp), show spaces 0 = [] from rfl, marks, List.append_nil, rdropWhile_marks h2, map_fst_marks]
    | succ b =>
      -- the first of the spaces is the one that may be escaped
      rw [marks_spaces, List.append_cons, rdropWhile_marks_spaces]
      cases hflag : pending (ch '\\') false (c :: n) with
      | true =>
        rw [List.rdropWhile_concat_neg _ _ _ (by simp), if_pos ⟨b.succ_pos, rfl⟩, List.map_append, map_fst_marks]
        rfl
      | false => rw [List.rdropWhile_concat_pos _ _ _ rfl, rdropWhile_marks h2, map_fst_marks, if_neg (by simp)]

/-- The spaces that are trimmed are those that a reading from left to right finds outside of any escape. -/
theorem strip_eq_trimForward (s : GoString) : stripLeadingAndTrailingSpaces s = trimForward s := by
  obtain ⟨a, n, b, rfl, h1, h2⟩ := exists_padded s
  rw [strip_padded h1 h2, trimForward_padded h1 h2]

/-! ### More padding -/

theorem spaces_add (a b : ℕ) : spaces (a + b) = spaces a ++ spaces b := List.replicate_add a b _

theorem pending_spaces_append (a : ℕ) (s : GoString) :
    pending (ch '\\') false (spaces a ++ s) = pending (ch '\\') false s := by
  rw [pending_append, pending_spaces]

/-- A string that ends outside of an escape is stripped to the same with more padding. -/
theorem strip_pad {t : GoString} (ht : pending (ch '\\') false t = false) (a b : ℕ) :
    stripLeadingAndTrailingSpaces (spaces a ++ t ++ spaces b) = stripLeadingAndTrailingSpaces t := by
  obtain ⟨a', n, b', rfl, h1, h2⟩ := exists_padded t
  have hsum : spaces a ++ (spaces a' ++ n ++ spaces b') ++ spaces b = spaces (a + a') ++ n ++ spaces (b' + b) := by
    simp [spaces_add]
  rw [hsum, strip_padded h1 h2, strip_padded h1 h2]
  rcases Nat.eq_zero_or_pos b' with rfl | hb'
  · -- the text is followed by nothing, so it does not end with a backslash for a space
    rw [show spaces 0 = [] from rfl, List.append_nil, pending_spaces_append] at ht
    rw [ht]
    simp
  · have hb : 0 < b' + b := by omega
    simp only [hb', hb, true_and]

/-- Nothing is stripped from a text without spaces at its ends, the one behind a backslash apart. -/
theorem strip_eq_self {s : GoString} (h1 : s.head? ≠ some (ch ' '))
    (h2 : s.getLast? ≠ some (ch ' ') ∨ ∃ n, s = n ++ [ch '\\', ch ' '] ∧ pending (ch '\\') false n = false) :
    stripLeadingAndTrailingSpaces s = s := by
  rcases h2 with h2 | ⟨n, rfl, hn⟩
  · have hs := strip_padded h1 h2 0 0
    rw [if_neg (fun h => Nat.lt_irrefl 0 h.1)] at hs
    simpa [spaces] using hs
  · -- the text without its last space ends with a backslash for it
    have hhead : (n ++ [ch '\\']).head? ≠ some (ch ' ') := by
      cases n with
      | nil => decide
      | cons c n => simpa using h1
    have hs := strip_padded hhead (by simp; decide) 0 1
    have hpend : pending (ch '\\') false (n ++ [ch '\\']) = true := by
      rw [pending_append, hn]
      rfl
    rw [if_pos ⟨Nat.one_pos, hpend⟩] at hs
    simpa [spaces] using hs

theorem pending_strip (s : GoString) :
    pending (ch '\\') false (stripLeadingAndTrailingSpaces s) = pending (ch '\\') false s := by
  obtain ⟨a, n, b, rfl, h1, h2⟩ := exists_padded s
  rw [strip_padded h1 h2, List.append_assoc, pending_spaces_append, pending_append]
  rcases Nat.eq_zero_or_pos b with rfl | hb
  · rw [if_neg (by simp)]
    rfl
  · -- the flag is reset by the first space of the padding
    have hspaces : ∀ flag, pending (ch '\\') flag (spaces b) = false := by
      intro flag
      refine pending_of_not_mem flag (by simpa [spaces] using hb.ne') fun h => ?_
      exact absurd (List.eq_of_mem_replicate h) (by decide)
    rw [hspaces]
    split_ifs with hn
    · rw [pending_append]
      exact next_of_ne _ (by decide)
    · simpa [hb] using hn

/-! ## Types and values -/

theorem decodeString_eq_ok_iff {s v : GoString} :
    decodeString s = .ok v ↔ Unescapes (runes (stripLeadingAndTrailingSpaces s)) v := decodeLoop_eq_ok_iff

/-- Padding is insignificant for `decodeString`. -/
theorem decodeString_pad {t : GoString} (ht : pending (ch '\\') false t = false) (a b : ℕ) :
    decodeString (spaces a ++ t ++ spaces b) = decodeString t := by
  unfold decodeString
  rw [strip_pad ht]

theorem pending_of_decodeString {s v : GoString} (h : decodeString s = .ok v) : pending (ch '\\') false s = false := by
  rw [← pending_strip, ← pending_runes]
  exact (decodeString_eq_ok_iff.mp h).pending_eq

/-- Trimming agrees with the reading from left to right, and more spaces make no difference to a string that can be
decoded. -/
theorem strip_forward (s : GoString) : stripLeadingAndTrailingSpaces s = trimForward s ∧
    ∀ v, decodeString s = .ok v → ∀ a b, decodeString (spaces a ++ s ++ spaces b) = .ok v := by
  refine ⟨strip_eq_trimForward s, fun v hv a b => ?_⟩
  rw [decodeString_pad (pending_of_decodeString hv), hv]

/-- A backslash, and then an escaped space. -/
theorem strip_forward_escaped : decodeString (str "\\\\\\ ") = .ok (str "\\ ") ∧
    decodeString (spaces 2 ++ str "\\\\\\ " ++ spaces 3) = .ok (str "\\ ") := by
  have hv : decodeString (str "\\\\\\ ") = .ok (str "\\ ") := by decide
  exact ⟨hv, (strip_forward _).2 _ hv 2 3⟩

/-- The bytes of a hexadecimal string are digits. -/
theorem fromHexChar_of_hexDecodeString {s d : GoString} (h : hexDecodeString s = some d) :
    ∀ c ∈ s, fromHexChar c ≠ none := by
  fun_induction hexDecodeString s generalizing d with
  | case1 => simp
  | case2 => cases h
  | case3 x y s ih =>
    obtain ⟨b, hb, rest, hrest, -⟩ : ∃ b, hexDecodePair x y = some b ∧ ∃ rest, hexDecodeString s = some rest ∧
        b :: rest = d := by
      simpa [Option.bind_eq_some_iff] using h
    obtain ⟨hx, hy⟩ : (∃ n, fromHexChar x = some n) ∧ ∃ n, fromHexChar y = some n := by
      simp only [hexDecodePair, Option.bind_eq_bind, Option.bind_eq_some_iff] at hb
      obtain ⟨n, hn, m, hm, -⟩ := hb
      exact ⟨⟨n, hn⟩, m, hm⟩
    simp only [List.forall_mem_cons]
    exact ⟨by rw [hx.choose_spec]; simp, by rw [hy.choose_spec]; simp, ih hrest⟩

section Value

variable {readPacket : GoString → Except Error (GoString × GoString)}

theorem setValue_hash (s : GoString) : setValue readPacket (ch '#' :: s) = decodeEncodedString readPacket s := by
  rw [setValue, if_pos rfl]

theorem setValue_of_ne {s : GoString} (h : s.head? ≠ some (ch '#')) : setValue readPacket s = decodeString s := by
  cases s with
  | nil => rfl
  | cons c s => rw [setValue, if_neg (by simpa using h)]

theorem hexDecodeString_of_decodeEncodedString {s v : GoString} (h : decodeEncodedString readPacket s = .ok v) :
    ∃ d, hexDecodeString s = some d := by
  unfold decodeEncodedString at h
  cases hs : hexDecodeString s with
  | none =>
    rw [hs] at h
    cases h
  | some d => exact ⟨d, rfl⟩

/-- A value that is accepted ends outside of any escape. -/
theorem pending_of_setValue {s v : GoString} (h : setValue readPacket s = .ok v) :
    pending (ch '\\') false s = false := by
  by_cases hs : s.head? = some (ch '#')
  · obtain ⟨t, rfl⟩ := List.head?_eq_some_iff.mp hs
    rw [setValue_hash] at h
    obtain ⟨d, hd⟩ := hexDecodeString_of_decodeEncodedString h
    refine pending_of_not_mem false (by simp) fun hmem => ?_
    rcases List.mem_cons.mp hmem with heq | hmem
    · exact absurd heq (by decide)
    · exact fromHexChar_of_hexDecodeString hd _ hmem rfl
  · rw [setValue_of_ne hs] at h
    exact pending_of_decodeString h

end Value

end GoLdap
