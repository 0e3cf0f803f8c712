import GoLdap.Go.Error
import Mathlib.Tactic.Linarith

/-!
# Go.Strconv — `strconv.ParseInt` and `strconv.FormatInt` in base ten

Numbers of 64 bits.  A text that is too large is reported at the digit where it leaves the range of `uint64`, before what
follows is looked at.
-/

namespace Go

/-- The two ways `ParseUint` fails: `ErrSyntax` and `ErrRange`. -/
inductive NumError where
  | invalid
  | outOfRange
  deriving DecidableEq, Repr

/-- The loop of `strconv.ParseUint(s, 10, 64)`. -/
def parseDigits (acc : ℕ) : GoString → Except NumError ℕ
  | [] => .ok acc
  | b :: s =>
    if ch '0' ≤ b ∧ b ≤ ch '9' then
      if 2 ^ 64 ≤ acc * 10 + (b.toNat - 48) then .error .outOfRange else parseDigits (acc * 10 + (b.toNat - 48)) s
    else .error .invalid

/-- `strconv.ParseUint(s, 10, 64)`. -/
def parseUint (s : GoString) : Except NumError ℕ := if s = [] then .error .invalid else parseDigits 0 s

def errSyntax (s : GoString) : Error := .fmt "strconv.ParseInt: parsing %q: invalid syntax" s

def errRange (s : GoString) : Error := .fmt "strconv.ParseInt: parsing %q: value out of range" s

/-- `strconv.ParseInt(s, 10, 64)`. -/
def parseInt (s : GoString) : Except Error ℤ :=
  let neg := s.head? = some (ch '-')
  let digits := if s.head? = some (ch '+') ∨ neg then s.drop 1 else s
  match parseUint digits with
  | .error .invalid => .error (errSyntax s)
  | .error .outOfRange => .error (errRange s)
  | .ok un =>
    if ¬ neg ∧ 2 ^ 63 ≤ un then .error (errRange s)
    else if neg ∧ 2 ^ 63 < un then .error (errRange s)
    else .ok (if neg then -un else un)

/-- The digits of a number. -/
def formatUint (n : ℕ) : GoString :=
  if n < 10 then [UInt8.ofNat (48 + n)] else formatUint (n / 10) ++ [UInt8.ofNat (48 + n % 10)]
decreasing_by omega

/-- `strconv.FormatInt(n, 10)`. -/
def formatInt (n : ℤ) : GoString := if n < 0 then ch '-' :: formatUint n.natAbs else formatUint n.natAbs

theorem parseDigits_digit {acc d : ℕ} (hd : d < 10) (hacc : acc * 10 + d < 2 ^ 64) (rest : GoString) :
    parseDigits acc (UInt8.ofNat (48 + d) :: rest) = parseDigits (acc * 10 + d) rest := by
  have hb : (UInt8.ofNat (48 + d)).toNat = 48 + d := by rw [UInt8.toNat_ofNat']; omega
  have hdigit : ch '0' ≤ UInt8.ofNat (48 + d) ∧ UInt8.ofNat (48 + d) ≤ ch '9' := by
    rw [UInt8.le_iff_toNat_le, UInt8.le_iff_toNat_le, hb, show (ch '0').toNat = 48 from rfl,
      show (ch '9').toNat = 57 from rfl]
    omega
  rw [parseDigits, if_pos hdigit, hb, Nat.add_sub_cancel_left, if_neg (by omega)]

theorem parseDigits_formatUint {n : ℕ} (h : n < 2 ^ 64) (rest : GoString) :
    parseDigits 0 (formatUint n ++ rest) = parseDigits n rest := by
  induction n using Nat.strongRecOn generalizing rest with
  | ind n ih =>
    rw [formatUint]
    split
    · rename_i hlt
      rw [List.singleton_append, parseDigits_digit hlt (by omega), Nat.zero_mul, Nat.zero_add]
    · rw [List.append_assoc, ih (n / 10) (by omega) (by omega), List.singleton_append,
        parseDigits_digit (Nat.mod_lt n (by decide)) (by omega), Nat.div_add_mod']

theorem exists_formatUint_eq_cons (n : ℕ) : ∃ d < 10, ∃ s, formatUint n = UInt8.ofNat (48 + d) :: s := by
  induction n using Nat.strongRecOn with
  | ind n ih =>
    rw [formatUint]
    split
    · exact ⟨n, by assumption, [], rfl⟩
    · obtain ⟨d, hd, s, hs⟩ := ih (n / 10) (by omega)
      exact ⟨d, hd, s ++ [UInt8.ofNat (48 + n % 10)], by rw [hs, List.cons_append]⟩

theorem parseUint_formatUint {n : ℕ} (h : n < 2 ^ 64) : parseUint (formatUint n) = .ok n := by
  obtain ⟨d, -, s, hs⟩ := exists_formatUint_eq_cons n
  have hloop := parseDigits_formatUint h []
  rw [List.append_nil] at hloop
  rw [parseUint, if_neg (by rw [hs]; exact List.cons_ne_nil _ _), hloop, parseDigits]

/-- The digits of a number have no sign in front. -/
theorem head?_formatUint_ne (n : ℕ) {b : UInt8} (hb : b < 48) : (formatUint n).head? ≠ some b := by
  obtain ⟨d, hd, s, hs⟩ := exists_formatUint_eq_cons n
  rw [hs, List.head?_cons]
  intro h
  have hval : (UInt8.ofNat (48 + d)).toNat = b.toNat := congrArg UInt8.toNat (Option.some.inj h)
  rw [UInt8.toNat_ofNat'] at hval
  rw [UInt8.lt_iff_toNat_lt] at hb
  have h48 : (48 : UInt8).toNat = 48 := rfl
  omega

/-- A number of 64 bits is read back from its decimal form. -/
theorem parseInt_formatInt {n : ℤ} (h1 : -2 ^ 63 ≤ n) (h2 : n < 2 ^ 63) : parseInt (formatInt n) = .ok n := by
  unfold formatInt
  split
  · rename_i hneg
    have hparse : parseUint (formatUint n.natAbs) = .ok n.natAbs := parseUint_formatUint (by omega)
    simp only [parseInt, List.head?_cons, or_true, if_true, List.drop_succ_cons, List.drop_zero, hparse,
      not_true_eq_false, false_and, if_false, true_and]
    rw [if_neg (by omega)]
    congr 1
    omega
  · have hparse : parseUint (formatUint n.natAbs) = .ok n.natAbs := parseUint_formatUint (by omega)
    have hminus := head?_formatUint_ne n.natAbs (show ch '-' < 48 by decide)
    have hplus := head?_formatUint_ne n.natAbs (show ch '+' < 48 by decide)
    simp only [parseInt, hminus, hplus, or_self, if_false, hparse, not_false_eq_true, true_and, false_and]
    rw [if_neg (by omega)]
    congr 1
    omega

end Go
