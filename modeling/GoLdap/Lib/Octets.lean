import Mathlib.Data.Nat.Basic
import Mathlib.Data.Int.Basic
import Mathlib.Data.List.Induction
import Mathlib.Tactic.Ring
import Mathlib.Tactic.Linarith

/-!
# Lib.Octets — numbers as octet strings

Three ways to write a number in octets: big-endian with a fixed number of octets, two's complement, and groups of seven
bits with a continuation bit.  Each is read back from what was written, with any octets after it.
-/

namespace Octets

/-! ## Big-endian -/

/-- The low `k` octets of a number, most significant first. -/
def bigEndian : ℕ → ℕ → List UInt8
  | 0, _ => []
  | k + 1, n => bigEndian k (n / 256) ++ [UInt8.ofNat n]

/-- The number an octet string stands for. -/
def unsigned (bs : List UInt8) : ℕ := bs.foldl (fun acc b => acc * 256 + b.toNat) 0

@[simp] theorem length_bigEndian (k n : ℕ) : (bigEndian k n).length = k := by
  induction k generalizing n with
  | zero => rfl
  | succ k ih => rw [bigEndian, List.length_append, ih, List.length_singleton]

theorem unsigned_concat (bs : List UInt8) (b : UInt8) : unsigned (bs ++ [b]) = unsigned bs * 256 + b.toNat := by
  rw [unsigned, List.foldl_append]
  rfl

@[simp] theorem unsigned_bigEndian (k n : ℕ) : unsigned (bigEndian k n) = n % 256 ^ k := by
  induction k generalizing n with
  | zero => rw [pow_zero, Nat.mod_one]; rfl
  | succ k ih =>
    rw [bigEndian, unsigned_concat, ih, UInt8.toNat_ofNat', show 2 ^ 8 = 256 from rfl, pow_succ', Nat.mod_mul]
    omega

theorem unsigned_lt (bs : List UInt8) : unsigned bs < 256 ^ bs.length := by
  induction bs using List.reverseRecOn with
  | nil => decide
  | append_singleton bs b ih =>
    have hb := b.toNat_lt
    rw [unsigned_concat, List.length_append, List.length_singleton, pow_succ]
    omega

/-- An octet string is what its number is written as. -/
theorem bigEndian_unsigned (bs : List UInt8) : bigEndian bs.length (unsigned bs) = bs := by
  induction bs using List.reverseRecOn with
  | nil => rfl
  | append_singleton bs b ih =>
    have hb := b.toNat_lt
    have hdiv : (unsigned bs * 256 + b.toNat) / 256 = unsigned bs := by omega
    have hlast : UInt8.ofNat (unsigned bs * 256 + b.toNat) = b := by
      rw [← UInt8.toNat_inj, UInt8.toNat_ofNat']
      omega
    rw [List.length_append, List.length_singleton, unsigned_concat, bigEndian, hdiv, ih, hlast]

/-! ## Two's complement -/

/-- The integer an octet string stands for in two's complement; the empty string stands for zero. -/
def twosComplement (bs : List UInt8) : ℤ := (unsigned bs : ℤ).bmod (256 ^ bs.length)

theorem twosComplement_octet (x : UInt8) : twosComplement [x] = 0 ↔ x = 0 := by
  have hval : twosComplement [x] = (x.toNat : ℤ).bmod 256 := by simp [twosComplement, unsigned]
  have hlt := x.toNat_lt
  rw [hval, Int.bmod_def, ← UInt8.toNat_inj, show (0 : UInt8).toNat = 0 from rfl]
  split <;> omega

/-- The low `k` octets of an integer in two's complement. -/
def signed (k : ℕ) (n : ℤ) : List UInt8 := bigEndian k (n % 256 ^ k).toNat

@[simp] theorem length_signed (k : ℕ) (n : ℤ) : (signed k n).length = k := length_bigEndian k _

theorem unsigned_signed (k : ℕ) (n : ℤ) : (unsigned (signed k n) : ℤ) = n % 256 ^ k := by
  have hpos : (0 : ℤ) < 256 ^ k := by positivity
  rw [signed, unsigned_bigEndian, Int.natCast_mod, Int.toNat_of_nonneg (Int.emod_nonneg n hpos.ne')]
  push_cast
  rw [Int.emod_emod]

/-- What is read back from the low octets of an integer is the integer up to multiples of `256 ^ k`. -/
theorem twosComplement_signed (k : ℕ) (n : ℤ) : twosComplement (signed k n) = n.bmod (256 ^ k) := by
  have h := unsigned_signed k n
  rw [twosComplement, h, length_signed]
  have hcast : ((256 ^ k : ℕ) : ℤ) = 256 ^ k := by push_cast; rfl
  rw [← hcast, Int.emod_bmod]

/-- The octets of an integer depend only on its class modulo `256 ^ k`. -/
theorem signed_congr {k : ℕ} {m n : ℤ} (h : m % 256 ^ k = n % 256 ^ k) : signed k m = signed k n := by
  rw [signed, signed, h]

/-- The integers that fit into `k` octets. -/
def Fits (k : ℕ) (n : ℤ) : Prop := -(256 ^ k) ≤ 2 * n ∧ 2 * n < 256 ^ k

instance (k : ℕ) (n : ℤ) : Decidable (Fits k n) := inferInstanceAs (Decidable (_ ∧ _))

theorem Fits.twosComplement_signed {k : ℕ} {n : ℤ} (h : Fits k n) (hk : 0 < k) :
    twosComplement (signed k n) = n := by
  have heven : ∃ m : ℕ, 256 ^ k = 2 * m := ⟨128 * 256 ^ (k - 1), by
    obtain ⟨j, rfl⟩ : ∃ j, k = j + 1 := ⟨k - 1, by omega⟩
    rw [Nat.add_sub_cancel, pow_succ]
    ring⟩
  obtain ⟨m, hm⟩ := heven
  obtain ⟨h1, h2⟩ := h
  have hcast : (256 : ℤ) ^ k = 2 * m := by exact_mod_cast hm
  rw [hcast] at h1 h2
  rw [Octets.twosComplement_signed, hm]
  exact Int.bmod_eq_of_le (by push_cast; omega) (by push_cast; omega)

/-- The fewest octets an integer fits into, at least `k` and at most `k + fuel`. -/
def width (n : ℤ) : ℕ → ℕ → ℕ
  | 0, k => k
  | fuel + 1, k => if Fits k n then k else width n fuel (k + 1)

theorem width_le (n : ℤ) (fuel k : ℕ) : k ≤ width n fuel k ∧ width n fuel k ≤ k + fuel := by
  induction fuel generalizing k with
  | zero => exact ⟨le_rfl, le_rfl⟩
  | succ fuel ih =>
    rw [width]
    have := ih (k + 1)
    split <;> omega

theorem fits_width {n : ℤ} (fuel k : ℕ) (h : Fits (k + fuel) n) : Fits (width n fuel k) n := by
  induction fuel generalizing k with
  | zero => exact h
  | succ fuel ih =>
    rw [width]
    split
    · assumption
    · exact ih (k + 1) (by rwa [Nat.add_right_comm, Nat.add_assoc])

/-- Reduction modulo a multiple keeps the class. -/
theorem emod_bmod_of_dvd {m k : ℕ} (h : k ∣ m) (n : ℤ) : n.bmod m % k = n % k := by
  rw [← Int.emod_emod_of_dvd (n.bmod m) (Int.natCast_dvd_natCast.mpr h), Int.bmod_emod,
    Int.emod_emod_of_dvd n (Int.natCast_dvd_natCast.mpr h)]

/-! ## Groups of seven bits -/

/-- The groups of a number with the continuation bit, most significant first; none for zero. -/
def groups (n : ℕ) : List UInt8 := if n = 0 then [] else groups (n / 128) ++ [UInt8.ofNat (128 + n % 128)]
decreasing_by omega

/-- Base 128 with a continuation bit on all groups but the last. -/
def base128 (n : ℕ) : List UInt8 := groups (n / 128) ++ [UInt8.ofNat (n % 128)]

/-- The number at the start of an octet string, and what follows it. -/
def readBase128 (acc : ℕ) : List UInt8 → Option (ℕ × List UInt8)
  | [] => none
  | b :: bs => if b < 128 then some (acc * 128 + b.toNat, bs) else readBase128 (acc * 128 + (b.toNat - 128)) bs

theorem readBase128_groups (n : ℕ) (rest : List UInt8) : readBase128 0 (groups n ++ rest) = readBase128 n rest := by
  induction n using Nat.strongRecOn generalizing rest with
  | ind n ih =>
    rw [groups]
    split
    · rename_i h
      rw [h, List.nil_append]
    · have hb : (UInt8.ofNat (128 + n % 128)).toNat = 128 + n % 128 := by
        rw [UInt8.toNat_ofNat']; omega
      have hge : ¬ UInt8.ofNat (128 + n % 128) < 128 := by
        rw [UInt8.lt_iff_toNat_lt, hb]
        exact Nat.not_lt.mpr (Nat.le_add_right 128 _)
      have hn : n / 128 * 128 + (128 + n % 128 - 128) = n := by omega
      rw [List.append_assoc, ih (n / 128) (by omega), List.singleton_append, readBase128, if_neg hge, hb, hn]

theorem readBase128_base128 (n : ℕ) (rest : List UInt8) : readBase128 0 (base128 n ++ rest) = some (n, rest) := by
  have hb : (UInt8.ofNat (n % 128)).toNat = n % 128 := by
    rw [UInt8.toNat_ofNat']; omega
  have hlt : UInt8.ofNat (n % 128) < 128 := by
    rw [UInt8.lt_iff_toNat_lt, hb]
    exact Nat.mod_lt _ (by decide)
  have hn : n / 128 * 128 + n % 128 = n := by omega
  rw [base128, List.append_assoc, readBase128_groups, List.singleton_append, readBase128, if_pos hlt, hb, hn]

end Octets
