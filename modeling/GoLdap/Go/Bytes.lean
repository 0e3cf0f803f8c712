import Mathlib.Data.List.Basic
import Mathlib.Data.List.DropRight
import Mathlib.Data.Fintype.Basic
import Mathlib.Data.FinEnum
import Mathlib.Tactic.FinCases

/-!
# Go.Bytes — Go strings as byte lists

A Go string is an arbitrary byte sequence; it need not be UTF-8.  This module has the few operations of `strings`,
`bytes` and `encoding/hex` that byte-level text codecs are written with: `strings.Trim` with a one-byte cutset,
`strings.Join`, `bytes.Split` with a one-byte separator, and the hexadecimal code of a byte.
-/

namespace Go

/-- A Go string (or byte slice): any sequence of bytes. -/
abbrev GoString := List UInt8

/-- The byte of an ASCII character literal. -/
def ch (c : Char) : UInt8 := c.toUInt8

/-- An ASCII string literal. -/
def str (s : String) : GoString := s.toList.map Char.toUInt8

/-! ## Trimming and joining -/

/-- `strings.Trim(s, string(b))` for a one-byte cutset. -/
def trim (b : UInt8) (s : GoString) : GoString := (s.dropWhile (· == b)).rdropWhile (· == b)

/-- The number of bytes equal to `b` at the end of `s`. -/
def trailing (b : UInt8) (s : GoString) : ℕ := (s.reverse.takeWhile (· == b)).length

/-- `strings.Join`. -/
def join (sep : GoString) : List GoString → GoString
  | [] => []
  | [s] => s
  | s :: t :: rest => s ++ sep ++ join sep (t :: rest)

theorem dropWhile_eq_self {b : UInt8} {s : GoString} (h : s.head? ≠ some b) :
    s.dropWhile (· == b) = s := by
  cases s with
  | nil => rfl
  | cons c s =>
    have hc : ¬ (c == b) = true := fun hc => h (by simp [eq_of_beq hc])
    rw [List.dropWhile_cons, if_neg hc]

@[simp] theorem trailing_nil (b : UInt8) : trailing b [] = 0 := rfl

theorem trailing_append_singleton_self (b : UInt8) (s : GoString) :
    trailing b (s ++ [b]) = trailing b s + 1 := by
  simp [trailing]

theorem trailing_append_singleton_ne {b c : UInt8} (s : GoString) (h : c ≠ b) :
    trailing b (s ++ [c]) = 0 := by
  simp [trailing, h]

@[simp] theorem join_nil (sep : GoString) : join sep [] = [] := rfl

@[simp] theorem join_singleton (sep s : GoString) : join sep [s] = s := rfl

theorem join_cons_cons (sep s t : GoString) (rest : List GoString) :
    join sep (s :: t :: rest) = s ++ sep ++ join sep (t :: rest) := rfl

theorem mem_join_of_mem {sep s : GoString} {b : UInt8} : ∀ {l : List GoString}, s ∈ l → b ∈ s → b ∈ join sep l
  | [t], hs, hb => by
    rw [List.mem_singleton] at hs
    subst hs
    exact hb
  | t :: u :: rest, hs, hb => by
    rw [join_cons_cons]
    rcases List.mem_cons.mp hs with rfl | hs
    · exact List.mem_append_left _ (List.mem_append_left _ hb)
    · exact List.mem_append_right _ (mem_join_of_mem hs hb)

/-! ## Splitting -/

/-- `bytes.Split(s, []byte{b})`: the pieces between the occurrences of `b`; never empty. -/
def split (b : UInt8) : GoString → List GoString
  | [] => [[]]
  | c :: s =>
    if c = b then [] :: split b s
    else
      match split b s with
      | [] => [[c]]
      | p :: ps => (c :: p) :: ps

theorem split_ne_nil (b : UInt8) (s : GoString) : split b s ≠ [] := by
  cases s with
  | nil => simp [split]
  | cons c s =>
    unfold split
    split_ifs
    · simp
    · split <;> simp

/-- A piece without the separator in front of a separator is split off whole. -/
theorem split_append_cons {b : UInt8} : ∀ {p : GoString}, b ∉ p → ∀ s, split b (p ++ b :: s) = p :: split b s
  | [], _, s => by simp [split]
  | c :: p, h, s => by
    have hc : c ≠ b := fun e => h (by simp [e])
    have hp : b ∉ p := fun e => h (List.mem_cons_of_mem _ e)
    rw [List.cons_append, split, if_neg hc, split_append_cons hp s]

/-- A string without the separator is one piece. -/
theorem split_eq_singleton {b : UInt8} : ∀ {p : GoString}, b ∉ p → split b p = [p]
  | [], _ => rfl
  | c :: p, h => by
    have hc : c ≠ b := fun e => h (by simp [e])
    have hp : b ∉ p := fun e => h (List.mem_cons_of_mem _ e)
    rw [split, if_neg hc, split_eq_singleton hp]

/-- The pieces, none of which has the separator, make up the string. -/
theorem eq_of_split {b : UInt8} {s first : GoString} {rest : List GoString} (h : split b s = first :: rest) :
    s = first ++ rest.flatMap (b :: ·) ∧ ∀ p ∈ first :: rest, b ∉ p := by
  induction s generalizing first rest with
  | nil =>
    obtain ⟨rfl, rfl⟩ := List.cons.inj h
    simp
  | cons c s ih =>
    cases hs : split b s with
    | nil => exact absurd hs (split_ne_nil b s)
    | cons p ps =>
      obtain ⟨heq, hnot⟩ := ih hs
      rw [split, hs] at h
      by_cases hc : c = b
      · rw [if_pos hc] at h
        obtain ⟨rfl, rfl⟩ := List.cons.inj h
        rw [List.flatMap_cons, List.cons_append, ← heq, hc]
        exact ⟨rfl, by simpa using hnot⟩
      · rw [if_neg hc] at h
        obtain ⟨rfl, rfl⟩ := List.cons.inj h
        rw [List.cons_append, ← heq]
        refine ⟨rfl, fun q hq => ?_⟩
        rcases List.mem_cons.mp hq with rfl | hq
        · have := hnot p (by simp)
          simp [this, Ne.symm hc]
        · exact hnot q (by simp [hq])

/-- All pieces are empty if and only if there is nothing but separators. -/
theorem forall_mem_split_eq_nil {b : UInt8} (s : GoString) : (∀ p ∈ split b s, p = []) ↔ ∀ c ∈ s, c = b := by
  induction s with
  | nil => simp [split]
  | cons c s ih =>
    rw [split]
    split_ifs with hc
    · simp only [List.mem_cons, forall_eq_or_imp, true_and, ih, hc]
    · refine iff_of_false (fun h => ?_) fun h => hc (h c (by simp))
      rcases hs : split b s with _ | ⟨p, ps⟩
      · exact absurd hs (split_ne_nil b s)
      · rw [hs] at h
        exact absurd (h (c :: p) (by simp)) (by simp)

/-- A separator separates two pieces. -/
theorem split_eq_cons_append {b : UInt8} {s : GoString} (h : b ∈ s) :
    ∃ first middle last, split b s = first :: (middle ++ [last]) := by
  obtain ⟨p, t, rfl, hp⟩ := List.eq_append_cons_of_mem h
  rw [split_append_cons hp]
  rcases List.eq_nil_or_concat (split b t) with hnil | ⟨middle, last, hsplit⟩
  · exact absurd hnil (split_ne_nil b t)
  · exact ⟨p, middle, last, by rw [hsplit, List.concat_eq_append]⟩

/-! ## Hexadecimal -/

/-- The digits `hex.EncodeToString` writes. -/
def hexDigit (n : UInt8) : UInt8 := if n < 10 then 0x30 + n else 0x57 + n

/-- `hex.EncodeToString([]byte{c})`. -/
def hexEncode (c : UInt8) : GoString := [hexDigit (c / 16), hexDigit (c % 16)]

/-- The value of a hexadecimal digit, either case. -/
def fromHexChar (c : UInt8) : Option UInt8 :=
  if 0x30 ≤ c ∧ c ≤ 0x39 then some (c - 0x30)
  else if 0x61 ≤ c ∧ c ≤ 0x66 then some (c - 0x57)
  else if 0x41 ≤ c ∧ c ≤ 0x46 then some (c - 0x37)
  else none

/-- `hex.Decode` of two digits. -/
def hexDecodePair (a b : UInt8) : Option UInt8 := do
  let x ← fromHexChar a
  let y ← fromHexChar b
  pure (x * 16 + y)

/-- The byte in the error of `hex.Decode` for two bytes: the first that is no digit. -/
def hexInvalidByte (a b : UInt8) : UInt8 := if fromHexChar a = none then a else b

/-- `hex.DecodeString`. -/
def hexDecodeString : GoString → Option GoString
  | [] => some []
  | [_] => none
  | a :: b :: s => do
    let c ← hexDecodePair a b
    let rest ← hexDecodeString s
    pure (c :: rest)

theorem hexDecodePair_hexDigit (c : UInt8) : hexDecodePair (hexDigit (c / 16)) (hexDigit (c % 16)) = some c := by
  revert c
  decide +kernel

/-- The digits of a byte are letters and digits: none of them is a character a text codec gives a meaning to. -/
theorem hexDigit_range (c : UInt8) :
    (0x30 ≤ hexDigit (c / 16) ∧ hexDigit (c / 16) ≤ 0x66) ∧ 0x30 ≤ hexDigit (c % 16) ∧ hexDigit (c % 16) ≤ 0x66 := by
  revert c
  decide +kernel

end Go
