import GoLdap.Bind.Digest
import GoLdap.Go.Stateful
import GoLdap.Go.Strconv
import GoLdap.Lib.Octets

/-!
# Bind.WrapToken — wrap tokens of GSSAPI (`gssapi/client.go`)

The last message of a GSSAPI handshake is a wrap token: a header of 16 octets, a checksum whose length the header says, and
the payload.  `UnmarshalWrapToken` reads it into the token it is given, after it has made sure that the parts are there.

* `fillWrapToken_eq`: the assignments; each field is one of consecutive parts of the octets.
* `splits_unmarshalWrapToken`: octets that pass all checks are split into the fields, and a token is not written to if one
  of the checks fails.
-/

namespace GoLdap

open Go Octets

/-- `gssapi.WrapToken`. -/
structure WrapToken where
  flags : UInt8
  ec : UInt16
  rrc : UInt16
  sndSeqNum : UInt64
  payload : GoString
  checkSum : GoString
  deriving DecidableEq, Repr

/-- `gssapi.HdrLen`. -/
def hdrLen : ℕ := 16

/-- `gssapi.FillerByte`. -/
def fillerByte : UInt8 := 0xFF

def getGssWrapTokenId : GoString := [0x05, 0x04]

/-- The number in the first `k` octets of a slice, or the run-time panic. -/
def bigEndianUint (k : ℕ) (b : GoString) : Outcome Error ℕ :=
  if k ≤ b.length then .ok (unsigned (b.take k)) else .panic

/-- `binary.BigEndian.Uint16`. -/
def bigEndianUint16 (b : GoString) : Outcome Error UInt16 := UInt16.ofNat <$> bigEndianUint 2 b

/-- `binary.BigEndian.Uint64`. -/
def bigEndianUint64 (b : GoString) : Outcome Error UInt64 := UInt64.ofNat <$> bigEndianUint 8 b

/-- The last part of `UnmarshalWrapToken`: the assignments. -/
def fillWrapToken (b : GoString) (flags : UInt8) (checksumL : UInt16) : Stateful WrapToken Error Unit := do
  let payloadStart := hdrLen + checksumL.toNat
  .modify fun wt => { wt with flags := flags }
  .modify fun wt => { wt with ec := checksumL }
  let rrc ← .lift (Outcome.slice b 6 8 >>= bigEndianUint16)
  .modify fun wt => { wt with rrc := rrc }
  let sndSeqNum ← .lift (Outcome.slice b 8 16 >>= bigEndianUint64)
  .modify fun wt => { wt with sndSeqNum := sndSeqNum }
  let checkSum ← .lift (Outcome.slice b 16 payloadStart)
  .modify fun wt => { wt with checkSum := checkSum }
  let payload ← .lift (Outcome.slice b payloadStart b.length)
  .modify fun wt => { wt with payload := payload }

/-- `UnmarshalWrapToken`, on the token it has a pointer to. -/
def unmarshalWrapToken (b : GoString) (expectFromAcceptor : Bool) : Stateful WrapToken Error Unit := do
  .failIf (b.length < 16) (.new "bytes shorter than header length")
  let id ← .lift (Outcome.slice b 0 2)
  .failIf (getGssWrapTokenId ≠ id)
    (.fmt "wrong Token ID. Expected %s, was %s" (hexEncodeToString getGssWrapTokenId ++ hexEncodeToString id))
  let flags ← .lift (Outcome.index b 2)
  let isFromAcceptor := flags &&& 0x01 == 1
  .failIf (isFromAcceptor && !expectFromAcceptor)
    (.new "unexpected acceptor flag is set: not expecting a token from the acceptor")
  .failIf (!isFromAcceptor && expectFromAcceptor)
    (.new "expected acceptor flag is not set: expecting a token from the acceptor, not the initiator")
  let filler ← .lift (Outcome.index b 3)
  -- the slice `b[3:4]` is the filler byte
  .failIf (filler ≠ fillerByte)
    (.fmt "unexpected filler byte: expecting 0xFF, was %s " (hexEncodeToString [filler]))
  let checksumL ← .lift (Outcome.slice b 4 6 >>= bigEndianUint16)
  .failIf ((checksumL.toNat : ℤ) > b.length - hdrLen)
    (.fmtAt "inconsistent checksum length: %d bytes to parse, checksum length is %d" (formatUint b.length)
      checksumL.toNat)
  fillWrapToken b flags checksumL

/-! ## The octets of a token -/

/-- The header, the checksum and the payload. -/
def WrapToken.octets (wt : WrapToken) : GoString :=
  getGssWrapTokenId ++ [wt.flags, fillerByte] ++ bigEndian 2 wt.ec.toNat ++ bigEndian 2 wt.rrc.toNat ++
    bigEndian 8 wt.sndSeqNum.toNat ++ wt.checkSum ++ wt.payload

/-- The octets are a wrap token of the acceptor, or of the initiator. -/
structure IsWrapToken (b : GoString) (fromAcceptor : Bool) : Prop where
  header : 16 ≤ b.length
  id : b.take 2 = [0x05, 0x04]
  acceptor : ∀ flags ∈ b[2]?, (flags &&& 0x01 == 1) = fromAcceptor
  filler : b[3]? = some 0xFF
  checksum : unsigned ((b.take 6).drop 4) ≤ b.length - 16

/-- Two consecutive parts of a string. -/
theorem part_append (b : GoString) {i j k : ℕ} (hij : i ≤ j) (hjk : j ≤ k) :
    (b.take j).drop i ++ (b.take k).drop j = (b.take k).drop i := by
  obtain ⟨m, rfl⟩ := Nat.exists_eq_add_of_le hij
  obtain ⟨n, rfl⟩ := Nat.exists_eq_add_of_le hjk
  rw [List.drop_take, List.drop_take, List.drop_take, Nat.add_sub_cancel_left, Nat.add_sub_cancel_left, Nat.add_assoc,
    Nat.add_sub_cancel_left, List.take_add, List.drop_drop]

section Read

variable {b : GoString}

theorem length_part {i k : ℕ} (h : i + k ≤ b.length) : ((b.take (i + k)).drop i).length = k := by
  rw [List.length_drop, List.length_take]
  omega

/-- A number is read from a part of the string, and written as that part. -/
theorem read_uint {T : Type} {ofNat : ℕ → T} {toNat : T → ℕ} {i k : ℕ} (hT : ∀ n < 256 ^ k, toNat (ofNat n) = n)
    (h : i + k ≤ b.length) :
    ∃ n, (Outcome.slice b i (i + k) >>= fun part => ofNat <$> bigEndianUint k part) = .ok n ∧
      toNat n = unsigned ((b.take (i + k)).drop i) ∧ bigEndian k (toNat n) = (b.take (i + k)).drop i := by
  have hlen := length_part h
  rw [Outcome.slice_of_le (Nat.le_add_right i k) h, Outcome.ok_bind]
  generalize (b.take (i + k)).drop i = part at hlen
  subst hlen
  have hn := hT _ (unsigned_lt part)
  refine ⟨ofNat (unsigned part), ?_, hn, ?_⟩
  · rw [bigEndianUint, if_pos le_rfl, List.take_length, Outcome.map_ok]
  · rw [hn, bigEndian_unsigned]

theorem read_uint16 {i : ℕ} (h : i + 2 ≤ b.length) :
    ∃ n, (Outcome.slice b i (i + 2) >>= bigEndianUint16) = .ok n ∧ n.toNat = unsigned ((b.take (i + 2)).drop i) ∧
      bigEndian 2 n.toNat = (b.take (i + 2)).drop i :=
  read_uint (fun n hn => by rw [UInt16.toNat_ofNat']; exact Nat.mod_eq_of_lt hn) h

theorem read_uint64 {i : ℕ} (h : i + 8 ≤ b.length) :
    ∃ n, (Outcome.slice b i (i + 8) >>= bigEndianUint64) = .ok n ∧ n.toNat = unsigned ((b.take (i + 8)).drop i) ∧
      bigEndian 8 n.toNat = (b.take (i + 8)).drop i :=
  read_uint (fun n hn => by rw [UInt64.toNat_ofNat']; exact Nat.mod_eq_of_lt hn) h

end Read

/-! ## Splitting a token -/

section Split

variable {b : GoString} {fromAcceptor : Bool}

/-- Each field is a part of the string. -/
theorem fillWrapToken_eq (flags : UInt8) {checksumL : UInt16} (h : 16 + checksumL.toNat ≤ b.length) (wt : WrapToken) :
    ∃ t, (fillWrapToken b flags checksumL).run wt = (.ok (), t) ∧ t.flags = flags ∧ t.ec = checksumL ∧
      bigEndian 2 t.rrc.toNat = (b.take 8).drop 6 ∧ bigEndian 8 t.sndSeqNum.toNat = (b.take 16).drop 8 ∧
      t.checkSum = (b.take (16 + checksumL.toNat)).drop 16 ∧ t.payload = b.drop (16 + checksumL.toNat) := by
  obtain ⟨rrc, hrrc, -, hrrc'⟩ := read_uint16 (b := b) (i := 6) (by omega)
  obtain ⟨seq, hseq, -, hseq'⟩ := read_uint64 (b := b) (i := 8) (by omega)
  have hcheckSum : (Outcome.slice b 16 (hdrLen + checksumL.toNat) : Outcome Error GoString) =
      .ok ((b.take (16 + checksumL.toNat)).drop 16) := Outcome.slice_of_le (Nat.le_add_right 16 _) h
  have hpayload : (Outcome.slice b (hdrLen + checksumL.toNat) b.length : Outcome Error GoString) =
      .ok (b.drop (16 + checksumL.toNat)) := by
    refine (Outcome.slice_of_le h le_rfl).trans ?_
    rw [List.take_length]
  refine ⟨⟨flags, checksumL, rrc, seq, b.drop (16 + checksumL.toNat), (b.take (16 + checksumL.toNat)).drop 16⟩, ?_,
    rfl, rfl, hrrc', hseq', rfl, rfl⟩
  rw [fillWrapToken, Stateful.run_modify_bind, Stateful.run_modify_bind, Stateful.run_lift_bind hrrc, Stateful.run_modify_bind,
    Stateful.run_lift_bind hseq, Stateful.run_modify_bind, Stateful.run_lift_bind hcheckSum, Stateful.run_modify_bind,
    Stateful.run_lift_bind hpayload]
  rfl

/-- What becomes of the token: the string is split into its fields, or it is left alone. -/
inductive Splits (b : GoString) (fromAcceptor : Bool) (wt : WrapToken) : Outcome Error Unit × WrapToken → Prop
  | split {t : WrapToken} (hb : IsWrapToken b fromAcceptor) (hoctets : t.octets = b)
      (hlen : t.checkSum.length = t.ec.toNat) : Splits b fromAcceptor wt (.ok (), t)
  | refused {e : Error} (hb : ¬ IsWrapToken b fromAcceptor) : Splits b fromAcceptor wt (.err e, wt)

theorem octets_of_parts {t : WrapToken} (hb : IsWrapToken b fromAcceptor) (hflags : b[2]? = some t.flags)
    (hec : bigEndian 2 t.ec.toNat = (b.take 6).drop 4) (hrrc : bigEndian 2 t.rrc.toNat = (b.take 8).drop 6)
    (hseq : bigEndian 8 t.sndSeqNum.toNat = (b.take 16).drop 8) (hsum : t.checkSum ++ t.payload = b.drop 16) :
    t.octets = b := by
  have hfour : getGssWrapTokenId ++ [t.flags, fillerByte] = (b.take 4).drop 0 := by
    rw [List.drop_zero, List.take_add_one, List.take_add_one, hb.id, hflags, hb.filler]
    rfl
  rw [WrapToken.octets, hec, hrrc, hseq, List.append_assoc _ t.checkSum, hsum, hfour, part_append b (by decide) (by decide),
    part_append b (by decide) (by decide), part_append b (by decide) (by decide), List.drop_zero, List.take_append_drop]

/-- After the checks: the parts of a wrap token are its octets. -/
theorem splits_fillWrapToken {flags : UInt8} {ec : UInt16} (hb : IsWrapToken b fromAcceptor)
    (hflags : b[2]? = some flags) (hec : bigEndian 2 ec.toNat = (b.take 6).drop 4) (hfits : 16 + ec.toNat ≤ b.length)
    (wt : WrapToken) : Splits b fromAcceptor wt ((fillWrapToken b flags ec).run wt) := by
  obtain ⟨t, ht, rfl, rfl, hrrc, hseq, hcheckSum, hpayload⟩ := fillWrapToken_eq flags hfits wt
  rw [ht]
  refine .split hb (octets_of_parts hb hflags hec hrrc hseq ?_) ?_
  · have hparts := part_append b (Nat.le_add_right 16 t.ec.toNat) hfits
    rwa [List.take_length, ← hcheckSum, ← hpayload] at hparts
  · rw [hcheckSum, length_part hfits]

theorem splits_unmarshalWrapToken (b : GoString) (fromAcceptor : Bool) (wt : WrapToken) :
    Splits b fromAcceptor wt ((unmarshalWrapToken b fromAcceptor).run wt) := by
  unfold unmarshalWrapToken
  by_cases hlen : b.length < 16
  · rw [Stateful.run_failIf_bind_pos hlen]
    exact .refused fun hb => by have := hb.header; omega
  rw [Stateful.run_failIf_bind_neg hlen, Stateful.run_lift_bind (Outcome.slice_of_le (Nat.zero_le 2) (by omega))]
  by_cases hid : getGssWrapTokenId ≠ (b.take 2).drop 0
  · rw [Stateful.run_failIf_bind_pos hid]
    exact .refused fun hb => hid hb.id.symm
  obtain ⟨flags, hflags⟩ : ∃ flags, b[2]? = some flags := ⟨_, List.getElem?_eq_getElem (by omega)⟩
  rw [Stateful.run_failIf_bind_neg hid, Stateful.run_lift_bind (Outcome.index_of_lt hflags)]
  dsimp only
  by_cases hfrom : (flags &&& 0x01 == 1) = fromAcceptor
  swap
  · -- one of the two checks of the flag fails
    have hnot : ¬ IsWrapToken b fromAcceptor := fun hb => hfrom (hb.acceptor flags hflags)
    cases fromAcceptor with
    | false =>
      rw [Stateful.run_failIf_bind_pos (by simpa using hfrom)]
      exact .refused hnot
    | true =>
      rw [Stateful.run_failIf_bind_neg (by simp), Stateful.run_failIf_bind_pos (by simpa using hfrom)]
      exact .refused hnot
  rw [Stateful.run_failIf_bind_neg (by simp [hfrom]), Stateful.run_failIf_bind_neg (by simp [hfrom])]
  obtain ⟨filler, hfiller⟩ : ∃ filler, b[3]? = some filler := ⟨_, List.getElem?_eq_getElem (by omega)⟩
  rw [Stateful.run_lift_bind (Outcome.index_of_lt hfiller)]
  by_cases hff : filler ≠ fillerByte
  · rw [Stateful.run_failIf_bind_pos hff]
    exact .refused fun hb => hff (Option.some.inj (hfiller.symm.trans hb.filler))
  obtain ⟨ec, hec, hvalue, hwritten⟩ := read_uint16 (b := b) (i := 4) (by omega)
  rw [Stateful.run_failIf_bind_neg hff, Stateful.run_lift_bind hec]
  by_cases hsum : (ec.toNat : ℤ) > b.length - hdrLen
  · rw [Stateful.run_failIf_bind_pos hsum]
    refine .refused fun hb => ?_
    have hle : unsigned ((b.take (4 + 2)).drop 4) ≤ b.length - 16 := hb.checksum
    rw [hvalue, hdrLen] at hsum
    omega
  rw [Stateful.run_failIf_bind_neg hsum]
  have hfits : 16 + ec.toNat ≤ b.length := by
    rw [hdrLen] at hsum
    omega
  have hb : IsWrapToken b fromAcceptor := by
    refine ⟨by omega, (not_ne_iff.mp hid).symm, fun flags' hflags' => ?_, ?_, ?_⟩
    · obtain rfl := Option.mem_unique hflags hflags'
      exact hfrom
    · rw [hfiller, not_ne_iff.mp hff]
      rfl
    · have hle : unsigned ((b.take (4 + 2)).drop 4) ≤ b.length - 16 := by omega
      exact hle
  exact splits_fillWrapToken hb hflags hwritten hfits wt

end Split

/-- `UnmarshalWrapToken` does not panic.  It succeeds exactly on wrap tokens, which are the octets of the token it leaves,
and it leaves the token alone otherwise. -/
theorem unmarshalWrapToken_split (b : GoString) (expectFromAcceptor : Bool) (wt : WrapToken) :
    ((unmarshalWrapToken b expectFromAcceptor).run wt).1 ≠ .panic ∧
    (((unmarshalWrapToken b expectFromAcceptor).run wt).1 = .ok () ↔ IsWrapToken b expectFromAcceptor) ∧
    (((unmarshalWrapToken b expectFromAcceptor).run wt).1 = .ok () →
      ((unmarshalWrapToken b expectFromAcceptor).run wt).2.octets = b ∧
      ((unmarshalWrapToken b expectFromAcceptor).run wt).2.checkSum.length =
        ((unmarshalWrapToken b expectFromAcceptor).run wt).2.ec.toNat) ∧
    (((unmarshalWrapToken b expectFromAcceptor).run wt).1 ≠ .ok () →
      ((unmarshalWrapToken b expectFromAcceptor).run wt).2 = wt) := by
  have hsplits := splits_unmarshalWrapToken b expectFromAcceptor wt
  generalize (unmarshalWrapToken b expectFromAcceptor).run wt = r at hsplits
  cases hsplits with
  | split hb hoctets hlen => exact ⟨by rintro ⟨⟩, iff_of_true rfl hb, fun _ => ⟨hoctets, hlen⟩, fun h => absurd rfl h⟩
  | refused hb => exact ⟨by rintro ⟨⟩, iff_of_false (by rintro ⟨⟩) hb, by rintro ⟨⟩, fun _ => rfl⟩

example : (unmarshalWrapToken ([5, 4, 1, 0xFF, 0, 4, 0, 0, 0, 0, 0, 0, 0, 0, 0, 1] ++ [0xAA, 0xBB, 0xCC, 0xDD] ++
      str "payload") true).run ⟨0, 0, 0, 0, [], []⟩ =
    (.ok (), ⟨1, 4, 0, 1, str "payload", [0xAA, 0xBB, 0xCC, 0xDD]⟩) := by
  decide

end GoLdap
