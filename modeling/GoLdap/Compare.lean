import GoLdap.Descriptions.Described
import GoLdap.Request

/-!
# Compare — the compare operation (`compare.go`)

`Compare` tells a match from a mismatch by the result code that `GetLDAPError` reports, which is the number off the wire
as a `uint16`.  So it depends on the range of that number whether a failure can pass for a success or for another result.
-/

namespace GoLdap

open Go Ber

def ldapResultCompareFalse : ℕ := 5
def ldapResultCompareTrue : ℕ := 6

structure CompareRequest where
  dn : GoString
  «attribute» : GoString
  value : GoString

/-- `(*CompareRequest).appendTo`. -/
def CompareRequest.appendTo (E : Encoder) (req : CompareRequest) (envelope : Packet) : Packet :=
  let pkt := encode .application .constructed applicationCompareRequest (str "Compare Request")
  let pkt := pkt.appendChild E (newString .universal .primitive tagOctetString req.dn (str "DN"))
  let ava := encode .universal .constructed tagSequence (str "AttributeValueAssertion")
  let ava := ava.appendChild E (newString .universal .primitive tagOctetString req.attribute (str "AttributeDesc"))
  let ava := ava.appendChild E (newString .universal .primitive tagOctetString req.value (str "AssertionValue"))
  envelope.appendChild E (pkt.appendChild E ava)

/-- What `Compare` makes of the response. -/
def compareResponse (packet : Packet) : CallEnd (Bool × Option Err) :=
  match packet.children[1]? with
  | none => .returned (false, some (errMalformedResponse packet))
  | some op =>
    if op.tag = applicationCompareResponse then
      match getLDAPError packet with
      | .panic => .panicked
      | .ok () => .returned (false, none)
      | .err err =>
        if isErrorWithCode err ldapResultCompareTrue then .returned (true, none)
        else if isErrorWithCode err ldapResultCompareFalse then .returned (false, none)
        else .returned (false, some err)
    else .returned (false, some (.plain (.fmtNum "unexpected Response: %d" op.tag)))

/-- `Compare`. -/
def Connection.compare (E : Encoder) (addControlDescriptions : Assign) (conn : Connection)
    (dn attr value : GoString) (responses : Responses) : CallEnd (Bool × Option Err) :=
  conn.exchange E addControlDescriptions (CompareRequest.appendTo E ⟨dn, attr, value⟩) responses
    (fun err => (false, some err)) compareResponse

/-- A match is the result code `compareTrue`, as a `uint16`. -/
theorem compareResponse_eq_true {p : Packet} (h : compareResponse p = .returned (true, none)) :
    ∃ err, getLDAPError p = .err err ∧ isErrorWithCode err ldapResultCompareTrue = true := by
  unfold compareResponse at h
  split at h
  · cases h
  · split at h
    · split at h
      · cases h
      · cases h
      · rename_i err herr
        split at h
        · exact ⟨err, herr, by assumption⟩
        · split at h <;> cases h
    · cases h

theorem compare_eq_true {E : Encoder} {addControlDescriptions : Assign} {conn : Connection} {dn attr value : GoString}
    {p : Packet} {rest : List (Except Err Packet)} {closed : Bool}
    (h : conn.compare E addControlDescriptions dn attr value ⟨.ok p :: rest, closed⟩ = .returned (true, none)) :
    ∃ err, getLDAPError p = .err err ∧ isErrorWithCode err ldapResultCompareTrue = true := by
  unfold Connection.compare at h
  obtain ⟨e, hfail⟩ | hwait | ⟨q, -, hread, hhandle⟩ := conn.exchange_cases (α := Bool × Option Err) E
    addControlDescriptions (CompareRequest.appendTo E ⟨dn, attr, value⟩) ⟨.ok p :: rest, closed⟩
  · rw [hfail] at h
    cases h
  · rw [hwait] at h
    cases h
  · rw [hhandle] at h
    obtain ⟨err, herr, hcode⟩ := compareResponse_eq_true h
    rw [getLDAPError_describeInDebug (Option.some.inj hread)] at herr
    exact ⟨err, herr, hcode⟩

/-! ## Result codes and `uint16` -/

/-- A result code that is no `uint16` is harmless only if it is not zero as one and there is no matched DN for the error
to be made of. -/
def CodeInRange (p : Packet) : Prop :=
  ∀ n, HasResultCode n p → (0 ≤ n ∧ n < 65536) ∨ (n % 65536 ≠ 0 ∧ ∀ dn, ¬ HasMatchedDN dn p)

/-- No error is reported exactly for the code zero; a code that is reported is the one off the wire, or else the packet is
reported as invalid; and a comparison is true only for the code `compareTrue`. -/
structure ReportsCode (p : Packet) : Prop where
  success : getLDAPError p = .ok () ↔ HasResultCode 0 p
  failure : ∀ n dn, n ≠ 0 → HasResultCode n p → HasMatchedDN dn p →
    (∃ code cause, getLDAPError p = .err (.ldap code dn cause) ∧ (code : ℤ) = n) ∨
      ¬ (0 ≤ n ∧ n < 65536) ∧ ∃ e ∈ invalidPacketErrors, getLDAPError p = .err e
  compareTrue : ∀ E addControlDescriptions (conn : Connection) dn attr value rest closed,
    conn.compare E addControlDescriptions dn attr value ⟨.ok p :: rest, closed⟩ = .returned (true, none) →
      HasResultCode 6 p

theorem emod_of_range {n : ℤ} (h : 0 ≤ n ∧ n < 65536) : n % 65536 = n := Int.emod_eq_of_lt h.1 h.2

section

variable {p : Packet}

theorem CodeInRange.success_iff (hread : AsRead p) (h : CodeInRange p) :
    getLDAPError p = .ok () ↔ HasResultCode 0 p := by
  have hspec := getLDAPError_asRead hread.child
  constructor
  · intro hok
    rw [hok] at hspec
    cases hspec with
    | success hcode hn =>
      obtain hrange | ⟨hne, -⟩ := h _ hcode
      · rw [emod_of_range hrange] at hn
        exact hn ▸ hcode
      · exact absurd hn hne
  · intro hzero
    generalize getLDAPError p = r at hspec
    cases hspec with
    | success => rfl
    | failure hcode hn =>
      rw [hcode.unique hzero] at hn
      exact absurd rfl hn
    | invalid _ hnot => exact absurd rfl (hnot 0 hzero).1

theorem CodeInRange.reported (hread : AsRead p) (h : CodeInRange p) {n : ℤ} {dn : GoString} (hne : n ≠ 0)
    (hcode : HasResultCode n p) (hdn : HasMatchedDN dn p) :
    ∃ code cause, getLDAPError p = .err (.ldap code dn cause) ∧ (code : ℤ) = n := by
  obtain hrange | ⟨-, hnot⟩ := h n hcode
  swap
  · exact absurd hdn (hnot dn)
  have hspec := getLDAPError_asRead hread.child
  generalize hr : getLDAPError p = r at hspec
  cases hspec with
  | success hcode' hn =>
    rw [hcode'.unique hcode, emod_of_range hrange] at hn
    contradiction
  | failure hcode' hn hdn' =>
    obtain rfl := hcode'.unique hcode
    obtain rfl := hdn'.unique hdn
    refine ⟨_, _, rfl, ?_⟩
    rw [emod_of_range hrange, Int.toNat_of_nonneg hrange.1]
  | invalid _ hnot => exact absurd hdn ((hnot n hcode).2 dn)

theorem isErrorWithCode_invalidPacket {err : Err} (h : err ∈ invalidPacketErrors) :
    isErrorWithCode err ldapResultCompareTrue = false := by
  have hall : ∀ e ∈ invalidPacketErrors, isErrorWithCode e ldapResultCompareTrue = false := by decide
  exact hall err h

theorem CodeInRange.hasResultCode_six (hread : AsRead p) (h : CodeInRange p) {err : Err}
    (herr : getLDAPError p = .err err) (hsix : isErrorWithCode err ldapResultCompareTrue = true) :
    HasResultCode 6 p := by
  have hspec := getLDAPError_asRead hread.child
  rw [herr] at hspec
  cases hspec with
  | @failure n _ _ hcode hn hdn =>
    have hmod := isErrorWithCode_ldap.mp hsix
    obtain hrange | ⟨-, hnot⟩ := h n hcode
    · rw [emod_of_range hrange] at hmod
      have hn6 : n = 6 := by
        rw [← Int.toNat_of_nonneg hrange.1, hmod]
        rfl
      rwa [hn6] at hcode
    · exact absurd hdn (hnot _)
  | invalid he _ =>
    rw [isErrorWithCode_invalidPacket he] at hsix
    cases hsix

theorem CodeInRange.reportsCode (hread : AsRead p) (h : CodeInRange p) : ReportsCode p where
  success := h.success_iff hread
  failure _ _ hne hcode hdn := .inl (h.reported hread hne hcode hdn)
  compareTrue _ _ _ _ _ _ _ _ htrue := by
    obtain ⟨err, herr, hsix⟩ := compare_eq_true htrue
    exact h.hasResultCode_six hread herr hsix

end

/-- `GetLDAPError` does not panic on a packet off the wire; and the codes are reported as they are exactly if they are in
range. -/
theorem reportsCode_iff (p : Packet) (hp : AsRead p) :
    getLDAPError p ≠ .panic ∧ (ReportsCode p ↔ CodeInRange p) := by
  refine ⟨getLDAPError_ne_panic_of_asRead hp.child, fun h n hcode => ?_, CodeInRange.reportsCode hp⟩
  by_cases hrange : 0 ≤ n ∧ n < 65536
  · exact .inl hrange
  have hne : n ≠ 0 := fun hzero => hrange (by omega)
  have hspec := getLDAPError_asRead hp.child
  refine .inr ⟨fun hzero => ?_, fun dn hdn => ?_⟩
  · generalize hr : getLDAPError p = r at hspec
    cases hspec with
    | success => exact hne (hcode.unique (h.success.mp hr))
    | failure hcode' hn => exact hn (hcode'.unique hcode ▸ hzero)
    | invalid _ hnot => exact (hnot n hcode).1 hzero
  · obtain ⟨code, cause, herr, hcode_eq⟩ | ⟨-, e, he, herr⟩ := h.failure n dn hne hcode hdn
    · rw [herr] at hspec
      cases hspec with
      | failure => omega
      | invalid _ hnot => exact (hnot n hcode).2 dn hdn
    · rw [herr] at hspec
      cases hspec with
      | failure =>
        revert he
        simp [invalidPacketErrors, newError, Error.fmt, Error.new]
      | invalid _ hnot => exact (hnot n hcode).2 dn hdn

/-- A response with the code 6 is as it should be. -/
theorem reportsCode_iff_six : getLDAPError (resultMessage applicationCompareResponse 6 [6]) ≠ .panic ∧
    (ReportsCode (resultMessage applicationCompareResponse 6 [6]) ↔
      CodeInRange (resultMessage applicationCompareResponse 6 [6])) :=
  reportsCode_iff _ (asRead_resultMessage _ _ _)

/-- The codes 65536 and 65542 take three octets on the wire.  The first is no error, and the second is a match. -/
theorem compare_true_out_of_range :
    (AsRead (resultMessage applicationCompareResponse 65536 [1, 0, 0]) ∧
      getLDAPError (resultMessage applicationCompareResponse 65536 [1, 0, 0]) = .ok () ∧
      ¬ HasResultCode 0 (resultMessage applicationCompareResponse 65536 [1, 0, 0])) ∧
    AsRead (resultMessage applicationCompareResponse 65542 [1, 0, 6]) ∧
      openConnection.compare shortEncoder .skip (str "cn=a") (str "b") (str "c")
        ⟨[.ok (resultMessage applicationCompareResponse 65542 [1, 0, 6])], false⟩ = .returned (true, none) ∧
      ¬ HasResultCode 6 (resultMessage applicationCompareResponse 65542 [1, 0, 6]) := by
  have hcode (n m : ℤ) (content : GoString) (h : HasResultCode m (resultMessage applicationCompareResponse n content)) :
      n = m := by
    obtain ⟨op, hop, -, -, -, code, hcode, -, hv⟩ := h
    cases hop
    cases hcode
    exact Value.int.inj hv
  refine ⟨⟨asRead_resultMessage _ _ _, rfl, fun h => ?_⟩, asRead_resultMessage _ _ _, rfl, fun h => ?_⟩
  · exact absurd (hcode _ _ _ h) (by decide)
  · exact absurd (hcode _ _ _ h) (by decide)

end GoLdap
