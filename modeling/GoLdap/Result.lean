import GoLdap.Error
import GoLdap.Ber.Codec

/-!
# Result — the result of an operation (`error.go`)

`GetLDAPError` looks for an LDAPResult in the second child of a packet.  It compares tags as `uint8` values and the
result code as a `uint16`, and it panics where a decoded value has another type than the tag promises.
-/

namespace GoLdap

open Go Ber

/-- `ber.Type(tag)`, a conversion to `uint8`. -/
def typeOfTag (tag : ℕ) : ℕ := tag % 256

/-- A value formatted with the verb for its default format. -/
def formatValue : Value → GoString
  | .nil => str "<nil>"
  | .bool b => str (toString b)
  | .int n => str (toString n)
  | .int8 n => str (toString n)
  | .string s => s
  | .bytes s => str "[" ++ join (str " ") (s.map fun b => str (toString b.toNat)) ++ str "]"

/-- The type of a decoded value, as it is formatted into an error. -/
def typeName : Value → GoString
  | .nil => str "<nil>"
  | .bool _ => str "bool"
  | .int _ => str "int64"
  | .int8 _ => str "int8"
  | .string _ => str "string"
  | .bytes _ => str "[]uint8"

/-- `GetLDAPError` on a packet that is not nil; `ok` stands for the nil error. -/
def getLDAPError (packet : Packet) : Outcome Err Unit :=
  let invalid : Outcome Err Unit := .err (newError errorNetwork (.new "Invalid packet format"))
  match packet.children with
  | _ :: response :: _ =>
    if response.classType = .application ∧ response.tagType = .constructed then
      match response.children with
      | code :: matchedDN :: message :: _ =>
        if typeOfTag code.tag = tagInteger ∨ typeOfTag code.tag = tagEnumerated then
          match code.value with
          | .nil => .err (newError errorNetwork (.new "Invalid result code in packet"))
          | .int n =>
            if n % 65536 = 0 then .ok ()
            else if typeOfTag matchedDN.tag = tagOctetString ∧ typeOfTag message.tag = tagOctetString then
              match matchedDN.value with
              | .nil => .err (newError errorNetwork (.new "Invalid matchedDN in packet"))
              | .string dn => .err (.ldap (n % 65536).toNat dn (.fmt "%v" (formatValue message.value)))
              | _ => .panic
            else invalid
          | _ => .panic
        else invalid
      | _ => invalid
    else invalid
  | _ => invalid

/-- There is no error exactly if the second child is an application value with three components, the first of them an
integer or an enumerated value that is zero as a `uint16`. -/
theorem getLDAPError_eq_ok {p : Packet} : getLDAPError p = .ok () ↔
    ∃ op ∈ p.children[1]?, op.classType = .application ∧ op.tagType = .constructed ∧ 3 ≤ op.children.length ∧
      ∃ code ∈ op.children[0]?, (typeOfTag code.tag = tagInteger ∨ typeOfTag code.tag = tagEnumerated) ∧
        ∃ n, code.value = .int n ∧ n % 65536 = 0 := by
  unfold getLDAPError
  rcases p.children with _ | ⟨mid, _ | ⟨op, rest⟩⟩
  · simp
  · simp
  · rcases hop : op.children with _ | ⟨code, _ | ⟨dn, _ | ⟨message, more⟩⟩⟩
    · simp [hop]
    · simp [hop]
    · simp [hop]
    · by_cases hcls : op.classType = .application ∧ op.tagType = .constructed
      · by_cases htag : typeOfTag code.tag = tagInteger ∨ typeOfTag code.tag = tagEnumerated
        · cases hv : code.value with
          | int n =>
            have hzero : (∃ m, Value.int n = .int m ∧ m % 65536 = 0) ↔ n % 65536 = 0 :=
              ⟨fun ⟨m, hm, hmod⟩ => Value.int.inj hm ▸ hmod, fun h => ⟨n, rfl, h⟩⟩
            simp only [hop, hcls, and_self, if_true, htag, hv, List.getElem?_cons_succ, List.getElem?_cons_zero,
              Option.mem_def, Option.some.injEq, exists_eq_left', List.length_cons, hzero, true_and]
            have hlen : 3 ≤ more.length + 1 + 1 + 1 := by omega
            rw [and_iff_right hlen]
            split
            · exact iff_of_true rfl ‹_›
            · refine iff_of_false ?_ ‹_›
              split
              · split <;> exact nofun
              · exact nofun
          | _ => simp [hop, hcls, htag, hv]
        · simp [hop, hcls, htag]
      · simp only [hcls, if_false]
        simpa using fun h1 h2 => absurd ⟨h1, h2⟩ hcls

/-- `GetLDAPError` looks at the operation only. -/
theorem getLDAPError_congr {p q : Packet} (h : p.children[1]? = q.children[1]?) : getLDAPError p = getLDAPError q := by
  unfold getLDAPError
  rcases hp : p.children with _ | ⟨mid, _ | ⟨op, rest⟩⟩ <;>
    rcases hq : q.children with _ | ⟨mid', _ | ⟨op', rest'⟩⟩ <;> rw [hp, hq] at h
  all_goals first
    | rfl
    | cases h
  rfl

theorem code_of_getLDAPError {p op code : Packet} (hop : p.children[1]? = some op) (hcode : op.children[0]? = some code)
    (hok : getLDAPError p = .ok ()) : ∃ n, code.value = .int n ∧ n % 65536 = 0 := by
  obtain ⟨_, h1, -, -, -, _, h0, -, hn⟩ := getLDAPError_eq_ok.mp hok
  rw [hop, Option.mem_some_iff] at h1
  rw [← h1, hcode, Option.mem_some_iff] at h0
  rwa [← h0] at hn

/-- With a result code that is zero there is no panic. -/
theorem getLDAPError_ne_panic {p op code : Packet} (hop : p.children[1]? = some op)
    (hcode : op.children[0]? = some code) (hv : code.value = .int 0) : getLDAPError p ≠ .panic := by
  unfold getLDAPError
  rcases hp : p.children with _ | ⟨mid, _ | ⟨op', rest⟩⟩
  · simp
  · simp
  · obtain rfl : op' = op := by simpa [hp] using hop
    simp only
    split
    · split
      · rename_i code' dn message more hcs
        obtain rfl : code' = code := by simpa [hcs] using hcode
        simp only [hv, Int.zero_emod, if_true]
        split <;> simp
      · simp
    · simp

/-! ## Results off the wire -/

/-- The second child of the packet is a constructed application value with three components, the first of them an integer
or an enumerated value with the number `n`. -/
def HasResultCode (n : ℤ) (p : Packet) : Prop :=
  ∃ op ∈ p.children[1]?, op.classType = .application ∧ op.tagType = .constructed ∧ 3 ≤ op.children.length ∧
    ∃ code ∈ op.children[0]?, (code.tag = tagInteger ∨ code.tag = tagEnumerated) ∧ code.value = .int n

/-- The second and the third component are octet strings, as far as `GetLDAPError` looks at their tags, and the second has
the value `dn`. -/
def HasMatchedDN (dn : GoString) (p : Packet) : Prop :=
  ∃ op ∈ p.children[1]?, ∃ matchedDN ∈ op.children[1]?, ∃ message ∈ op.children[2]?,
    typeOfTag matchedDN.tag = tagOctetString ∧ typeOfTag message.tag = tagOctetString ∧ matchedDN.value = .string dn

/-- The errors for a packet that has no result in it. -/
def invalidPacketErrors : List Err :=
  [newError errorNetwork (.new "Invalid packet format"), newError errorNetwork (.new "Invalid result code in packet"),
    newError errorNetwork (.new "Invalid matchedDN in packet")]

theorem HasResultCode.unique {m n : ℤ} {p : Packet} (hm : HasResultCode m p) (hn : HasResultCode n p) : m = n := by
  obtain ⟨op, hop, -, -, -, code, hcode, -, hv⟩ := hm
  obtain ⟨op', hop', -, -, -, code', hcode', -, hv'⟩ := hn
  obtain rfl := Option.mem_unique hop hop'
  obtain rfl := Option.mem_unique hcode hcode'
  exact Value.int.inj (hv.symm.trans hv')

theorem HasMatchedDN.unique {s t : GoString} {p : Packet} (hs : HasMatchedDN s p) (ht : HasMatchedDN t p) : s = t := by
  obtain ⟨op, hop, dn, hdn, -, -, -, -, hv⟩ := hs
  obtain ⟨op', hop', dn', hdn', -, -, -, -, hv'⟩ := ht
  obtain rfl := Option.mem_unique hop hop'
  obtain rfl := Option.mem_unique hdn hdn'
  exact Value.string.inj (hv.symm.trans hv')

/-- What `GetLDAPError` makes of a packet off the wire. -/
inductive ResultOf (p : Packet) : Outcome Err Unit → Prop
  | success {n : ℤ} (hcode : HasResultCode n p) (hn : n % 65536 = 0) : ResultOf p (.ok ())
  | failure {n : ℤ} {dn message : GoString} (hcode : HasResultCode n p) (hn : n % 65536 ≠ 0) (hdn : HasMatchedDN dn p) :
      ResultOf p (.err (.ldap (n % 65536).toNat dn (.fmt "%v" message)))
  | invalid {e : Err} (he : e ∈ invalidPacketErrors)
      (h : ∀ n, HasResultCode n p → n % 65536 ≠ 0 ∧ ∀ dn, ¬ HasMatchedDN dn p) : ResultOf p (.err e)

/-- Where there is a value, narrowing the tag to eight bits makes no difference. -/
theorem tag_of_typeOfTag {c : Packet} (hc : ValueAsRead c) (hne : c.value ≠ .nil) {tag : ℕ} (h : typeOfTag c.tag = tag) :
    c.tag = tag := by
  obtain ⟨-, -, hlt⟩ := hc.universal hne
  rw [← h, typeOfTag, Nat.mod_eq_of_lt (by omega)]

theorem invalidPacketFormat_mem : newError errorNetwork (.new "Invalid packet format") ∈ invalidPacketErrors :=
  List.mem_cons_self

theorem ResultOf.of_no_code {p : Packet} {e : Err} (he : e ∈ invalidPacketErrors) (h : ∀ n, ¬ HasResultCode n p) :
    ResultOf p (.err e) :=
  .invalid he fun n hn => absurd hn (h n)

section Components

variable {p op code dn message : Packet} {more : List Packet}

theorem hasResultCode_iff (hop : p.children[1]? = some op)
    (hcls : op.classType = .application ∧ op.tagType = .constructed) (hcs : op.children = code :: dn :: message :: more)
    (n : ℤ) : HasResultCode n p ↔ (code.tag = tagInteger ∨ code.tag = tagEnumerated) ∧ code.value = .int n := by
  simp [HasResultCode, hop, hcs, hcls]

theorem hasMatchedDN_iff (hop : p.children[1]? = some op) (hcs : op.children = code :: dn :: message :: more)
    (s : GoString) : HasMatchedDN s p ↔ typeOfTag dn.tag = tagOctetString ∧ typeOfTag message.tag = tagOctetString ∧
      dn.value = .string s := by
  simp [HasMatchedDN, hop, hcs]

/-- A result code needs three components. -/
theorem HasResultCode.length {n : ℤ} (h : HasResultCode n p) (hop : p.children[1]? = some op) :
    3 ≤ op.children.length := by
  obtain ⟨op', hop', -, -, hlen, -⟩ := h
  obtain rfl := Option.mem_unique hop hop'
  exact hlen

end Components

theorem getLDAPError_asRead {p : Packet} (h : ∀ op ∈ p.children[1]?, AsRead op) : ResultOf p (getLDAPError p) := by
  unfold getLDAPError
  rcases hp : p.children with _ | ⟨mid, _ | ⟨op, rest⟩⟩
  · exact .of_no_code invalidPacketFormat_mem (by simp [HasResultCode, hp])
  · exact .of_no_code invalidPacketFormat_mem (by simp [HasResultCode, hp])
  have hop : p.children[1]? = some op := by rw [hp]; rfl
  have hread {c : Packet} (hc : c ∈ op.children) : ValueAsRead c := by
    obtain ⟨-, hcs⟩ := h op hop
    obtain ⟨hvalue, -⟩ := hcs c hc
    exact hvalue
  by_cases hcls : op.classType = .application ∧ op.tagType = .constructed
  swap
  · simp only [hcls, if_false]
    refine .of_no_code invalidPacketFormat_mem fun n hn => hcls ?_
    obtain ⟨op', hop', hcls', htype', -⟩ := hn
    obtain rfl := Option.mem_unique hop hop'
    exact ⟨hcls', htype'⟩
  simp only [hcls, and_self, if_true]
  -- three components, or the format is invalid
  rcases hcs : op.children with _ | ⟨code, _ | ⟨dn, _ | ⟨message, more⟩⟩⟩
  iterate 3
    refine .of_no_code invalidPacketFormat_mem fun n hn => ?_
    have hlen := hn.length hop
    rw [hcs] at hlen
    simp at hlen
  rw [hcs] at hread
  have hcode := hasResultCode_iff hop hcls hcs
  have hdn := hasMatchedDN_iff hop hcs
  by_cases htag : typeOfTag code.tag = tagInteger ∨ typeOfTag code.tag = tagEnumerated
  swap
  · simp only [htag, if_false]
    refine .of_no_code invalidPacketFormat_mem fun n hn => htag ?_
    obtain ⟨hint | henum, -⟩ := (hcode n).mp hn
    · exact .inl (by rw [hint]; rfl)
    · exact .inr (by rw [henum]; rfl)
  simp only [htag, if_true]
  by_cases hnil : code.value = .nil
  · rw [hnil]
    exact .of_no_code (by simp [invalidPacketErrors]) fun n hn => by simp [hcode, hnil] at hn
  have htag' : code.tag = tagInteger ∨ code.tag = tagEnumerated :=
    htag.imp (tag_of_typeOfTag (hread (by simp)) hnil) (tag_of_typeOfTag (hread (by simp)) hnil)
  obtain ⟨n, hn⟩ := (hread (by simp)).int hnil htag'
  have hhas : HasResultCode n p := (hcode n).mpr ⟨htag', hn⟩
  rw [hn]
  by_cases hzero : n % 65536 = 0
  · simp only [hzero, if_true]
    exact .success hhas hzero
  simp only [hzero, if_false]
  have hinvalid (hnot : ∀ s, ¬ HasMatchedDN s p) (m : ℤ) (hm : HasResultCode m p) :
      m % 65536 ≠ 0 ∧ ∀ s, ¬ HasMatchedDN s p := by
    obtain rfl := hm.unique hhas
    exact ⟨hzero, hnot⟩
  by_cases hoctets : typeOfTag dn.tag = tagOctetString ∧ typeOfTag message.tag = tagOctetString
  swap
  · simp only [hoctets, if_false]
    refine .invalid invalidPacketFormat_mem (hinvalid fun s hs => hoctets ?_)
    obtain ⟨h1, h2, -⟩ := (hdn s).mp hs
    exact ⟨h1, h2⟩
  simp only [hoctets, and_self, if_true]
  by_cases hnone : dn.value = .nil
  · rw [hnone]
    exact .invalid (by simp [invalidPacketErrors]) (hinvalid fun s hs => by simp [hdn, hnone] at hs)
  · obtain ⟨s, hs⟩ := (hread (by simp)).string hnone (tag_of_typeOfTag (hread (by simp)) hnone hoctets.1)
    rw [hs]
    exact .failure hhas hzero ((hdn s).mpr ⟨hoctets.1, hoctets.2, hs⟩)

/-- `GetLDAPError` does not panic on a packet off the wire. -/
theorem getLDAPError_ne_panic_of_asRead {p : Packet} (h : ∀ op ∈ p.children[1]?, AsRead op) :
    getLDAPError p ≠ .panic := by
  intro hpanic
  have hspec := getLDAPError_asRead h
  rw [hpanic] at hspec
  cases hspec

/-- `LDAPResultCodeMap`. -/
def ldapResultCodeMap : ℕ → GoString
  | 0 => str "Success"
  | 1 => str "Operations Error"
  | 2 => str "Protocol Error"
  | 3 => str "Time Limit Exceeded"
  | 4 => str "Size Limit Exceeded"
  | 5 => str "Compare False"
  | 6 => str "Compare True"
  | 7 => str "Auth Method Not Supported"
  | 8 => str "Strong Auth Required"
  | 10 => str "Referral"
  | 11 => str "Admin Limit Exceeded"
  | 12 => str "Unavailable Critical Extension"
  | 13 => str "Confidentiality Required"
  | 14 => str "Sasl Bind In Progress"
  | 16 => str "No Such Attribute"
  | 17 => str "Undefined Attribute Type"
  | 18 => str "Inappropriate Matching"
  | 19 => str "Constraint Violation"
  | 20 => str "Attribute Or Value Exists"
  | 21 => str "Invalid Attribute Syntax"
  | 32 => str "No Such Object"
  | 33 => str "Alias Problem"
  | 34 => str "Invalid DN Syntax"
  | 35 => str "Is Leaf"
  | 36 => str "Alias Dereferencing Problem"
  | 48 => str "Inappropriate Authentication"
  | 49 => str "Invalid Credentials"
  | 50 => str "Insufficient Access Rights"
  | 51 => str "Busy"
  | 52 => str "Unavailable"
  | 53 => str "Unwilling To Perform"
  | 54 => str "Loop Detect"
  | 60 => str "Sort Control Missing"
  | 61 => str "Result Offset Range Error"
  | 64 => str "Naming Violation"
  | 65 => str "Object Class Violation"
  | 66 => str "Not Allowed On Non Leaf"
  | 67 => str "Not Allowed On RDN"
  | 68 => str "Entry Already Exists"
  | 69 => str "Object Class Mods Prohibited"
  | 70 => str "Results Too Large"
  | 71 => str "Affects Multiple DSAs"
  | 76 => str "Failed because of a problem related to the virtual list view"
  | 80 => str "Other"
  | 81 => str "Cannot establish a connection"
  | 82 => str "An error occurred"
  | 83 => str "LDAP encountered an error while encoding"
  | 84 => str "LDAP encountered an error while decoding"
  | 85 => str "LDAP timeout while waiting for a response from the server"
  | 86 => str "The auth method requested in a bind request is unknown"
  | 87 => str "An error occurred while encoding the given search filter"
  | 88 => str "The user canceled the operation"
  | 89 => str "An invalid parameter was specified"
  | 90 => str "Out of memory error"
  | 91 => str "A connection to the server could not be established"
  | 92 => str "An attempt has been made to use a feature not supported LDAP"
  | 93 => str "The controls required to perform the requested operation were not found"
  | 94 => str "No results were returned from the server"
  | 95 => str "There are more results in the chain of results"
  | 96 => str "A loop has been detected. For example when following referrals"
  | 97 => str "The referral hop limit has been exceeded"
  | 100 => str "Invalid Response"
  | 101 => str "Ambiguous Response"
  | 112 => str "Tls Not Supported"
  | 113 => str "Intermediate Response"
  | 114 => str "Unknown Type"
  | 118 => str "Operation was canceled"
  | 119 => str "Server has no knowledge of the operation requested for cancellation"
  | 120 => str "Too late to cancel the outstanding operation"
  | 121 => str "The identified operation does not support cancellation or the cancel operation cannot be performed"
  | 122 =>
    str "An assertion control given in the LDAP operation evaluated to false causing the operation to not be performed"
  | 123 => str "Authorization Denied"
  | 200 => str "Network Error"
  | 201 => str "Filter Compile Error"
  | 202 => str "Filter Decompile Error"
  | 203 => str "Debugging Error"
  | 204 => str "Unexpected Message"
  | 205 => str "Unexpected Response"
  | 206 => str "Empty password not allowed by the client"
  | 4096 => str "Refresh Required"
  | _ => []

end GoLdap
