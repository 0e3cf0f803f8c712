import GoLdap.Filter.Total
import GoLdap.Request

/-!
# Search.Model — search requests and `Search` (`search.go`)

A search is answered by any number of entries and referrals and then by a SearchResultDone.  `Search` collects them in a
loop of its own; `SearchAsync` has another loop, modelled in `GoLdap.Search.Async`.  Both take the responses as the reader
has handed them over.  Controls are of an arbitrary type here, and `DecodeControl` is a parameter.
-/

namespace GoLdap

open Go Ber

/-! ## Entries -/

structure EntryAttribute where
  name : GoString
  values : List GoString
  byteValues : List GoString
  deriving DecidableEq, Repr

structure Entry where
  dn : GoString
  attributes : List EntryAttribute
  deriving DecidableEq, Repr

/-- The values of an attribute: strings, and octets. -/
def unpackValues (name : GoString) : List Packet → Except Err (List GoString × List GoString)
  | [] => .ok ([], [])
  | value :: rest =>
    match asString value.value with
    | none => .error (.plain (.fmt "ldap: malformed attribute %q: value is not a string: %T" (name ++ typeName value.value)))
    | some v =>
      match unpackValues name rest with
      | .error e => .error e
      | .ok (values, byteValues) => .ok (v :: values, value.byteValue :: byteValues)

/-- One turn of the loop in `unpackAttributes`. -/
def unpackAttribute (child : Packet) : Except Err EntryAttribute :=
  match child.children with
  | type :: vals :: _ =>
    match asString type.value with
    | none => .error (.plain (.fmt "ldap: malformed attribute: type is not a string: %T" (typeName type.value)))
    | some name =>
      match unpackValues name vals.children with
      | .error e => .error e
      | .ok (values, byteValues) => .ok ⟨name, values, byteValues⟩
  | cs => .error (.plain (.fmtNum "ldap: malformed attribute: expected 2 children (type and vals), got %d" cs.length))

def unpackAttributes : List Packet → Except Err (List EntryAttribute)
  | [] => .ok []
  | child :: rest =>
    match unpackAttribute child with
    | .error e => .error e
    | .ok entry =>
      match unpackAttributes rest with
      | .error e => .error e
      | .ok entries => .ok (entry :: entries)

/-! ## Requests -/

structure SearchRequest where
  baseDN : GoString
  scope : ℤ
  derefAliases : ℤ
  sizeLimit : ℤ
  timeLimit : ℤ
  typesOnly : Bool
  filter : GoString
  attributes : List GoString
  /-- The controls, encoded. -/
  controls : List Packet
  enforceSizeLimit : Bool

/-- A conversion to `uint64`. -/
def toUint64 (n : ℤ) : ℤ := n % 2 ^ 64

/-- `(*SearchRequest).appendTo`. -/
def SearchRequest.appendTo (E : Encoder) (req : SearchRequest) (envelope : Packet) : Outcome Err Packet :=
  let pkt := encode .application .constructed applicationSearchRequest (str "Search Request")
  let pkt := pkt.appendChild E (newString .universal .primitive tagOctetString req.baseDN (str "Base DN"))
  let pkt := pkt.appendChild E (newInteger E .universal .primitive tagEnumerated (toUint64 req.scope) (str "Scope"))
  let pkt := pkt.appendChild E
    (newInteger E .universal .primitive tagEnumerated (toUint64 req.derefAliases) (str "Deref Aliases"))
  let pkt := pkt.appendChild E (newInteger E .universal .primitive tagInteger (toUint64 req.sizeLimit) (str "Size Limit"))
  let pkt := pkt.appendChild E (newInteger E .universal .primitive tagInteger (toUint64 req.timeLimit) (str "Time Limit"))
  let pkt := pkt.appendChild E (newBoolean E .universal .primitive tagBoolean req.typesOnly (str "Types Only"))
  match compileFilter E req.filter with
  | some (.error e) => .err e
  | some (.ok (some filterPacket)) =>
    let pkt := pkt.appendChild E filterPacket
    let attributes := req.attributes.foldl (fun p name => p.appendChild E
      (newString .universal .primitive tagOctetString name (str "Attribute")))
      (encode .universal .constructed tagSequence (str "Attributes"))
    let envelope := envelope.appendChild E (pkt.appendChild E attributes)
    .ok (if 0 < req.controls.length then envelope.appendChild E (encodeControls E req.controls) else envelope)
  -- `AppendChild(nil)`, which does not happen
  | _ => .panic

theorem SearchRequest.appendTo_ne_panic (E : Encoder) (req : SearchRequest) (envelope : Packet) :
    req.appendTo E envelope ≠ .panic := by
  unfold SearchRequest.appendTo
  obtain ⟨packet, h⟩ | ⟨e, h⟩ := compileFilter_total E req.filter
  · simp [h]
  · simp [h]

/-! ## `Search` -/

structure SearchResult (C : Type) where
  entries : List Entry
  referrals : List GoString
  controls : List C

/-- How a call of `Search` ends: it returns a result, which may be nil, and an error, which may be nil; it panics; or it
waits for a response. -/
inductive SearchEnd (C : Type) where
  | returned (result : Option (SearchResult C)) (err : Option Err)
  | panicked
  | waiting

/-- What one response does to the loop. -/
inductive SearchStep (C : Type) where
  | goOn (result : SearchResult C)
  | ret (result : SearchResult C) (err : Option Err)
  | panic

def errSizeLimitExceeded : Err := newError errorNetwork (.new "ldap: size limit exceeded")

section

variable {C : Type} (decodeControl : Packet → Outcome Err C)

/-- The case of an entry. -/
def searchEntry (req : SearchRequest) (result : SearchResult C) (op : Packet) : SearchStep C :=
  if req.enforceSizeLimit ∧ 0 < req.sizeLimit ∧ req.sizeLimit ≤ result.entries.length then
    .ret result (some errSizeLimitExceeded)
  else
    -- an entry without a list of attributes has no attributes
    let attr := match op.children with
      | _ :: attributes :: _ => attributes.children
      | _ => []
    match unpackAttributes attr with
    | .error e => .ret result (some e)
    | .ok attributes =>
      match op.children with
      | [] => .panic
      | name :: _ =>
        match asString name.value with
        | none => .panic
        | some dn => .goOn { result with entries := result.entries ++ [⟨dn, attributes⟩] }

/-- The case of a SearchResultDone. -/
def searchDone (result : SearchResult C) (packet : Packet) : SearchStep C :=
  match getLDAPError packet with
  | .panic => .panic
  | .err e => .ret result (some e)
  | .ok () =>
    match packet.children with
    | [_, _, controls] =>
      match decodeControls decodeControl (.wrapped "failed to decode child control: %s") controls.children with
      | (_, .panic) => .panic
      | (cs, .err e) => .ret { result with controls := result.controls ++ cs } (some e)
      | (cs, .ok ()) => .ret { result with controls := result.controls ++ cs } none
    | _ => .ret result none

/-- The case of a referral. -/
def searchReference (result : SearchResult C) (op : Packet) : SearchStep C :=
  match op.children with
  | [] => .panic
  | uri :: _ =>
    match asString uri.value with
    | none => .panic
    | some ref => .goOn { result with referrals := result.referrals ++ [ref] }

/-- One turn of the loop in `Search`; other operations are passed over. -/
def searchStep (req : SearchRequest) (result : SearchResult C) (packet : Packet) : SearchStep C :=
  match packet.children[1]? with
  | none => .panic
  | some op =>
    if op.tag = applicationSearchResultEntry then searchEntry req result op
    else if op.tag = applicationSearchResultDone then searchDone decodeControl result packet
    else if op.tag = applicationSearchResultReference then searchReference result op
    else .goOn result

variable (addControlDescriptions : Assign) (debug : Bool)

/-- The loop in `Search`. -/
def searchLoop (req : SearchRequest) (closed : Bool) : SearchResult C → List (Except Err Packet) → SearchEnd C
  | result, [] => if closed then .returned (some result) (some errResponseChannelClosed) else .waiting
  | result, .error e :: _ => .returned (some result) (some e)
  | result, .ok packet :: rest =>
    match describeInDebug addControlDescriptions debug packet with
    | .error e => .returned (some result) (some e)
    | .ok packet =>
      match searchStep decodeControl req result packet with
      | .panic => .panicked
      | .ret result err => .returned (some result) err
      | .goOn result => searchLoop req closed result rest

end

/-- `(*Conn).Search`. -/
def Connection.search {C : Type} (E : Encoder) (addControlDescriptions : Assign)
    (decodeControl : Packet → Outcome Err C) (conn : Connection) (req : SearchRequest) (responses : Responses) :
    SearchEnd C :=
  if conn.hasConn then
    match req.appendTo E (requestEnvelope E conn.messageID) with
    | .panic => .panicked
    | .err e => .returned none (some e)
    | .ok packet =>
      match conn.sendMessage packet with
      | some e => .returned none (some e)
      | none => searchLoop decodeControl addControlDescriptions conn.debug req responses.closed ⟨[], [], []⟩ responses.packets
  else .returned none (some errNilConnection)

/-- The request of a search is sent. -/
def Connection.sends (E : Encoder) (conn : Connection) (req : SearchRequest) : Bool :=
  conn.hasConn && match req.appendTo E (requestEnvelope E conn.messageID) with
    | .ok packet => (conn.sendMessage packet).isNone
    | _ => false

section

variable {C : Type} {E : Encoder} {conn : Connection} {req : SearchRequest}

theorem Connection.exists_of_sends (h : conn.sends E req = true) :
    conn.hasConn = true ∧ ∃ packet, req.appendTo E (requestEnvelope E conn.messageID) = .ok packet ∧
      conn.sendMessage packet = none := by
  rw [Connection.sends, Bool.and_eq_true] at h
  obtain ⟨hconn, hsent⟩ := h
  split at hsent
  · exact ⟨hconn, _, by assumption, Option.isNone_iff_eq_none.mp hsent⟩
  · cases hsent

theorem Connection.search_of_sends (h : conn.sends E req = true) (addControlDescriptions : Assign)
    (decodeControl : Packet → Outcome Err C) (responses : Responses) :
    conn.search E addControlDescriptions decodeControl req responses =
      searchLoop decodeControl addControlDescriptions conn.debug req responses.closed ⟨[], [], []⟩ responses.packets := by
  obtain ⟨hconn, packet, happend, hsend⟩ := conn.exists_of_sends h
  rw [Connection.search, if_pos hconn, happend]
  dsimp only
  rw [hsend]

/-- A request that is not sent is an error, without a result. -/
theorem Connection.search_of_not_sends (h : conn.sends E req = false) (addControlDescriptions : Assign)
    (decodeControl : Packet → Outcome Err C) (responses : Responses) :
    ∃ e, conn.search E addControlDescriptions decodeControl req responses = .returned none (some e) := by
  rw [Connection.search]
  by_cases hconn : conn.hasConn = true
  · rw [if_pos hconn]
    rw [Connection.sends, hconn, Bool.true_and] at h
    cases happend : req.appendTo E (requestEnvelope E conn.messageID) with
    | panic => exact absurd happend (req.appendTo_ne_panic E _)
    | err e => exact ⟨e, rfl⟩
    | ok packet =>
      rw [happend] at h
      dsimp only at h ⊢
      cases hsend : conn.sendMessage packet with
      | none =>
        rw [hsend] at h
        cases h
      | some e => exact ⟨e, rfl⟩
  · rw [if_neg hconn]
    exact ⟨_, rfl⟩

end

end GoLdap
