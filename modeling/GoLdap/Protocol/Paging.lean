import GoLdap.Control.Descriptions
import GoLdap.Control.RoundTrip
import GoLdap.Protocol.Session
import GoLdap.Search.Paging

/-!
# Protocol.Paging — `SearchWithPaging` against a server

A server that answers a search in pages: it reads the size and the cookie of a paging control, sends so many of the
entries it has found, and writes the position of the next one into the cookie of its own control.  `SearchWithPaging`
puts the pages together again.
-/

namespace GoLdap

open Go Ber Octets Assign

/-! ## The control of a page, described

The reader decodes the value of a paging control in place when it describes a message, and a call in debug mode finds it
decoded.  Both are without an error if the value has a size and a cookie. -/

section

variable (L : Codec)

/-- The value of a paging control: octets that decode to a size and a cookie, or these decoded in place. -/
inductive PagingValue (value : Packet) : Prop
  | octets {s : GoString} {sequence : Packet} (hcs : value.children = []) (hvalue : value.value = .string s)
      (hdecode : L.decodePacketErr value.data = .ok sequence) (hlen : 2 ≤ sequence.children.length)
  | expanded {sequence : Packet} (hcs : value.children = [sequence]) (hvalue : value.value = .nil)
      (hlen : 2 ≤ sequence.children.length)

/-- A control with such a value. -/
def PagingPacket (c : Packet) : Prop :=
  ∃ t v, c.children = [t, v] ∧ t.value = .string controlTypePaging ∧ PagingValue L v

variable {L}

theorem PagingValue.not_bool {v : Packet} (h : PagingValue L v) (b : Bool) : v.value ≠ .bool b := by
  cases h with
  | octets _ hvalue _ _ => simp [hvalue]
  | expanded _ hvalue _ => simp [hvalue]

theorem PagingValue.description {v : Packet} (h : PagingValue L v) (text : GoString) :
    PagingValue L { v with description := text } := by
  cases h with
  | octets hcs hvalue hdecode hlen => exact .octets hcs hvalue hdecode hlen
  | expanded hcs hvalue hlen => exact .expanded hcs hvalue hlen

/-- A value decoded in place stays so, and its members are described. -/
theorem describeMembers_ends {v sequence : Packet} (hcs : v.children = [sequence]) (hvalue : v.value = .nil)
    (hlen : 2 ≤ sequence.children.length) :
    ∃ w, Assign.all [describe [0] (str "Real Search Control Value"), describe [0, 0] (str "Paging Size"),
        describe [0, 1] (str "Cookie")] v = (w, .ok ()) ∧ PagingValue L w := by
  obtain ⟨a, b, more, hmembers⟩ : ∃ a b more, sequence.children = a :: b :: more := by
    rcases hs : sequence.children with _ | ⟨a, _ | ⟨b, more⟩⟩
    · simp [hs] at hlen
    · simp [hs] at hlen
    · exact ⟨a, b, more, rfl⟩
  refine ⟨{ v with children := [{ sequence with
    description := str "Real Search Control Value"
    children := { a with description := str "Paging Size" } :: { b with description := str "Cookie" } :: more }] },
    ?_, .expanded rfl hvalue (by simp)⟩
  simp [Assign.all, andThen, describe, onPath, hcs, hmembers, skip]

/-- The value of a paging control is described, and is decoded in place then. -/
theorem PagingValue.describePaging {v : Packet} (h : PagingValue L v) :
    ∃ w, GoLdap.describePaging L v = (w, .ok ()) ∧ PagingValue L w := by
  have hrun : GoLdap.describePaging L v = (expandPaging L).andThen
      (Assign.all [describe [0] (str "Real Search Control Value"), describe [0, 0] (str "Paging Size"),
        describe [0, 1] (str "Cookie")]) { v with description := v.description ++ str " (Paging)" } := rfl
  have hexpand : ∃ w sequence, expandPaging L { v with description := v.description ++ str " (Paging)" } = (w, .ok ()) ∧
      w.children = [sequence] ∧ w.value = .nil ∧ 2 ≤ sequence.children.length := by
    cases h with
    | octets hcs hvalue hdecode hlen =>
      have hcookie := List.getElem?_eq_getElem (show 1 < _ from hlen)
      unfold expandPaging
      simp only [hvalue, hdecode, hcookie, if_neg, reduceCtorEq, not_false_eq_true]
      refine ⟨_, ?_, rfl, ?_, rfl, ?_⟩
      rotate_left
      · simp only [Packet.appendChild, hcs, List.nil_append]
        rfl
      · simpa using hlen
    | @expanded sequence hcs hvalue hlen => exact ⟨_, sequence, if_pos hvalue, hcs, hvalue, hlen⟩
  obtain ⟨w, sequence, hw, hcs, hvalue, hlen⟩ := hexpand
  rw [hrun, andThen, hw]
  exact describeMembers_ends hcs hvalue hlen

/-- A paging control is described, and stays one. -/
theorem PagingPacket.describeControl {c : Packet} (h : PagingPacket L c) :
    ∃ d, GoLdap.describeControl L c = (d, .ok ()) ∧ PagingPacket L d := by
  obtain ⟨t, v, hcs, ht, hv⟩ := h
  obtain ⟨w, hw, hpaging⟩ := (hv.description (str "Control Value")).describePaging
  have hvalue : describeControlValue L controlTypePaging { v with description := str "Control Value" } = (w, .ok ()) := by
    rw [describeControlValue, if_pos rfl, hw]
  refine ⟨{ c with
    description := str "Control"
    children := [{ t with description := str "Control Type (" ++ controlTypeMap controlTypePaging ++ str ")" }, w] },
    ?_, _, w, rfl, ht, hpaging⟩
  have hnot := hv.not_bool
  simp [GoLdap.describeControl, describeControlType, describeValueChild, describe, onPath, andThen, byChild, hcs, ht,
    hvalue]

/-- A list of controls that is a paging control. -/
theorem addControlDescriptions_paging {controls c : Packet} (hcs : controls.children = [c]) (h : PagingPacket L c) :
    ∃ d, addControlDescriptions L controls = ({ controls with description := str "Controls", children := [d] }, .ok ()) ∧
      PagingPacket L d := by
  obtain ⟨d, hd, hpaging⟩ := h.describeControl
  refine ⟨d, ?_, hpaging⟩
  simp [addControlDescriptions, andThen, describe, describeEach, onPath, Assign.all, skip, hcs, hd]

/-- The last message of a page: a result, and a paging control. -/
def PagedDone (L : Codec) (p : Packet) : Prop :=
  ∃ mid op controls c, p.children = [mid, op, controls] ∧ op.tag = applicationSearchResultDone ∧ HasResult op ∧
    getLDAPError p ≠ .panic ∧ controls.children = [c] ∧ PagingPacket L c

theorem HasResult.of_undescribed {op op' : Packet} (h : HasResult op) (hop : op'.undescribed = op.undescribed) :
    HasResult op' := by
  obtain ⟨code, dn, message, more, hcs, htag⟩ := h
  have hchildren : op'.children.map Packet.undescribed = op.children.map Packet.undescribed := by
    rw [← Packet.undescribed_children, hop, Packet.undescribed_children]
  rw [hcs] at hchildren
  obtain ⟨code', cs, hcs', -, htail⟩ := List.map_eq_cons_iff.mp hchildren
  obtain ⟨dn', cs', rfl, -, htail⟩ := List.map_eq_cons_iff.mp htail
  obtain ⟨message', more', rfl, -, -⟩ := List.map_eq_cons_iff.mp htail
  refine ⟨code', dn', message', more', hcs', ?_⟩
  rw [← Packet.undescribed_tag op', hop, Packet.undescribed_tag]
  exact htag

theorem getLDAPError_of_operation {p q op op' : Packet} (hp : p.children[1]? = some op) (hq : q.children[1]? = some op')
    (h : op'.undescribed = op.undescribed) : getLDAPError q = getLDAPError p := by
  rw [← getLDAPError_undescribed q, ← getLDAPError_undescribed p]
  refine getLDAPError_congr ?_
  rw [Packet.undescribed_children, Packet.undescribed_children, List.getElem?_map, List.getElem?_map, hp, hq,
    Option.map_some, Option.map_some, h]

theorem onPath_second {p mid op controls : Packet} (h : p.children = [mid, op, controls]) (f : Assign) :
    onPath [1] f p = ({ p with children := [mid, (f op).1, controls] }, (f op).2) := by
  simp [onPath, h]

/-- Such a message is described without an error, and stays one. -/
theorem PagedDone.describable {p : Packet} (h : PagedDone L p) :
    ∃ q, addLDAPDescriptions (addControlDescriptions L) p = (q, none) ∧ PagedDone L q := by
  obtain ⟨mid, op, controls, c, hcs, htag, hop, hresult, hcontrols, hpaging⟩ := h
  obtain ⟨d, hd, hpaging⟩ := addControlDescriptions_paging hcontrols hpaging
  set op₁ : Packet := { op with description := applicationMap (op.tag % 256) } with hop₁
  set p₁ : Packet := { p with
    description := str "LDAP Response"
    children := [{ mid with description := str "Message ID" }, op₁, controls] } with hp₁
  have hthree : describePacket (addControlDescriptions L) p =
      addDefaultLDAPResponseDescriptions (addControlDescriptions L) p₁ := by
    rw [describePacket, Assign.all, Assign.all, Assign.all, Assign.all, Assign.all, andThen_skip]
    simp [andThen, describe, onPath, describeOperation, byChild, hcs, htag, applicationSearchResultDone,
      describeApplication, hp₁, hop₁]
  have hsame₁ : op₁.undescribed = op.undescribed := by
    rw [Packet.undescribed_eq op, Packet.undescribed_eq op₁]
  have herror : getLDAPError p₁ = getLDAPError p := getLDAPError_of_operation (by rw [hcs]; rfl) rfl hsame₁
  obtain ⟨code, dn, message, more, hcomponents, -⟩ := id hop
  have hends : (describeResult (getLDAPError p₁) op₁).2 = .ok () := describeResult_ends hcomponents (herror ▸ hresult)
  have hsame₂ : (describeResult (getLDAPError p₁) op₁).1.undescribed = op.undescribed :=
    ((describeResult_neutral (S := fun _ => True) _).keeps trivial).trans hsame₁
  generalize hop₂ : (describeResult (getLDAPError p₁) op₁).1 = op₂ at hsame₂
  set q : Packet := { p₁ with children := [{ mid with description := str "Message ID" }, op₂,
    { controls with description := str "Controls", children := [d] }] } with hq
  have hdescribed : addDefaultLDAPResponseDescriptions (addControlDescriptions L) p₁ = (q, .ok ()) := by
    have hpath : onPath [1] (describeResult (getLDAPError p₁)) p₁ =
        ({ p₁ with children := [{ mid with description := str "Message ID" }, op₂, controls] }, .ok ()) := by
      rw [onPath_second rfl, hop₂, hends]
    rw [addDefaultLDAPResponseDescriptions, andThen, hpath]
    simp [describeControls, whenCount, onPath, hd, hq]
  refine ⟨q, ?_, _, op₂, _, d, rfl, ?_, hop.of_undescribed hsame₂, ?_, rfl, hpaging⟩
  · rw [addLDAPDescriptions, hthree, hdescribed]
    rfl
  · rw [← Packet.undescribed_tag op₂, hsame₂, Packet.undescribed_tag, htag]
  · rw [getLDAPError_of_operation (p := p) (by rw [hcs]; rfl) rfl hsame₂]
    exact hresult

/-- What a call handles of such a message, which has come off the wire. -/
theorem PagedDone.delivered {P : Primitives} {p : Packet} (h : PagedDone L (p.wire P)) (debug : Bool) :
    ∃ q, describeInDebug (addControlDescriptions L) debug (handOver (addControlDescriptions L) (p.wire P)) = .ok q ∧
      PagedDone L q ∧ getLDAPError q = getLDAPError (p.wire P) ∧ decodedControls L q = decodedControls L (p.wire P) := by
  obtain ⟨q, hq, hdone⟩ := h.describable
  have hover : handOver (addControlDescriptions L) (p.wire P) = q := by rw [handOver, undescribed_wire, hq]
  have hsame {a b : Packet} (hab : addLDAPDescriptions (addControlDescriptions L) a = (b, none)) :
      getLDAPError b = getLDAPError a ∧ decodedControls L b = decodedControls L a := by
    have hin : describeInDebug (addControlDescriptions L) true a = .ok b := by rw [describeInDebug, if_pos rfl, hab]
    refine ⟨getLDAPError_describeInDebug hin, ?_⟩
    rw [← decodedControls_addLDAPDescriptions L a, hab]
  obtain ⟨herror, hcontrols⟩ := hsame hq
  rw [hover]
  cases debug with
  | false => exact ⟨q, rfl, hdone, herror, hcontrols⟩
  | true =>
    obtain ⟨r, hr, hdone⟩ := hdone.describable
    obtain ⟨herror', hcontrols'⟩ := hsame hr
    exact ⟨r, by rw [describeInDebug, if_pos rfl, hr], hdone, herror'.trans herror, hcontrols'.trans hcontrols⟩

/-- The search ends with such a message, and has the control. -/
theorem searchStep_pagedDone {q : Packet} (h : PagedDone L q) {c : Control} (hok : getLDAPError q = .ok ())
    (hc : decodedControls L q = some [some c]) (req : SearchRequest) (result : SearchResult Control) :
    searchStep (decodeControl L) req result q = .ret { result with controls := result.controls ++ [c] } none := by
  obtain ⟨mid, op, controls, x, hcs, htag, -, -, hx, -⟩ := h
  have hdecode : decodeControl L x = .ok c := by
    simp only [decodedControls, hcs, List.getElem?_cons_succ, List.getElem?_cons_zero, Option.map_some, hx,
      List.map_cons, List.map_nil, Option.some.injEq, List.cons.injEq, and_true] at hc
    cases hd : decodeControl L x with
    | ok d => simpa [hd, Outcome.toOption] using hc
    | err e => simp [hd, Outcome.toOption] at hc
    | panic => simp [hd, Outcome.toOption] at hc
  have hdone : searchDone (decodeControl L) result q =
      .ret { result with controls := result.controls ++ [c] } none := by
    unfold searchDone
    simp only [hok, hcs, hx, decodeControls, hdecode]
  unfold searchStep
  simp only [hcs, List.getElem?_cons_succ, List.getElem?_cons_zero, htag, hdone]
  rw [if_neg (by decide), if_pos trivial]

end

/-! ## The server -/

section

variable (E : Encoder)

/-- The value of a paging control: a size and a cookie. -/
def pagingValue (size : ℕ) (cookie : GoString) : Packet :=
  constructedOf E .universal tagSequence [] [newInteger E .universal .primitive tagInteger size [],
    newString .universal .primitive tagOctetString cookie []]

/-- The paging control of a response. -/
def pagingControl (size : ℕ) (cookie : GoString) : Packet :=
  constructedOf E .universal tagSequence [] [newString .universal .primitive tagOctetString controlTypePaging [],
    newString .universal .primitive tagOctetString ((pagingValue E size cookie).bytes E) []]

end

def readPagingElements : List Packet → Option (ℤ × GoString)
  | [size, cookie] => do
    let size ← readNumber tagInteger size
    let cookie ← readString cookie
    return (size, cookie)
  | _ => none

/-- The size and the cookie in the value of a paging control. -/
def readPagingValue (L : LawfulCodec) (octets : GoString) : Option (ℤ × GoString) :=
  match L.decodePacketErr octets with
  | .error _ => none
  | .ok p => readElements .universal tagSequence p >>= readPagingElements

/-- The size and the cookie of the first paging control of a request. -/
def readPaging (L : LawfulCodec) (controls : List MessageControl) : Option (ℤ × GoString) := do
  let c ← controls.find? (·.controlType = controlTypePaging)
  readPagingValue L (← c.controlValue)

/-- What a server says to a search. -/
structure PageAnswer where
  entries : List DirectoryEntry
  result : LDAPResult
  controls : List Packet

/-- A server with a directory that does not change: what a search finds in it, the length of its largest pages, and how a
position is written into a cookie. -/
structure PagedServer where
  find : SearchParameters → List DirectoryEntry
  largest : ℕ
  largest_pos : 0 < largest
  cookie : ℕ → GoString
  position : GoString → Option ℕ
  cookie_ne_nil : ∀ n, cookie n ≠ []
  position_cookie : ∀ n, position (cookie n) = some n

namespace PagedServer

variable (server : PagedServer)

/-- Where a page begins; a search starts without a cookie. -/
def start (cookie : GoString) : Option ℕ := if cookie = [] then some 0 else server.position cookie

/-- The cookie for what is left after a number of entries; there is none if nothing is left. -/
def cookieAfter (n total : ℕ) : GoString := if n < total then server.cookie n else []

/-- A page of the entries. -/
def page (E : Encoder) (entries : List DirectoryEntry) (size n : ℕ) : PageAnswer :=
  let length := min size server.largest
  ⟨(entries.drop n).take length, .ofCode 0, [pagingControl E 0 (server.cookieAfter (n + length) entries.length)]⟩

/-- The answer to a search.  A cookie that the server has not written is refused. -/
def answer (L : LawfulCodec) (parameters : SearchParameters) (controls : List MessageControl) : PageAnswer :=
  match readPaging L controls with
  | none => ⟨server.find parameters, .ofCode 0, []⟩
  | some (size, cookie) =>
    match server.start cookie with
    | none => ⟨[], .ofCode 53, []⟩
    | some n => server.page L.toEncoder (server.find parameters) size.toNat n

/-- The messages of an answer. -/
def frames (E : Encoder) (id : ℤ) (a : PageAnswer) : List GoString :=
  ((a.entries.map (DirectoryEntry.packet E)).map fun op => (responseMessage E id op []).bytes E) ++
    [(responseMessage E id (resultResponse E applicationSearchResultDone a.result []) a.controls).bytes E]

/-- What the server does with the octets of a message; it knows of searches only. -/
def serve (L : LawfulCodec) (octets : GoString) : List GoString :=
  match L.decodePacketErr octets with
  | .error _ => []
  | .ok p =>
    match readMessage p with
    | some ⟨id, .search parameters, controls⟩ => frames L.toEncoder id (server.answer L parameters controls)
    | _ => []

end PagedServer


/-! ## The controls of both sides -/

section

variable {L : LawfulCodec}

/-- The server reads what the client writes. -/
theorem readPagingValue_sequence (c : ControlPaging) :
    readPagingValue L ((c.sequence L.toEncoder).bytes L.toEncoder) = some ((c.pagingSize.toNat : ℤ), c.cookie) := by
  have hsize : Conveys L (readNumber tagInteger)
      (newInteger L.toEncoder .universal .primitive tagInteger c.pagingSize.toNat (str "Paging Size")) _ :=
    conveys_number (.inl rfl) (fits_toNat c.pagingSize)
  have hcookie : Conveys L readString (cookiePacket c.cookie) c.cookie := conveys_string_of rfl rfl rfl
  have hsequence : Conveys L (fun p => readElements .universal tagSequence p >>= readPagingElements)
      (c.sequence L.toEncoder) ((c.pagingSize.toNat : ℤ), c.cookie) := by
    refine Conveys.bind _ (List.forall_mem_cons.mpr ⟨hsize.encodable, List.forall_mem_singleton.mpr hcookie.encodable⟩) ?_
    rw [List.map_cons, List.map_cons, List.map_nil, readPagingElements, hsize.reads, hcookie.reads]
    rfl
  obtain ⟨q, hq, hread⟩ := hsequence.decode
  rw [readPagingValue, hq]
  exact hread

theorem encodable_pagingValue (size : UInt32) (cookie : GoString) :
    Encodable L.toEncoder (pagingValue L.toEncoder size.toNat cookie) :=
  encodable_constructedOf (List.forall_mem_cons.mpr ⟨(conveys_number (.inl rfl) (fits_toNat size)).encodable,
    List.forall_mem_singleton.mpr (conveys_string cookie).encodable⟩)

theorem encodable_pagingControl (size : ℕ) (cookie : GoString) :
    Encodable L.toEncoder (pagingControl L.toEncoder size cookie) :=
  encodable_constructedOf (List.forall_mem_cons.mpr ⟨(conveys_string controlTypePaging).encodable,
    List.forall_mem_singleton.mpr (conveys_string _).encodable⟩)

/-- The paging control of a server, as it is read. -/
theorem wire_pagingControl (size : ℕ) (cookie : GoString) :
    (pagingControl L.toEncoder size cookie).wire L.toPrimitives = constructedOf L.toEncoder .universal tagSequence []
      [readPrimitive .universal tagOctetString (.string controlTypePaging) controlTypePaging,
        readPrimitive .universal tagOctetString (.string ((pagingValue L.toEncoder size cookie).bytes L.toEncoder))
          ((pagingValue L.toEncoder size cookie).bytes L.toEncoder)] := by
  rw [pagingControl, wire_constructedOf]
  simp [wire_string]

/-- It is the control that the client would write. -/
theorem wire_pagingControl_encode (c : ControlPaging) :
    (pagingControl L.toEncoder c.pagingSize.toNat c.cookie).wire L.toPrimitives =
      (c.encode L.toEncoder).wire L.toPrimitives := by
  have hvalue : (pagingValue L.toEncoder c.pagingSize.toNat c.cookie).bytes L.toEncoder =
      (c.sequence L.toEncoder).bytes L.toEncoder := rfl
  have hencode : c.encode L.toEncoder = constructedOf L.toEncoder .universal tagSequence (str "Control")
      [controlTypePacket controlTypePaging,
        wrapValue L.toEncoder (str "Control Value (Paging)") (c.sequence L.toEncoder)] := rfl
  rw [wire_pagingControl, hvalue, hencode, wire_constructedOf, List.map_cons, List.map_cons, List.map_nil,
    wire_primitive _ rfl, wire_primitive _ rfl]
  rfl

theorem decode_pagingControl (c : ControlPaging) :
    decodeControl L.toCodec ((pagingControl L.toEncoder c.pagingSize.toNat c.cookie).wire L.toPrimitives) =
      .ok (.paging c) := by
  rw [wire_pagingControl_encode]
  exact decode_see_paging L .read c

theorem pagingPacket_pagingControl (size : UInt32) (cookie : GoString) :
    PagingPacket L.toCodec ((pagingControl L.toEncoder size.toNat cookie).wire L.toPrimitives) := by
  rw [wire_pagingControl]
  refine ⟨_, _, children_constructedOf, rfl, .octets rfl rfl (L.decode_bytes _ (encodable_pagingValue size cookie)) ?_⟩
  rw [pagingValue, wire_constructedOf, children_constructedOf]
  rfl

/-- The last message of a page of the server. -/
def lastMessage (E : Encoder) (id : ℤ) (cookie : GoString) : Packet :=
  responseMessage E id (resultResponse E applicationSearchResultDone (.ofCode 0) []) [pagingControl E 0 cookie]

variable {id : ℤ}

theorem children_wire_lastMessage (cookie : GoString) :
    ((lastMessage L.toEncoder id cookie).wire L.toPrimitives).children =
      [(newInteger L.toEncoder .universal .primitive tagInteger id []).wire L.toPrimitives,
        (resultResponse L.toEncoder applicationSearchResultDone (.ofCode 0) []).wire L.toPrimitives,
        constructedOf L.toEncoder .context 0 [] [(pagingControl L.toEncoder 0 cookie).wire L.toPrimitives]] := by
  rw [lastMessage, responseMessage, wire_constructedOf, children_constructedOf, if_neg (List.cons_ne_nil _ _)]
  simp [wire_constructedOf]

theorem getLDAPError_lastMessage (cookie : GoString) :
    getLDAPError ((lastMessage L.toEncoder id cookie).wire L.toPrimitives) = .ok () := by
  have hsame : getLDAPError ((lastMessage L.toEncoder id cookie).wire L.toPrimitives) =
      getLDAPError (received L id (resultResponse L.toEncoder applicationSearchResultDone (.ofCode 0) [])) := by
    refine getLDAPError_congr ?_
    rw [children_wire_lastMessage, children_received]
    rfl
  rw [hsame, getLDAPError_received]
  rfl

theorem pagedDone_lastMessage (cookie : GoString) :
    PagedDone L.toCodec ((lastMessage L.toEncoder id cookie).wire L.toPrimitives) := by
  refine ⟨_, _, _, _, children_wire_lastMessage cookie, ?_, ?_, ?_, children_constructedOf,
    pagingPacket_pagingControl 0 cookie⟩
  · rw [wire_resultResponse, tag_constructedOf]
  · rw [HasResult, wire_resultResponse, children_constructedOf, tag_constructedOf]
    exact ⟨_, _, _, _, rfl, by decide⟩
  · rw [getLDAPError_lastMessage]
    rintro ⟨⟩

theorem decodedControls_lastMessage (cookie : GoString) :
    decodedControls L.toCodec ((lastMessage L.toEncoder id cookie).wire L.toPrimitives) =
      some [some (.paging ⟨0, cookie⟩)] := by
  have hdecode := decode_pagingControl (L := L) ⟨0, cookie⟩
  rw [decodedControls, children_wire_lastMessage]
  simp only [List.getElem?_cons_succ, List.getElem?_cons_zero, Option.map_some, children_constructedOf, List.map_cons,
    List.map_nil]
  rw [show pagingControl L.toEncoder 0 cookie = pagingControl L.toEncoder (0 : UInt32).toNat cookie from rfl, hdecode]
  rfl

theorem readFrame_lastMessage (addControlDescriptions : Assign) (hid : Fits 8 id) (cookie : GoString) :
    readFrame L addControlDescriptions id ((lastMessage L.toEncoder id cookie).bytes L.toEncoder) =
      some (.ok (handOver addControlDescriptions ((lastMessage L.toEncoder id cookie).wire L.toPrimitives))) := by
  have hencodable : Encodable L.toEncoder (lastMessage L.toEncoder id cookie) := by
    rw [lastMessage, responseMessage, if_neg (List.cons_ne_nil _ _)]
    refine encodable_constructedOf (List.forall_mem_cons.mpr ⟨(conveys_number (.inl rfl) hid).encodable,
      List.forall_mem_cons.mpr ⟨encodable_resultResponse (List.forall_mem_nil _), List.forall_mem_singleton.mpr ?_⟩⟩)
    exact encodable_constructedOf (List.forall_mem_singleton.mpr (encodable_pagingControl 0 cookie))
  have hmid : messageIDOf ((lastMessage L.toEncoder id cookie).wire L.toPrimitives) = some id := by
    rw [messageIDOf, children_wire_lastMessage, wire_number L (.inl rfl) hid]
    rfl
  rw [readFrame, L.decode_bytes _ hencodable]
  exact if_pos hmid

/-- What a search makes of a page. -/
theorem searchLoop_page {req : SearchRequest} {debug closed : Bool} (es : List DirectoryEntry)
    (hroom : ∀ n < es.length, ¬ req.Full n) (cookie : GoString) :
    searchLoop (decodeControl L.toCodec) (addControlDescriptions L.toCodec) debug req closed ⟨[], [], []⟩
      (handedOver L (addControlDescriptions L.toCodec) id (es.map (DirectoryEntry.packet L.toEncoder)) ++
        [.ok (handOver (addControlDescriptions L.toCodec)
          ((lastMessage L.toEncoder id cookie).wire L.toPrimitives))]) =
      .returned (some ⟨es.map DirectoryEntry.entry, [], [.paging ⟨0, cookie⟩]⟩) none := by
  obtain ⟨q, hq, hdone, herror, hcontrols⟩ := (pagedDone_lastMessage (L := L) cookie).delivered debug
  rw [getLDAPError_lastMessage] at herror
  rw [decodedControls_lastMessage] at hcontrols
  refine (searchLoop_entries es (by simpa using hroom)).trans ?_
  rw [searchLoop, hq]
  dsimp only
  rw [searchStep_pagedDone hdone herror hcontrols]
  rfl

end

/-! ## The client -/

/-- The request with its controls encoded; what only servers send is not encoded. -/
def PagedRequest.encoded (E : Encoder) (request : PagedRequest) : Option SearchRequest :=
  (request.controls.mapM (Control.encode E)).map fun cs => { request.request with controls := cs }

section

variable (L : LawfulCodec) (server : PagedServer) (debug : Bool) (ids : ℕ → Int64)

/-- A call of `Search` that the server answers, with so many messages sent before it; the octets that are sent are those the
server gets. -/
def searchPage (sent : ℕ) (request : PagedRequest) : SearchEnd Control :=
  match request.encoded L.toEncoder with
  | none => .panicked
  | some req =>
    let id := (ids sent).toInt
    let call (conn : Connection) (frames : List GoString) := conn.search L.toEncoder
      (addControlDescriptions L.toCodec) (decodeControl L.toCodec) req
      ⟨frames.filterMap (readFrame L (addControlDescriptions L.toCodec) id), false⟩
    match (ClientRequest.search req).message L.toEncoder id with
    | .ok p =>
      let octets := p.bytes L.toEncoder
      call (carryingConnection L.toEncoder debug id octets) (server.serve L octets)
    | _ => call (closedConnection debug id) []

/-- `SearchWithPaging`, for a number of calls of `Search`. -/
def pagingCalls : ℕ → ℕ → PagingRun → PagingRun
  | calls + 1, sent, .searching requests request result =>
    match searchPage L server debug ids sent request with
    | .returned page err =>
      pagingCalls calls (sent + 1) (PagingRun.turn (.searching requests request result) ⟨page, err⟩)
    | .panicked => .panicked (requests ++ [request])
    | .waiting => .searching requests request result
  | _, _, run => run

/-- A request for the entries that a filter describes, with controls that clients send. -/
structure PagedRequest.Asks (E : Encoder) (request : PagedRequest) (f : SearchFilter) : Prop where
  inRange : request.request.InRange
  writable : f.Writable
  text : request.request.filter = f.text
  sendable : ∀ c ∈ request.controls, (c.messageControl E).isSome = true

variable {L server debug ids} {request : PagedRequest} {f : SearchFilter}

theorem Control.controlType_messageControl {E : Encoder} {c : Control} {m : MessageControl}
    (h : c.messageControl E = some m) : m.controlType = c.getControlType := by
  cases c <;> cases h <;> rfl

theorem Control.sent_messageControl {E : Encoder} {c : Control} {m : MessageControl} (h : c.messageControl E = some m) :
    ∃ p, c.encode E = some p := by
  cases c <;> first | exact ⟨_, rfl⟩ | cases h

/-- The server sees the controls of a request, and finds the paging control that the client would find. -/
theorem sent_controls {E : Encoder} {cs : List Control} (h : ∀ c ∈ cs, (c.messageControl E).isSome = true) :
    ∃ ps ms, cs.mapM (Control.encode E) = some ps ∧ List.Forall₂ (SentControl E) ps ms ∧
      ms.find? (·.controlType = controlTypePaging) =
        (findControl cs controlTypePaging).bind (Control.messageControl E) := by
  induction cs with
  | nil => exact ⟨[], [], rfl, .nil, rfl⟩
  | cons c cs ih =>
    obtain ⟨hc, hcs⟩ := List.forall_mem_cons.mp h
    obtain ⟨m, hm⟩ := Option.isSome_iff_exists.mp hc
    obtain ⟨p, hp⟩ := Control.sent_messageControl hm
    obtain ⟨ps, ms, hps, hsent, hfind⟩ := ih hcs
    have htype := Control.controlType_messageControl hm
    refine ⟨p :: ps, m :: ms, by simp [hp, hps], .cons ⟨c, hp, hm⟩ hsent, ?_⟩
    by_cases hpaging : c.getControlType = controlTypePaging
    · rw [findControl, List.find?_cons_of_pos (by simpa using htype.trans hpaging),
        List.find?_cons_of_pos (by simpa using hpaging), Option.bind_some, hm]
    · rw [findControl, List.find?_cons_of_neg (by simpa [htype] using hpaging),
        List.find?_cons_of_neg (by simpa using hpaging), hfind, findControl]

theorem sendable_setCookie {E : Encoder} (cookie : GoString) {cs : List Control}
    (h : ∀ c ∈ cs, (c.messageControl E).isSome = true) :
    ∀ c ∈ setCookie cookie cs, (c.messageControl E).isSome = true := by
  fun_induction setCookie cookie cs with
  | case1 => exact h
  | case2 p rest => exact List.forall_mem_cons.mpr ⟨rfl, (List.forall_mem_cons.mp h).2⟩
  | case3 c rest _ ih =>
    obtain ⟨hc, hrest⟩ := List.forall_mem_cons.mp h
    exact List.forall_mem_cons.mpr ⟨hc, ih hrest⟩

theorem PagedRequest.Asks.withCookie {E : Encoder} (h : request.Asks E f) (cookie : GoString) :
    (request.withCookie cookie).Asks E f :=
  ⟨h.inRange, h.writable, h.text, sendable_setCookie cookie h.sendable⟩

/-- One page: what the server sends from a position on is what the call returns. -/
theorem searchPage_answer (h : request.Asks L.toEncoder f) {size : UInt32} {cookie : GoString}
    (hpaging : findControl request.controls controlTypePaging = some (.paging ⟨size, cookie⟩)) {n : ℕ}
    (hstart : server.start cookie = some n)
    (hroom : ∀ k < min size.toNat server.largest, ¬ request.request.Full k) (sent : ℕ) :
    let found := server.find (request.request.parameters f)
    let length := min size.toNat server.largest
    searchPage L server debug ids sent request = .returned (some ⟨((found.drop n).take length).map DirectoryEntry.entry, [],
      [.paging ⟨0, server.cookieAfter (n + length) found.length⟩]⟩) none := by
  intro found length
  have hid : Fits 8 (ids sent).toInt := fits_toInt _
  obtain ⟨ps, ms, hps, hsent, hfind⟩ := sent_controls h.sendable
  have hread : readPaging L ms = some ((size.toNat : ℤ), cookie) := by
    rw [readPaging, hfind, hpaging]
    exact readPagingValue_sequence ⟨size, cookie⟩
  set req : SearchRequest := { request.request with controls := ps } with hreq
  have hasks : (ClientRequest.search req).Asks L.toEncoder (.search (req.parameters f)) :=
    .search ⟨h.inRange.scope, h.inRange.derefAliases, h.inRange.sizeLimit, h.inRange.timeLimit⟩ h.writable h.text
  obtain ⟨p, hp, hconveys⟩ := hasks.conveys hid (conveys_sent hsent)
  obtain ⟨q, hq, hmessage⟩ := hconveys.decode
  have hserve : server.serve L (p.bytes L.toEncoder) = PagedServer.frames L.toEncoder (ids sent).toInt
      (server.page L.toEncoder found size.toNat n) := by
    rw [PagedServer.serve, hq]
    dsimp only
    rw [hmessage]
    dsimp only
    rw [PagedServer.answer, hread]
    dsimp only
    rw [hstart]
    rfl
  have hpackets : (server.serve L (p.bytes L.toEncoder)).filterMap
      (readFrame L (addControlDescriptions L.toCodec) (ids sent).toInt) =
      handedOver L (addControlDescriptions L.toCodec) (ids sent).toInt
        (((found.drop n).take length).map (DirectoryEntry.packet L.toEncoder)) ++
      [.ok (handOver (addControlDescriptions L.toCodec) ((lastMessage L.toEncoder (ids sent).toInt
        (server.cookieAfter (n + length) found.length)).wire L.toPrimitives))] := by
    rw [hserve, PagedServer.frames, List.filterMap_append]
    congr 1
    · refine filterMap_readFrame hid fun op hop => ?_
      obtain ⟨e, -, rfl⟩ := List.mem_map.mp hop
      exact e.encodable
    · exact congrArg Option.toList (readFrame_lastMessage (addControlDescriptions L.toCodec) hid _)
  have hencoded : request.encoded L.toEncoder = some req := by rw [PagedRequest.encoded, hps, Option.map_some]
  rw [searchPage, hencoded]
  dsimp only
  rw [hp]
  dsimp only
  rw [hpackets, Connection.search_of_sends (sends_search hasks hsent hid (carries_carryingConnection hp))]
  refine searchLoop_page _ (fun k hk => ?_) _
  refine hroom k (lt_of_lt_of_le hk ?_)
  exact List.length_take_le _ _

/-- The number of pages for so many entries; there is a page for none of them. -/
def pageCount (length entries : ℕ) : ℕ := max 1 ((entries + length - 1) / length)

theorem pageCount_last {length entries : ℕ} (h : entries ≤ length) : pageCount length entries = 1 := by
  refine max_eq_left ?_
  rcases Nat.eq_zero_or_pos length with rfl | hpos
  · simp
  · exact Nat.lt_succ_iff.mp (Nat.div_lt_of_lt_mul (by omega))

theorem pageCount_next {length entries : ℕ} (hpos : 0 < length) (h : length < entries) :
    pageCount length entries = pageCount length (entries - length) + 1 := by
  obtain ⟨k, rfl⟩ : ∃ k, entries = k + 1 + length := ⟨entries - length - 1, by omega⟩
  have hall : (k + 1 + length + length - 1) / length = k / length + 1 + 1 := by
    rw [show k + 1 + length + length - 1 = k + length + length by omega, Nat.add_div_right _ hpos,
      Nat.add_div_right _ hpos]
  have hrest : (k + 1 + length - length + length - 1) / length = k / length + 1 := by
    rw [show k + 1 + length - length + length - 1 = k + length by omega, Nat.add_div_right _ hpos]
  rw [pageCount, pageCount, hall, hrest]
  generalize k / length = pages
  omega

theorem pagingCalls_returned (calls sent : ℕ) (requests : List PagedRequest) (result : Option (SearchResult Control))
    (err : Option Err) : pagingCalls L server debug ids calls sent (.returned requests result err) =
      .returned requests result err := by
  cases calls <;> rfl

/-- From a position on, `SearchWithPaging` takes what is left, page after page. -/
theorem pagingCalls_from {size : UInt32} (hsize : 0 < min size.toNat server.largest) (more left : ℕ)
    {cookie : GoString} {n sent : ℕ} {requests : List PagedRequest} {result : SearchResult Control}
    (hasks : request.Asks L.toEncoder f)
    (hpaging : findControl request.controls controlTypePaging = some (.paging ⟨size, cookie⟩))
    (hroom : ∀ k < min size.toNat server.largest, ¬ request.request.Full k) (hstart : server.start cookie = some n)
    (hleft : n + left = (server.find (request.request.parameters f)).length) :
    ∃ requests' controls, pagingCalls L server debug ids (pageCount (min size.toNat server.largest) left + more) sent
        (.searching requests request result) = .returned (requests ++ requests') (some
          ⟨result.entries ++ ((server.find (request.request.parameters f)).drop n).map DirectoryEntry.entry,
            result.referrals, controls⟩) none ∧
      requests'.length = pageCount (min size.toNat server.largest) left := by
  induction left using Nat.strong_induction_on generalizing request cookie n sent requests result with
  | _ left ih =>
    have hanswer : searchPage L server debug ids sent request = _ := searchPage_answer hasks hpaging hstart hroom sent
    set found := server.find (request.request.parameters f) with hfound
    set length := min size.toNat server.largest with hlength
    set block := ((found.drop n).take length).map DirectoryEntry.entry with hblock
    rcases Nat.lt_or_ge length left with hmore | hlast
    · -- entries are left after this page, and the cookie says where they begin
      have hcookie : server.cookieAfter (n + length) found.length = server.cookie (n + length) := if_pos (by omega)
      have hstart' : server.start (server.cookie (n + length)) = some (n + length) := by
        rw [PagedServer.start, if_neg (server.cookie_ne_nil _), server.position_cookie]
      rw [hcookie] at hanswer
      set cookie' := server.cookie (n + length) with hcookie'
      have hturn : PagingRun.turn (.searching requests request result)
          ⟨some ⟨block, [], [.paging ⟨0, cookie'⟩]⟩, none⟩ = .searching (requests ++ [request])
            (request.withCookie cookie') ⟨result.entries ++ block, result.referrals ++ [], result.controls ++ _⟩ :=
        turn_next (by simp [Page.Fails]) (server.cookie_ne_nil _) rfl
      obtain ⟨requests', controls, hrun, hcount⟩ := ih (left - length) (by omega) (hasks.withCookie cookie')
        (findControl_setCookie cookie' hpaging) hroom hstart'
        (show n + length + (left - length) = found.length by omega)
      refine ⟨request :: requests', controls, ?_, ?_⟩
      · rw [pageCount_next hsize hmore, Nat.add_right_comm, pagingCalls, hanswer]
        dsimp only
        rw [hturn]
        refine hrun.trans ?_
        have hjoin : block ++ (found.drop (n + length)).map DirectoryEntry.entry =
            (found.drop n).map DirectoryEntry.entry := by
          rw [hblock, ← List.map_append, ← List.drop_drop, List.take_append_drop]
        rw [List.append_assoc, List.append_nil, List.append_assoc, ← hjoin]
        rfl
      · rw [List.length_cons, hcount, pageCount_next hsize hmore]
    · -- the last page
      have hcookie : server.cookieAfter (n + length) found.length = [] := if_neg (by omega)
      rw [hcookie] at hanswer
      have hall : block = (found.drop n).map DirectoryEntry.entry := by
        rw [hblock, List.take_of_length_le]
        rw [List.length_drop]
        omega
      have hturn : PagingRun.turn (.searching requests request result) ⟨some ⟨block, [], [.paging ⟨0, []⟩]⟩, none⟩ =
          .returned (requests ++ [request]) (some ⟨result.entries ++ block, result.referrals ++ [],
            result.controls ++ [.paging ⟨0, []⟩]⟩) none := rfl
      refine ⟨[request], result.controls ++ [.paging ⟨0, []⟩], ?_, (pageCount_last hlast).symm⟩
      rw [pageCount_last hlast, Nat.add_comm, pagingCalls, hanswer]
      dsimp only
      rw [hturn, pagingCalls_returned, List.append_nil, hall]

end

/-- Three entries, whatever is asked for. -/
def threeEntries : List DirectoryEntry := [⟨str "cn=a", []⟩, ⟨str "cn=b", []⟩, ⟨str "cn=c", []⟩]

/-- A server that counts with the length of its cookies. -/
def tallyServer : PagedServer where
  find _ := threeEntries
  largest := 1000
  largest_pos := Nat.succ_pos 999
  cookie n := List.replicate (n + 1) 0
  position cookie := some (cookie.length - 1)
  cookie_ne_nil _ := List.cons_ne_nil _ _
  position_cookie _ := congrArg (fun k => some (k - 1)) List.length_replicate

/-- A search for everything, with a critical control. -/
def searchEverything : PagedRequest :=
  ⟨⟨str "dc=b", 2, 0, 0, 0, false, str "(objectClass=*)", [], [], false⟩, [.manageDsaIT true]⟩

end GoLdap
