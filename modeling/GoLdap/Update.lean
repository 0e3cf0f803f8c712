import GoLdap.Modify

/-!
# Update — add, delete and rename (`add.go`, `del.go`, `moddn.go`, `modify.go`)

The operations that change the directory and have no other result than a code.  Like `Modify` they refuse a response that
is not their own.
-/

namespace GoLdap

open Go Ber

/-! ## Requests -/

/-- `Attribute`: an attribute of an entry to be added. -/
structure Attribute where
  type : GoString
  vals : List GoString

/-- `(*Attribute).encode`. -/
def Attribute.encode (E : Encoder) (a : Attribute) : Packet :=
  let seq := Ber.encode .universal .constructed tagSequence (str "Attribute")
  let seq := seq.appendChild E (newString .universal .primitive tagOctetString a.type (str "Type"))
  let set := a.vals.foldl (fun set value => set.appendChild E
    (newString .universal .primitive tagOctetString value (str "Vals")))
    (Ber.encode .universal .constructed tagSet (str "AttributeValue"))
  seq.appendChild E set

structure AddRequest where
  dn : GoString
  attributes : List Attribute
  /-- The controls, encoded. -/
  controls : List Packet

/-- `NewAddRequest`. -/
def newAddRequest (dn : GoString) (controls : List Packet) : AddRequest := ⟨dn, [], controls⟩

/-- `(*AddRequest).Attribute`. -/
def AddRequest.«attribute» (req : AddRequest) (attrType : GoString) (attrVals : List GoString) : AddRequest :=
  { req with attributes := req.attributes ++ [⟨attrType, attrVals⟩] }

/-- `(*AddRequest).appendTo`. -/
def AddRequest.appendTo (E : Encoder) (req : AddRequest) (envelope : Packet) : Packet :=
  let pkt := encode .application .constructed applicationAddRequest (str "Add Request")
  let pkt := pkt.appendChild E (newString .universal .primitive tagOctetString req.dn (str "DN"))
  let attributes := req.attributes.foldl (fun attributes a => attributes.appendChild E (a.encode E))
    (encode .universal .constructed tagSequence (str "Attributes"))
  let envelope := envelope.appendChild E (pkt.appendChild E attributes)
  if 0 < req.controls.length then envelope.appendChild E (encodeControls E req.controls) else envelope

structure DelRequest where
  dn : GoString
  /-- The controls, encoded. -/
  controls : List Packet

/-- `(*DelRequest).appendTo`: the name is the contents of the operation. -/
def DelRequest.appendTo (E : Encoder) (req : DelRequest) (envelope : Packet) : Packet :=
  let pkt : Packet := { encode .application .primitive applicationDelRequest (str "Del Request") with
    value := .string req.dn, data := req.dn }
  let envelope := envelope.appendChild E pkt
  if 0 < req.controls.length then envelope.appendChild E (encodeControls E req.controls) else envelope

structure ModifyDNRequest where
  dn : GoString
  newRDN : GoString
  deleteOldRDN : Bool
  newSuperior : GoString
  /-- The controls, encoded. -/
  controls : List Packet

/-- `(*ModifyDNRequest).appendTo`: true is written by hand, false by the library; an empty superior is left out. -/
def ModifyDNRequest.appendTo (E : Encoder) (req : ModifyDNRequest) (envelope : Packet) : Packet :=
  let pkt := encode .application .constructed applicationModifyDNRequest (str "Modify DN Request")
  let pkt := pkt.appendChild E (newString .universal .primitive tagOctetString req.dn (str "DN"))
  let pkt := pkt.appendChild E (newString .universal .primitive tagOctetString req.newRDN (str "New RDN"))
  let pkt :=
    if req.deleteOldRDN then
      pkt.appendChild E (newString .universal .primitive tagBoolean [0xFF] (str "Delete old RDN"))
    else pkt.appendChild E (newBoolean E .universal .primitive tagBoolean req.deleteOldRDN (str "Delete old RDN"))
  let pkt :=
    if req.newSuperior ≠ [] then
      pkt.appendChild E (newString .context .primitive 0 req.newSuperior (str "New Superior"))
    else pkt
  let envelope := envelope.appendChild E pkt
  if 0 < req.controls.length then envelope.appendChild E (encodeControls E req.controls) else envelope

/-! ## The changes of a modify request -/

def addAttribute : ℕ := 0
def deleteAttribute : ℕ := 1
def replaceAttribute : ℕ := 2
def incrementAttribute : ℕ := 3

namespace ModifyRequest

/-- `(*ModifyRequest).appendChange`. -/
def appendChange (req : ModifyRequest) (operation : ℕ) (attrType : GoString) (attrVals : List GoString) : ModifyRequest :=
  { req with changes := req.changes ++ [⟨operation, attrType, attrVals⟩] }

/-- `(*ModifyRequest).Add`. -/
def add (req : ModifyRequest) (attrType : GoString) (attrVals : List GoString) : ModifyRequest :=
  req.appendChange addAttribute attrType attrVals

/-- `(*ModifyRequest).Delete`. -/
def delete (req : ModifyRequest) (attrType : GoString) (attrVals : List GoString) : ModifyRequest :=
  req.appendChange deleteAttribute attrType attrVals

/-- `(*ModifyRequest).Replace`. -/
def replace (req : ModifyRequest) (attrType : GoString) (attrVals : List GoString) : ModifyRequest :=
  req.appendChange replaceAttribute attrType attrVals

/-- `(*ModifyRequest).Increment`. -/
def increment (req : ModifyRequest) (attrType attrVal : GoString) : ModifyRequest :=
  req.appendChange incrementAttribute attrType [attrVal]

end ModifyRequest

/-! ## Responses -/

/-- What an operation makes of a response if it has no result but a code: the operation has to be the one that is
expected. -/
def statusResponse (application : ℕ) (packet : Packet) : CallEnd (Option Err) :=
  match packet.children[1]? with
  | none => .returned (some (errMalformedResponse packet))
  | some op =>
    if op.tag = application then
      match getLDAPError packet with
      | .panic => .panicked
      | .err err => .returned (some err)
      | .ok () => .returned none
    else .returned (some (.plain (.fmtNum "ldap: unexpected response: %d" op.tag)))

theorem modifyResponse_eq : modifyResponse = statusResponse applicationModifyResponse := rfl

def addResponse (packet : Packet) : CallEnd (Option Err) := statusResponse applicationAddResponse packet

def delResponse (packet : Packet) : CallEnd (Option Err) := statusResponse applicationDelResponse packet

def modifyDNResponse (packet : Packet) : CallEnd (Option Err) := statusResponse applicationModifyDNResponse packet

def errNilAddRequest : Err := newError errorNetwork (.new "AddRequest cannot be nil")

def errNilDelRequest : Err := newError errorNetwork (.new "DelRequest cannot be nil")

section

variable (E : Encoder) (addControlDescriptions : Assign) (conn : Connection)

/-- `Add`; the request may be nil. -/
def Connection.add (req : Option AddRequest) (responses : Responses) : CallEnd (Option Err) :=
  match req with
  | none => .returned (some errNilAddRequest)
  | some req => conn.exchange E addControlDescriptions (req.appendTo E) responses some addResponse

/-- `Del`; the request may be nil. -/
def Connection.del (req : Option DelRequest) (responses : Responses) : CallEnd (Option Err) :=
  match req with
  | none => .returned (some errNilDelRequest)
  | some req => conn.exchange E addControlDescriptions (req.appendTo E) responses some delResponse

/-- `ModifyDN`. -/
def Connection.modifyDN (req : ModifyDNRequest) (responses : Responses) : CallEnd (Option Err) :=
  conn.exchange E addControlDescriptions (req.appendTo E) responses some modifyDNResponse

end

end GoLdap
