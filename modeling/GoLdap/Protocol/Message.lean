import GoLdap.Protocol.Filter
import GoLdap.Descriptions.Model

/-!
# Protocol.Message — the messages of the protocol

The two sides of a connection as the protocol defines them: the requests a server reads, with `readMessage`, and the
responses it writes.  Nothing here is taken from the client; its request builders and response handlers are checked
against these definitions in the modules that follow.
-/

namespace GoLdap

open Go Ber

/-! ## Requests -/

/-- A control of a message. -/
structure MessageControl where
  controlType : GoString
  criticality : Bool
  controlValue : Option GoString
  deriving DecidableEq, Repr

/-- The choices of a bind request.  The last two are those of the Sicily package discovery of NTLM. -/
inductive Authentication where
  | simple (password : GoString)
  | sasl (mechanism : GoString) (credentials : Option GoString)
  | sicilyNegotiate (token : GoString)
  | sicilyResponse (token : GoString)
  deriving DecidableEq, Repr

inductive ChangeKind where
  | add
  | delete
  | replace
  | increment
  deriving DecidableEq, Repr

def ChangeKind.code : ChangeKind → ℕ
  | .add => 0
  | .delete => 1
  | .replace => 2
  | .increment => 3

def ChangeKind.ofCode : ℤ → Option ChangeKind
  | 0 => some .add
  | 1 => some .delete
  | 2 => some .replace
  | 3 => some .increment
  | _ => none

theorem ChangeKind.ofCode_code (k : ChangeKind) : ofCode k.code = some k := by cases k <;> rfl

/-- An attribute description with its values. -/
structure AttributeValues where
  type : GoString
  vals : List GoString
  deriving DecidableEq, Repr

structure SearchParameters where
  baseDN : GoString
  scope : ℤ
  derefAliases : ℤ
  sizeLimit : ℤ
  timeLimit : ℤ
  typesOnly : Bool
  filter : SearchFilter
  attributes : List GoString

inductive Operation where
  | bind (version : ℤ) (name : GoString) (authentication : Authentication)
  | unbind
  | search (parameters : SearchParameters)
  | modify (dn : GoString) (changes : List (ChangeKind × AttributeValues))
  | add (dn : GoString) (attributes : List AttributeValues)
  | del (dn : GoString)
  | modifyDN (dn newRDN : GoString) (deleteOldRDN : Bool) (newSuperior : Option GoString)
  | compare (dn attr value : GoString)
  | extended (name : GoString) (value : Option GoString)

structure RequestMessage where
  id : ℤ
  operation : Operation
  controls : List MessageControl

/-! ### Reading them -/

/-- What follows the type of a control: the criticality is false by default. -/
def readControlRest (controlType : GoString) : List Packet → Option MessageControl
  | [] => some ⟨controlType, false, none⟩
  | [p] =>
    match readBoolean p with
    | some b => some ⟨controlType, b, none⟩
    | none => (readString p).map fun value => ⟨controlType, false, some value⟩
  | [p, q] => do
    let b ← readBoolean p
    let value ← readString q
    return ⟨controlType, b, some value⟩
  | _ => none

def readControlElements : List Packet → Option MessageControl
  | [] => none
  | type :: rest => do readControlRest (← readString type) rest

def readControl (p : Packet) : Option MessageControl := readElements .universal tagSequence p >>= readControlElements

def readSasl : List Packet → Option Authentication
  | [] => none
  | mechanism :: rest => do
    let mechanism ← readString mechanism
    let credentials ← readLast readString rest
    return .sasl mechanism credentials

def readAuthentication (p : Packet) : Option Authentication :=
  if p.Is .context .primitive 0 then some (.simple p.data)
  else if p.Is .context .constructed 3 then readSasl p.children
  else if p.Is .context .primitive 10 then some (.sicilyNegotiate p.data)
  else if p.Is .context .primitive 11 then some (.sicilyResponse p.data)
  else none

def readBind : List Packet → Option Operation
  | [version, name, authentication] => do
    let version ← readNumber tagInteger version
    let name ← readString name
    let authentication ← readAuthentication authentication
    return .bind version name authentication
  | _ => none

def readSearch : List Packet → Option Operation
  | [baseDN, scope, derefAliases, sizeLimit, timeLimit, typesOnly, filter, attributes] => do
    let baseDN ← readString baseDN
    let scope ← readNumber tagEnumerated scope
    let derefAliases ← readNumber tagEnumerated derefAliases
    let sizeLimit ← readNumber tagInteger sizeLimit
    let timeLimit ← readNumber tagInteger timeLimit
    let typesOnly ← readBoolean typesOnly
    let filter ← readFilter filter
    let attributes ← readListOf .universal tagSequence readString attributes
    return .search ⟨baseDN, scope, derefAliases, sizeLimit, timeLimit, typesOnly, filter, attributes⟩
  | _ => none

def readPartialAttributeElements : List Packet → Option AttributeValues
  | [type, vals] => do
    let type ← readString type
    let vals ← readListOf .universal tagSet readString vals
    return ⟨type, vals⟩
  | _ => none

def readPartialAttribute (p : Packet) : Option AttributeValues :=
  readElements .universal tagSequence p >>= readPartialAttributeElements

def readChangeElements : List Packet → Option (ChangeKind × AttributeValues)
  | [operation, modification] => do
    let code ← readNumber tagEnumerated operation
    let kind ← ChangeKind.ofCode code
    let modification ← readPartialAttribute modification
    return (kind, modification)
  | _ => none

def readChange (p : Packet) : Option (ChangeKind × AttributeValues) :=
  readElements .universal tagSequence p >>= readChangeElements

def readModify : List Packet → Option Operation
  | [dn, changes] => do
    let dn ← readString dn
    let changes ← readListOf .universal tagSequence readChange changes
    return .modify dn changes
  | _ => none

def readAdd : List Packet → Option Operation
  | [dn, attributes] => do
    let dn ← readString dn
    let attributes ← readListOf .universal tagSequence readPartialAttribute attributes
    return .add dn attributes
  | _ => none

def readModifyDN : List Packet → Option Operation
  | dn :: newRDN :: deleteOldRDN :: rest => do
    let dn ← readString dn
    let newRDN ← readString newRDN
    let deleteOldRDN ← readBoolean deleteOldRDN
    let newSuperior ← readLast (readOctets .context 0) rest
    return .modifyDN dn newRDN deleteOldRDN newSuperior
  | _ => none

def readAttributeValueElements : List Packet → Option (GoString × GoString)
  | [attr, value] => do
    let attr ← readString attr
    let value ← readString value
    return (attr, value)
  | _ => none

/-- An AttributeValueAssertion. -/
def readAttributeValue (p : Packet) : Option (GoString × GoString) :=
  readElements .universal tagSequence p >>= readAttributeValueElements

def readCompare : List Packet → Option Operation
  | [dn, assertion] => do
    let dn ← readString dn
    let assertion ← readAttributeValue assertion
    return .compare dn assertion.1 assertion.2
  | _ => none

def readExtended : List Packet → Option Operation
  | [] => none
  | name :: rest => do
    let name ← readOctets .context 0 name
    let value ← readLast (readOctets .context 1) rest
    return .extended name value

/-- The constructed operations, by their application codes. -/
def readConstructedOperation (tag : ℕ) (cs : List Packet) : Option Operation :=
  if tag = applicationBindRequest then readBind cs
  else if tag = applicationSearchRequest then readSearch cs
  else if tag = applicationModifyRequest then readModify cs
  else if tag = applicationAddRequest then readAdd cs
  else if tag = applicationModifyDNRequest then readModifyDN cs
  else if tag = applicationCompareRequest then readCompare cs
  else if tag = applicationExtendedRequest then readExtended cs
  else none

def readOperation (p : Packet) : Option Operation :=
  if p.Is .application .primitive applicationUnbindRequest then some .unbind
  else if p.Is .application .primitive applicationDelRequest then some (.del p.data)
  else if p.classType = .application ∧ p.tagType = .constructed then readConstructedOperation p.tag p.children
  else none

def readMessageElements : List Packet → Option RequestMessage
  | id :: operation :: rest => do
    let id ← readNumber tagInteger id
    let operation ← readOperation operation
    let controls ← readLast (readListOf .context 0 readControl) rest
    return ⟨id, operation, controls.getD []⟩
  | _ => none

/-- The request in a packet. -/
def readMessage (p : Packet) : Option RequestMessage := readElements .universal tagSequence p >>= readMessageElements

/-! ## Responses -/

/-- An LDAPResult.  The codes of the protocol and its extensions are small numbers. -/
structure LDAPResult where
  code : ℕ
  matchedDN : GoString
  message : GoString
  code_lt : code < 65536

/-- A result that is nothing but a code. -/
def LDAPResult.ofCode (code : UInt16) : LDAPResult := ⟨code.toNat, [], [], code.toNat_lt⟩

/-- An entry of the directory, as far as it is an answer to a search. -/
structure DirectoryEntry where
  dn : GoString
  attributes : List AttributeValues

/-- What there is to be said about an operation: its result; for a bind also the credentials of the server; for a search
also the entries, and the references, which have at least one URI each; for an extended operation also a name and a
value. -/
structure ServerAnswer where
  result : LDAPResult
  serverSaslCreds : Option GoString
  entries : List DirectoryEntry
  references : List (GoString × List GoString)
  responseName : Option GoString
  responseValue : Option GoString

/-- A result, for a bind also with credentials. -/
def ServerAnswer.ofCode (code : UInt16) (creds : Option GoString) : ServerAnswer :=
  ⟨.ofCode code, creds, [], [], none, none⟩

section

variable (E : Encoder)

/-- The components of an LDAPResult. -/
def LDAPResult.components (r : LDAPResult) : List Packet :=
  [newInteger E .universal .primitive tagEnumerated r.code [],
    newString .universal .primitive tagOctetString r.matchedDN [],
    newString .universal .primitive tagOctetString r.message []]

/-- A message with an operation, and controls if there are any. -/
def responseMessage (id : ℤ) (operation : Packet) (controls : List Packet) : Packet :=
  constructedOf E .universal tagSequence []
    (newInteger E .universal .primitive tagInteger id [] :: operation ::
      if controls = [] then [] else [constructedOf E .context 0 [] controls])

/-- A response with an LDAPResult and further components. -/
def resultResponse (application : ℕ) (r : LDAPResult) (more : List Packet) : Packet :=
  constructedOf E .application application [] (r.components E ++ more)

/-- The packet of an attribute. -/
def AttributeValues.packet (a : AttributeValues) : Packet :=
  constructedOf E .universal tagSequence []
    [newString .universal .primitive tagOctetString a.type [],
      constructedOf E .universal tagSet [] (a.vals.map (newString .universal .primitive tagOctetString · []))]

/-- A SearchResultEntry. -/
def DirectoryEntry.packet (e : DirectoryEntry) : Packet :=
  constructedOf E .application applicationSearchResultEntry []
    [newString .universal .primitive tagOctetString e.dn [],
      constructedOf E .universal tagSequence [] (e.attributes.map (AttributeValues.packet E))]

/-- A SearchResultReference. -/
def referencePacket (uris : GoString × List GoString) : Packet :=
  constructedOf E .application applicationSearchResultReference []
    ((uris.1 :: uris.2).map (newString .universal .primitive tagOctetString · []))

/-- An optional component with a context tag. -/
def optionalComponent (tag : ℕ) (s : Option GoString) : List Packet :=
  s.toList.map (newString .context .primitive tag · [])

/-- The packets of the operations of the responses to a request. -/
def ServerAnswer.packets (a : ServerAnswer) : Operation → List Packet
  | .bind _ _ _ => [resultResponse E applicationBindResponse a.result (optionalComponent 7 a.serverSaslCreds)]
  | .unbind => []
  | .search _ => a.entries.map (DirectoryEntry.packet E) ++ a.references.map (referencePacket E) ++
      [resultResponse E applicationSearchResultDone a.result []]
  | .modify _ _ => [resultResponse E applicationModifyResponse a.result []]
  | .add _ _ => [resultResponse E applicationAddResponse a.result []]
  | .del _ => [resultResponse E applicationDelResponse a.result []]
  | .modifyDN _ _ _ _ => [resultResponse E applicationModifyDNResponse a.result []]
  | .compare _ _ _ => [resultResponse E applicationCompareResponse a.result []]
  | .extended _ _ => [resultResponse E applicationExtendedResponse a.result
      (optionalComponent 10 a.responseName ++ optionalComponent 11 a.responseValue)]

end

end GoLdap
