import GoLdap.Result

/-!
# Descriptions.Model — `addLDAPDescriptions` (`ldap.go`)

Every reader adds descriptions to the packets it hands over, and `saslBindTokenExchange` decides by them.  The function
assigns to packets in place and stops at the first child that is missing; the panic is recovered, and what was assigned
before stays.  So an assignment gives the packet it leaves behind, and how it ended.

The controls of a packet are described by `addControlDescriptions`, which is a parameter here.
-/

namespace GoLdap

open Go Ber

/-! ## Application codes -/

def applicationBindRequest : ℕ := 0
def applicationBindResponse : ℕ := 1
def applicationUnbindRequest : ℕ := 2
def applicationSearchRequest : ℕ := 3
def applicationSearchResultEntry : ℕ := 4
def applicationSearchResultDone : ℕ := 5
def applicationModifyRequest : ℕ := 6
def applicationModifyResponse : ℕ := 7
def applicationAddRequest : ℕ := 8
def applicationAddResponse : ℕ := 9
def applicationDelRequest : ℕ := 10
def applicationDelResponse : ℕ := 11
def applicationModifyDNRequest : ℕ := 12
def applicationModifyDNResponse : ℕ := 13
def applicationCompareRequest : ℕ := 14
def applicationCompareResponse : ℕ := 15
def applicationSearchResultReference : ℕ := 19
def applicationExtendedRequest : ℕ := 23
def applicationExtendedResponse : ℕ := 24
def applicationIntermediateResponse : ℕ := 25

/-- `ApplicationMap`. -/
def applicationMap : ℕ → GoString
  | 0 => str "Bind Request"
  | 1 => str "Bind Response"
  | 2 => str "Unbind Request"
  | 3 => str "Search Request"
  | 4 => str "Search Result Entry"
  | 5 => str "Search Result Done"
  | 6 => str "Modify Request"
  | 7 => str "Modify Response"
  | 8 => str "Add Request"
  | 9 => str "Add Response"
  | 10 => str "Del Request"
  | 11 => str "Del Response"
  | 12 => str "Modify DN Request"
  | 13 => str "Modify DN Response"
  | 14 => str "Compare Request"
  | 15 => str "Compare Response"
  | 16 => str "Abandon Request"
  | 19 => str "Search Result Reference"
  | 23 => str "Extended Request"
  | 24 => str "Extended Response"
  | 25 => str "Intermediate Response"
  | _ => []

/-! ## Assignments in place -/

/-- Assignments to a packet: what they leave behind, and how they end. -/
abbrev Assign := Packet → Packet × Outcome Err Unit

namespace Assign

def skip : Assign := fun p => (p, .ok ())

def andThen (f g : Assign) : Assign := fun p =>
  match f p with
  | (q, .ok ()) => g q
  | r => r

def all : List Assign → Assign
  | [] => skip
  | f :: fs => f.andThen (all fs)

/-- The assignments to the descendant at a path of indices. -/
def onPath : List ℕ → Assign → Assign
  | [], f => f
  | i :: path, f => fun p =>
    match p.children[i]? with
    | none => (p, .panic)
    | some c => ({ p with children := p.children.set i (onPath path f c).1 }, (onPath path f c).2)

/-- The assignments a child decides on. -/
def byChild (i : ℕ) (F : Packet → Assign) : Assign := fun p =>
  match p.children[i]? with
  | none => (p, .panic)
  | some c => F c p

/-- The assignments to a packet with a certain number of children. -/
def whenCount (c : ℕ → Prop) [DecidablePred c] (f : Assign) : Assign := fun p =>
  if c p.children.length then f p else skip p

end Assign

open Assign

/-- The description of the descendant at a path. -/
def describe (path : List ℕ) (text : GoString) : Assign := onPath path fun p => ({ p with description := text }, .ok ())

/-! ## The descriptions of a packet -/

section

variable (addControlDescriptions : Assign)

/-- The controls, if there are exactly three children. -/
def describeControls : Assign := whenCount (· = 3) (onPath [2] addControlDescriptions)

/-- The name of the operation, by the low eight bits of its tag. -/
def describeOperation : Assign := onPath [1] fun op => describe [] (applicationMap (op.tag % 256)) op

def addRequestDescriptions : Assign :=
  .all [describe [] (str "LDAP Request"), describe [0] (str "Message ID"), describeOperation,
    describeControls addControlDescriptions]

/-- The descriptions of the components of a result. -/
def describeComponents (resultCode : ℕ) (matchedDN description : GoString) : Assign :=
  .all [describe [0] (str "Result Code (" ++ ldapResultCodeMap resultCode ++ str ")"),
    describe [1] (str "Matched DN (" ++ matchedDN ++ str ")"), describe [2] description,
    whenCount (3 < ·) (describe [3] (str "Referral"))]

/-- The assignments of `addDefaultLDAPResponseDescriptions` to the operation, by the result of `GetLDAPError`. -/
def describeResult : Outcome Err Unit → Assign
  | .ok () => describeComponents 0 [] (str "Success")
  | .err (.ldap resultCode matchedDN _) => describeComponents resultCode matchedDN (str "Error Message")
  | _ => fun op => (op, .panic)

def addDefaultLDAPResponseDescriptions : Assign := fun packet =>
  (onPath [1] (describeResult (getLDAPError packet))).andThen (describeControls addControlDescriptions) packet

/-- All children in turn. -/
def describeEach (f : ℕ → Assign) : Assign := fun p => Assign.all ((List.range p.children.length).map f) p

/-- The assignments to a search result entry. -/
def describeEntry : Assign :=
  .all [describe [0] (str "Object Name"), describe [1] (str "Attributes"),
    onPath [1] (describeEach fun i => .all [describe [i] (str "Attribute"), describe [i, 0] (str "Attribute Name"),
      describe [i, 1] (str "Attribute Values"),
      onPath [i, 1] (describeEach fun j => describe [j] (str "Attribute Value"))])]

/-- The assignments that depend on the application code. -/
def describeApplication : ℕ → Assign
  | 1 | 5 => addDefaultLDAPResponseDescriptions addControlDescriptions
  | 4 => (onPath [1] describeEntry).andThen (describeControls addControlDescriptions)
  | 0 | 2 | 3 | 6 | 8 | 10 | 12 | 14 | 16 | 23 => addRequestDescriptions addControlDescriptions
  | _ => skip

/-- The body of `addLDAPDescriptions`. -/
def describePacket : Assign :=
  .all [describe [] (str "LDAP Response"), describe [0] (str "Message ID"), describeOperation,
    byChild 1 fun op => describeApplication addControlDescriptions (op.tag % 256)]

/-- The deferred function of `addLDAPDescriptions`, which recovers a panic. -/
def recovered : Outcome Err Unit → Option Err
  | .ok () => none
  | .err e => some e
  | .panic => some (newError errorDebugging (.new "ldap: cannot process packet to add descriptions: %s"))

/-- `addLDAPDescriptions`: the packet it leaves behind, and its error. -/
def addLDAPDescriptions (packet : Packet) : Packet × Option Err :=
  ((describePacket addControlDescriptions packet).1, recovered (describePacket addControlDescriptions packet).2)

/-- What `reader` hands over: a packet read off the wire has no descriptions yet, and an error in adding them is only
logged. -/
def handOver (wire : Packet) : Packet := (addLDAPDescriptions addControlDescriptions wire.undescribed).1

/-- Descriptions are added again where `Conn.Debug` is set, and then an error ends the call. -/
def describeInDebug (debug : Bool) (packet : Packet) : Except Err Packet :=
  if debug then
    match addLDAPDescriptions addControlDescriptions packet with
    | (q, none) => .ok q
    | (_, some e) => .error e
  else .ok packet

end

end GoLdap
