import GoLdap.Ber.Codec
import GoLdap.Result

/-!
# Control.Model — controls and their encoding (`control.go`)

The control types of the package, one structure for each, and the packets their `Encode` methods build.  A control that
is only ever decoded encodes to nil.  An empty and a nil cookie are the same octet string here.  The texts of the `String`
methods are left out.
-/

namespace GoLdap

open Go Ber Octets

/-! ## Control types -/

def controlTypePaging : GoString := str "1.2.840.113556.1.4.319"
def controlTypeBeheraPasswordPolicy : GoString := str "1.3.6.1.4.1.42.2.27.8.5.1"
def controlTypeVChuPasswordMustChange : GoString := str "2.16.840.1.113730.3.4.4"
def controlTypeVChuPasswordWarning : GoString := str "2.16.840.1.113730.3.4.5"
def controlTypeManageDsaIT : GoString := str "2.16.840.1.113730.3.4.2"
def controlTypeSubtreeDelete : GoString := str "1.2.840.113556.1.4.805"
def controlTypeServerSideSorting : GoString := str "1.2.840.113556.1.4.473"
def controlTypeServerSideSortingResult : GoString := str "1.2.840.113556.1.4.474"
def controlTypeDirSync : GoString := str "1.2.840.113556.1.4.841"
def controlTypeMicrosoftNotification : GoString := str "1.2.840.113556.1.4.528"
def controlTypeMicrosoftSDFlags : GoString := str "1.2.840.113556.1.4.801"
def controlTypeMicrosoftShowDeleted : GoString := str "1.2.840.113556.1.4.417"
def controlTypeMicrosoftServerLinkTTL : GoString := str "1.2.840.113556.1.4.2309"
def controlTypeSyncRequest : GoString := str "1.3.6.1.4.1.4203.1.9.1.1"
def controlTypeSyncState : GoString := str "1.3.6.1.4.1.4203.1.9.1.2"
def controlTypeSyncDone : GoString := str "1.3.6.1.4.1.4203.1.9.1.3"
def controlTypeSyncInfo : GoString := str "1.3.6.1.4.1.4203.1.9.1.4"

/-- `ControlTypeMap`, the names that stand in descriptions. -/
def controlTypeNames : List (GoString × GoString) := [
  (controlTypePaging, str "Paging"),
  (controlTypeBeheraPasswordPolicy, str "Password Policy - Behera Draft"),
  (controlTypeVChuPasswordMustChange, str "Password Must Change - VChu Draft"),
  (controlTypeVChuPasswordWarning, str "Password Warning - VChu Draft"),
  (controlTypeManageDsaIT, str "Manage DSA IT"),
  (str "1.3.6.1.4.1.4203.1.11.3", str "Who Am I"),
  (controlTypeSubtreeDelete, str "Subtree Delete Control"),
  (controlTypeServerSideSorting, str "Server Side Sorting"),
  (controlTypeServerSideSortingResult, str "Server Side Sorting Result"),
  (str "1.2.840.113556.1.4.521", str "Cross Domain Move Target - Microsoft"),
  (controlTypeDirSync, str "DirSync"),
  (str "1.2.840.113556.1.4.1339", str "Domain Scope - Microsoft"),
  (str "1.2.840.113556.1.4.529", str "Extended DN - Microsoft"),
  (str "1.2.840.113556.1.4.970", str "Get Stats - Microsoft"),
  (str "1.2.840.113556.1.4.619", str "Lazy Commit - Microsoft"),
  (str "1.2.840.113556.1.4.1413", str "Permissive Modify - Microsoft"),
  (controlTypeMicrosoftNotification, str "Change Notification - Microsoft"),
  (controlTypeMicrosoftSDFlags, str "SD Flags - Microsoft"),
  (str "1.2.840.113556.1.4.1340", str "Search Options - Microsoft"),
  (controlTypeMicrosoftShowDeleted, str "Show Deleted Objects - Microsoft"),
  (str "1.2.840.113556.1.4.1338", str "Verify Name - Microsoft"),
  (str "1.2.840.113556.1.4.1504", str "ASQ - Microsoft"),
  (str "1.2.840.113556.1.4.1852", str "Quota Control - Microsoft"),
  (str "1.2.840.113556.1.4.802", str "Range Option - Microsoft"),
  (str "1.2.840.113556.1.4.1907", str "Shutdown Notify - Microsoft"),
  (str "1.2.840.113556.1.4.1974", str "Force Update - Microsoft"),
  (str "1.2.840.113556.1.4.1948", str "Range Retrieval No Error - Microsoft"),
  (str "1.2.840.113556.1.4.1341", str "RODC DC Promo - Microsoft"),
  (str "1.2.840.113556.1.4.2026", str "DN Input - Microsoft"),
  (str "1.2.840.113556.1.4.2065", str "Show Deactivated Link - Microsoft"),
  (str "1.2.840.113556.1.4.2064", str "Show Recycled - Microsoft"),
  (str "1.2.840.113556.1.4.2066", str "Policy Hints Deprecated - Microsoft"),
  (str "1.2.840.113556.1.4.2090", str "DirSync EX - Microsoft"),
  (str "1.2.840.113556.1.4.2205", str "Update Stats - Microsoft"),
  (str "1.2.840.113556.1.4.2204", str "Tree Delete EX - Microsoft"),
  (str "1.2.840.113556.1.4.2206", str "Search Hints - Microsoft"),
  (str "1.2.840.113556.1.4.2211", str "Expected Entry Count - Microsoft"),
  (str "1.2.840.113556.1.4.2239", str "Policy Hints - Microsoft"),
  (str "1.2.840.113556.1.4.2255", str "Set Owner - Microsoft"),
  (str "1.2.840.113556.1.4.2256", str "Bypass Quota - Microsoft"),
  (controlTypeMicrosoftServerLinkTTL, str "Return TTL-DNs for link values with associated expiry times - Microsoft"),
  (str "1.2.840.113556.1.4.2330", str "Set Correlation ID - Microsoft"),
  (str "1.2.840.113556.1.4.2354", str "Thread Trace Override - Microsoft"),
  (controlTypeSyncRequest, str "Sync Request"),
  (controlTypeSyncState, str "Sync State"),
  (controlTypeSyncDone, str "Sync Done"),
  (controlTypeSyncInfo, str "Sync Info")]

def controlTypeMap (controlType : GoString) : GoString := (controlTypeNames.lookup controlType).getD []

/-! ## Controls -/

structure ControlString where
  controlType : GoString
  criticality : Bool
  controlValue : GoString
  deriving DecidableEq, Repr

structure ControlPaging where
  pagingSize : UInt32
  cookie : GoString
  deriving DecidableEq, Repr

structure ControlBeheraPasswordPolicy where
  expire : Int64
  grace : Int64
  error : Int8
  errorString : GoString
  deriving DecidableEq, Repr

structure ControlMicrosoftSDFlags where
  criticality : Bool
  controlValue : Int32
  deriving DecidableEq, Repr

structure ControlDirSync where
  criticality : Bool
  flags : Int64
  maxAttrCount : Int64
  cookie : GoString
  deriving DecidableEq, Repr

/-- `NewRequestControlDirSync`. -/
def newRequestControlDirSync (flags maxAttrCount : Int64) (cookie : GoString) : ControlDirSync :=
  ⟨true, flags, maxAttrCount, cookie⟩

structure SortKey where
  reverse : Bool
  attributeType : GoString
  matchingRule : GoString
  deriving DecidableEq, Repr

structure ControlServerSideSortingResult where
  criticality : Bool
  result : Int64
  deriving DecidableEq, Repr

structure ControlSyncRequest where
  criticality : Bool
  mode : Int64
  cookie : GoString
  reloadHint : Bool
  deriving DecidableEq, Repr

structure ControlSyncState where
  criticality : Bool
  state : Int64
  entryUUID : UUID
  cookie : GoString
  deriving DecidableEq, Repr

structure ControlSyncDone where
  criticality : Bool
  cookie : GoString
  refreshDeletes : Bool
  deriving DecidableEq, Repr

/-- `ControlSyncInfoValue`. -/
inductive ControlSyncInfoValue where
  | newcookie
  | refreshDelete
  | refreshPresent
  | syncIdSet
  deriving DecidableEq, Repr

structure ControlSyncInfoNewCookie where
  cookie : GoString
  deriving DecidableEq, Repr

structure ControlSyncInfoRefreshDelete where
  cookie : GoString
  refreshDone : Bool
  deriving DecidableEq, Repr

structure ControlSyncInfoRefreshPresent where
  cookie : GoString
  refreshDone : Bool
  deriving DecidableEq, Repr

structure ControlSyncInfoSyncIdSet where
  cookie : GoString
  refreshDeletes : Bool
  syncUUIDs : List UUID
  deriving DecidableEq, Repr

structure ControlSyncInfo where
  criticality : Bool
  value : ControlSyncInfoValue
  newCookie : Option ControlSyncInfoNewCookie
  refreshDelete : Option ControlSyncInfoRefreshDelete
  refreshPresent : Option ControlSyncInfoRefreshPresent
  syncIdSet : Option ControlSyncInfoSyncIdSet
  deriving DecidableEq, Repr

/-- A value of the interface `Control`, by its dynamic type. -/
inductive Control where
  | string (c : ControlString)
  | paging (c : ControlPaging)
  | beheraPasswordPolicy (c : ControlBeheraPasswordPolicy)
  | vChuPasswordMustChange (mustChange : Bool)
  | vChuPasswordWarning (expire : Int64)
  | manageDsaIT (criticality : Bool)
  | microsoftNotification
  | microsoftSDFlags (c : ControlMicrosoftSDFlags)
  | microsoftShowDeleted
  | microsoftServerLinkTTL
  | subtreeDelete
  | dirSync (c : ControlDirSync)
  | serverSideSorting (sortKeys : List SortKey)
  | serverSideSortingResult (c : ControlServerSideSortingResult)
  | syncRequest (c : ControlSyncRequest)
  | syncState (c : ControlSyncState)
  | syncDone (c : ControlSyncDone)
  | syncInfo (c : ControlSyncInfo)
  deriving DecidableEq, Repr

/-- `GetControlType`. -/
def Control.getControlType : Control → GoString
  | .string c => c.controlType
  | .paging _ => controlTypePaging
  | .beheraPasswordPolicy _ => controlTypeBeheraPasswordPolicy
  | .vChuPasswordMustChange _ => controlTypeVChuPasswordMustChange
  | .vChuPasswordWarning _ => controlTypeVChuPasswordWarning
  | .manageDsaIT _ => controlTypeManageDsaIT
  | .microsoftNotification => controlTypeMicrosoftNotification
  | .microsoftSDFlags _ => controlTypeMicrosoftSDFlags
  | .microsoftShowDeleted => controlTypeMicrosoftShowDeleted
  | .microsoftServerLinkTTL => controlTypeMicrosoftServerLinkTTL
  | .subtreeDelete => controlTypeSubtreeDelete
  | .dirSync _ => controlTypeDirSync
  | .serverSideSorting _ => controlTypeServerSideSorting
  | .serverSideSortingResult _ => controlTypeServerSideSortingResult
  | .syncRequest _ => controlTypeSyncRequest
  | .syncState _ => controlTypeSyncState
  | .syncDone _ => controlTypeSyncDone
  | .syncInfo _ => controlTypeSyncInfo

/-- `FindControl`. -/
def findControl (controls : List Control) (controlType : GoString) : Option Control :=
  controls.find? fun c => c.getControlType = controlType

/-! ## Encoding -/

section

variable (E : Encoder)

/-- An empty sequence. -/
def sequencePacket (description : GoString) : Packet := encode .universal .constructed tagSequence description

/-- The control type, with its name in the description. -/
def controlTypePacket (controlType : GoString) : Packet :=
  newString .universal .primitive tagOctetString controlType
    (str "Control Type (" ++ controlTypeMap controlType ++ str ")")

/-- The sequence of a control with the control type in it, as `Encode` starts. -/
def controlPacket (controlType : GoString) : Packet :=
  (sequencePacket (str "Control")).appendChild E (controlTypePacket controlType)

/-- The criticality, as `NewBoolean` writes it. -/
def criticalityPacket (criticality : Bool) : Packet :=
  newBoolean E .universal .primitive tagBoolean criticality (str "Criticality")

/-- The criticality is left out if it is false. -/
def appendCriticality (criticality : Bool) (packet : Packet) : Packet :=
  if criticality then packet.appendChild E (criticalityPacket E criticality) else packet

/-- An octet string with the bytes of a cookie. -/
def cookiePacket (cookie : GoString) : Packet :=
  { encode .universal .primitive tagOctetString (str "Cookie") with value := .bytes cookie, data := cookie }

/-- A primitive octet string that a sequence is appended to. -/
def wrapValue (description : GoString) (seq : Packet) : Packet :=
  (encode .universal .primitive tagOctetString description).appendChild E seq

def ControlString.encode (c : ControlString) : Packet :=
  let packet := appendCriticality E c.criticality (controlPacket E c.controlType)
  if c.controlValue ≠ [] then
    packet.appendChild E (newString .universal .primitive tagOctetString c.controlValue (str "Control Value"))
  else packet

/-- The sequence in the value of a paging control. -/
def ControlPaging.sequence (c : ControlPaging) : Packet :=
  ((sequencePacket (str "Search Control Value")).appendChild E
    (newInteger E .universal .primitive tagInteger c.pagingSize.toNat (str "Paging Size"))).appendChild E
    (cookiePacket c.cookie)

def ControlPaging.encode (c : ControlPaging) : Packet :=
  (controlPacket E controlTypePaging).appendChild E (wrapValue E (str "Control Value (Paging)") (c.sequence E))

/-- The sequence in the value of the control for security descriptors. -/
def ControlMicrosoftSDFlags.sequence (c : ControlMicrosoftSDFlags) : Packet :=
  (sequencePacket (str "SDFlags")).appendChild E
    (newInteger E .universal .primitive tagInteger c.controlValue.toInt (str "Flags"))

def ControlMicrosoftSDFlags.encode (c : ControlMicrosoftSDFlags) : Packet :=
  (appendCriticality E c.criticality (controlPacket E controlTypeMicrosoftSDFlags)).appendChild E
    (wrapValue E (str "Control Value(SDFlags)") (c.sequence E))

/-- The flags, in four octets. -/
def ControlDirSync.flagsPacket (c : ControlDirSync) : Packet :=
  { Ber.encode .universal .primitive tagInteger (str "Flags") with
    value := .int c.flags.toInt, data := signed 4 c.flags.toInt }

def ControlDirSync.cookiePacket (c : ControlDirSync) : Packet :=
  if c.cookie ≠ [] then GoLdap.cookiePacket c.cookie
  else newString .universal .primitive tagOctetString [] (str "Cookie")

/-- The sequence in the value of a DirSync control. -/
def ControlDirSync.sequence (c : ControlDirSync) : Packet :=
  (((sequencePacket (str "DirSync Control Value")).appendChild E c.flagsPacket).appendChild E
    (newInteger E .universal .primitive tagInteger c.maxAttrCount.toInt (str "MaxAttrCount"))).appendChild E
    c.cookiePacket

def ControlDirSync.encode (c : ControlDirSync) : Packet :=
  ((controlPacket E controlTypeDirSync).appendChild E
    (newLDAPBoolean .universal .primitive tagBoolean c.criticality (str "Criticality"))).appendChild E
    (wrapValue E (str "Control Value (DirSync)") (c.sequence E))

/-- One element of the list of sort keys: the ordering rule and the reverse order are optional. -/
def SortKey.encode (f : SortKey) : Packet :=
  let seq := (sequencePacket []).appendChild E
    (newString .universal .primitive tagOctetString f.attributeType (str "attributeType"))
  let seq := if f.matchingRule ≠ [] then
      seq.appendChild E (newString .context .primitive 0 f.matchingRule (str "orderingRule"))
    else seq
  if f.reverse then seq.appendChild E (newBoolean E .context .primitive 1 f.reverse (str "reverseOrder")) else seq

/-- The list of sort keys. -/
def sortKeyList (sortKeys : List SortKey) : Packet :=
  (sortKeys.map (SortKey.encode E)).foldl (Packet.appendChild E) (sequencePacket (str "SortKeyList"))

/-- `(*ControlServerSideSorting).Encode`: the octets of the list are a string value. -/
def encodeServerSideSorting (sortKeys : List SortKey) : Packet :=
  ((sequencePacket (str "Control")).appendChild E
    (newString .universal .primitive tagOctetString controlTypeServerSideSorting (str "Control Type"))).appendChild E
    (newString .universal .primitive tagOctetString ((sortKeyList E sortKeys).bytes E) (str "Control Value"))

def ControlServerSideSortingResult.encode (c : ControlServerSideSortingResult) : Packet :=
  (sequencePacket (str "SortResult sequence")).appendChild E
    (newInteger E .universal .primitive tagEnumerated c.result.toInt (str "SortResult"))

/-- The sequence in the value of a sync request; an empty cookie is left out. -/
def ControlSyncRequest.sequence (c : ControlSyncRequest) : Packet :=
  let seq := (sequencePacket (str "Sync Request Value")).appendChild E
    (newInteger E .universal .primitive tagEnumerated c.mode.toInt (str "Mode"))
  let seq := if c.cookie ≠ [] then seq.appendChild E (cookiePacket c.cookie) else seq
  seq.appendChild E (newBoolean E .universal .primitive tagBoolean c.reloadHint (str "Reload Hint"))

def ControlSyncRequest.encode (c : ControlSyncRequest) : Packet :=
  ((controlPacket E controlTypeSyncRequest).appendChild E (criticalityPacket E c.criticality)).appendChild E
    (wrapValue E (str "Control Value (Sync Request)") (c.sequence E))

/-- `Encode`; a control that comes from servers only has none. -/
def Control.encode : Control → Option Packet
  | .string c => some (c.encode E)
  | .paging c => some (c.encode E)
  | .manageDsaIT criticality => some (appendCriticality E criticality (controlPacket E controlTypeManageDsaIT))
  | .dirSync c => some (c.encode E)
  | .serverSideSorting sortKeys => some (encodeServerSideSorting E sortKeys)
  | .serverSideSortingResult c => some (c.encode E)
  | .syncRequest c => some (c.encode E)
  | .beheraPasswordPolicy _ => some (controlPacket E controlTypeBeheraPasswordPolicy)
  | .microsoftNotification => some (controlPacket E controlTypeMicrosoftNotification)
  | .microsoftSDFlags c => some (c.encode E)
  | .microsoftShowDeleted => some (controlPacket E controlTypeMicrosoftShowDeleted)
  | .microsoftServerLinkTTL => some (controlPacket E controlTypeMicrosoftServerLinkTTL)
  | .subtreeDelete => some (controlPacket E controlTypeSubtreeDelete)
  | .vChuPasswordMustChange _ | .vChuPasswordWarning _ | .syncState _ | .syncDone _ | .syncInfo _ => none

end

end GoLdap
