import GoLdap.Control.Model
import GoLdap.Go.Strconv

/-!
# Control.Decode — `DecodeControl` (`control.go`)

A control is read from the children of its packet: the type, then the criticality and the value, each of them optional.
What the value holds depends on the type.  Servers send it, so any shape can come, and the result is an `Outcome`: where
the source indexes, dereferences or asserts a type without a check, the model panics.

The descriptions and values `DecodeControl` stores in the packet are left out: it reads none of them again.
-/

namespace GoLdap

open Go Ber

/-! ## Type, criticality and value -/

/-- What the children of a control say. -/
structure ControlHeader where
  controlType : GoString
  criticality : Bool
  value : Option Packet

def errControlType (v : Value) : Err := .plain (.fmt "control type is not a string: %T" (typeName v))

/-- The control type of one or three children: a string. -/
def controlTypeOf (child : Packet) : Except Err GoString :=
  match child.value with
  | .string t => .ok t
  | v => .error (errControlType v)

/-- The control type of two children: without a value, the octets. -/
def controlTypeOrData (child : Packet) : Except Err GoString :=
  match child.value with
  | .nil => .ok child.data
  | .string t => .ok t
  | v => .error (errControlType v)

/-- The first half of `DecodeControl`. -/
def controlHeader (packet : Packet) : Except Err ControlHeader :=
  match packet.children with
  | [] => .error (.plain (.new "at least one child is required for control type"))
  | [t] => do
    let controlType ← controlTypeOf t
    .ok ⟨controlType, false, none⟩
  | [t, x] => do
    let controlType ← controlTypeOrData t
    -- a boolean is the criticality, all else is the value
    match x.value with
    | .bool criticality => .ok ⟨controlType, criticality, none⟩
    | _ => .ok ⟨controlType, false, some x⟩
  | [t, x, value] => do
    let controlType ← controlTypeOf t
    match x.value with
    | .bool criticality => .ok ⟨controlType, criticality, some value⟩
    | v => .error (.plain (.fmt "criticality is not a bool: %T" (typeName v)))
  | _ => .error (.plain (.new "more than 3 children is invalid for controls"))

section

variable {p t x v : Packet} {ct : GoString} {b : Bool}

theorem controlHeader_type (hp : p.children = [t]) (ht : t.value = .string ct) :
    controlHeader p = .ok ⟨ct, false, none⟩ := by
  simp [controlHeader, hp, controlTypeOf, ht]

theorem controlHeader_critical (hp : p.children = [t, x]) (ht : controlTypeOrData t = .ok ct) (hx : x.value = .bool b) :
    controlHeader p = .ok ⟨ct, b, none⟩ := by
  simp [controlHeader, hp, ht, hx]

theorem controlHeader_valued (hp : p.children = [t, v]) (ht : controlTypeOrData t = .ok ct)
    (hv : ∀ b, v.value ≠ .bool b) : controlHeader p = .ok ⟨ct, false, some v⟩ := by
  simp [controlHeader, hp, ht]

theorem controlHeader_full (hp : p.children = [t, x, v]) (ht : t.value = .string ct) (hx : x.value = .bool b) :
    controlHeader p = .ok ⟨ct, b, some v⟩ := by
  simp [controlHeader, hp, controlTypeOf, ht, hx]

theorem controlTypeOrData_string (ht : t.value = .string ct) : controlTypeOrData t = .ok ct := by
  rw [controlTypeOrData, ht]

end

/-- The cases of the switch over the control type. -/
inductive ControlKind where
  | manageDsaIT
  | paging
  | beheraPasswordPolicy
  | vChuPasswordMustChange
  | vChuPasswordWarning
  | microsoftNotification
  | microsoftShowDeleted
  | microsoftServerLinkTTL
  | subtreeDelete
  | serverSideSorting
  | serverSideSortingResult
  | dirSync
  | syncState
  | syncDone
  | syncInfo
  | other
  deriving DecidableEq, Repr

def controlKinds : List (GoString × ControlKind) := [
  (controlTypeManageDsaIT, .manageDsaIT),
  (controlTypePaging, .paging),
  (controlTypeBeheraPasswordPolicy, .beheraPasswordPolicy),
  (controlTypeVChuPasswordMustChange, .vChuPasswordMustChange),
  (controlTypeVChuPasswordWarning, .vChuPasswordWarning),
  (controlTypeMicrosoftNotification, .microsoftNotification),
  (controlTypeMicrosoftShowDeleted, .microsoftShowDeleted),
  (controlTypeMicrosoftServerLinkTTL, .microsoftServerLinkTTL),
  (controlTypeSubtreeDelete, .subtreeDelete),
  (controlTypeServerSideSorting, .serverSideSorting),
  (controlTypeServerSideSortingResult, .serverSideSortingResult),
  (controlTypeDirSync, .dirSync),
  (controlTypeSyncState, .syncState),
  (controlTypeSyncDone, .syncDone),
  (controlTypeSyncInfo, .syncInfo)]

/-- The case a control type is decoded by. -/
def kindOf (controlType : GoString) : ControlKind := (controlKinds.lookup controlType).getD .other

/-! ## Values -/

section

variable (L : Codec)

/-- A pointer that may be nil. -/
def deref : Option Packet → Outcome Err Packet
  | some p => .ok p
  | none => .panic

def errDecode (e : Error) : Err := .wrapped "failed to decode data bytes: %s" (.plain e)

/-- The octets of a value decoded. -/
def decodeData (value : Packet) : Outcome Err Packet :=
  match L.decodePacketErr value.data with
  | .ok child => .ok child
  | .error e => .err (errDecode e)

/-- A value decoded in place: the octets become a child, and `Value` is cleared. -/
def expandValue (value : Packet) : Outcome Err Packet :=
  if value.value = .nil then .ok value
  else do
    let child ← decodeData L value
    .ok ({ value with data := [], value := .nil }.appendChild L.toEncoder child)

/-- The octets of a primitive value become its one child. -/
theorem expandValue_octets {value child : Packet} (hv : value.value ≠ .nil) (hcs : value.children = [])
    (hd : L.decodePacketErr value.data = .ok child) : ∃ v, expandValue L value = .ok v ∧ v.children = [child] := by
  refine ⟨({ value with data := [], value := .nil }).appendChild L.toEncoder child, ?_, ?_⟩
  · rw [expandValue, if_neg hv, decodeData, hd]
    rfl
  · rw [Packet.appendChild, hcs]
    rfl

/-- The case of the paging control. -/
def decodePaging : Option Packet → Outcome Err Control
  | none => .err (.plain (.new "paging control value is missing"))
  | some value => do
    let value ← expandValue L value
    match value.children with
    | [] => .err (.plain (.new "paging control value is empty"))
    | sequence :: _ =>
      match sequence.children with
      | size :: cookie :: _ =>
        match size.value with
        | .int n => .ok (.paging ⟨UInt32.ofNat (n % 2 ^ 32).toNat, cookie.data⟩)
        | v => .err (.plain (.fmt "paging size is not an integer: %T" (typeName v)))
      | cs => .err (.plain (.fmtNum "paging control value has %d children, expected 2" cs.length))

/-- `NewControlBeheraPasswordPolicy`. -/
def newControlBeheraPasswordPolicy : ControlBeheraPasswordPolicy := ⟨-1, -1, -1, []⟩

/-- `BeheraPasswordPolicyErrorMap`. -/
def beheraPasswordPolicyErrorMap (error : Int8) : GoString :=
  if error = 0 then str "Password expired"
  else if error = 1 then str "Account locked"
  else if error = 2 then str "Password must be changed"
  else if error = 3 then str "Policy prevents password modification"
  else if error = 4 then str "Policy requires old password in order to change password"
  else if error = 5 then str "Password fails quality checks"
  else if error = 6 then str "Password is too short for policy"
  else if error = 7 then str "Password has been changed too recently"
  else if error = 8 then str "New password is in list of old passwords"
  else []

def errBeheraEnum : Error := .new "invalid PasswordPolicyResponse enum value"

/-- One turn of the loop over the elements of a password policy response. -/
def beheraElement (c : ControlBeheraPasswordPolicy) (child : Packet) : Outcome Err ControlBeheraPasswordPolicy :=
  if child.tag = 0 then do
    let warning ← Outcome.index child.children 0
    match L.parseInt64 warning.data with
    | .error e => .err (errDecode e)
    | .ok val =>
      if warning.tag = 0 then .ok { c with expire := Int64.ofInt val }
      else if warning.tag = 1 then .ok { c with grace := Int64.ofInt val }
      else .ok c
  else if child.tag = 1 then
    match child.data with
    | [b] =>
      if 8 < b then .err (errDecode errBeheraEnum)
      else .ok { c with error := b.toInt8, errorString := beheraPasswordPolicyErrorMap b.toInt8 }
    | _ => .err (errDecode errBeheraEnum)
  else .ok c

/-- The case of the password policy control. -/
def decodeBehera (value : Option Packet) : Outcome Err Control := do
  let value ← deref value
  let value ← expandValue L value
  let sequence ← Outcome.index value.children 0
  .beheraPasswordPolicy <$> sequence.children.foldlM (beheraElement L) newControlBeheraPasswordPolicy

/-- The case of the password warning: a decimal number. -/
def decodeVChuPasswordWarning : Option Packet → Outcome Err Control
  | none => .err (.plain (.new "invalid value for Control Type ControlTypeVChuPasswordWarning: <nil>"))
  | some value =>
    match parseInt value.data with
    | .error e => .err (.wrapped "failed to parse value as int: %s" (.plain e))
    | .ok expire => .ok (.vChuPasswordWarning (Int64.ofInt expire))

/-- One turn of the inner loop of `NewControlServerSideSorting`: a member of a sort key. -/
def sortKeyMember (sortKey : SortKey) (child : Packet) : SortKey :=
  if child.classType = .universal ∧ child.tag = tagOctetString then
    match child.value with
    | .string attrType => { sortKey with attributeType := attrType }
    | _ => sortKey
  else if child.classType = .context ∧ child.tag = 0 then { sortKey with matchingRule := child.data }
  else if child.classType = .context ∧ child.tag = 1 then
    { sortKey with reverse := child.data.head?.any (· ≠ 0) }
  else sortKey

/-- The outer loop of `NewControlServerSideSorting`, from the sequence with the given index on. -/
def sortKeysFrom : ℕ → List Packet → Except Err (List SortKey)
  | _, [] => .ok []
  | i, sequence :: rest =>
    let missing := .error (.plain (.fmtNum "attributeType is missing from sequence %d" i))
    if sequence.children.length < 1 ∨ 3 < sequence.children.length then missing
    else
      let sortKey := sequence.children.foldl sortKeyMember ⟨false, [], []⟩
      if sortKey.attributeType = [] then missing
      else do
        let sortKeys ← sortKeysFrom (i + 1) rest
        .ok (sortKey :: sortKeys)

/-- `NewControlServerSideSorting`. -/
def newControlServerSideSorting (value : Option Packet) : Outcome Err Control := do
  let value ← deref value
  match L.decodePacketErr value.data with
  | .error e => .err (.wrapped "decode packet err: %s" (.plain e))
  | .ok val =>
    if val.children = [] then .err (.plain (.new "no sequence value in packet"))
    else .serverSideSorting <$> Outcome.ofExcept (sortKeysFrom 0 val.children)

/-- `ControlServerSideSortingCodes`. -/
def controlServerSideSortingCodes : List ℤ := [0, 1, 2, 8, 11, 16, 18, 50, 51, 53, 80]

/-- `NewControlServerSideSortingResult`. -/
def newControlServerSideSortingResult (pkt : Option Packet) : Outcome Err Control :=
  match (pkt.map Packet.children).getD [] with
  | [] => .ok (.serverSideSortingResult ⟨false, 0⟩)
  | code :: _ =>
    match L.parseInt64 code.data with
    | .error e => .err (.plain e)
    | .ok codeInt =>
      if codeInt ∈ controlServerSideSortingCodes then .ok (.serverSideSortingResult ⟨false, Int64.ofInt codeInt⟩)
      else .err (.plain (.fmt "unknown return code : %d" (str (toString codeInt))))

/-- The type assertion to `int64`, which panics. -/
def assertInt : Value → Outcome Err ℤ
  | .int n => .ok n
  | _ => .panic

/-- `NewResponseControlDirSync`. -/
def newResponseControlDirSync (value : Packet) : Outcome Err Control := do
  let value ← expandValue L value
  let child ← Outcome.index value.children 0
  match child.children with
  | [flags, maxAttrCount, cookie] => do
    let flags ← assertInt flags.value
    let maxAttrCount ← assertInt maxAttrCount.value
    .ok (.dirSync ⟨true, Int64.ofInt flags, Int64.ofInt maxAttrCount, cookie.data⟩)
  | _ => .err (.plain (.new "invalid number of children in dirSync control"))

/-- `uuid.FromBytes`, with its error in the text of the caller. -/
def decodeUUID (b : GoString) : Outcome Err UUID :=
  match L.uuidFromBytes b with
  | .ok u => .ok u
  | .error e => .err (.wrapped "failed to decode uuid: %w" (.plain e))

/-- The zero value of a UUID. -/
def nilUUID : UUID := ⟨List.replicate 16 0, List.length_replicate⟩

/-- `NewControlSyncState`.  With more than three children no member is read. -/
def newControlSyncState (pkt : Packet) : Outcome Err Control :=
  match pkt.children with
  | [] | [_] => .err (.plain (.fmtNum "at least two children are required: %d" pkt.children.length))
  | [state, entryUUID] => do
    let state ← assertInt state.value
    let entryUUID ← decodeUUID L entryUUID.byteValue
    .ok (.syncState ⟨false, Int64.ofInt state, entryUUID, []⟩)
  | [state, entryUUID, cookie] => do
    let state ← assertInt state.value
    let entryUUID ← decodeUUID L entryUUID.byteValue
    .ok (.syncState ⟨false, Int64.ofInt state, entryUUID, cookie.byteValue⟩)
  | _ => .ok (.syncState ⟨false, 0, nilUUID, []⟩)

/-- The members `parseSyncMembers` finds by their tags. -/
structure SyncMembers where
  cookie : GoString
  flag : Option Bool
  uuidSet : Option Packet

/-- One turn of the loop of `parseSyncMembers`. -/
def syncMember (members : SyncMembers) (child : Packet) : SyncMembers :=
  if child.tag = tagOctetString then { members with cookie := child.byteValue }
  else if child.tag = tagBoolean then
    match child.value with
    | .bool b => { members with flag := some b }
    | _ => members
  else if child.tag = tagSet then { members with uuidSet := some child }
  else members

/-- `parseSyncMembers`. -/
def parseSyncMembers (children : List Packet) : SyncMembers := children.foldl syncMember ⟨[], none, none⟩

/-- `NewControlSyncDone`. -/
def newControlSyncDone (pkt : Packet) : Outcome Err Control :=
  let members := parseSyncMembers pkt.children
  .ok (.syncDone ⟨false, members.cookie, members.flag.getD false⟩)

/-- The UUIDs of a set. -/
def decodeUUIDs : List Packet → Outcome Err (List UUID)
  | [] => .ok []
  | child :: rest => do
    let u ← decodeUUID L child.byteValue
    let us ← decodeUUIDs rest
    .ok (u :: us)

/-- `NewControlSyncInfo`. -/
def newControlSyncInfo (pkt : Packet) : Outcome Err Control :=
  let members := parseSyncMembers pkt.children
  match pkt.tag with
  | 0 => .ok (.syncInfo ⟨false, .newcookie, some ⟨pkt.byteValue⟩, none, none, none⟩)
  | 1 => .ok (.syncInfo ⟨false, .refreshDelete, none, some ⟨members.cookie, members.flag.getD true⟩, none, none⟩)
  | 2 => .ok (.syncInfo ⟨false, .refreshPresent, none, none, some ⟨members.cookie, members.flag.getD true⟩, none⟩)
  | 3 => do
    let syncUUIDs ← decodeUUIDs L ((members.uuidSet.map Packet.children).getD [])
    .ok (.syncInfo ⟨false, .syncIdSet, none, none, none, some ⟨members.cookie, members.flag.getD false, syncUUIDs⟩⟩)
  | tag => .err (.plain (.fmtNum "unknown sync info value: %d" tag))

/-- A value that is decoded whatever its `Value` is, for the synchronisation controls. -/
def decodeSyncValue (decode : Packet → Outcome Err Control) (value : Option Packet) : Outcome Err Control := do
  let value ← deref value
  let valueChildren ← decodeData L value
  decode valueChildren

/-- The value of a control without a case of its own: a string, or the octets. -/
def stringValue : Option Packet → GoString
  | none => []
  | some value =>
    match value.value with
    | .string s => s
    | _ => value.data

/-- The second half of `DecodeControl`. -/
def decodeByKind (h : ControlHeader) : ControlKind → Outcome Err Control
  | .manageDsaIT => .ok (.manageDsaIT h.criticality)
  | .paging => decodePaging L h.value
  | .beheraPasswordPolicy => decodeBehera L h.value
  | .vChuPasswordMustChange => .ok (.vChuPasswordMustChange true)
  | .vChuPasswordWarning => decodeVChuPasswordWarning h.value
  | .microsoftNotification => .ok .microsoftNotification
  | .microsoftShowDeleted => .ok .microsoftShowDeleted
  | .microsoftServerLinkTTL => .ok .microsoftServerLinkTTL
  | .subtreeDelete => .ok .subtreeDelete
  | .serverSideSorting => newControlServerSideSorting L h.value
  | .serverSideSortingResult => newControlServerSideSortingResult L h.value
  | .dirSync => do
    let value ← deref h.value
    newResponseControlDirSync L value
  | .syncState => decodeSyncValue L (newControlSyncState L) h.value
  | .syncDone => decodeSyncValue L newControlSyncDone h.value
  | .syncInfo => decodeSyncValue L (newControlSyncInfo L) h.value
  | .other => .ok (.string ⟨h.controlType, h.criticality, stringValue h.value⟩)

/-- `DecodeControl`. -/
def decodeControl (packet : Packet) : Outcome Err Control :=
  match controlHeader packet with
  | .error e => .err e
  | .ok h => decodeByKind L h (kindOf h.controlType)

theorem decodeControl_eq {packet : Packet} {h : ControlHeader} (hp : controlHeader packet = .ok h) :
    decodeControl L packet = decodeByKind L h (kindOf h.controlType) := by
  rw [decodeControl, hp]

/-! ## What is decoded -/

/-- The control is not a `ControlString`. -/
def Control.Special (c : Control) : Prop := ∀ s, c ≠ .string s

section
variable (value : Option Packet) (pkt : Packet)

theorem decodePaging_special : (decodePaging L value).Ensures Control.Special := by
  cases value with
  | none => trivial
  | some value =>
    refine .bind fun v => ?_
    repeat' split
    all_goals first | trivial | exact fun _ => by rintro ⟨⟩

theorem decodeBehera_special : (decodeBehera L value).Ensures Control.Special :=
  .bind fun _ => .bind fun _ => .bind fun _ => .map fun _ _ => by rintro ⟨⟩

theorem decodeVChuPasswordWarning_special : (decodeVChuPasswordWarning value).Ensures Control.Special := by
  cases value with
  | none => trivial
  | some value =>
    dsimp only [decodeVChuPasswordWarning]
    split
    · trivial
    · exact fun _ => by rintro ⟨⟩

theorem newControlServerSideSorting_special : (newControlServerSideSorting L value).Ensures Control.Special := by
  refine .bind fun v => ?_
  split
  · trivial
  · split
    · trivial
    · exact .map fun _ _ => by rintro ⟨⟩

theorem newControlServerSideSortingResult_special :
    (newControlServerSideSortingResult L value).Ensures Control.Special := by
  unfold newControlServerSideSortingResult
  repeat' split
  all_goals first | trivial | exact fun _ => by rintro ⟨⟩

theorem newResponseControlDirSync_special : (newResponseControlDirSync L pkt).Ensures Control.Special := by
  refine .bind fun v => .bind fun child => ?_
  split
  · exact .bind fun _ => .bind fun _ _ => by rintro ⟨⟩
  · trivial

theorem newControlSyncState_special : (newControlSyncState L pkt).Ensures Control.Special := by
  unfold newControlSyncState
  split
  · trivial
  · trivial
  · exact .bind fun _ => .bind fun _ _ => by rintro ⟨⟩
  · exact .bind fun _ => .bind fun _ _ => by rintro ⟨⟩
  · exact fun _ => by rintro ⟨⟩

theorem newControlSyncInfo_special : (newControlSyncInfo L pkt).Ensures Control.Special := by
  unfold newControlSyncInfo
  dsimp only
  split
  · exact fun _ => by rintro ⟨⟩
  · exact fun _ => by rintro ⟨⟩
  · exact fun _ => by rintro ⟨⟩
  · exact .bind fun _ _ => by rintro ⟨⟩
  · trivial

end

theorem decodeByKind_special (h : ControlHeader) {kind : ControlKind} (hk : kind ≠ .other) :
    (decodeByKind L h kind).Ensures Control.Special := by
  cases kind with
  | other => exact absurd rfl hk
  | paging => exact decodePaging_special L h.value
  | beheraPasswordPolicy => exact decodeBehera_special L h.value
  | vChuPasswordWarning => exact decodeVChuPasswordWarning_special h.value
  | serverSideSorting => exact newControlServerSideSorting_special L h.value
  | serverSideSortingResult => exact newControlServerSideSortingResult_special L h.value
  | dirSync => exact .bind fun value => newResponseControlDirSync_special L value
  | syncState => exact .bind fun _ => .bind (newControlSyncState_special L)
  | syncDone => exact .bind fun _ => .bind fun _ _ => by rintro ⟨⟩
  | syncInfo => exact .bind fun _ => .bind (newControlSyncInfo_special L)
  | _ => exact fun _ => by rintro ⟨⟩

theorem Control.Special.paging {c : Control} (hc : c.Special) (ht : c.getControlType = controlTypePaging) :
    ∃ p, c = .paging p := by
  cases c with
  | string s => exact absurd rfl (hc s)
  | paging p => exact ⟨p, rfl⟩
  | _ =>
    simp only [Control.getControlType] at ht
    exact absurd ht (by decide)

/-- A decoded control with the type of a paging control is one. -/
theorem decodeControl_paging (packet : Packet) :
    (decodeControl L packet).Ensures fun c => c.getControlType = controlTypePaging → ∃ p, c = .paging p := by
  unfold decodeControl
  split
  · trivial
  · rename_i h hh
    by_cases hk : kindOf h.controlType = .other
    · rw [hk]
      intro (ht : h.controlType = controlTypePaging)
      rw [ht] at hk
      exact absurd hk (by decide)
    · exact (decodeByKind_special L h hk).mono fun c hc => hc.paging

end

end GoLdap
