import GoLdap.Control.Decode
import GoLdap.Descriptions.Described

/-!
# Control.Descriptions — describing controls (`ldap.go`)

`addControlDescriptions` decodes the values of two control types in place: it truncates the octets of the value, clears
`Value` and appends what the octets were decoded to.  It can stop between these assignments, when a child is missing.
`DecodeControl` does the same decoding if `Value` is still set.  However far a description has come, and however often it
is run, the controls decode to the same.
-/

namespace GoLdap

open Go Ber Assign

/-! ## The model -/

section

variable (L : Codec)

/-- Text added to the description of a packet. -/
def addDescription (text : GoString) : Assign := fun p => ({ p with description := p.description ++ text }, .ok ())

def assignValue (v : Value) : Assign := fun p => ({ p with value := v }, .ok ())

/-- The name of the control type in the first child, which must be a string. -/
def describeControlType : Assign := onPath [0] fun t =>
  match t.value with
  | .string controlType => describe [] (str "Control Type (" ++ controlTypeMap controlType ++ str ")") t
  | _ => (t, .panic)

/-- The value of a paging control decoded in place.  The cookie is assigned before the child is appended. -/
def expandPaging : Assign := fun value =>
  if value.value = .nil then (value, .ok ())
  else match L.decodePacketErr value.data with
    | .error e => (value, .err (errDecode e))
    | .ok valueChildren =>
      let value := { value with data := [], value := .nil }
      match valueChildren.children[1]? with
      | none => (value, .panic)
      | some cookie =>
        (value.appendChild L.toEncoder
          { valueChildren with children := valueChildren.children.set 1 { cookie with value := .bytes cookie.data } },
        .ok ())

def describePaging : Assign :=
  .all [addDescription (str " (Paging)"), expandPaging L, describe [0] (str "Real Search Control Value"),
    describe [0, 0] (str "Paging Size"), describe [0, 1] (str "Cookie")]

/-- The value of a password policy control decoded in place. -/
def expandBehera : Assign := fun value =>
  match expandValue L value with
  | .ok v => (v, .ok ())
  | .err e => (value, .err e)
  | .panic => (value, .panic)

/-- The assignments to the value for the element with the given index, by what it is. -/
def describeBeheraElement (j : ℕ) (child : Packet) : Assign :=
  if child.tag = 0 then
    match child.children[0]? with
    | none => fun value => (value, .panic)
    | some warning =>
      match L.parseInt64 warning.data with
      | .error e => fun value => (value, .err (errDecode e))
      | .ok val =>
        if warning.tag = 0 then
          (addDescription (str " (TimeBeforeExpiration)")).andThen (onPath [0, j, 0] (assignValue (.int val)))
        else if warning.tag = 1 then
          (addDescription (str " (GraceAuthNsRemaining)")).andThen (onPath [0, j, 0] (assignValue (.int val)))
        else skip
  else if child.tag = 1 then
    match child.data with
    | [b] =>
      if 8 < b then fun value => (value, .err (errDecode errBeheraEnum))
      else (describe [0, j] (str "Error")).andThen (onPath [0, j] (assignValue (.int8 b.toInt8)))
    | _ => fun value => (value, .err (errDecode errBeheraEnum))
  else skip

/-- The loop over the elements; each turn looks at its element as the turns before have left it. -/
def describeBeheraElements : Assign := byChild 0 fun sequence =>
  .all ((List.range sequence.children.length).map fun j => fun value =>
    match value.children[0]?.bind (·.children[j]?) with
    | none => (value, .panic)
    | some child => describeBeheraElement L j child value)

def describeBehera : Assign :=
  .all [addDescription (str " (Password Policy - Behera Draft)"), expandBehera L, describeBeheraElements L]

/-- The assignments to the value of a control of the given type. -/
def describeControlValue (controlType : GoString) : Assign :=
  if controlType = controlTypePaging then describePaging L
  else if controlType = controlTypeBeheraPasswordPolicy then describeBehera L
  else skip

/-- The assignments to the value, which is the child with the given index. -/
def describeValueChild (i : ℕ) : Assign := byChild 0 fun t =>
  match t.value with
  | .string controlType => onPath [i] (describeControlValue L controlType)
  | _ => skip

/-- One turn of the loop of `addControlDescriptions`. -/
def describeControl : Assign := fun child =>
  let child := { child with description := str "Control" }
  match child.children.length with
  | 0 => (child, .err (.plain (.new "at least one child is required for control type")))
  | 1 => describeControlType child
  | 2 =>
    describeControlType.andThen (byChild 1 fun x =>
      match x.value with
      | .bool _ => describe [1] (str "Criticality")
      | _ => (describe [1] (str "Control Value")).andThen (describeValueChild L 1)) child
  | 3 =>
    describeControlType.andThen ((describe [1] (str "Criticality")).andThen
      ((describe [2] (str "Control Value")).andThen (describeValueChild L 2))) child
  | _ => (child, .err (.plain (.new "more than 3 children for control packet found")))

/-- `addControlDescriptions`. -/
def addControlDescriptions : Assign :=
  (describe [] (str "Controls")).andThen (describeEach fun i => onPath [i] (describeControl L))

end

/-! ## What a description leaves of a value -/

section

variable (L : Codec)

/-- The control a value decodes to, if it does. -/
def decodedAs (controlType : GoString) (criticality : Bool) (value : Option Packet) : Option Control :=
  (decodeByKind L ⟨controlType, criticality, value⟩ (kindOf controlType)).toOption

/-! ### Paging -/

/-- What a paging control is decoded from: `Value` and octets of the members of the first element. -/
def pagingMembers (value : Packet) : Option (List (Value × GoString)) :=
  value.children.head?.map fun sequence => sequence.children.map fun c => (c.value, c.data)

/-- The paging control with these members. -/
def pagingOf : Option (List (Value × GoString)) → Option Control
  | some ((.int n, _) :: (_, cookie) :: _) => some (.paging ⟨UInt32.ofNat (n % 2 ^ 32).toNat, cookie⟩)
  | _ => none

theorem decodePaging_expanded {value v : Packet} (h : expandValue L value = .ok v) :
    (decodePaging L (some value)).toOption = pagingOf (pagingMembers v) := by
  rw [decodePaging, h, Outcome.ok_bind, pagingMembers]
  rcases v.children with _ | ⟨sequence, rest⟩
  · rfl
  · rcases hcs : sequence.children with _ | ⟨size, _ | ⟨cookie, more⟩⟩
    · simp [hcs, pagingOf, Outcome.toOption]
    · simp [hcs, pagingOf, Outcome.toOption]
    · cases hv : size.value <;> simp [hcs, hv, pagingOf, Outcome.toOption]

theorem expandValue_of_nil {value : Packet} (h : value.value = .nil) : expandValue L value = .ok value := by
  rw [expandValue, if_pos h]

theorem pagingMembers_undescribed (p : Packet) : pagingMembers p.undescribed = pagingMembers p := by
  rw [pagingMembers, pagingMembers, Packet.undescribed_children, List.head?_map, Option.map_map]
  congr 1
  funext sequence
  simp [Function.comp_def]

/-- Descriptions do not change a value as `decodePaging` sees it. -/
theorem neutral_pagingMembers {f : Assign} (hf : Neutral (fun _ => True) f) (p : Packet) :
    ((f p).1.value, pagingMembers (f p).1) = (p.value, pagingMembers p) := by
  have h : (f p).1.undescribed = p.undescribed := hf.keeps trivial
  rw [← Packet.undescribed_value, ← pagingMembers_undescribed, h, Packet.undescribed_value, pagingMembers_undescribed]

/-- Half-way through or not, the value decoded in place has the members `DecodeControl` would find. -/
theorem expandPaging_spec (value : Packet) :
    (∃ e, expandValue L value = .err e ∧ expandPaging L value = (value, .err e)) ∨
      ∃ v, expandValue L value = .ok v ∧ (expandPaging L value).1.value = .nil ∧
        pagingOf (pagingMembers (expandPaging L value).1) = pagingOf (pagingMembers v) := by
  unfold expandValue expandPaging decodeData
  by_cases hnil : value.value = .nil
  · rw [if_pos hnil, if_pos hnil]
    exact .inr ⟨value, rfl, hnil, rfl⟩
  · rw [if_neg hnil, if_neg hnil]
    cases L.decodePacketErr value.data with
    | error e => exact .inl ⟨errDecode e, rfl, rfl⟩
    | ok child =>
      refine .inr ⟨_, rfl, ?_⟩
      rcases hcs : child.children with _ | ⟨size, _ | ⟨cookie, more⟩⟩
      -- the cookie is missing: nothing was appended, and without other children both sides fail
      · rcases value.children with _ | ⟨x, xs⟩ <;> simp [pagingMembers, pagingOf, Packet.appendChild, hcs]
      · rcases value.children with _ | ⟨x, xs⟩ <;> simp [pagingMembers, pagingOf, Packet.appendChild, hcs]
      · rcases value.children with _ | ⟨x, xs⟩
        · cases hsize : size.value <;> simp [pagingMembers, pagingOf, Packet.appendChild, hcs, hsize]
        · simp [pagingMembers, Packet.appendChild, hcs]

theorem expandValue_description (value : Packet) (text : GoString) :
    (expandValue L { value with description := text }) =
      (fun v => { v with description := text }) <$> expandValue L value := by
  unfold expandValue decodeData
  by_cases hnil : value.value = .nil
  · rw [if_pos hnil, if_pos hnil]
    rfl
  · rw [if_neg hnil, if_neg hnil]
    cases L.decodePacketErr value.data <;> rfl

theorem decodePaging_description (value : Packet) (text : GoString) :
    decodePaging L (some { value with description := text }) = decodePaging L (some value) := by
  rw [decodePaging, decodePaging, expandValue_description]
  cases expandValue L value <;> rfl

/-- A paging control decodes to the same after its value was described. -/
theorem decodePaging_described (value : Packet) :
    (decodePaging L (some (describePaging L value).1)).toOption = (decodePaging L (some value)).toOption := by
  set rest : Assign := Assign.all [describe [0] (str "Real Search Control Value"), describe [0, 0] (str "Paging Size"),
    describe [0, 1] (str "Cookie")] with hrest
  have hneutral : Neutral (fun _ => True) rest := by
    refine Neutral.all ?_
    simp only [List.forall_mem_cons, List.not_mem_nil, false_implies, implies_true, and_true]
    exact ⟨.describe _ _, .describe _ _, .describe _ _⟩
  rw [← decodePaging_description L value (value.description ++ str " (Paging)")]
  set named := { value with description := value.description ++ str " (Paging)" } with hnamed
  have hrun : describePaging L value = (expandPaging L).andThen rest named := rfl
  rw [hrun]
  obtain ⟨e, he, hexp⟩ | ⟨v, hv, hnil, hmembers⟩ := expandPaging_spec L named
  · rw [Assign.andThen, hexp]
  · -- the assignments that follow only describe
    have hkeep : (((expandPaging L).andThen rest named).1.value, pagingMembers ((expandPaging L).andThen rest named).1) =
        ((expandPaging L named).1.value, pagingMembers (expandPaging L named).1) := by
      unfold Assign.andThen
      split
      · rename_i q hq
        rw [hq]
        exact neutral_pagingMembers hneutral q
      · rfl
    obtain ⟨hvalue, hsame⟩ := Prod.mk.inj hkeep
    rw [decodePaging_expanded L (expandValue_of_nil L (hvalue.trans hnil)), decodePaging_expanded L hv, hsame, hmembers]

/-! ### Password policy -/

/-- The part of `decodeBehera` after the value was decoded in place. -/
def beheraOf (value : Packet) : Outcome Err Control := do
  let sequence ← Outcome.index value.children 0
  .beheraPasswordPolicy <$> sequence.children.foldlM (beheraElement L) newControlBeheraPasswordPolicy

theorem decodeBehera_expanded {value v : Packet} (h : expandValue L value = .ok v) :
    decodeBehera L (some value) = beheraOf L v := by
  rw [decodeBehera, deref, Outcome.ok_bind, h, Outcome.ok_bind, beheraOf]

/-- The elements are decoded from tags and octets. -/
theorem beheraElement_skeleton (c : ControlBeheraPasswordPolicy) (child : Packet) :
    beheraElement L c child.skeleton = beheraElement L c child := by
  rw [Packet.skeleton_eq]
  unfold beheraElement
  rcases child.children with _ | ⟨warning, rest⟩
  · rfl
  · simp [Outcome.index, Packet.skeleton_eq warning]

theorem beheraOf_skeleton (value : Packet) : beheraOf L value.skeleton = beheraOf L value := by
  rw [Packet.skeleton_eq]
  unfold beheraOf
  rcases value.children with _ | ⟨sequence, rest⟩
  · rfl
  · simp only [List.map_cons, Outcome.index, List.getElem?_cons_zero, Outcome.ok_bind]
    rw [Packet.skeleton_eq sequence]
    simp only [List.foldlM_map, beheraElement_skeleton]

theorem skeleton_onPath {f : Assign} (hf : ∀ p, (f p).1.skeleton = p.skeleton) (path : List ℕ) (p : Packet) :
    (onPath path f p).1.skeleton = p.skeleton := by
  induction path generalizing p with
  | nil => exact hf p
  | cons i path ih =>
    unfold onPath
    cases hi : p.children[i]? with
    | none => rfl
    | some c =>
      obtain ⟨hlt, hc⟩ := List.getElem?_eq_some_iff.mp hi
      rw [Packet.skeleton_eq, Packet.skeleton_eq p]
      simp only [List.map_set, ih]
      rw [← hc, ← List.getElem_map Packet.skeleton (h := by simpa using hlt), List.set_getElem_self]

theorem value_onPath_cons (i : ℕ) (path : List ℕ) (f : Assign) (p : Packet) :
    (onPath (i :: path) f p).1.value = p.value := by
  unfold onPath
  split <;> rfl

/-- A packet as `decodeBehera` sees it. -/
def valueAndSkeleton (p : Packet) : Value × Packet := (p.value, p.skeleton)

/-- Assignments to descriptions, and to `Value` inside the packet. -/
def Inside (f : Assign) : Prop := ∀ p, valueAndSkeleton (f p).1 = valueAndSkeleton p

theorem Inside.stop (o : Outcome Err Unit) : Inside fun p => (p, o) := fun _ => rfl

theorem Inside.andThen {f g : Assign} (hf : Inside f) (hg : Inside g) : Inside (f.andThen g) :=
  frame_andThen valueAndSkeleton hf hg

theorem Inside.onPath {f : Assign} (hf : ∀ p, (f p).1.skeleton = p.skeleton) (i : ℕ) (path : List ℕ) :
    Inside (Assign.onPath (i :: path) f) := by
  intro p
  rw [valueAndSkeleton, value_onPath_cons, skeleton_onPath hf, valueAndSkeleton]

theorem Inside.addDescription (text : GoString) : Inside (GoLdap.addDescription text) := by
  intro p
  rw [valueAndSkeleton, valueAndSkeleton, Packet.skeleton_eq, Packet.skeleton_eq p]
  rfl

theorem skeleton_describe (text : GoString) (p : Packet) : { p with description := text }.skeleton = p.skeleton := by
  rw [Packet.skeleton_eq, Packet.skeleton_eq p]

theorem skeleton_assignValue (v : Value) (p : Packet) : (assignValue v p).1.skeleton = p.skeleton := by
  rw [assignValue, Packet.skeleton_eq, Packet.skeleton_eq p]

theorem inside_describeBeheraElement (j : ℕ) (child : Packet) : Inside (describeBeheraElement L j child) := by
  have hwarning (text : GoString) (n : ℤ) :
      Inside ((addDescription text).andThen (onPath [0, j, 0] (assignValue (.int n)))) :=
    (Inside.addDescription text).andThen (.onPath (skeleton_assignValue _) 0 [j, 0])
  have herror (b : UInt8) :
      Inside ((describe [0, j] (str "Error")).andThen (onPath [0, j] (assignValue (.int8 b.toInt8)))) :=
    (Inside.onPath (skeleton_describe _) 0 [j]).andThen (.onPath (skeleton_assignValue _) 0 [j])
  unfold describeBeheraElement
  split
  · split
    · exact .stop _
    · split
      · exact .stop _
      · split
        · exact hwarning _ _
        · split
          · exact hwarning _ _
          · exact .stop _
  · split
    · split
      · split
        · exact .stop _
        · exact herror _
      · exact .stop _
    · exact .stop _

theorem inside_describeBeheraElements : Inside (describeBeheraElements L) := by
  intro p
  unfold describeBeheraElements byChild
  split
  · rfl
  · refine frame_all valueAndSkeleton (fun f hf q => ?_) p
    obtain ⟨j, -, rfl⟩ := List.mem_map.mp hf
    simp only
    split
    · rfl
    · exact inside_describeBeheraElement L j _ q

theorem value_of_expandValue {value v : Packet} (h : expandValue L value = .ok v) : v.value = .nil := by
  unfold expandValue at h
  split at h
  · rename_i hnil
    cases h
    exact hnil
  · obtain ⟨child, -, h⟩ := Outcome.bind_eq_ok.mp h
    cases h
    rfl

theorem decodeBehera_description (value : Packet) (text : GoString) :
    decodeBehera L (some { value with description := text }) = decodeBehera L (some value) := by
  rw [decodeBehera, decodeBehera, deref, deref, Outcome.ok_bind, Outcome.ok_bind, expandValue_description]
  cases expandValue L value <;> rfl

/-- A password policy control decodes to the same after its value was described. -/
theorem decodeBehera_described (value : Packet) :
    (decodeBehera L (some (describeBehera L value).1)).toOption = (decodeBehera L (some value)).toOption := by
  rw [← decodeBehera_description L value (value.description ++ str " (Password Policy - Behera Draft)")]
  set named := { value with description := value.description ++ str " (Password Policy - Behera Draft)" } with hnamed
  have hrun : describeBehera L value = (expandBehera L).andThen ((describeBeheraElements L).andThen skip) named := rfl
  rw [hrun, andThen_skip]
  cases hexp : expandValue L named with
  | err e => rw [Assign.andThen, expandBehera, hexp]
  | panic => rw [Assign.andThen, expandBehera, hexp]
  | ok v =>
    have hq : (expandBehera L).andThen (describeBeheraElements L) named = describeBeheraElements L v := by
      rw [Assign.andThen, expandBehera, hexp]
    obtain ⟨hvalue, hskeleton⟩ := Prod.mk.inj (inside_describeBeheraElements L v)
    have hnil := hvalue.trans (value_of_expandValue L hexp)
    rw [hq, decodeBehera_expanded L (expandValue_of_nil L hnil), decodeBehera_expanded L hexp,
      ← beheraOf_skeleton L (describeBeheraElements L v).1, hskeleton, beheraOf_skeleton]

/-! ### Every control -/

/-- The description of a value is not decoded. -/
theorem decodeByKind_description (controlType : GoString) (criticality : Bool) (value : Packet) (text : GoString)
    (kind : ControlKind) :
    decodeByKind L ⟨controlType, criticality, some { value with description := text }⟩ kind =
      decodeByKind L ⟨controlType, criticality, some value⟩ kind := by
  cases kind with
  | paging => exact decodePaging_description L value text
  | beheraPasswordPolicy => exact decodeBehera_description L value text
  | dirSync =>
    simp only [decodeByKind, deref, Outcome.ok_bind, newResponseControlDirSync, expandValue_description]
    cases expandValue L value <;> rfl
  | _ => rfl

theorem decodedAs_described (controlType : GoString) (criticality : Bool) (value : Packet) :
    decodedAs L controlType criticality (some (describeControlValue L controlType value).1) =
      decodedAs L controlType criticality (some value) := by
  unfold describeControlValue
  split
  · rename_i h
    rw [h]
    exact decodePaging_described L value
  · split
    · rename_i h
      rw [h]
      exact decodeBehera_described L value
    · rfl

theorem decodeControl_children {c d : Packet} (h : d.children = c.children) : decodeControl L d = decodeControl L c := by
  rw [decodeControl, decodeControl, controlHeader, controlHeader, h]

/-- Assignments that leave `Value` as it is or clear it. -/
def Clears (f : Assign) : Prop := ∀ p, (f p).1.value = p.value ∨ (f p).1.value = .nil

theorem Clears.andThen {f g : Assign} (hf : Clears f) (hg : Clears g) : Clears (f.andThen g) := by
  intro p
  have hp := hf p
  unfold Assign.andThen
  split
  · rename_i q hq
    rw [hq] at hp
    obtain h | h := hg q
    · rwa [h]
    · exact .inr h
  · exact hp

theorem Clears.all {fs : List Assign} (h : ∀ f ∈ fs, Clears f) : Clears (Assign.all fs) := by
  induction fs with
  | nil => exact fun _ => .inl rfl
  | cons f fs ih =>
    rw [List.forall_mem_cons] at h
    exact h.1.andThen (ih h.2)

theorem clears_expandPaging : Clears (expandPaging L) := by
  intro p
  unfold expandPaging
  split
  · exact .inl rfl
  · split
    · exact .inl rfl
    · simp only
      split <;> exact .inr rfl

theorem clears_expandBehera : Clears (expandBehera L) := by
  intro p
  unfold expandBehera
  split
  · exact .inr (value_of_expandValue L ‹_›)
  · exact .inl rfl
  · exact .inl rfl

theorem clears_describeControlValue (controlType : GoString) : Clears (describeControlValue L controlType) := by
  have hadd (text : GoString) : Clears (addDescription text) := fun _ => .inl rfl
  have hdescribe (i : ℕ) (path : List ℕ) (text : GoString) : Clears (describe (i :: path) text) :=
    fun p => .inl (value_onPath_cons i path _ p)
  unfold describeControlValue
  split
  · refine Clears.all ?_
    simp only [List.forall_mem_cons, List.not_mem_nil, false_implies, implies_true, and_true]
    exact ⟨hadd _, clears_expandPaging L, hdescribe 0 [] _, hdescribe 0 [0] _, hdescribe 0 [1] _⟩
  · split
    · refine Clears.all ?_
      simp only [List.forall_mem_cons, List.not_mem_nil, false_implies, implies_true, and_true]
      exact ⟨hadd _, clears_expandBehera L,
        fun p => .inl (congrArg Prod.fst (inside_describeBeheraElements L p))⟩
    · exact fun _ => .inl rfl

/-- A control of two children, the second one its value. -/
theorem decodeControl_valued {c t v : Packet} {ct : GoString} (hc : c.children = [t, v]) (ht : t.value = .string ct)
    (hv : ∀ b, v.value ≠ .bool b) : (decodeControl L c).toOption = decodedAs L ct false (some v) := by
  rw [decodeControl_eq L (controlHeader_valued hc (controlTypeOrData_string ht) hv), decodedAs]

/-- A control of three children. -/
theorem decodeControl_full {c t x v : Packet} {ct : GoString} (hc : c.children = [t, x, v])
    (ht : t.value = .string ct) : (decodeControl L c).toOption =
      match x.value with
      | .bool b => decodedAs L ct b (some v)
      | _ => none := by
  cases hx : x.value <;> simp [decodeControl, controlHeader, hc, controlTypeOf, ht, hx, decodedAs, Outcome.toOption]

/-- A control decodes to the same after it was described, and fails if it failed before. -/
theorem decodeControl_described (c : Packet) :
    (decodeControl L (describeControl L c).1).toOption = (decodeControl L c).toOption := by
  have hvalue (ct : GoString) (crit : Bool) (v : Packet) : decodedAs L ct crit
      (some (describeControlValue L ct { v with description := str "Control Value" }).1) =
      decodedAs L ct crit (some v) := by
    rw [decodedAs_described, decodedAs, decodeByKind_description, decodedAs]
  rcases hc : c.children with _ | ⟨t, _ | ⟨x, _ | ⟨v, _ | ⟨w, rest⟩⟩⟩⟩
  · congr 1
    refine decodeControl_children L ?_
    simp [describeControl, hc]
  · congr 1
    cases ht : t.value <;>
      simp [decodeControl, controlHeader, describeControl, describeControlType, describe, onPath, hc, ht, controlTypeOf]
  · cases ht : t.value with
    | string ct =>
      by_cases hx : ∃ b, x.value = .bool b
      · obtain ⟨b, hx⟩ := hx
        simp [decodeControl, controlHeader, describeControl, describeControlType, describe, onPath, andThen, byChild, hc,
          ht, hx, controlTypeOrData]
      · rw [not_exists] at hx
        have hleft : (describeControl L c).1.children =
            [{ t with description := str "Control Type (" ++ controlTypeMap ct ++ str ")" },
              (describeControlValue L ct { x with description := str "Control Value" }).1] := by
          simp [describeControl, describeControlType, describeValueChild, describe, onPath, andThen, byChild, hc, ht]
        have hnot : ∀ b, (describeControlValue L ct { x with description := str "Control Value" }).1.value ≠ .bool b := by
          intro b
          obtain h | h := clears_describeControlValue L ct { x with description := str "Control Value" }
          · rw [h]
            exact hx b
          · rw [h]
            rintro ⟨⟩
        rw [decodeControl_valued L hleft ht hnot, decodeControl_valued L hc ht hx, hvalue]
    | _ =>
      congr 1
      simp [decodeControl, controlHeader, describeControl, describeControlType, onPath, andThen, hc, ht]
  · cases ht : t.value with
    | string ct =>
      have hleft : (describeControl L c).1.children =
          [{ t with description := str "Control Type (" ++ controlTypeMap ct ++ str ")" },
            { x with description := str "Criticality" },
            (describeControlValue L ct { v with description := str "Control Value" }).1] := by
        simp [describeControl, describeControlType, describeValueChild, describe, onPath, andThen, byChild, hc, ht]
      rw [decodeControl_full L hleft ht, decodeControl_full L hc ht]
      simp only [hvalue]
    | _ =>
      congr 1
      simp [decodeControl, controlHeader, describeControl, describeControlType, onPath, andThen, hc, ht]
  · congr 1
    refine decodeControl_children L ?_
    simp [describeControl, hc]

/-- What the controls of a message decode to, one after the other: a control, or nothing where `DecodeControl` returns an
error or panics. -/
def decodedControls (packet : Packet) : Option (List (Option Control)) :=
  packet.children[2]?.map fun controls => controls.children.map fun c => (decodeControl L c).toOption

theorem decoded_addControlDescriptions (controls : Packet) :
    ((addControlDescriptions L controls).1.children.map fun c => (decodeControl L c).toOption) =
      controls.children.map fun c => (decodeControl L c).toOption := by
  refine frame_andThen (fun p => p.children.map fun c => (decodeControl L c).toOption) (fun _ => rfl) (fun p => ?_) controls
  refine frame_all (fun p => p.children.map fun c => (decodeControl L c).toOption) (fun f hf q => ?_) p
  obtain ⟨i, -, rfl⟩ := List.mem_map.mp hf
  unfold onPath
  cases hi : q.children[i]? with
  | none => rfl
  | some c =>
    obtain ⟨hlt, hc⟩ := List.getElem?_eq_some_iff.mp hi
    simp only [onPath, List.map_set, decodeControl_described]
    rw [← hc, ← List.getElem_map (fun c => (decodeControl L c).toOption) (h := by simpa using hlt),
      List.set_getElem_self]

theorem decodedControls_addLDAPDescriptions (packet : Packet) :
    decodedControls L (addLDAPDescriptions (addControlDescriptions L) packet).1 = decodedControls L packet := by
  refine frame_addLDAPDescriptions (decodedControls L) (fun _ _ => rfl) (fun i hi f _ p => ?_) (fun p => ?_) packet
  · unfold decodedControls onPath
    split
    · rfl
    · rw [List.getElem?_set_ne (by omega)]
  · unfold decodedControls onPath
    cases h2 : p.children[2]? with
    | none =>
      simp only
      rw [h2]
    | some controls =>
      obtain ⟨hlt, -⟩ := List.getElem?_eq_some_iff.mp h2
      simp only [onPath]
      rw [List.getElem?_set_self hlt, Option.map_some, Option.map_some, decoded_addControlDescriptions]

/-- However often a message was described, its controls decode to what they decode to on the wire. -/
theorem decodedControls_described (packet : Packet) (runs : ℕ) :
    decodedControls L ((fun p => (addLDAPDescriptions (addControlDescriptions L) p).1)^[runs] packet) =
      decodedControls L packet := by
  induction runs generalizing packet with
  | zero => rfl
  | succ runs ih => rw [Function.iterate_succ_apply, ih, decodedControls_addLDAPDescriptions]

end

end GoLdap
