import GoLdap.Control.Decode
import GoLdap.Ber.Basic

/-!
# Control.Total — where `DecodeControl` panics

A server can send any tree as a control.  The packets `DecodeControl` answers with a control or an error are
characterised by their children: six of the control types need a value that the message may leave out, and three of them
look into the value without checking what is there.
-/

namespace GoLdap

open Go Ber

/-! ## What a packet says -/

/-- The packet is a control of the given type, with or without a value. -/
inductive ControlOf (p : Packet) (controlType : GoString) : Option Packet → Prop
  | bare (t : Packet) (hp : p.children = [t]) (ht : t.value = .string controlType) : ControlOf p controlType none
  | critical (t x : Packet) (b : Bool) (hp : p.children = [t, x])
      (ht : t.value = .string controlType ∨ t.value = .nil ∧ t.data = controlType) (hx : x.value = .bool b) :
      ControlOf p controlType none
  | valued (t v : Packet) (hp : p.children = [t, v])
      (ht : t.value = .string controlType ∨ t.value = .nil ∧ t.data = controlType) (hv : ∀ b, v.value ≠ .bool b) :
      ControlOf p controlType (some v)
  | full (t x v : Packet) (b : Bool) (hp : p.children = [t, x, v]) (ht : t.value = .string controlType)
      (hx : x.value = .bool b) : ControlOf p controlType (some v)

theorem controlTypeOf_eq_ok {t : Packet} {ct : GoString} : controlTypeOf t = .ok ct ↔ t.value = .string ct := by
  unfold controlTypeOf
  cases t.value <;> simp

theorem controlTypeOrData_eq_ok {t : Packet} {ct : GoString} :
    controlTypeOrData t = .ok ct ↔ t.value = .string ct ∨ t.value = .nil ∧ t.data = ct := by
  unfold controlTypeOrData
  cases t.value <;> simp

/-- `DecodeControl` finds the type and the value that the packet has. -/
theorem controlHeader_eq_ok {p : Packet} {ct : GoString} {v : Option Packet} :
    (∃ crit, controlHeader p = .ok ⟨ct, crit, v⟩) ↔ ControlOf p ct v := by
  constructor
  · rintro ⟨crit, h⟩
    unfold controlHeader at h
    split at h
    · cases h
    · rename_i t hp
      obtain ⟨ct', ht, h⟩ := except_bind_eq_ok.mp h
      cases h
      exact .bare t hp (controlTypeOf_eq_ok.mp ht)
    · rename_i t x hp
      obtain ⟨ct', ht, h⟩ := except_bind_eq_ok.mp h
      have ht' := controlTypeOrData_eq_ok.mp ht
      split at h
      · rename_i hx
        cases h
        exact .critical t x crit hp ht' hx
      · rename_i hx
        cases h
        exact .valued t x hp ht' hx
    · rename_i t x value hp
      obtain ⟨ct', ht, h⟩ := except_bind_eq_ok.mp h
      split at h
      · rename_i hx
        cases h
        exact .full t x value crit hp (controlTypeOf_eq_ok.mp ht) hx
      · cases h
    · cases h
  · intro h
    unfold controlHeader
    cases h with
    | bare t hp ht => simp [hp, controlTypeOf_eq_ok.mpr ht]
    | critical t x b hp ht hx => simp [hp, controlTypeOrData_eq_ok.mpr ht, hx]
    | valued t v hp ht hv => simp [hp, controlTypeOrData_eq_ok.mpr ht]
    | full t x v b hp ht hx => simp [hp, controlTypeOf_eq_ok.mpr ht, hx]

section

variable (L : Codec)

/-- The octets of a value are to be decoded, and they cannot be. -/
def Unreadable (value : Packet) : Prop := value.value ≠ .nil ∧ ∃ e, L.decodePacketErr value.data = .error e

/-- The first element inside a value: its first child, or what its octets are decoded to. -/
inductive FirstElement (value c : Packet) : Prop
  | child (h : value.children.head? = some c) (hv : value.value = .nil ∨ ∃ d, L.decodePacketErr value.data = .ok d)
  | decoded (h : value.children = []) (hv : value.value ≠ .nil) (hd : L.decodePacketErr value.data = .ok c)

/-- A warning without an element in it. -/
def EmptyWarning (c : Packet) : Prop := c.tag = 0 ∧ c.children = []

/-- An element of a password policy response that is an error: a warning that is no number, or a code above eight. -/
def RejectedElement (c : Packet) : Prop :=
  (c.tag = 0 ∧ ∃ w e, c.children.head? = some w ∧ L.parseInt64 w.data = .error e) ∨
    (c.tag = 1 ∧ ¬ ∃ b ≤ (8 : UInt8), c.data = [b])

def IsInt (v : Value) : Prop := ∃ n, v = .int n

/-- The values each control type can cope with. -/
def SafeValue : ControlKind → Option Packet → Prop
  | .beheraPasswordPolicy, some value => Unreadable L value ∨ ∃ sequence, FirstElement L value sequence ∧
      ∀ pre c post, sequence.children = pre ++ c :: post → EmptyWarning c → ∃ d ∈ pre, RejectedElement L d
  | .dirSync, some value => Unreadable L value ∨ ∃ sequence, FirstElement L value sequence ∧
      ∀ flags count cookie, sequence.children = [flags, count, cookie] → IsInt flags.value ∧ IsInt count.value
  | .syncState, some value => ∀ sequence, L.decodePacketErr value.data = .ok sequence →
      ∀ state rest, sequence.children = state :: rest → rest.length = 1 ∨ rest.length = 2 → IsInt state.value
  | .beheraPasswordPolicy, none | .dirSync, none | .syncState, none => False
  | .serverSideSorting, none | .syncDone, none | .syncInfo, none => False
  | _, _ => True

/-! ## The cases -/

theorem expandValue_cases (value : Packet) :
    (Unreadable L value ∧ ∃ e, expandValue L value = .err e) ∨
      (¬ Unreadable L value ∧ ∃ v, expandValue L value = .ok v ∧
        ∀ c, v.children.head? = some c ↔ FirstElement L value c) := by
  by_cases hnil : value.value = .nil
  · refine .inr ⟨fun h => h.1 hnil, value, by rw [expandValue, if_pos hnil], fun c => ⟨fun h => .child h (.inl hnil), ?_⟩⟩
    rintro (⟨h, -⟩ | ⟨-, hv, -⟩)
    · exact h
    · exact absurd hnil hv
  · cases hd : L.decodePacketErr value.data with
    | error e =>
      refine .inl ⟨⟨hnil, e, hd⟩, errDecode e, ?_⟩
      rw [expandValue, if_neg hnil, decodeData, hd]
      rfl
    | ok d =>
      have hread : ¬ Unreadable L value := by
        rintro ⟨-, e, he⟩
        rw [hd] at he
        cases he
      have hexp : expandValue L value = .ok ({ value with data := [], value := .nil }.appendChild L.toEncoder d) := by
        rw [expandValue, if_neg hnil, decodeData, hd]
        rfl
      refine .inr ⟨hread, _, hexp, fun c => ?_⟩
      cases hcs : value.children with
      | nil =>
        simp only [Packet.appendChild, List.nil_append, List.head?_cons, Option.some.injEq]
        constructor
        · rintro rfl
          exact .decoded hcs hnil hd
        · rintro (⟨h, -⟩ | ⟨-, -, hc⟩)
          · rw [hcs] at h
            cases h
          · rw [hd] at hc
            exact Except.ok.inj hc
      | cons x xs =>
        simp only [Packet.appendChild, List.cons_append, List.head?_cons, Option.some.injEq]
        constructor
        · rintro rfl
          exact .child (by rw [hcs]; rfl) (.inr ⟨d, hd⟩)
        · rintro (⟨h, -⟩ | ⟨h, -, -⟩)
          · rw [hcs] at h
            exact Option.some.inj h
          · rw [hcs] at h
            cases h

/-- What is inside a value is looked at only if there is a first element. -/
theorem inside_ne_panic {f : Packet → Outcome Err Control} (value : Packet) :
    ((expandValue L value >>= fun v => Outcome.index v.children 0 >>= f) ≠ .panic) ↔
      Unreadable L value ∨ ∃ sequence, FirstElement L value sequence ∧ f sequence ≠ .panic := by
  rcases expandValue_cases L value with ⟨hu, e, he⟩ | ⟨hu, v, hv, hfirst⟩
  · rw [he, Outcome.err_bind]
    exact iff_of_true (by rintro ⟨⟩) (.inl hu)
  · rw [hv, Outcome.ok_bind, or_iff_right hu]
    cases hcs : v.children with
    | nil =>
      refine iff_of_false (by simp [Outcome.index]) ?_
      rintro ⟨c, hc, -⟩
      have := (hfirst c).mpr hc
      rw [hcs] at this
      cases this
    | cons c cs =>
      have hc : FirstElement L value c := (hfirst c).mp (by rw [hcs]; rfl)
      simp only [Outcome.index, List.getElem?_cons_zero, Outcome.ok_bind]
      constructor
      · exact fun h => ⟨c, hc, h⟩
      · rintro ⟨d, hd, h⟩
        have := (hfirst d).mpr hd
        rw [hcs, List.head?_cons, Option.some.injEq] at this
        rwa [this]

theorem beheraElement_eq_panic (c : ControlBeheraPasswordPolicy) (child : Packet) :
    beheraElement L c child = .panic ↔ EmptyWarning child := by
  unfold beheraElement EmptyWarning
  by_cases h0 : child.tag = 0
  · rw [if_pos h0]
    cases hcs : child.children with
    | nil => simp [Outcome.index, h0]
    | cons w ws =>
      simp only [Outcome.index, List.getElem?_cons_zero, Outcome.ok_bind]
      refine iff_of_false ?_ (by simp)
      split
      · simp
      · split_ifs <;> simp
  · rw [if_neg h0]
    refine iff_of_false ?_ fun h => h0 h.1
    split_ifs
    · split
      · split_ifs <;> simp
      · simp
    · simp

theorem beheraElement_eq_err (c : ControlBeheraPasswordPolicy) (child : Packet) :
    (∃ e, beheraElement L c child = .err e) ↔ RejectedElement L child := by
  unfold beheraElement RejectedElement
  by_cases h0 : child.tag = 0
  · rw [if_pos h0]
    simp only [h0, true_and, zero_ne_one, false_and, or_false]
    cases hcs : child.children with
    | nil => simp [Outcome.index]
    | cons w ws =>
      simp only [Outcome.index, List.getElem?_cons_zero, Outcome.ok_bind, List.head?_cons, Option.some.injEq]
      cases hp : L.parseInt64 w.data with
      | error e => exact iff_of_true ⟨_, rfl⟩ ⟨w, e, rfl, hp⟩
      | ok n =>
        refine iff_of_false ?_ ?_
        · simp only
          split_ifs <;> simp
        · rintro ⟨w', e, rfl, he⟩
          rw [hp] at he
          cases he
  · rw [if_neg h0]
    simp only [h0, false_and, false_or]
    by_cases h1 : child.tag = 1
    · rw [if_pos h1, and_iff_right h1]
      split
      · rename_i b hb
        by_cases h8 : 8 < b
        · rw [if_pos h8]
          refine iff_of_true ⟨_, rfl⟩ ?_
          rintro ⟨b', hle, heq⟩
          rw [hb] at heq
          obtain rfl : b = b' := List.head_eq_of_cons_eq heq
          exact absurd h8 (UInt8.not_lt.mpr hle)
        · rw [if_neg h8]
          exact iff_of_false (by simp) fun h => h ⟨b, UInt8.not_lt.mp h8, hb⟩
      · rename_i hb
        refine iff_of_true ⟨_, rfl⟩ ?_
        rintro ⟨b, -, heq⟩
        exact hb b heq
    · rw [if_neg h1]
      exact iff_of_false (by simp) fun h => h1 h.1

theorem decodeBehera_ne_panic (v : Option Packet) :
    decodeBehera L v ≠ .panic ↔ SafeValue L .beheraPasswordPolicy v := by
  cases v with
  | none => exact iff_of_false (fun h => h rfl) (by rintro ⟨⟩)
  | some value =>
    rw [SafeValue, decodeBehera, deref, Outcome.ok_bind, inside_ne_panic]
    refine or_congr_right (exists_congr fun sequence => and_congr_right fun _ => ?_)
    rw [ne_eq, Outcome.map_eq_panic, Outcome.foldlM_eq_panic (beheraElement_eq_panic L) (beheraElement_eq_err L)]
    constructor
    · intro h pre c post heq hc
      by_contra hno
      exact h ⟨pre, c, post, heq, hc, fun d hd hr => hno ⟨d, hd, hr⟩⟩
    · rintro h ⟨pre, c, post, heq, hc, hpre⟩
      obtain ⟨d, hd, hr⟩ := h pre c post heq hc
      exact hpre d hd hr

theorem assertInt_eq_panic (v : Value) : assertInt v = .panic ↔ ¬ IsInt v := by
  cases v <;> simp [assertInt, IsInt]

theorem decodeDirSync_ne_panic (v : Option Packet) :
    (deref v >>= newResponseControlDirSync L) ≠ .panic ↔ SafeValue L .dirSync v := by
  cases v with
  | none => exact iff_of_false (fun h => h rfl) (by rintro ⟨⟩)
  | some value =>
    rw [SafeValue, deref, Outcome.ok_bind, newResponseControlDirSync, inside_ne_panic]
    refine or_congr_right (exists_congr fun sequence => and_congr_right fun _ => ?_)
    split
    · rename_i flags count cookie hcs
      cases hf : flags.value <;> cases hc : count.value <;>
        simp [assertInt, IsInt, hcs, hf, hc, ← and_assoc]
    · rename_i hcs
      exact iff_of_true (by rintro ⟨⟩) fun flags count cookie heq => absurd heq (hcs flags count cookie)

theorem decodeUUID_ne_panic (b : GoString) : decodeUUID L b ≠ .panic := by
  unfold decodeUUID
  split <;> simp

theorem newControlSyncState_eq_panic (pkt : Packet) : newControlSyncState L pkt = .panic ↔
    ∃ state rest, pkt.children = state :: rest ∧ (rest.length = 1 ∨ rest.length = 2) ∧ ¬ IsInt state.value := by
  have huuid : ∀ (state entryUUID : Packet) (cookie : GoString),
      ((assertInt state.value >>= fun n => decodeUUID L entryUUID.byteValue >>= fun u =>
        (.ok (.syncState ⟨false, Int64.ofInt n, u, cookie⟩) : Outcome Err Control)) = .panic) ↔ ¬ IsInt state.value := by
    intro state entryUUID cookie
    cases hs : assertInt state.value with
    | ok n =>
      have hint : IsInt state.value := by
        by_contra h
        rw [(assertInt_eq_panic _).mpr h] at hs
        cases hs
      refine iff_of_false ?_ fun h => h hint
      rw [Outcome.ok_bind]
      cases hu : decodeUUID L entryUUID.byteValue with
      | ok u => simp
      | err e => simp
      | panic => exact absurd hu (decodeUUID_ne_panic L _)
    | err e =>
      cases hv : state.value <;> simp [hv, assertInt] at hs
    | panic => exact iff_of_true rfl ((assertInt_eq_panic _).mp hs)
  unfold newControlSyncState
  split
  · rename_i h
    exact iff_of_false (by rintro ⟨⟩) (by simp [h])
  · rename_i h
    exact iff_of_false (by rintro ⟨⟩) (by simp [h])
  · rename_i state entryUUID h
    rw [huuid, h]
    simp
  · rename_i state entryUUID cookie h
    rw [huuid, h]
    simp
  · rename_i h1 h2 h3 h4
    refine iff_of_false (by rintro ⟨⟩) ?_
    rintro ⟨state, rest, h, hlen | hlen, -⟩
    · obtain ⟨x, rfl⟩ := List.length_eq_one_iff.mp hlen
      exact h3 state x h
    · obtain ⟨x, y, rfl⟩ := List.length_eq_two.mp hlen
      exact h4 state x y h

theorem decodeData_bind_ne_panic (value : Packet) (decode : Packet → Outcome Err Control) :
    (decodeData L value >>= decode) ≠ .panic ↔
      ∀ child, L.decodePacketErr value.data = .ok child → decode child ≠ .panic := by
  unfold decodeData
  cases L.decodePacketErr value.data <;> simp

theorem decodeSyncState_ne_panic (v : Option Packet) :
    decodeSyncValue L (newControlSyncState L) v ≠ .panic ↔ SafeValue L .syncState v := by
  cases v with
  | none => exact iff_of_false (fun h => h rfl) (by rintro ⟨⟩)
  | some value =>
    rw [SafeValue, decodeSyncValue, deref, Outcome.ok_bind, decodeData_bind_ne_panic]
    refine forall₂_congr fun sequence _ => ?_
    rw [ne_eq, newControlSyncState_eq_panic]
    constructor
    · intro h state rest heq hlen
      by_contra hno
      exact h ⟨state, rest, heq, hlen, hno⟩
    · rintro h ⟨state, rest, heq, hlen, hno⟩
      exact hno (h state rest heq hlen)

/-- The other two synchronisation controls need a value and nothing more. -/
theorem decodeSyncValue_ne_panic {decode : Packet → Outcome Err Control} (hdecode : ∀ p, decode p ≠ .panic)
    (v : Option Packet) : decodeSyncValue L decode v ≠ .panic ↔ v ≠ none := by
  cases v with
  | none => exact iff_of_false (fun h => h rfl) (fun h => h rfl)
  | some value =>
    rw [decodeSyncValue, deref, Outcome.ok_bind, decodeData_bind_ne_panic]
    exact iff_of_true (fun child _ => hdecode child) (by rintro ⟨⟩)

theorem decodeUUIDs_ne_panic (cs : List Packet) : decodeUUIDs L cs ≠ .panic := by
  induction cs with
  | nil => rintro ⟨⟩
  | cons c cs ih =>
    rw [decodeUUIDs]
    cases hu : decodeUUID L c.byteValue with
    | ok u =>
      rw [Outcome.ok_bind]
      cases hus : decodeUUIDs L cs with
      | ok us => rintro ⟨⟩
      | err e => rintro ⟨⟩
      | panic => exact absurd hus ih
    | err e => rintro ⟨⟩
    | panic => exact absurd hu (decodeUUID_ne_panic L _)

theorem newControlSyncDone_ne_panic (pkt : Packet) : newControlSyncDone pkt ≠ .panic := by
  unfold newControlSyncDone
  rintro ⟨⟩

theorem newControlSyncInfo_ne_panic (pkt : Packet) : newControlSyncInfo L pkt ≠ .panic := by
  unfold newControlSyncInfo
  simp only
  split
  · rintro ⟨⟩
  · rintro ⟨⟩
  · rintro ⟨⟩
  · cases hus : decodeUUIDs L (((parseSyncMembers pkt.children).uuidSet.map Packet.children).getD []) with
    | ok us => rintro ⟨⟩
    | err e => rintro ⟨⟩
    | panic => exact absurd hus (decodeUUIDs_ne_panic L _)
  · rintro ⟨⟩

theorem newControlServerSideSorting_ne_panic (v : Option Packet) :
    newControlServerSideSorting L v ≠ .panic ↔ v ≠ none := by
  cases v with
  | none => exact iff_of_false (fun h => h rfl) (fun h => h rfl)
  | some value =>
    refine iff_of_true ?_ (by rintro ⟨⟩)
    rw [newControlServerSideSorting, deref, Outcome.ok_bind]
    split
    · rintro ⟨⟩
    · split_ifs
      · rintro ⟨⟩
      · rw [ne_eq, Outcome.map_eq_panic]
        cases sortKeysFrom 0 _ <;> rintro ⟨⟩

theorem decodePaging_ne_panic (v : Option Packet) : decodePaging L v ≠ .panic := by
  cases v with
  | none => rintro ⟨⟩
  | some value =>
    rw [decodePaging]
    rcases expandValue_cases L value with ⟨-, e, he⟩ | ⟨-, v, hv, -⟩
    · rw [he]
      rintro ⟨⟩
    · rw [hv, Outcome.ok_bind]
      split
      · rintro ⟨⟩
      · split
        · split <;> rintro ⟨⟩
        · rintro ⟨⟩

theorem newControlServerSideSortingResult_ne_panic (v : Option Packet) :
    newControlServerSideSortingResult L v ≠ .panic := by
  unfold newControlServerSideSortingResult
  split
  · rintro ⟨⟩
  · split
    · rintro ⟨⟩
    · split_ifs <;> rintro ⟨⟩

theorem decodeVChuPasswordWarning_ne_panic (v : Option Packet) : decodeVChuPasswordWarning v ≠ .panic := by
  unfold decodeVChuPasswordWarning
  split
  · rintro ⟨⟩
  · split <;> rintro ⟨⟩

/-- One case for each control type. -/
theorem decodeByKind_ne_panic (h : ControlHeader) (kind : ControlKind) :
    decodeByKind L h kind ≠ .panic ↔ SafeValue L kind h.value := by
  have hnone : ∀ {k : ControlKind}, (SafeValue L k none ↔ False) → (∀ v, SafeValue L k (some v) ↔ True) →
      (h.value ≠ none ↔ SafeValue L k h.value) := by
    intro k h0 h1
    cases h.value with
    | none => rw [h0]; simp
    | some v => rw [h1]; simp
  cases kind with
  | beheraPasswordPolicy => exact decodeBehera_ne_panic L h.value
  | dirSync => exact decodeDirSync_ne_panic L h.value
  | syncState => exact decodeSyncState_ne_panic L h.value
  | syncDone =>
    exact (decodeSyncValue_ne_panic L newControlSyncDone_ne_panic h.value).trans
      (hnone (k := .syncDone) .rfl fun _ => .rfl)
  | syncInfo =>
    exact (decodeSyncValue_ne_panic L (newControlSyncInfo_ne_panic L) h.value).trans
      (hnone (k := .syncInfo) .rfl fun _ => .rfl)
  | serverSideSorting =>
    exact (newControlServerSideSorting_ne_panic L h.value).trans
      (hnone (k := .serverSideSorting) .rfl fun _ => .rfl)
  | paging => exact iff_of_true (decodePaging_ne_panic L h.value) trivial
  | serverSideSortingResult => exact iff_of_true (newControlServerSideSortingResult_ne_panic L h.value) trivial
  | vChuPasswordWarning => exact iff_of_true (decodeVChuPasswordWarning_ne_panic h.value) trivial
  | _ => exact iff_of_true (by rintro ⟨⟩) trivial

/-- `DecodeControl` returns a control or an error exactly if the value, or the lack of one, is safe for the type. -/
theorem decodeControl_returns_iff (p : Packet) :
    ((∃ c, decodeControl L p = .ok c) ∨ ∃ e, decodeControl L p = .err e) ↔
      ∀ controlType value, ControlOf p controlType value → SafeValue L (kindOf controlType) value := by
  have hne : ((∃ c, decodeControl L p = .ok c) ∨ ∃ e, decodeControl L p = .err e) ↔ decodeControl L p ≠ .panic := by
    cases decodeControl L p <;> simp
  rw [hne, decodeControl]
  cases hh : controlHeader p with
  | error e =>
    refine iff_of_true (by rintro ⟨⟩) fun ct v hc => ?_
    obtain ⟨crit, hok⟩ := controlHeader_eq_ok.mpr hc
    rw [hh] at hok
    cases hok
  | ok h =>
    simp only
    rw [decodeByKind_ne_panic]
    constructor
    · intro hsafe ct v hc
      obtain ⟨crit, hok⟩ := controlHeader_eq_ok.mpr hc
      rw [hh] at hok
      cases hok
      exact hsafe
    · exact fun hall => hall h.controlType h.value (controlHeader_eq_ok.mp ⟨h.criticality, hh⟩)

/-- A password policy control without a value is a nil dereference. -/
theorem decodeControl_behera_without_value : ∃ p, OffTheWire basicPrimitives p ∧
    p.children.map Packet.data = [controlTypeBeheraPasswordPolicy] ∧ decodeControl basicCodec p = .panic := by
  refine ⟨readConstructed basicPrimitives.toEncoder .universal tagSequence
    [wirePrimitive basicPrimitives .universal tagOctetString controlTypeBeheraPasswordPolicy], ?_, rfl, rfl⟩
  refine .constructed _ _ _ fun c hc => ?_
  rw [List.mem_singleton.mp hc]
  exact .primitive _ _ _

end

end GoLdap
