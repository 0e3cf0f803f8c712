import GoLdap.Bind.Simple
import GoLdap.Compare
import GoLdap.Protocol.Message
import GoLdap.Search.Complete
import GoLdap.Search.Robust
import GoLdap.Update

/-!
# Protocol.Replies — what the client makes of a response

A response of the server is read off the wire, described by the reader and, in debug mode, once more by the call.  None of
this fails on a response that the server has built, and none of it is seen in what the call returns.
-/

namespace GoLdap

open Go Ber Octets Assign

/-! ## Descriptions that are added without an error -/

/-- The descendant at a path of indices. -/
def descendant : List ℕ → Packet → Option Packet
  | [], p => some p
  | i :: path, p => p.children[i]?.bind (descendant path)

theorem onPath_ends {path : List ℕ} {p c : Packet} (h : descendant path p = some c) (f : Assign) :
    (onPath path f p).2 = (f c).2 := by
  induction path generalizing p with
  | nil => rw [onPath, ← Option.some.inj h]
  | cons i path ih =>
    obtain ⟨d, hd, hc⟩ := Option.bind_eq_some_iff.mp h
    unfold onPath
    rw [hd]
    exact ih hc

theorem describe_ends {path : List ℕ} {p c : Packet} (h : descendant path p = some c) (text : GoString) :
    (describe path text p).2 = .ok () := onPath_ends h _

/-- Assignments to descriptions end well one after the other if each of them does on the packet as it is. -/
theorem all_ends {fs : List Assign} {p : Packet}
    (h : ∀ f ∈ fs, Neutral (fun _ => True) f ∧ (f p).2 = .ok ()) : (Assign.all fs p).2 = .ok () := by
  suffices hall : ∀ q : Packet, q.undescribed = p.undescribed → (Assign.all fs q).2 = .ok () from hall p rfl
  induction fs with
  | nil => exact fun _ _ => rfl
  | cons f fs ih =>
    obtain ⟨⟨hneutral, hends⟩, hfs⟩ := List.forall_mem_cons.mp h
    intro q hq
    have hok : (f q).2 = .ok () := (hneutral.ending trivial hq).trans hends
    have hkeep : (f q).1.undescribed = q.undescribed := hneutral.keeps trivial
    rw [Assign.all, andThen]
    generalize f q = r at hok hkeep
    obtain ⟨r, _⟩ := r
    obtain rfl : _ = Outcome.ok () := hok
    exact ih hfs r (hkeep.trans hq)

section

variable {p op : Packet}

/-- The components of a result are described. -/
theorem describeComponents_ends {code dn message : Packet} {more : List Packet}
    (hcs : op.children = code :: dn :: message :: more) (resultCode : ℕ) (matchedDN text : GoString) :
    (describeComponents resultCode matchedDN text op).2 = .ok () := by
  have hreferral : (whenCount (3 < ·) (describe [3] (str "Referral")) op).2 = .ok () := by
    unfold whenCount
    split
    · cases more with
      | nil => simp [hcs] at *
      | cons c more => exact describe_ends (c := c) (by simp [descendant, hcs]) _
    · rfl
  refine all_ends ?_
  simp only [List.forall_mem_cons, List.not_mem_nil, false_implies, implies_true, and_true]
  refine ⟨⟨.describe _ _, describe_ends (c := code) ?_ _⟩, ⟨.describe _ _, describe_ends (c := dn) ?_ _⟩,
    ⟨.describe _ _, describe_ends (c := message) ?_ _⟩, .whenCount (.describe _ _), hreferral⟩
  all_goals simp [descendant, hcs]

theorem describeResult_ends {code dn message : Packet} {more : List Packet}
    (hcs : op.children = code :: dn :: message :: more) (hp : getLDAPError p ≠ .panic) :
    (describeResult (getLDAPError p) op).2 = .ok () := by
  obtain hok | ⟨resultCode, matchedDN, cause, herr⟩ | hpanic := getLDAPError_cases p
  · rw [hok]
    exact describeComponents_ends hcs _ _ _
  · rw [herr]
    exact describeComponents_ends hcs _ _ _
  · exact absurd hpanic hp

/-- All children are described. -/
theorem describeEach_ends {f : ℕ → Assign} (hf : ∀ i, Neutral (fun _ => True) (f i))
    (h : ∀ i c, p.children[i]? = some c → (f i p).2 = .ok ()) : (describeEach f p).2 = .ok () := by
  refine all_ends fun g hg => ?_
  obtain ⟨i, hi, rfl⟩ := List.mem_map.mp hg
  have hlt : i < p.children.length := List.mem_range.mp hi
  exact ⟨hf i, h i _ (List.getElem?_eq_getElem hlt)⟩

/-- An attribute has a type and values. -/
def IsAttribute (c : Packet) : Prop := ∃ type vals, c.children = [type, vals]

theorem describeEntry_ends {name attributes : Packet} (hop : op.children = [name, attributes])
    (hattrs : ∀ c ∈ attributes.children, IsAttribute c) : (describeEntry op).2 = .ok () := by
  have hvalues (vals : Packet) : (describeEach (fun j => describe [j] (str "Attribute Value")) vals).2 = .ok () :=
    describeEach_ends (fun j => .describe _ _) fun j c hc => describe_ends (c := c) (by simp [descendant, hc]) _
  refine all_ends ?_
  simp only [List.forall_mem_cons, List.not_mem_nil, false_implies, implies_true, and_true]
  refine ⟨⟨.describe _ _, describe_ends (c := name) (by simp [descendant, hop]) _⟩,
    ⟨.describe _ _, describe_ends (c := attributes) (by simp [descendant, hop]) _⟩, ?_⟩
  have hneutral (i : ℕ) : Neutral (fun _ => True) (Assign.all [describe [i] (str "Attribute"),
      describe [i, 0] (str "Attribute Name"), describe [i, 1] (str "Attribute Values"),
      onPath [i, 1] (describeEach fun j => describe [j] (str "Attribute Value"))]) := by
    refine .all ?_
    simp only [List.forall_mem_cons, List.not_mem_nil, false_implies, implies_true, and_true]
    exact ⟨.describe _ _, .describe _ _, .describe _ _, .onPath (.describeEach fun j => .describe _ _) _⟩
  refine ⟨.onPath (.describeEach hneutral) _, ?_⟩
  rw [onPath_ends (c := attributes) (by simp [descendant, hop])]
  refine describeEach_ends hneutral fun i c hc => all_ends ?_
  obtain ⟨type, vals, hcs⟩ := hattrs c (List.mem_of_getElem? hc)
  simp only [List.forall_mem_cons, List.not_mem_nil, false_implies, implies_true, and_true]
  refine ⟨⟨.describe _ _, describe_ends (c := c) (by simp [descendant, hc]) _⟩,
    ⟨.describe _ _, describe_ends (c := type) (by simp [descendant, hc, hcs]) _⟩,
    ⟨.describe _ _, describe_ends (c := vals) (by simp [descendant, hc, hcs]) _⟩,
    .onPath (.describeEach fun j => .describe _ _) _, ?_⟩
  rw [onPath_ends (c := vals) (by simp [descendant, hc, hcs])]
  exact hvalues vals

/-- An operation with the components of a result. -/
def HasResult (op : Packet) : Prop :=
  ∃ code dn message more, op.children = code :: dn :: message :: more ∧ op.tag % 256 ≠ applicationSearchResultEntry

/-- An entry with a list of attributes. -/
def IsEntry (op : Packet) : Prop :=
  op.tag = applicationSearchResultEntry ∧ ∃ name attributes, op.children = [name, attributes] ∧
    ∀ c ∈ attributes.children, IsAttribute c

/-- A message as a server writes it, without controls. -/
inductive WellFormedReply (p : Packet) : Prop
  | result {mid op : Packet} (hp : p.children = [mid, op]) (hop : HasResult op) (hresult : getLDAPError p ≠ .panic)
  | entry {mid op : Packet} (hp : p.children = [mid, op]) (hop : IsEntry op)
  | reference {mid op : Packet} (hp : p.children = [mid, op]) (hop : op.tag = applicationSearchResultReference)

theorem describeApplication_ends {addControlDescriptions : Assign} {mid : Packet} (hp : p.children = [mid, op]) (n : ℕ) :
    (describeApplication addControlDescriptions n p).2 = (describeBody (getLDAPError p) n op).2 := by
  have hrequest : (addRequestDescriptions addControlDescriptions p).2 = .ok () := by
    rw [addRequestDescriptions, Assign.all, Assign.all, Assign.all, Assign.all, Assign.all, andThen_skip]
    simp [andThen, describe, onPath, describeOperation, describeControls, whenCount, skip, hp]
  unfold describeApplication
  split
  any_goals exact hrequest
  · rw [addDefaultLDAPResponseDescriptions, onPath_operation hp]
    rfl
  · rw [addDefaultLDAPResponseDescriptions, onPath_operation hp]
    rfl
  · rw [onPath_operation hp]
    rfl
  · rename_i h1 h5 h4 _ _ _ _ _ _ _ _ _ _
    rw [describeBody.eq_4 _ _ h1 h5 h4]
    rfl

/-- The reader and the calls add the descriptions of such a message without an error. -/
theorem WellFormedReply.describable (h : WellFormedReply p) (addControlDescriptions : Assign) :
    (addLDAPDescriptions addControlDescriptions p).2 = none := by
  suffices hbody : ∃ mid op, p.children = [mid, op] ∧ ∀ (q : Packet) (text : GoString), getLDAPError q = getLDAPError p →
      (describeBody (getLDAPError q) (op.tag % 256) { op with description := text }).2 = .ok () by
    obtain ⟨mid, op, hp, hbody⟩ := hbody
    rw [addLDAPDescriptions, describePacket_two hp]
    show recovered _ = none
    rw [describeApplication_ends rfl, hbody]
    · rfl
    rw [← getLDAPError_undescribed p, ← getLDAPError_undescribed { p with description := _, children := _ },
      Packet.undescribed_eq p, hp, Packet.undescribed_eq { p with description := _, children := _ }]
    simp only [List.map_cons, List.map_nil]
    rw [Packet.undescribed_eq mid, Packet.undescribed_eq op, Packet.undescribed_eq { mid with description := _ },
      Packet.undescribed_eq { op with description := _ }]
  cases h with
  | @result mid op hp hop hresult =>
    obtain ⟨code, dn, message, more, hcs, htag⟩ := hop
    refine ⟨mid, op, hp, fun q text hq => ?_⟩
    generalize op.tag % 256 = n at htag ⊢
    unfold describeBody
    split
    · exact describeResult_ends hcs (hq ▸ hresult)
    · exact describeResult_ends hcs (hq ▸ hresult)
    · contradiction
    · rfl
  | @entry mid op hp hop =>
    obtain ⟨htag, name, attributes, hcs, hattrs⟩ := hop
    refine ⟨mid, op, hp, fun q text _ => ?_⟩
    rw [htag]
    exact describeEntry_ends hcs hattrs
  | @reference mid op hp hop =>
    refine ⟨mid, op, hp, fun q text _ => ?_⟩
    rw [hop]
    rfl

theorem WellFormedReply.length (h : WellFormedReply p) : p.children.length = 2 := by
  cases h with
  | result hp _ _ => rw [hp]; rfl
  | entry hp _ => rw [hp]; rfl
  | reference hp _ => rw [hp]; rfl

/-- In debug mode such a message gets its descriptions, whatever descriptions it has. -/
theorem WellFormedReply.inDebug (h : WellFormedReply p) (addControlDescriptions : Assign) (debug : Bool) {q : Packet}
    (hq : q.undescribed = p.undescribed) :
    ∃ r, describeInDebug addControlDescriptions debug q = .ok r ∧ r.undescribed = p.undescribed := by
  have hcontrols : WithoutControls q := by
    rw [WithoutControls, Packet.length_children_eq hq, h.length]
    decide
  cases debug with
  | false => exact ⟨q, rfl, hq⟩
  | true =>
    have herror := (addLDAPDescriptions_error hcontrols hq).trans (h.describable addControlDescriptions)
    refine ⟨(addLDAPDescriptions addControlDescriptions q).1, ?_, (addLDAPDescriptions_undescribed hcontrols).trans hq⟩
    rw [describeInDebug, if_pos rfl, ← Prod.mk.eta (p := addLDAPDescriptions addControlDescriptions q), herror]

/-- What a call handles of such a message: the message itself, but for the descriptions. -/
theorem WellFormedReply.delivered (h : WellFormedReply p) (addControlDescriptions : Assign) (debug : Bool) :
    ∃ q, describeInDebug addControlDescriptions debug (handOver addControlDescriptions p) = .ok q ∧
      q.undescribed = p.undescribed :=
  h.inDebug addControlDescriptions debug (described_handOver h.length).same

end

/-! ## Results -/

/-- The error that a result stands for; there is none for a success. -/
def LDAPResult.err (r : LDAPResult) : Option Err :=
  if r.code = 0 then none else some (.ldap r.code r.matchedDN (.fmt "%v" r.message))

/-- What `GetLDAPError` finds. -/
def LDAPResult.outcome (r : LDAPResult) : Outcome Err Unit := r.err.elim (.ok ()) .err

/-- What a response is read as. -/
def received (L : LawfulCodec) (id : ℤ) (op : Packet) : Packet :=
  (responseMessage L.toEncoder id op []).wire L.toPrimitives

section

variable {L : LawfulCodec} {id : ℤ} {application : ℕ} {r : LDAPResult} {more : List Packet}

theorem children_received (op : Packet) : (received L id op).children =
    [(newInteger L.toEncoder .universal .primitive tagInteger id []).wire L.toPrimitives, op.wire L.toPrimitives] := by
  rw [received, responseMessage, wire_constructedOf, children_constructedOf]
  rfl

theorem LDAPResult.fits_code (r : LDAPResult) : Fits 8 (r.code : ℤ) := by
  have h := r.code_lt
  constructor <;> norm_num <;> omega

/-- The result of an operation, as it is read. -/
theorem wire_resultResponse : (resultResponse L.toEncoder application r more).wire L.toPrimitives =
    constructedOf L.toEncoder .application application []
      (readPrimitive .universal tagEnumerated (.int r.code) (L.integer r.code) ::
        readPrimitive .universal tagOctetString (.string r.matchedDN) r.matchedDN ::
        readPrimitive .universal tagOctetString (.string r.message) r.message :: more.map (Packet.wire L.toPrimitives)) := by
  rw [resultResponse, wire_constructedOf, LDAPResult.components]
  simp [wire_number L (.inr rfl) r.fits_code, wire_string]

theorem encodable_resultResponse (hmore : ∀ c ∈ more, Encodable L.toEncoder c) :
    Encodable L.toEncoder (resultResponse L.toEncoder application r more) := by
  have hcode : Conveys L (readNumber tagEnumerated) _ (r.code : ℤ) := conveys_number (d := []) (.inr rfl) r.fits_code
  have hdn := conveys_string (L := L) (d := []) r.matchedDN
  have hmessage := conveys_string (L := L) (d := []) r.message
  refine encodable_constructedOf fun c hc => ?_
  obtain hc | hc := List.mem_append.mp hc
  · simp only [LDAPResult.components, List.mem_cons, List.not_mem_nil, or_false] at hc
    obtain rfl | rfl | rfl := hc
    exacts [hcode.encodable, hdn.encodable, hmessage.encodable]
  · exact hmore c hc

theorem getLDAPError_received :
    getLDAPError (received L id (resultResponse L.toEncoder application r more)) = r.outcome := by
  have hlt := r.code_lt
  have hmod : (r.code : ℤ) % 65536 = r.code := Int.emod_eq_of_lt (by omega) (by omega)
  unfold getLDAPError LDAPResult.outcome LDAPResult.err
  rw [children_received, wire_resultResponse, constructedOf_eq]
  simp only [readPrimitive, typeOfTag, hmod, formatValue, Int.natCast_eq_zero, Int.toNat_natCast]
  split_ifs with hzero
  all_goals simp_all [tagOctetString, tagEnumerated]

/-- A response with a result is well-formed. -/
theorem wellFormed_result (happ : application % 256 ≠ applicationSearchResultEntry) :
    WellFormedReply (received L id (resultResponse L.toEncoder application r more)) := by
  have hop : HasResult ((resultResponse L.toEncoder application r more).wire L.toPrimitives) := by
    rw [HasResult, wire_resultResponse, children_constructedOf, tag_constructedOf]
    exact ⟨_, _, _, _, rfl, happ⟩
  refine .result (children_received _) hop ?_
  rw [getLDAPError_received, LDAPResult.outcome]
  cases r.err <;> rintro ⟨⟩

end

/-! ## What the calls return -/

/-- A function that does not look at descriptions. -/
theorem eq_of_undescribed {α : Type} {f : Packet → α} (hf : ∀ p : Packet, f p.undescribed = f p) {p q : Packet}
    (h : q.undescribed = p.undescribed) : f q = f p := by
  rw [← hf q, h, hf p]

section

variable {L : LawfulCodec} {id : ℤ} {application : ℕ} {r : LDAPResult} {more : List Packet}

theorem statusResponse_undescribed (application : ℕ) (p : Packet) :
    statusResponse application p.undescribed = statusResponse application p := by
  unfold statusResponse errMalformedResponse
  rw [getLDAPError_undescribed, Packet.undescribed_children, List.getElem?_map, List.length_map]
  cases p.children[1]? <;> simp

theorem statusResponse_received :
    statusResponse application (received L id (resultResponse L.toEncoder application r more)) = .returned r.err := by
  unfold statusResponse
  rw [children_received, getLDAPError_received, wire_resultResponse, LDAPResult.outcome]
  cases r.err <;> simp

theorem compareResponse_undescribed (p : Packet) : compareResponse p.undescribed = compareResponse p := by
  unfold compareResponse errMalformedResponse
  rw [getLDAPError_undescribed, Packet.undescribed_children, List.getElem?_map, List.length_map]
  cases p.children[1]? <;> simp

/-- What `Compare` is to return. -/
def LDAPResult.compared (r : LDAPResult) : Bool × Option Err :=
  if r.code = 6 then (true, none) else if r.code = 5 then (false, none) else (false, r.err)

theorem compareResponse_received :
    compareResponse (received L id (resultResponse L.toEncoder applicationCompareResponse r more)) =
      .returned r.compared := by
  unfold compareResponse
  rw [children_received, getLDAPError_received, wire_resultResponse, LDAPResult.outcome, LDAPResult.compared,
    LDAPResult.err]
  by_cases hzero : r.code = 0
  · simp [hzero]
  · simp only [hzero, if_false, Option.elim, List.getElem?_cons_succ, List.getElem?_cons_zero, tag_constructedOf, if_true,
      isErrorWithCode_ldap, ldapResultCompareTrue, ldapResultCompareFalse]
    split_ifs <;> rfl

/-- A message without controls. -/
theorem simpleBindResponse_of_two {C : Type} (decodeControl : Packet → Outcome Err C) {p mid op : Packet}
    (hp : p.children = [mid, op]) (hr : getLDAPError p = r.outcome) :
    simpleBindResponse decodeControl p = .returned (some [], r.err) := by
  unfold simpleBindResponse
  rw [hp, hr, LDAPResult.outcome]
  cases r.err <;> rfl

end

/-! ### Extended operations -/

section

variable {C : Type}

/-- What a caller sees of an extended response: the name, and the octets of the value. -/
def ExtendedResponse.observed (response : ExtendedResponse C) : GoString × Option GoString :=
  (response.name, response.value.map Packet.data)

def observeExtended (x : Option (ExtendedResponse C) × Option Err) : Option (GoString × Option GoString) × Option Err :=
  (x.1.map ExtendedResponse.observed, x.2)

/-- One turn of the loop, on what a caller sees. -/
def observeComponent (o : GoString × Option GoString) (child : Packet) : GoString × Option GoString :=
  if child.classType ≠ .context then o
  else if child.tag = tagEnumerated then (child.data, o.2)
  else if child.tag = tagEmbeddedPDV then (o.1, some child.data)
  else o

theorem observed_foldl (cs : List Packet) (response : ExtendedResponse C) :
    (cs.foldl ExtendedResponse.component response).observed = cs.foldl observeComponent response.observed := by
  induction cs generalizing response with
  | nil => rfl
  | cons c cs ih =>
    rw [List.foldl_cons, List.foldl_cons, ih]
    congr 1
    unfold ExtendedResponse.component observeComponent
    split_ifs <;> rfl

theorem foldl_observeComponent_undescribed (cs : List Packet) (o : GoString × Option GoString) :
    (cs.map Packet.undescribed).foldl observeComponent o = cs.foldl observeComponent o := by
  have hsame (o : GoString × Option GoString) (c : Packet) : observeComponent o c.undescribed = observeComponent o c := by
    simp [observeComponent]
  rw [List.foldl_map]
  simp only [hsame]

variable {r : LDAPResult}

/-- What `Extended` makes of a message without controls. -/
theorem extendedResponse_of_two (decodeControl : Packet → Outcome Err C) {p mid op : Packet} (hp : p.children = [mid, op])
    (hr : getLDAPError p = r.outcome) (hlen : 3 ≤ op.children.length) :
    (extendedResponse decodeControl p).map observeExtended =
      .returned (r.err.elim (some (op.children.foldl observeComponent ([], none))) (fun _ => none), r.err) := by
  unfold extendedResponse
  rw [hp, hr, LDAPResult.outcome]
  cases r.err with
  | some e => rfl
  | none =>
    simp only [Option.elim, List.getElem?_cons_succ, List.getElem?_cons_zero, if_neg (Nat.not_lt.mpr hlen), CallEnd.map,
      observeExtended, Option.map_some, observed_foldl]
    rfl

/-- What the answer to an extended operation comes to. -/
def ServerAnswer.extendedResult (a : ServerAnswer) : Option (GoString × Option GoString) × Option Err :=
  (a.result.err.elim (some (a.responseName.getD [], a.responseValue)) (fun _ => none), a.result.err)

/-- The operation of the response to an extended request. -/
def ServerAnswer.extendedPacket (E : Encoder) (a : ServerAnswer) : Packet :=
  resultResponse E applicationExtendedResponse a.result
    (optionalComponent 10 a.responseName ++ optionalComponent 11 a.responseValue)

theorem observe_extendedPacket (L : LawfulCodec) (a : ServerAnswer) :
    ((a.extendedPacket L.toEncoder).wire L.toPrimitives).children.foldl observeComponent ([], none) =
      (a.responseName.getD [], a.responseValue) := by
  rw [ServerAnswer.extendedPacket, wire_resultResponse, children_constructedOf]
  cases a.responseName <;> cases a.responseValue <;>
    simp [optionalComponent, wire_context, observeComponent, readPrimitive, tagEnumerated, tagEmbeddedPDV]

/-- The identity in what `Extended` returned. -/
def identityOf : Option (GoString × Option GoString) × Option Err → Option GoString × Option Err
  | (_, some err) => (none, some err)
  | (some response, none) => (some (response.2.getD []), none)
  | (none, none) => (none, none)

theorem whoAmIResult_eq (x : Option (ExtendedResponse C) × Option Err) :
    whoAmIResult x = identityOf (observeExtended x) := by
  obtain ⟨_ | response, _ | err⟩ := x
  · rfl
  · rfl
  · cases hv : response.value <;> simp [whoAmIResult, observeExtended, identityOf, ExtendedResponse.observed, hv]
  · rfl

end

/-! ### Searches -/

section

variable {C : Type} {req : SearchRequest} {result : SearchResult C}

theorem searchEntry_undescribed (op : Packet) : searchEntry req result op.undescribed = searchEntry req result op := by
  unfold searchEntry
  rcases hcs : op.children with _ | ⟨name, _ | ⟨attributes, rest⟩⟩ <;> simp [hcs, unpackAttributes_undescribed]

theorem searchReference_undescribed (op : Packet) : searchReference result op.undescribed = searchReference result op := by
  unfold searchReference
  cases hcs : op.children <;> simp [hcs]

/-- One turn of the loop does not look at descriptions. -/
theorem searchStep_congr {decodeControl : Packet → Outcome Err C} {p q : Packet} (h2 : p.children.length = 2)
    (h : q.undescribed = p.undescribed) : searchStep decodeControl req result q = searchStep decodeControl req result p := by
  have hq2 : q.children.length = 2 := by rw [Packet.length_children_eq h, h2]
  obtain ⟨mid, op, hp⟩ := List.length_eq_two.mp h2
  obtain ⟨mid', op', hq⟩ := List.length_eq_two.mp hq2
  have hop : op'.undescribed = op.undescribed := by
    have hcs := congrArg Packet.children h
    rw [Packet.undescribed_children, Packet.undescribed_children, hp, hq] at hcs
    simp only [List.map_cons, List.map_nil, List.cons.injEq, and_true] at hcs
    exact hcs.2
  have htag : op'.tag = op.tag := by rw [← Packet.undescribed_tag, hop, Packet.undescribed_tag]
  have hdone : searchDone decodeControl result q = searchDone decodeControl result p := by
    unfold searchDone
    rw [eq_of_undescribed getLDAPError_undescribed h, hp, hq]
  unfold searchStep
  rw [hp, hq]
  simp only [List.getElem?_cons_succ, List.getElem?_cons_zero, htag]
  rw [eq_of_undescribed searchEntry_undescribed hop, hdone, eq_of_undescribed searchReference_undescribed hop]

/-- An entry of the directory as a search returns it. -/
def DirectoryEntry.entry (e : DirectoryEntry) : Entry := ⟨e.dn, e.attributes.map fun a => ⟨a.type, a.vals, a.vals⟩⟩

variable {L : LawfulCodec} {id : ℤ}

theorem unpackValues_wire (name : GoString) (vals : List GoString) :
    unpackValues name (vals.map fun v => readPrimitive .universal tagOctetString (.string v) v) = .ok (vals, vals) := by
  induction vals with
  | nil => rfl
  | cons v vals ih => rw [List.map_cons, unpackValues, ih]; rfl

theorem unpackAttribute_of {child type vals : Packet} {name : GoString} {values byteValues : List GoString}
    (hcs : child.children = [type, vals]) (htype : type.value = .string name)
    (hvals : unpackValues name vals.children = .ok (values, byteValues)) :
    unpackAttribute child = .ok ⟨name, values, byteValues⟩ := by
  simp [unpackAttribute, hcs, htype, asString, hvals]

theorem wire_attributeValues (a : AttributeValues) : (a.packet L.toEncoder).wire L.toPrimitives =
    constructedOf L.toEncoder .universal tagSequence []
      [readPrimitive .universal tagOctetString (.string a.type) a.type,
        constructedOf L.toEncoder .universal tagSet []
          (a.vals.map fun v => readPrimitive .universal tagOctetString (.string v) v)] := by
  rw [AttributeValues.packet, wire_constructedOf, List.map_cons, List.map_cons, List.map_nil, wire_string,
    wire_constructedOf, List.map_map]
  simp only [Function.comp_def, wire_string]

theorem unpackAttributes_wire (as : List AttributeValues) :
    unpackAttributes (as.map fun a => (a.packet L.toEncoder).wire L.toPrimitives) =
      .ok (as.map fun a => ⟨a.type, a.vals, a.vals⟩) := by
  induction as with
  | nil => rfl
  | cons a as ih =>
    have ha : unpackAttribute ((a.packet L.toEncoder).wire L.toPrimitives) = .ok ⟨a.type, a.vals, a.vals⟩ := by
      rw [wire_attributeValues]
      exact unpackAttribute_of children_constructedOf rfl (by rw [children_constructedOf, unpackValues_wire])
    rw [List.map_cons, unpackAttributes, ha, ih]
    rfl

theorem wire_directoryEntry (e : DirectoryEntry) : (e.packet L.toEncoder).wire L.toPrimitives =
    constructedOf L.toEncoder .application applicationSearchResultEntry []
      [readPrimitive .universal tagOctetString (.string e.dn) e.dn,
        constructedOf L.toEncoder .universal tagSequence []
          (e.attributes.map fun a => (a.packet L.toEncoder).wire L.toPrimitives)] := by
  rw [DirectoryEntry.packet, wire_constructedOf, List.map_cons, List.map_cons, List.map_nil, wire_string,
    wire_constructedOf, List.map_map]
  rfl

theorem wellFormed_entry (e : DirectoryEntry) : WellFormedReply (received L id (e.packet L.toEncoder)) := by
  refine .entry (children_received _) ?_
  rw [wire_directoryEntry, IsEntry, tag_constructedOf, children_constructedOf]
  refine ⟨rfl, _, _, rfl, fun c hc => ?_⟩
  rw [children_constructedOf] at hc
  obtain ⟨a, -, rfl⟩ := List.mem_map.mp hc
  rw [wire_attributeValues]
  exact ⟨_, _, children_constructedOf⟩

instance (req : SearchRequest) (n : ℕ) : Decidable (req.Full n) := inferInstanceAs (Decidable (_ ∧ _))

theorem searchStep_entry (decodeControl : Packet → Outcome Err C) (e : DirectoryEntry) :
    searchStep decodeControl req result (received L id (e.packet L.toEncoder)) =
      if req.Full result.entries.length then .ret result (some errSizeLimitExceeded)
      else .goOn { result with entries := result.entries ++ [e.entry] } := by
  unfold searchStep
  rw [children_received, wire_directoryEntry]
  simp only [List.getElem?_cons_succ, List.getElem?_cons_zero, tag_constructedOf, if_true]
  unfold searchEntry
  rw [children_constructedOf]
  simp only [children_constructedOf, unpackAttributes_wire]
  rfl

theorem wire_reference (uris : GoString × List GoString) : (referencePacket L.toEncoder uris).wire L.toPrimitives =
    constructedOf L.toEncoder .application applicationSearchResultReference []
      ((uris.1 :: uris.2).map fun s => readPrimitive .universal tagOctetString (.string s) s) := by
  rw [referencePacket, wire_constructedOf, List.map_map]
  simp only [Function.comp_def, wire_string]

theorem wellFormed_reference (uris : GoString × List GoString) :
    WellFormedReply (received L id (referencePacket L.toEncoder uris)) :=
  .reference (children_received _) (by rw [wire_reference, tag_constructedOf])

theorem searchStep_reference (decodeControl : Packet → Outcome Err C) (uris : GoString × List GoString) :
    searchStep decodeControl req result (received L id (referencePacket L.toEncoder uris)) =
      .goOn { result with referrals := result.referrals ++ [uris.1] } := by
  unfold searchStep
  rw [children_received, wire_reference]
  simp only [List.getElem?_cons_succ, List.getElem?_cons_zero, tag_constructedOf]
  rw [if_neg (by decide), if_neg (by decide), if_pos trivial, searchReference, children_constructedOf]
  rfl

theorem searchStep_done (decodeControl : Packet → Outcome Err C) (r : LDAPResult) (more : List Packet) :
    searchStep decodeControl req result
      (received L id (resultResponse L.toEncoder applicationSearchResultDone r more)) = .ret result r.err := by
  have hdone : searchDone decodeControl result
      (received L id (resultResponse L.toEncoder applicationSearchResultDone r more)) = .ret result r.err := by
    unfold searchDone
    rw [getLDAPError_received, children_received, LDAPResult.outcome]
    cases r.err <;> rfl
  unfold searchStep
  rw [hdone, children_received, wire_resultResponse]
  simp only [List.getElem?_cons_succ, List.getElem?_cons_zero, tag_constructedOf]
  rw [if_neg (by decide), if_pos trivial]

end

/-! ### The loop of a search -/

section

variable {C : Type} {req : SearchRequest} {L : LawfulCodec} {id : ℤ}

/-- What the reader hands over of the responses with the given operations. -/
def handedOver (L : LawfulCodec) (addControlDescriptions : Assign) (id : ℤ) (ops : List Packet) :
    List (Except Err Packet) :=
  ops.map fun op => .ok (handOver addControlDescriptions (received L id op))

theorem handedOver_append (addControlDescriptions : Assign) (ops ops' : List Packet) :
    handedOver L addControlDescriptions id (ops ++ ops') =
      handedOver L addControlDescriptions id ops ++ handedOver L addControlDescriptions id ops' :=
  List.map_append

variable {decodeControl : Packet → Outcome Err C} {addControlDescriptions : Assign} {debug closed : Bool} {p : Packet}
  {result result' : SearchResult C} {rest : List (Except Err Packet)}

theorem searchLoop_goOn (hp : WellFormedReply p) (h : searchStep decodeControl req result p = .goOn result') :
    searchLoop decodeControl addControlDescriptions debug req closed result
      (.ok (handOver addControlDescriptions p) :: rest) =
        searchLoop decodeControl addControlDescriptions debug req closed result' rest := by
  obtain ⟨q, hq, hsame⟩ := hp.delivered addControlDescriptions debug
  rw [searchLoop, hq]
  dsimp only
  rw [searchStep_congr hp.length hsame, h]

theorem searchLoop_ret (hp : WellFormedReply p) {err : Option Err}
    (h : searchStep decodeControl req result p = .ret result' err) :
    searchLoop decodeControl addControlDescriptions debug req closed result
      (.ok (handOver addControlDescriptions p) :: rest) = .returned (some result') err := by
  obtain ⟨q, hq, hsame⟩ := hp.delivered addControlDescriptions debug
  rw [searchLoop, hq]
  dsimp only
  rw [searchStep_congr hp.length hsame, h]

/-- Entries within the size limit are taken one after the other. -/
theorem searchLoop_entries (es : List DirectoryEntry)
    (hroom : ∀ n < result.entries.length + es.length, ¬ req.Full n) :
    searchLoop decodeControl addControlDescriptions debug req closed result
      (handedOver L addControlDescriptions id (es.map (DirectoryEntry.packet L.toEncoder)) ++ rest) =
        searchLoop decodeControl addControlDescriptions debug req closed
          { result with entries := result.entries ++ es.map DirectoryEntry.entry } rest := by
  induction es generalizing result with
  | nil => simp [handedOver]
  | cons e es ih =>
    have hfree : ¬ req.Full result.entries.length := hroom _ (by simp)
    refine (searchLoop_goOn (wellFormed_entry e) (by rw [searchStep_entry, if_neg hfree])).trans ?_
    refine (ih fun n hn => hroom n ?_).trans ?_
    · rw [List.length_append, List.length_singleton] at hn
      rw [List.length_cons]
      omega
    · simp

theorem searchLoop_references (refs : List (GoString × List GoString)) :
    searchLoop decodeControl addControlDescriptions debug req closed result
      (handedOver L addControlDescriptions id (refs.map (referencePacket L.toEncoder)) ++ rest) =
        searchLoop decodeControl addControlDescriptions debug req closed
          { result with referrals := result.referrals ++ refs.map Prod.fst } rest := by
  induction refs generalizing result with
  | nil => simp [handedOver]
  | cons uris refs ih =>
    refine (searchLoop_goOn (wellFormed_reference uris) (searchStep_reference _ _)).trans ?_
    refine ih.trans ?_
    simp

/-- The server has found more entries than the client takes. -/
def ServerAnswer.Exceeds (a : ServerAnswer) (req : SearchRequest) : Prop :=
  req.enforceSizeLimit = true ∧ 0 < req.sizeLimit ∧ req.sizeLimit < a.entries.length

instance (a : ServerAnswer) (req : SearchRequest) : Decidable (a.Exceeds req) := inferInstanceAs (Decidable (_ ∧ _))

/-- What the answer to a search comes to: the entries, the first URI of each reference, and the error of the result.  If
the client enforces the size limit it takes that many entries and returns an error of its own. -/
def ServerAnswer.found (a : ServerAnswer) (req : SearchRequest) : (List Entry × List GoString) × Option Err :=
  if a.Exceeds req then
    (((a.entries.take req.sizeLimit.toNat).map DirectoryEntry.entry, []), some errSizeLimitExceeded)
  else ((a.entries.map DirectoryEntry.entry, a.references.map Prod.fst), a.result.err)

/-- The packets of the answer to a search. -/
def ServerAnswer.searchPackets (E : Encoder) (a : ServerAnswer) : List Packet :=
  a.entries.map (DirectoryEntry.packet E) ++ a.references.map (referencePacket E) ++
    [resultResponse E applicationSearchResultDone a.result []]

/-- An entry more than the client takes. -/
theorem searchLoop_exceeds (es es' : List DirectoryEntry) (e : DirectoryEntry) (hroom : ∀ n < es.length, ¬ req.Full n)
    (hfull : req.Full es.length) (ops : List Packet) :
    searchLoop decodeControl addControlDescriptions debug req closed ⟨[], [], []⟩
      (handedOver L addControlDescriptions id ((es ++ e :: es').map (DirectoryEntry.packet L.toEncoder) ++ ops)) =
        .returned (some ⟨es.map DirectoryEntry.entry, [], []⟩) (some errSizeLimitExceeded) := by
  rw [List.map_append, List.append_assoc, handedOver_append]
  refine (searchLoop_entries es (by simpa using hroom)).trans ?_
  refine searchLoop_ret (wellFormed_entry e) ?_
  rw [searchStep_entry, if_pos]
  · simp
  · simpa using hfull

theorem searchLoop_answer (a : ServerAnswer) :
    searchLoop decodeControl addControlDescriptions debug req closed ⟨[], [], []⟩
      (handedOver L addControlDescriptions id (a.searchPackets L.toEncoder)) =
        .returned (some ⟨(a.found req).1.1, (a.found req).1.2, []⟩) (a.found req).2 := by
  rw [ServerAnswer.found, ServerAnswer.searchPackets]
  split_ifs with hexceeds
  · obtain ⟨henforce, hpos, hlt⟩ := hexceeds
    have hn : req.sizeLimit.toNat < a.entries.length := by omega
    have hlen : (a.entries.take req.sizeLimit.toNat).length = req.sizeLimit.toNat := List.length_take_of_le hn.le
    have hsplit : a.entries = a.entries.take req.sizeLimit.toNat ++
        a.entries[req.sizeLimit.toNat] :: a.entries.drop (req.sizeLimit.toNat + 1) := by
      rw [← List.drop_eq_getElem_cons hn, List.take_append_drop]
    rw [hsplit, List.append_assoc]
    refine (searchLoop_exceeds _ _ _ (fun n hn hfull => ?_) ⟨henforce, hpos, ?_⟩ _).trans ?_
    · rw [hlen] at hn
      have hle : req.sizeLimit ≤ n := hfull.2.2
      omega
    · rw [hlen]
      omega
    · rw [← hsplit]
  · rw [handedOver_append, handedOver_append, List.append_assoc]
    refine (searchLoop_entries a.entries fun n hn hfull => hexceeds ⟨hfull.1, hfull.2.1, ?_⟩).trans ?_
    · have hle : req.sizeLimit ≤ n := hfull.2.2
      simp only [List.length_nil] at hn
      omega
    refine (searchLoop_references a.references).trans ?_
    refine searchLoop_ret (wellFormed_result (by decide)) ?_
    rw [searchStep_done]
    rfl

end

end GoLdap
