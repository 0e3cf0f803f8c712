import GoLdap.Descriptions.Model

/-!
# Descriptions.Described — what descriptions change

A packet with two children comes out of `addLDAPDescriptions` with nothing changed but descriptions, however often it is
called; and the error does not depend on the descriptions that were there.  Third children are controls, and describing
those may change what they carry.
-/

namespace GoLdap

open Go Ber Assign

/-! ## What descriptions leave alone -/

/-- `GetLDAPError` reads no description. -/
theorem getLDAPError_undescribed (p : Packet) : getLDAPError p.undescribed = getLDAPError p := by
  unfold getLDAPError
  rw [Packet.undescribed_children]
  rcases p.children with _ | ⟨mid, _ | ⟨op, rest⟩⟩
  · rfl
  · rfl
  · rcases hop : op.children with _ | ⟨code, _ | ⟨dn, _ | ⟨message, more⟩⟩⟩ <;> simp [hop]

/-- On packets with the property `S`, the assignments change descriptions only, and how they end does not depend on
descriptions. -/
structure Neutral (S : Packet → Prop) (f : Assign) : Prop where
  keeps {p : Packet} : S p.undescribed → (f p).1.undescribed = p.undescribed
  ending {p q : Packet} : S p.undescribed → p.undescribed = q.undescribed → (f p).2 = (f q).2

namespace Neutral

variable {S : Packet → Prop} {f g : Assign}

theorem skip : Neutral S Assign.skip := ⟨fun _ => rfl, fun _ _ => rfl⟩

theorem andThen (hf : Neutral S f) (hg : Neutral S g) : Neutral S (f.andThen g) := by
  constructor
  · intro p hp
    have hkeep := hf.keeps hp
    unfold Assign.andThen
    split
    · rename_i q hq
      rw [hq] at hkeep
      rw [← hkeep] at hp ⊢
      exact hg.keeps hp
    · exact hkeep
  · intro p q hp hpq
    have hend := hf.ending hp hpq
    have hkeep : (f p).1.undescribed = (f q).1.undescribed := by
      rw [hf.keeps hp, hf.keeps (hpq ▸ hp), hpq]
    have hp' : S (f p).1.undescribed := by rwa [hf.keeps hp]
    unfold Assign.andThen
    generalize f p = r, f q = r' at hend hkeep hp'
    obtain ⟨p', e⟩ := r
    obtain ⟨q', e'⟩ := r'
    obtain rfl : e = e' := hend
    cases e with
    | ok _ => exact hg.ending hp' hkeep
    | err _ => rfl
    | panic => rfl

theorem all {fs : List Assign} (h : ∀ f ∈ fs, Neutral S f) : Neutral S (Assign.all fs) := by
  induction fs with
  | nil => exact skip
  | cons f fs ih =>
    rw [List.forall_mem_cons] at h
    exact h.1.andThen (ih h.2)

/-- Assignments chosen by what is not a description. -/
theorem choose {F : Packet → Assign} (hF : ∀ p, S p.undescribed → Neutral S (F p))
    (h : ∀ {p q}, p.undescribed = q.undescribed → F p = F q) : Neutral S fun p => F p p := by
  constructor
  · intro p hp
    exact (hF p hp).keeps hp
  · intro p q hp hpq
    show (F p p).2 = (F q q).2
    rw [← h hpq]
    exact (hF p hp).ending hp hpq

theorem byChild {F : Packet → Assign} (hF : ∀ c, Neutral S (F c))
    (h : ∀ {c d}, c.undescribed = d.undescribed → F c = F d) (i : ℕ) : Neutral S (Assign.byChild i F) := by
  constructor
  · intro p hp
    unfold Assign.byChild
    split
    · rfl
    · exact (hF _).keeps hp
  · intro p q hp hpq
    obtain ⟨hpi, hqi⟩ | ⟨c, d, hpi, hqi, hcd⟩ := Packet.getElem?_children hpq i
    · simp only [Assign.byChild, hpi, hqi]
    · simp only [Assign.byChild, hpi, hqi, ← h hcd]
      exact (hF c).ending hp hpq

theorem onPath (hf : Neutral (fun _ => True) f) (path : List ℕ) : Neutral S (Assign.onPath path f) := by
  induction path generalizing S with
  | nil => exact ⟨fun _ => hf.keeps trivial, fun _ => hf.ending trivial⟩
  | cons i path ih =>
    have hnext : Neutral (fun _ => True) (Assign.onPath path f) := ih
    constructor
    · intro p _
      unfold Assign.onPath
      cases hi : p.children[i]? with
      | none => rfl
      | some c =>
        obtain ⟨hlt, hc⟩ := List.getElem?_eq_some_iff.mp hi
        rw [Packet.undescribed_eq, Packet.undescribed_eq p]
        simp only [List.map_set, hnext.keeps trivial]
        rw [← hc, ← List.getElem_map Packet.undescribed (h := by simpa using hlt), List.set_getElem_self]
    · intro p q _ hpq
      obtain ⟨hpi, hqi⟩ | ⟨c, d, hpi, hqi, hcd⟩ := Packet.getElem?_children hpq i
      · simp only [Assign.onPath, hpi, hqi]
      · simp only [Assign.onPath, hpi, hqi]
        exact hnext.ending trivial hcd

theorem describe (path : List ℕ) (text : GoString) : Neutral S (GoLdap.describe path text) := by
  refine onPath ⟨fun {p} _ => ?_, fun _ _ => rfl⟩ path
  rw [Packet.undescribed_eq, Packet.undescribed_eq p]

theorem describeEach {f : ℕ → Assign} (hf : ∀ i, Neutral S (f i)) : Neutral S (GoLdap.describeEach f) := by
  refine choose (F := fun p => Assign.all ((List.range p.children.length).map f)) (fun p _ => ?_) fun h => ?_
  · refine all fun g hg => ?_
    obtain ⟨i, _, rfl⟩ := List.mem_map.mp hg
    exact hf i
  · rw [Packet.length_children_eq h]

theorem whenCount {c : ℕ → Prop} [DecidablePred c] (hf : Neutral (fun p => S p ∧ c p.children.length) f) :
    Neutral S (Assign.whenCount c f) := by
  constructor
  · intro p hp
    unfold Assign.whenCount
    split
    · rename_i hc
      exact hf.keeps ⟨hp, by simpa using hc⟩
    · rfl
  · intro p q hp hpq
    unfold Assign.whenCount
    rw [Packet.length_children_eq hpq]
    split
    · rename_i hc
      exact hf.ending ⟨hp, by simpa [Packet.length_children_eq hpq] using hc⟩ hpq
    · rfl

end Neutral

/-- Packets that are not taken to carry controls. -/
def WithoutControls (p : Packet) : Prop := p.children.length ≠ 3

theorem withoutControls_undescribed {p : Packet} : WithoutControls p.undescribed ↔ WithoutControls p := by
  rw [WithoutControls, Packet.undescribed_children, List.length_map, WithoutControls]

theorem describeOperation_neutral {S : Packet → Prop} : Neutral S describeOperation := by
  refine Neutral.onPath (Neutral.choose (fun p _ => Neutral.describe _ _) fun {p q} h => ?_) [1]
  rw [← Packet.undescribed_tag p, h, Packet.undescribed_tag]

theorem describeResult_neutral {S : Packet → Prop} (r : Outcome Err Unit) : Neutral S (describeResult r) := by
  have hcomponents (resultCode : ℕ) (matchedDN description : GoString) :
      Neutral S (describeComponents resultCode matchedDN description) := by
    refine Neutral.all ?_
    simp only [List.forall_mem_cons, List.not_mem_nil, false_implies, implies_true, and_true]
    exact ⟨.describe _ _, .describe _ _, .describe _ _, .whenCount (.describe _ _)⟩
  unfold describeResult
  split
  · exact hcomponents _ _ _
  · exact hcomponents _ _ _
  · exact ⟨fun _ => rfl, fun _ _ => rfl⟩

theorem describeEntry_neutral {S : Packet → Prop} : Neutral S describeEntry := by
  have hattribute (i : ℕ) : Neutral (fun _ => True) (Assign.all [describe [i] (str "Attribute"),
      describe [i, 0] (str "Attribute Name"), describe [i, 1] (str "Attribute Values"),
      onPath [i, 1] (describeEach fun j => describe [j] (str "Attribute Value"))]) := by
    refine Neutral.all ?_
    simp only [List.forall_mem_cons, List.not_mem_nil, false_implies, implies_true, and_true]
    exact ⟨.describe _ _, .describe _ _, .describe _ _, .onPath (.describeEach fun j => .describe _ _) _⟩
  refine Neutral.all ?_
  simp only [List.forall_mem_cons, List.not_mem_nil, false_implies, implies_true, and_true]
  exact ⟨.describe _ _, .describe _ _, .onPath (.describeEach hattribute) _⟩

section

variable {addControlDescriptions : Assign}

theorem describeControls_neutral : Neutral WithoutControls (describeControls addControlDescriptions) := by
  refine Neutral.whenCount ⟨?_, ?_⟩
  · rintro p ⟨hne, heq⟩
    exact absurd heq hne
  · rintro p q ⟨hne, heq⟩
    exact absurd heq hne

theorem describeApplication_neutral (application : ℕ) :
    Neutral WithoutControls (describeApplication addControlDescriptions application) := by
  have hresponse : Neutral WithoutControls (addDefaultLDAPResponseDescriptions addControlDescriptions) := by
    refine Neutral.choose
      (F := fun p => (onPath [1] (describeResult (getLDAPError p))).andThen (describeControls addControlDescriptions))
      (fun p _ => (Neutral.onPath (describeResult_neutral _) _).andThen describeControls_neutral) fun {p q} h => ?_
    rw [← getLDAPError_undescribed p, h, getLDAPError_undescribed]
  have hrequest : Neutral WithoutControls (addRequestDescriptions addControlDescriptions) := by
    refine Neutral.all ?_
    simp only [List.forall_mem_cons, List.not_mem_nil, false_implies, implies_true, and_true]
    exact ⟨.describe _ _, .describe _ _, describeOperation_neutral, describeControls_neutral⟩
  unfold describeApplication
  split
  any_goals exact hresponse
  any_goals exact hrequest
  · exact (Neutral.onPath describeEntry_neutral _).andThen describeControls_neutral
  · exact .skip

theorem describePacket_neutral : Neutral WithoutControls (describePacket addControlDescriptions) := by
  refine Neutral.all ?_
  simp only [List.forall_mem_cons, List.not_mem_nil, false_implies, implies_true, and_true]
  refine ⟨.describe _ _, .describe _ _, describeOperation_neutral, ?_⟩
  refine Neutral.byChild (fun c => describeApplication_neutral _) (fun {c d} h => ?_) 1
  rw [← Packet.undescribed_tag c, h, Packet.undescribed_tag]

/-- A packet without controls only has its descriptions changed. -/
theorem addLDAPDescriptions_undescribed {p : Packet} (hp : WithoutControls p) :
    (addLDAPDescriptions addControlDescriptions p).1.undescribed = p.undescribed :=
  describePacket_neutral.keeps (withoutControls_undescribed.mpr hp)

/-- Whether there is an error does not depend on descriptions. -/
theorem addLDAPDescriptions_error {p q : Packet} (hp : WithoutControls p) (h : p.undescribed = q.undescribed) :
    (addLDAPDescriptions addControlDescriptions p).2 = (addLDAPDescriptions addControlDescriptions q).2 :=
  congrArg recovered (describePacket_neutral.ending (withoutControls_undescribed.mpr hp) h)

/-! ## The descriptions of a packet without controls -/

theorem andThen_skip (f : Assign) : f.andThen skip = f := by
  funext p
  unfold andThen
  split
  · rename_i q hq
    rw [hq, skip]
  · rfl

theorem describeControls_two {p mid op : Packet} (h : p.children = [mid, op]) :
    describeControls addControlDescriptions p = (p, .ok ()) := by
  simp [describeControls, whenCount, h, skip]

/-- Assignments to the operation only. -/
theorem onPath_operation {p mid op : Packet} (h : p.children = [mid, op]) (f : Assign) :
    ((onPath [1] f).andThen (describeControls addControlDescriptions)) p =
      ({ p with children := [mid, (f op).1] }, (f op).2) := by
  have hpath : onPath [1] f p = ({ p with children := [mid, (f op).1] }, (f op).2) := by simp [onPath, h]
  unfold andThen
  rw [hpath]
  cases (f op).2 with
  | ok _ => exact describeControls_two rfl
  | err _ => rfl
  | panic => rfl

theorem describePacket_two {p mid op : Packet} (h : p.children = [mid, op]) :
    describePacket addControlDescriptions p = describeApplication addControlDescriptions (op.tag % 256)
      { p with
        description := str "LDAP Response"
        children := [{ mid with description := str "Message ID" },
          { op with description := applicationMap (op.tag % 256) }] } := by
  rw [describePacket, Assign.all, Assign.all, Assign.all, Assign.all, Assign.all, andThen_skip]
  simp [andThen, describe, onPath, describeOperation, byChild, h]

/-- What the operation of a packet becomes, by its application code. -/
def describeBody (result : Outcome Err Unit) : ℕ → Assign
  | 1 | 5 => describeResult result
  | 4 => describeEntry
  | _ => skip

theorem addRequestDescriptions_two {p mid op : Packet} (h : p.children = [mid, op]) :
    (addRequestDescriptions addControlDescriptions p).1.children =
      [{ mid with description := str "Message ID" }, { op with description := applicationMap (op.tag % 256) }] := by
  rw [addRequestDescriptions, Assign.all, Assign.all, Assign.all, Assign.all, Assign.all, andThen_skip]
  simp [andThen, describe, onPath, describeOperation, describeControls, whenCount, skip, h]

theorem describeApplication_two {p mid op : Packet} (h : p.children = [mid, op])
    (hmid : mid.description = str "Message ID") (hop : op.description = applicationMap (op.tag % 256)) (n : ℕ) :
    (describeApplication addControlDescriptions n p).1.children =
      [mid, (describeBody (getLDAPError p) n op).1] := by
  have hrequest : (addRequestDescriptions addControlDescriptions p).1.children = [mid, op] := by
    rw [addRequestDescriptions_two h, ← hmid, ← hop]
    cases mid
    cases op
    rfl
  unfold describeApplication
  split
  any_goals exact hrequest
  · rw [addDefaultLDAPResponseDescriptions, onPath_operation h]
    rfl
  · rw [addDefaultLDAPResponseDescriptions, onPath_operation h]
    rfl
  · rw [onPath_operation h]
    rfl
  · rename_i h1 h5 h4 _ _ _ _ _ _ _ _ _ _
    rw [describeBody.eq_4 _ _ h1 h5 h4]
    exact h

theorem addLDAPDescriptions_two {p mid op : Packet} (h : p.children = [mid, op]) :
    (addLDAPDescriptions addControlDescriptions p).1.children = [{ mid with description := str "Message ID" },
      (describeBody (getLDAPError p) (op.tag % 256) { op with description := applicationMap (op.tag % 256) }).1] := by
  have herr (q : Packet) (hq : p.undescribed = q.undescribed) : getLDAPError q = getLDAPError p := by
    rw [← getLDAPError_undescribed q, ← hq, getLDAPError_undescribed]
  rw [addLDAPDescriptions, describePacket_two h]
  refine (describeApplication_two rfl rfl rfl _).trans ?_
  rw [herr]
  rw [Packet.undescribed_eq, h, Packet.undescribed_eq { p with description := _, children := _ }]
  simp only [List.map_cons, List.map_nil]
  rw [Packet.undescribed_eq mid, Packet.undescribed_eq op, Packet.undescribed_eq { mid with description := _ },
    Packet.undescribed_eq { op with description := _ }]

end

/-- The result of a call of `GetLDAPError` is nil, an `*Error`, or a panic. -/
theorem getLDAPError_cases (p : Packet) : getLDAPError p = .ok () ∨
    (∃ code dn cause, getLDAPError p = .err (.ldap code dn cause)) ∨ getLDAPError p = .panic := by
  unfold getLDAPError newError
  repeat' split
  all_goals simp

theorem frame_andThen {α : Type} (φ : Packet → α) {f g : Assign} (hf : ∀ p, φ (f p).1 = φ p)
    (hg : ∀ p, φ (g p).1 = φ p) (p : Packet) : φ (f.andThen g p).1 = φ p := by
  have hp := hf p
  unfold andThen
  split
  · rename_i q hq
    rw [hq] at hp
    exact (hg q).trans hp
  · exact hp

/-- What each assignment keeps, all of them in a row keep. -/
theorem frame_all {α : Type} (φ : Packet → α) {fs : List Assign} (h : ∀ f ∈ fs, ∀ p, φ (f p).1 = φ p) (p : Packet) :
    φ (Assign.all fs p).1 = φ p := by
  induction fs generalizing p with
  | nil => rfl
  | cons f fs ih =>
    rw [List.forall_mem_cons] at h
    exact frame_andThen φ h.1 (ih h.2) p

theorem description_onPath_cons (i : ℕ) (path : List ℕ) (f : Assign) (p : Packet) :
    (onPath (i :: path) f p).1.description = p.description := by
  unfold onPath
  split <;> rfl

theorem description_describeBody (result : Outcome Err Unit) (n : ℕ) (op : Packet) :
    (describeBody result n op).1.description = op.description := by
  have hcomponents (code : ℕ) (dn text : GoString) :
      (describeComponents code dn text op).1.description = op.description := by
    refine frame_all Packet.description ?_ op
    simp only [List.forall_mem_cons, List.not_mem_nil, false_implies, implies_true, and_true]
    refine ⟨description_onPath_cons _ _ _, description_onPath_cons _ _ _, description_onPath_cons _ _ _, fun p => ?_⟩
    unfold whenCount
    split
    · exact description_onPath_cons _ _ _ p
    · rfl
  have hresult : (describeResult result op).1.description = op.description := by
    unfold describeResult
    split
    · exact hcomponents _ _ _
    · exact hcomponents _ _ _
    · rfl
  unfold describeBody
  split
  · exact hresult
  · exact hresult
  · refine frame_all Packet.description ?_ op
    simp only [List.forall_mem_cons, List.not_mem_nil, false_implies, implies_true, and_true]
    exact ⟨description_onPath_cons _ _ _, description_onPath_cons _ _ _, description_onPath_cons _ _ _⟩
  · rfl

/-- The fourth component of a result is called a referral, unless `GetLDAPError` panicked. -/
theorem description_fourth {p op c : Packet} (hp : getLDAPError p ≠ .panic)
    (h : (describeResult (getLDAPError p) op).1.children[3]? = some c) : c.description = str "Referral" := by
  have hcomponents (code : ℕ) (dn text : GoString)
      (h : (describeComponents code dn text op).1.children[3]? = some c) : c.description = str "Referral" := by
    rcases hop : op.children with _ | ⟨a, _ | ⟨b, _ | ⟨c, _ | ⟨d, rest⟩⟩⟩⟩ <;>
      simp [describeComponents, Assign.all, andThen, describe, onPath, whenCount, skip, hop] at h
    rw [← h]
  obtain hok | ⟨code, dn, cause, herr⟩ | hpanic := getLDAPError_cases p
  · rw [hok] at h
    exact hcomponents _ _ _ h
  · rw [herr] at h
    exact hcomponents _ _ _ h
  · exact absurd hpanic hp

/-! ## From the wire to the caller -/

/-- What changes of descriptions in the first two children keep, and what describing the controls keeps,
`addLDAPDescriptions` keeps. -/
theorem frame_addLDAPDescriptions {α : Type} (φ : Packet → α) {addControlDescriptions : Assign}
    (hself : ∀ (p : Packet) (text : GoString), φ { p with description := text } = φ p)
    (hneutral : ∀ i < 2, ∀ {f : Assign}, Neutral (fun _ => True) f → ∀ p, φ (onPath [i] f p).1 = φ p)
    (hcontrols : ∀ p, φ (onPath [2] addControlDescriptions p).1 = φ p) (p : Packet) :
    φ (addLDAPDescriptions addControlDescriptions p).1 = φ p := by
  have hmid (p : Packet) : φ (describe [0] (str "Message ID") p).1 = φ p := hneutral 0 (by decide) (.describe [] _) p
  have hoperation (p : Packet) : φ (describeOperation p).1 = φ p := by
    refine hneutral 1 (by decide) (Neutral.choose (fun p _ => Neutral.describe _ _) fun {p q} h => ?_) p
    rw [← Packet.undescribed_tag p, h, Packet.undescribed_tag]
  have hthird (p : Packet) : φ (describeControls addControlDescriptions p).1 = φ p := by
    unfold describeControls whenCount
    split
    · exact hcontrols p
    · rfl
  have happlication (n : ℕ) (p : Packet) : φ (describeApplication addControlDescriptions n p).1 = φ p := by
    have hrequest : φ (addRequestDescriptions addControlDescriptions p).1 = φ p := by
      refine frame_all φ ?_ p
      simp only [List.forall_mem_cons, List.not_mem_nil, false_implies, implies_true, and_true]
      exact ⟨fun p => hself p _, hmid, hoperation, hthird⟩
    unfold describeApplication
    split
    any_goals exact hrequest
    · exact frame_andThen φ (hneutral 1 (by decide) (describeResult_neutral _)) hthird p
    · exact frame_andThen φ (hneutral 1 (by decide) (describeResult_neutral _)) hthird p
    · exact frame_andThen φ (hneutral 1 (by decide) describeEntry_neutral) hthird p
    · rfl
  refine frame_all φ ?_ p
  simp only [List.forall_mem_cons, List.not_mem_nil, false_implies, implies_true, and_true]
  refine ⟨fun p => hself p _, hmid, hoperation, fun p => ?_⟩
  unfold byChild
  split
  · rfl
  · exact happlication _ p

/-- The number of children stays, whatever is done to controls. -/
theorem length_addLDAPDescriptions (addControlDescriptions : Assign) (p : Packet) :
    (addLDAPDescriptions addControlDescriptions p).1.children.length = p.children.length := by
  have hpath (i : ℕ) (f : Assign) (p : Packet) : (onPath [i] f p).1.children.length = p.children.length := by
    unfold onPath
    split
    · rfl
    · exact List.length_set
  exact frame_addLDAPDescriptions (·.children.length) (fun _ _ => rfl) (fun i _ _ _ => hpath i _) (hpath 2 _) p

/-- All children but the third only have their descriptions changed, whatever is done to controls. -/
theorem child_addLDAPDescriptions (addControlDescriptions : Assign) {i : ℕ} (hi : i ≠ 2) (p : Packet) :
    (addLDAPDescriptions addControlDescriptions p).1.children[i]?.map Packet.undescribed =
      p.children[i]?.map Packet.undescribed := by
  refine frame_addLDAPDescriptions (·.children[i]?.map Packet.undescribed) (fun _ _ => rfl) (fun j _ f hf p => ?_) ?_ p
  · have hkeep : (onPath [j] f p).1.undescribed = p.undescribed :=
      (Neutral.onPath (S := fun _ => True) hf [j]).keeps trivial
    show Option.map _ _ = Option.map _ _
    rw [← List.getElem?_map, ← List.getElem?_map, ← Packet.undescribed_children, hkeep, Packet.undescribed_children]
  · intro p
    show Option.map _ _ = Option.map _ _
    unfold onPath
    split
    · rfl
    · rw [List.getElem?_set_ne (Ne.symm hi)]

section

variable {addControlDescriptions : Assign} {debug : Bool} {p q : Packet}

theorem length_handOver : (handOver addControlDescriptions p).children.length = p.children.length := by
  rw [handOver, length_addLDAPDescriptions, Packet.undescribed_children, List.length_map]

/-- A packet as it is, or with descriptions added. -/
theorem describeInDebug_eq (h : describeInDebug addControlDescriptions debug p = .ok q) :
    q = p ∨ q = (addLDAPDescriptions addControlDescriptions p).1 := by
  unfold describeInDebug at h
  split at h
  · split at h
    · rename_i r hr
      rw [hr]
      exact .inr (Except.ok.inj h).symm
    · cases h
  · exact .inl (Except.ok.inj h).symm

theorem length_describeInDebug (h : describeInDebug addControlDescriptions debug p = .ok q) :
    q.children.length = p.children.length := by
  obtain rfl | rfl := describeInDebug_eq h
  · rfl
  · exact length_addLDAPDescriptions addControlDescriptions p

/-- In debug mode descriptions are added, or the call ends. -/
def Describable (addControlDescriptions : Assign) (debug : Bool) (p : Packet) : Prop :=
  debug = true → (addLDAPDescriptions addControlDescriptions p).2 = none

theorem describable_iff : Describable addControlDescriptions debug p ↔
    ∃ q, describeInDebug addControlDescriptions debug p = .ok q := by
  unfold Describable describeInDebug
  cases debug with
  | false => simp
  | true =>
    simp only [true_implies, if_true]
    generalize addLDAPDescriptions addControlDescriptions p = r
    obtain ⟨q, _ | e⟩ := r
    · simp
    · simp

theorem operation_describeInDebug (h : describeInDebug addControlDescriptions debug p = .ok q) :
    q.children[1]?.map Packet.undescribed = p.children[1]?.map Packet.undescribed := by
  obtain rfl | rfl := describeInDebug_eq h
  · rfl
  · exact child_addLDAPDescriptions addControlDescriptions (by decide) p

end

/-! ## Messages -/

/-- A message as the reader hands it over: the first child has the message ID, and the operation is as it was read.  The
controls may have been changed by their descriptions. -/
structure IsMessage (p : Packet) : Prop where
  messageID : ∃ mid ∈ p.children[0]?, ∃ n, mid.value = .int n
  operation : ∀ op ∈ p.children[1]?, AsRead op

section

variable {addControlDescriptions : Assign} {debug : Bool} {p q : Packet}

theorem IsMessage.of_undescribed (hp : IsMessage p)
    (h : ∀ i < 2, q.children[i]?.map Packet.undescribed = p.children[i]?.map Packet.undescribed) : IsMessage q := by
  constructor
  · obtain ⟨mid, hmid, n, hn⟩ := hp.messageID
    have h0 := h 0 (by decide)
    rw [hmid, Option.map_some, Option.map_eq_some_iff] at h0
    obtain ⟨mid', hmid', heq⟩ := h0
    exact ⟨mid', hmid', n, by rw [← Packet.undescribed_value, heq, Packet.undescribed_value, hn]⟩
  · intro op hop
    have h1 := h 1 (by decide)
    rw [Option.mem_def.mp hop, Option.map_some, eq_comm, Option.map_eq_some_iff] at h1
    obtain ⟨op', hop', heq⟩ := h1
    exact (hp.operation op' hop').of_undescribed heq.symm

theorem IsMessage.describeInDebug (hp : IsMessage p) (h : describeInDebug addControlDescriptions debug p = .ok q) :
    IsMessage q := by
  obtain rfl | rfl := describeInDebug_eq h
  · exact hp
  · exact hp.of_undescribed fun i hi => child_addLDAPDescriptions addControlDescriptions (by omega) p

/-- The result of an operation does not depend on descriptions. -/
theorem getLDAPError_describeInDebug (h : GoLdap.describeInDebug addControlDescriptions debug p = .ok q) :
    getLDAPError q = getLDAPError p := by
  rw [← getLDAPError_undescribed q, ← getLDAPError_undescribed p]
  refine getLDAPError_congr ?_
  rw [Packet.undescribed_children, Packet.undescribed_children, List.getElem?_map, List.getElem?_map]
  exact operation_describeInDebug h

end

/-- `q` is the packet `p` off the wire, with the descriptions of its operation and of the operation's fourth component
as `addLDAPDescriptions` leaves them. -/
structure Described (p q : Packet) : Prop where
  same : q.undescribed = p.undescribed
  operation {op : Packet} : q.children[1]? = some op → op.description = applicationMap (op.tag % 256)
  fourth {op c : Packet} : q.children[1]? = some op → op.tag % 256 = 1 → op.children[3]? = some c →
    c.description = if getLDAPError p = .panic then [] else str "Referral"

section

variable {addControlDescriptions : Assign} {p q : Packet}

/-- The induction step: a component that is not described now has no description from before. -/
theorem Described.add (h2 : p.children.length = 2) (hsame : q.undescribed = p.undescribed)
    (hfourth : ∀ {op c : Packet}, q.children[1]? = some op → op.tag % 256 = 1 → op.children[3]? = some c →
      getLDAPError p = .panic → c.description = []) :
    Described p (addLDAPDescriptions addControlDescriptions q).1 := by
  have hq2 : q.children.length = 2 := by rw [Packet.length_children_eq hsame, h2]
  obtain ⟨mid, op, hq⟩ := List.length_eq_two.mp hq2
  have herr : getLDAPError q = getLDAPError p := by
    rw [← getLDAPError_undescribed q, hsame, getLDAPError_undescribed]
  have hkeep : (addLDAPDescriptions addControlDescriptions q).1.undescribed = q.undescribed :=
    addLDAPDescriptions_undescribed (by rw [WithoutControls, hq2]; decide)
  have hcs := @addLDAPDescriptions_two addControlDescriptions q mid op hq
  set body := describeBody (getLDAPError q) (op.tag % 256) { op with description := applicationMap (op.tag % 256) }
    with hbody
  have htag : body.1.tag = op.tag := by
    have h := congrArg Packet.children hkeep
    rw [Packet.undescribed_children, Packet.undescribed_children, hcs, hq] at h
    simp only [List.map_cons, List.cons.injEq] at h
    rw [← Packet.undescribed_tag, h.2.1, Packet.undescribed_tag]
  constructor
  · exact hkeep.trans hsame
  · intro op' hop'
    obtain rfl : body.1 = op' := by simpa [hcs] using hop'
    rw [htag, hbody, description_describeBody]
  · intro op' c hop' hone hc
    obtain rfl : body.1 = op' := by simpa [hcs] using hop'
    rw [htag] at hone
    rw [hbody, hone, describeBody] at hc
    split
    · rename_i hpanic
      rw [herr, hpanic] at hc
      exact hfourth (by rw [hq]; rfl) hone hc hpanic
    · rename_i hpanic
      exact description_fourth (herr ▸ hpanic) hc

theorem described_handOver (h2 : p.children.length = 2) : Described p (handOver addControlDescriptions p) := by
  refine .add h2 (Packet.undescribed_undescribed p) fun {op c} hop _ hc _ => ?_
  rw [Packet.undescribed_children, List.getElem?_map, Option.map_eq_some_iff] at hop
  obtain ⟨op', _, rfl⟩ := hop
  rw [Packet.undescribed_children, List.getElem?_map, Option.map_eq_some_iff] at hc
  obtain ⟨c', _, rfl⟩ := hc
  exact Packet.undescribed_description c'

theorem Described.again (h2 : p.children.length = 2) (h : Described p q) :
    Described p (addLDAPDescriptions addControlDescriptions q).1 := by
  refine .add h2 h.same fun hop hone hc hpanic => ?_
  rw [h.fourth hop hone hc, if_pos hpanic]

/-- In debug mode the call ends with the error of `addLDAPDescriptions`, if there is one. -/
theorem Described.inDebug (h2 : p.children.length = 2) (h : Described p q) (debug : Bool) :
    (debug = true ∧ ∃ e, (addLDAPDescriptions addControlDescriptions p).2 = some e ∧
      describeInDebug addControlDescriptions debug q = .error e) ∨
    ((debug = true → (addLDAPDescriptions addControlDescriptions p).2 = none) ∧
      ∃ q', Described p q' ∧ describeInDebug addControlDescriptions debug q = .ok q') := by
  cases debug with
  | false => exact .inr ⟨nofun, q, h, rfl⟩
  | true =>
    have hagain : Described p (addLDAPDescriptions addControlDescriptions q).1 := h.again h2
    have herr : (addLDAPDescriptions addControlDescriptions p).2 = (addLDAPDescriptions addControlDescriptions q).2 :=
      addLDAPDescriptions_error (by rw [WithoutControls, h2]; decide) h.same.symm
    rw [herr]
    unfold describeInDebug
    generalize addLDAPDescriptions addControlDescriptions q = r at hagain
    obtain ⟨q', e⟩ := r
    cases e with
    | none => exact .inr ⟨fun _ => rfl, q', hagain, rfl⟩
    | some e => exact .inl ⟨rfl, e, rfl, rfl⟩

end

end GoLdap
