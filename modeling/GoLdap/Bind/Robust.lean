import GoLdap.Bind.Gssapi

/-!
# Bind.Robust — replies that make `saslBindTokenExchange` panic

Three things are taken from a reply named `Bind Response` without looking: the first component, the number in it if it has
the tag of an ENUMERATED, and, for a bind in progress, the fourth component of a result that has at least three.  In debug
mode a result with fewer than three components is refused before that, because its components cannot be described.

* `describes_bindResponse_iff`: when a bind response can be described.
* `bindToken_eq_panic`: when the token cannot be taken from a reply, in terms of what was read off the wire.
-/

namespace GoLdap

open Go Ber Assign

/-! ## Describing a bind response -/

theorem describeComponents_eq_ok (resultCode : ℕ) (matchedDN description : GoString) (op : Packet) :
    (describeComponents resultCode matchedDN description op).2 = .ok () ↔ 3 ≤ op.children.length := by
  rcases hop : op.children with _ | ⟨a, _ | ⟨b, _ | ⟨c, _ | ⟨d, rest⟩⟩⟩⟩ <;>
    simp [describeComponents, Assign.all, andThen, describe, onPath, whenCount, skip, hop]

theorem describeResult_eq_ok {p : Packet} (hp : getLDAPError p ≠ .panic) (op : Packet) :
    (describeResult (getLDAPError p) op).2 = .ok () ↔ 3 ≤ op.children.length := by
  obtain hok | ⟨code, dn, cause, herr⟩ | hpanic := getLDAPError_cases p
  · rw [hok]
    exact describeComponents_eq_ok _ _ _ op
  · rw [herr]
    exact describeComponents_eq_ok _ _ _ op
  · exact absurd hpanic hp

theorem recovered_eq_none {r : Outcome Err Unit} : recovered r = none ↔ r = .ok () := by
  cases r <;> simp [recovered]

/-- A bind response without controls can be described if it has the three components of a result. -/
theorem describes_bindResponse_iff {addControlDescriptions : Assign} {p mid op : Packet} (hp : AsRead p)
    (hcs : p.children = [mid, op]) (hone : op.tag % 256 = applicationBindResponse) :
    (addLDAPDescriptions addControlDescriptions p).2 = none ↔ 3 ≤ op.children.length := by
  set q : Packet := { p with
    description := str "LDAP Response"
    children := [{ mid with description := str "Message ID" },
      { op with description := applicationMap (op.tag % 256) }] } with hq
  have hread : ∀ op' ∈ q.children[1]?, AsRead op' := by
    intro op' hop'
    obtain rfl := Option.some.inj hop'
    obtain ⟨-, hcs'⟩ := hp
    refine (hcs' op (by simp [hcs])).of_undescribed ?_
    rw [Packet.undescribed_eq, Packet.undescribed_eq op]
  rw [addLDAPDescriptions, recovered_eq_none, describePacket_two hcs, ← hq, hone]
  show (addDefaultLDAPResponseDescriptions addControlDescriptions q).2 = .ok () ↔ _
  rw [addDefaultLDAPResponseDescriptions, onPath_operation rfl]
  exact describeResult_eq_ok (getLDAPError_ne_panic_of_asRead hread) _

/-! ## Replies without a token and without an error -/

/-- The operation is called a bind response, and it has no first component, or one with the tag of an ENUMERATED that has
no number or that says the bind is in progress, in a result of exactly three components. -/
def LacksComponent (p : Packet) : Prop :=
  ∃ op ∈ p.children[1]?, op.tag % 256 = applicationBindResponse ∧
    (op.children = [] ∨ ∃ code ∈ op.children[0]?, code.tag = tagEnumerated ∧
      (code.value = .nil ∨ (code.value = .int 14 ∧ op.children.length = 3)))

theorem lacksComponent_undescribed {p : Packet} : LacksComponent p.undescribed ↔ LacksComponent p := by
  simp [LacksComponent]

theorem inProgressToken_eq_panic {op : Packet} {r : Outcome Err GoString} (hr : r ≠ .panic) :
    inProgressToken op r = .panic ↔ op.children.length = 3 := by
  unfold inProgressToken
  split
  · rename_i hlt
    exact iff_of_false hr (by omega)
  · rename_i hge
    cases hc : op.children[3]? with
    | none =>
      rw [List.getElem?_eq_none_iff] at hc
      exact iff_of_true rfl (by omega)
    | some c =>
      have hlt := (List.getElem?_eq_some_iff.mp hc).1
      refine iff_of_false ?_ (by omega)
      dsimp only
      split_ifs
      · exact hr
      · rintro ⟨⟩
      · exact hr

theorem errorToken_ne_panic {q : Packet} (hq : AsRead q) :
    (getLDAPError q >>= fun _ => Outcome.ok ([] : GoString)) ≠ .panic := by
  cases herr : getLDAPError q with
  | ok _ => rintro ⟨⟩
  | err _ => rintro ⟨⟩
  | panic => exact absurd herr (getLDAPError_ne_panic_of_asRead hq.child)

theorem bindToken_eq_panic {p q : Packet} (hp : AsRead p) (h2 : p.children.length = 2) (h : Described p q) :
    bindToken q = .panic ↔ LacksComponent p := by
  have hq : AsRead q := hp.of_undescribed h.same
  have hfall := errorToken_ne_panic hq
  rw [← lacksComponent_undescribed, ← h.same, lacksComponent_undescribed]
  obtain ⟨mid, op, hcs⟩ := List.length_eq_two.mp ((Packet.length_children_eq h.same).trans h2)
  have hop : q.children[1]? = some op := by rw [hcs]; rfl
  unfold bindToken LacksComponent
  simp only [hcs, h.operation hop, applicationMap_eq_bindResponse]
  by_cases hone : op.tag % 256 = applicationBindResponse
  swap
  · rw [if_neg hone]
    exact iff_of_false hfall (by simp [hone])
  rw [if_pos hone]
  cases hcode : op.children with
  | nil => simp [hone, hcode]
  | cons code rest =>
    have hvalue : ValueAsRead code := by
      obtain ⟨-, hcs'⟩ := hq.child op hop
      obtain ⟨hvalue, -⟩ := hcs' code (by simp [hcode])
      exact hvalue
    by_cases htag : code.tag = tagEnumerated
    swap
    · simp only [htag, ne_eq, not_false_eq_true, if_true]
      exact iff_of_false hfall (by simp [hcode, htag])
    by_cases hnil : code.value = .nil
    · simp [hone, hcode, htag, hnil]
    obtain ⟨n, hn⟩ := hvalue.int hnil (.inr htag)
    have hlacks : (∃ op' ∈ [mid, op][1]?, op'.tag % 256 = applicationBindResponse ∧
        (op'.children = [] ∨ ∃ code ∈ op'.children[0]?, code.tag = tagEnumerated ∧
          (code.value = .nil ∨ (code.value = .int 14 ∧ op'.children.length = 3)))) ↔
        n = 14 ∧ op.children.length = 3 := by
      simp [hone, hcode, htag, hn]
    rw [hlacks]
    simp only [htag, ne_eq, not_true_eq_false, if_false, hn]
    by_cases h14 : n = 14
    · rw [if_pos h14, inProgressToken_eq_panic hfall, and_iff_right h14]
    · rw [if_neg h14]
      refine iff_of_false ?_ fun hand => h14 hand.1
      split_ifs
      · rintro ⟨⟩
      · exact hfall

/-- A reply whose token cannot be taken: it has two children, and in debug mode it can be described. -/
def CrashesBind (debug : Bool) (p : Packet) : Prop :=
  p.children.length = 2 ∧ LacksComponent p ∧ (debug = true → ∀ op ∈ p.children[1]?, 3 ≤ op.children.length)

theorem bindToken_of_length {q : Packet} (h : q.children.length ≠ 2) :
    bindToken q = .err (.plain (.new "bad bind response")) := by
  unfold bindToken
  split
  · rename_i hcs
    rw [hcs] at h
    exact absurd rfl h
  · rfl

theorem replyToken_eq_panic (addControlDescriptions : Assign) (debug : Bool) {p : Packet} (hp : AsRead p) :
    replyToken addControlDescriptions debug p = .panic ↔ CrashesBind debug p := by
  by_cases h2 : p.children.length = 2
  swap
  · refine iff_of_false ?_ fun h => h2 h.1
    unfold replyToken
    cases hq : describeInDebug addControlDescriptions debug (handOver addControlDescriptions p) with
    | error e => rintro ⟨⟩
    | ok q =>
      simp only [Outcome.ofExcept, Outcome.ok_bind]
      cases hq' : describeInDebug addControlDescriptions debug q with
      | error e => rintro ⟨⟩
      | ok q' =>
        have hlen : q'.children.length ≠ 2 := by
          rwa [length_describeInDebug hq', length_describeInDebug hq, length_handOver]
        simp only [Outcome.ok_bind, bindToken_of_length hlen]
        rintro ⟨⟩
  have hd : Described p (handOver addControlDescriptions p) := described_handOver h2
  obtain ⟨mid, op, hcs⟩ := List.length_eq_two.mp h2
  have hop : p.children[1]? = some op := by rw [hcs]; rfl
  have hcrash : CrashesBind debug p ↔ LacksComponent p ∧ (debug = true → 3 ≤ op.children.length) := by
    simp [CrashesBind, hcs]
  have hdescribes (hlacks : LacksComponent p) :
      (addLDAPDescriptions addControlDescriptions p).2 = none ↔ 3 ≤ op.children.length := by
    obtain ⟨op', hop', hone, -⟩ := hlacks
    obtain rfl := Option.mem_unique hop hop'
    exact describes_bindResponse_iff hp hcs hone
  rw [hcrash]
  unfold replyToken
  obtain ⟨hdebug, e, he, hfail⟩ | ⟨hnone, q, hq, hok⟩ := @Described.inDebug addControlDescriptions _ _ h2 hd debug
  · -- the packet cannot be described
    rw [hfail]
    refine iff_of_false (by rintro ⟨⟩) fun h => ?_
    rw [(hdescribes h.1).mpr (h.2 hdebug)] at he
    cases he
  · obtain ⟨hdebug, e, he, -⟩ | ⟨-, q', hq', hok'⟩ := @Described.inDebug addControlDescriptions _ _ h2 hq debug
    · rw [hnone hdebug] at he
      cases he
    · simp only [hok, hok', Outcome.ofExcept, Outcome.ok_bind, bindToken_eq_panic hp h2 hq']
      exact ⟨fun h => ⟨h, fun hdebug => (hdescribes h).mp (hnone hdebug)⟩, fun h => h.1⟩

/-- A reply as it is read off the wire, with a message ID. -/
structure IsReply (wire : Packet) : Prop where
  read : AsRead wire
  messageID : ∃ mid ∈ wire.children[0]?, ∃ n, mid.value = .int n

/-- A call of `saslBindTokenExchange` returns a token or an error exactly if the reply, if one is read, has the components
that are taken from it. -/
theorem saslBindTokenExchange_returns_iff (E : Encoder) (addControlDescriptions : Assign) (debug : Bool) (x : Exchange)
    (reqControls : List Packet) (reqToken : GoString)
    (hreply : ∀ wire, x.reply (saslBindRequest E x.messageID reqControls reqToken) = .ok wire → IsReply wire) :
    ((∃ token, (saslBindTokenExchange E addControlDescriptions debug x reqControls reqToken).2 = .ok token) ∨
      ∃ e, (saslBindTokenExchange E addControlDescriptions debug x reqControls reqToken).2 = .err e) ↔
      ∀ wire, x.reply (saslBindRequest E x.messageID reqControls reqToken) = .ok wire → ¬ CrashesBind debug wire := by
  unfold saslBindTokenExchange
  cases h : x.reply (saslBindRequest E x.messageID reqControls reqToken) with
  | error e => exact iff_of_true (.inr ⟨e, rfl⟩) (by rintro wire ⟨⟩)
  | ok wire =>
    simp only [Except.ok.injEq, forall_eq']
    rw [← replyToken_eq_panic addControlDescriptions debug (hreply wire h).read]
    cases replyToken addControlDescriptions debug wire with
    | ok token => exact iff_of_true (.inl ⟨token, rfl⟩) (by rintro ⟨⟩)
    | err e => exact iff_of_true (.inr ⟨e, rfl⟩) (by rintro ⟨⟩)
    | panic => exact iff_of_false (by rintro (⟨token, ⟨⟩⟩ | ⟨e, ⟨⟩⟩)) (fun hne => hne rfl)

/-- A bind in progress with credentials. -/
theorem saslBindTokenExchange_returns_token :
    (∃ token, (saslBindTokenExchange shortEncoder .skip false ⟨1, fun _ => .ok (bindResponse 14 [7])⟩ [] []).2 =
      .ok token) ∨
    ∃ e, (saslBindTokenExchange shortEncoder .skip false ⟨1, fun _ => .ok (bindResponse 14 [7])⟩ [] []).2 = .err e := by
  have hread : AsRead (bindResponse 14 [7]) := by
    have hstring : AsRead (readPrimitive .universal tagOctetString (.string []) []) :=
      asRead_readPrimitive [] (.inl ⟨rfl, [], rfl⟩)
    refine asRead_readConstructed _ _ _ (List.forall_mem_cons.mpr
      ⟨asRead_readPrimitive [1] (.inr ⟨.inl rfl, 1, rfl⟩), List.forall_mem_singleton.mpr ?_⟩)
    refine asRead_readConstructed _ _ _ (List.forall_mem_cons.mpr
      ⟨asRead_readPrimitive _ (.inr ⟨.inr rfl, 14, rfl⟩), List.forall_mem_cons.mpr ⟨hstring, ?_⟩⟩)
    refine List.forall_mem_cons.mpr ⟨hstring, List.forall_mem_singleton.mpr (.node (valueAsRead_of_nil rfl) ?_)⟩
    rintro c ⟨⟩
  refine (saslBindTokenExchange_returns_iff shortEncoder .skip false ⟨1, fun _ => .ok (bindResponse 14 [7])⟩ [] []
    ?_).mpr ?_
  · rintro wire ⟨⟩
    exact ⟨hread, _, rfl, 1, rfl⟩
  · rintro wire ⟨⟩ ⟨-, ⟨op, hop, -, h⟩, -⟩
    cases hop
    obtain h | ⟨code, hcode, -, h | ⟨-, h⟩⟩ := h
    · cases h
    · cases hcode
      cases h
    · cases h

/-- A bind response with these components. -/
def bindMessage (components : List Packet) : Packet :=
  readConstructed shortEncoder .universal tagSequence [readPrimitive .universal tagInteger (.int 1) [1],
    readConstructed shortEncoder .application applicationBindResponse components]

/-- A result code `[10]` of the context class, which has no value. -/
def contextCode : Packet := readPrimitive .context tagEnumerated .nil [0]

theorem asRead_bindMessage {components : List Packet} (h : ∀ c ∈ components, AsRead c) :
    AsRead (bindMessage components) := by
  have hmid : AsRead (readPrimitive .universal tagInteger (.int 1) [1]) :=
    asRead_readPrimitive [1] (.inr ⟨.inl rfl, 1, rfl⟩)
  refine asRead_readConstructed _ _ _ (List.forall_mem_cons.mpr ⟨hmid, List.forall_mem_singleton.mpr ?_⟩)
  exact asRead_readConstructed _ _ _ h

/-- A bind in progress with exactly the three components of a result; a bind response with no components; and one with
a result code without a value. -/
theorem saslBindTokenExchange_crashes :
    (IsReply (resultMessage applicationBindResponse 14 [14]) ∧ (saslBindTokenExchange shortEncoder .skip false
      ⟨1, fun _ => .ok (resultMessage applicationBindResponse 14 [14])⟩ [] []).2 = .panic) ∧
    (IsReply (bindMessage []) ∧
      (saslBindTokenExchange shortEncoder .skip false ⟨1, fun _ => .ok (bindMessage [])⟩ [] []).2 = .panic) ∧
    (IsReply (bindMessage [contextCode]) ∧
      (saslBindTokenExchange shortEncoder .skip false ⟨1, fun _ => .ok (bindMessage [contextCode])⟩ [] []).2 =
        .panic) := by
  refine ⟨⟨⟨asRead_resultMessage _ _ _, _, rfl, 1, rfl⟩, rfl⟩, ⟨⟨asRead_bindMessage (by simp), _, rfl, 1, rfl⟩, rfl⟩,
    ⟨asRead_bindMessage ?_, _, rfl, 1, rfl⟩, rfl⟩
  refine List.forall_mem_singleton.mpr (.node (valueAsRead_of_nil rfl) ?_)
  rintro c ⟨⟩

end GoLdap
