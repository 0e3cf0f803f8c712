import GoLdap.Search.Complete

/-!
# Search.Agree — `Search` and `SearchAsync` on the same responses

The two loops were written apart.  They agree on responses that are entries with a list of attributes, referrals and a
SearchResultDone.  On other operations they differ: `Search` passes over them, and the worker of `SearchAsync` reports an
unknown tag.
-/

namespace GoLdap

open Go Ber

/-- Responses both loops know: an entry with a list of attributes and without controls, a SearchResultDone, or a
referral. -/
def PlainResponse (p : Packet) : Prop :=
  ∃ op ∈ p.children[1]?,
    (op.tag = applicationSearchResultEntry ∧ p.children.length ≠ 3 ∧ 2 ≤ op.children.length) ∨
    op.tag = applicationSearchResultDone ∨ op.tag = applicationSearchResultReference

theorem plainResponse_describeInDebug {addControlDescriptions : Assign} {debug : Bool} {p q : Packet}
    (h : describeInDebug addControlDescriptions debug p = .ok q) : PlainResponse q ↔ PlainResponse p := by
  have hplain (p : Packet) : PlainResponse p ↔ ∃ op ∈ p.children[1]?.map Packet.undescribed,
      (op.tag = applicationSearchResultEntry ∧ p.children.length ≠ 3 ∧ 2 ≤ op.children.length) ∨
      op.tag = applicationSearchResultDone ∨ op.tag = applicationSearchResultReference := by
    simp [PlainResponse]
  rw [hplain, hplain, operation_describeInDebug h, length_describeInDebug h]

section

variable {C : Type} {decodeControl : Packet → Outcome Err C}

/-- Whether controls can be decoded does not depend on the text around the error. -/
theorem decodeControls_ok {wrap wrap' : Err → Err} {ps : List Packet}
    (h : (decodeControls decodeControl wrap ps).2 = .ok ()) :
    decodeControls decodeControl wrap' ps = decodeControls decodeControl wrap ps := by
  induction ps with
  | nil => rfl
  | cons p ps ih =>
    rw [decodeControls] at h ⊢
    cases hp : decodeControl p with
    | ok c =>
      rw [hp] at h
      simp only [decodeControls, hp, ih h]
    | err e => simp [hp] at h
    | panic => simp [hp] at h

/-- What `Search` adds to its result for a packet, and what the worker sends for it. -/
inductive SameStep (result : SearchResult C) : SearchStep C → Handled C → Prop
  | entry (e : Entry) : SameStep result (.goOn { result with entries := result.entries ++ [e] })
      (.goOn ⟨some e, [], [], none⟩)
  | referral (ref : GoString) : SameStep result (.goOn { result with referrals := result.referrals ++ [ref] })
      (.goOn (.ofReferral ref))
  | done : SameStep result (.ret result none) (.found none)
  | controls (cs : List C) : SameStep result (.ret { result with controls := result.controls ++ cs } none)
      (.found (some (.ofControls cs)))
  | failed (result' : SearchResult C) (e : Err) (h : Handled C) : SameStep result (.ret result' (some e)) h
  | panic (h : Handled C) : SameStep result .panic h

theorem sameStep_entry (req : SearchRequest) (result : SearchResult C) {p op : Packet} (hlen : p.children.length ≠ 3)
    (hcs : 2 ≤ op.children.length) :
    SameStep result (searchEntry req result op) (handleEntry decodeControl p op) := by
  unfold searchEntry handleEntry
  rcases hop : op.children with _ | ⟨name, _ | ⟨attributes, rest⟩⟩
  · simp [hop] at hcs
  · simp [hop] at hcs
  · split
    · exact .failed _ _ _
    · cases has : unpackAttributes attributes.children with
      | error e => simpa only [has] using .failed _ _ _
      | ok as =>
        cases hs : asString name.value with
        | none => simpa only [has, hs] using .panic _
        | some dn =>
          simp only [has, hs]
          split
          · rename_i hp
            rw [hp] at hlen
            exact absurd rfl hlen
          · exact .entry _

theorem sameStep_done (result : SearchResult C) (p : Packet) :
    SameStep result (searchDone decodeControl result p) (handleDone decodeControl p) := by
  unfold searchDone handleDone
  cases getLDAPError p with
  | panic => exact .panic _
  | err e => exact .failed _ _ _
  | ok _ =>
    rcases p.children with _ | ⟨mid, _ | ⟨op, _ | ⟨controls, _ | ⟨more, rest⟩⟩⟩⟩
    · exact .done
    · exact .done
    · exact .done
    · simp only
      generalize hcs : decodeControls decodeControl (.wrapped "failed to decode child control: %s") controls.children = r
      obtain ⟨cs, _ | e | _⟩ := r
      · rw [decodeControls_ok (by rw [hcs]), hcs]
        exact .controls cs
      · exact .failed _ _ _
      · exact .panic _
    · exact .done

theorem sameStep_reference (result : SearchResult C) (op : Packet) :
    SameStep result (searchReference result op) (handleReference op) := by
  unfold searchReference handleReference
  cases op.children with
  | nil => exact .panic _
  | cons uri rest =>
    cases hs : asString uri.value with
    | none => simpa only [hs] using .panic _
    | some ref => simpa only [hs] using .referral ref

theorem sameStep (req : SearchRequest) (result : SearchResult C) {p : Packet} (hp : PlainResponse p) :
    SameStep result (searchStep decodeControl req result p) (handle decodeControl p) := by
  obtain ⟨op, hop, ⟨htag, hlen, hcs⟩ | htag | htag⟩ := hp
  all_goals
    rw [Option.mem_def] at hop
    simp only [searchStep, handle, hop, htag]
  · exact sameStep_entry req result hlen hcs
  · exact sameStep_done result p
  · exact sameStep_reference result op

/-- A worker that has ended without an error and has sent these entries, these referrals, and these controls at the end,
unless there are none. -/
structure Sends (es : List Entry) (rs : List GoString) (cs : List C) (w : Worker C) : Prop where
  closed : w.closed = true
  noError : ∀ r ∈ w.sent, r.error = none
  entries : w.sent.filterMap SearchSingleResult.entry = es
  others : ∃ fin, w.sent.filter (·.entry.isNone) = rs.map SearchSingleResult.ofReferral ++ fin ∧
    (fin = [] ∧ cs = [] ∨ fin = [.ofControls cs])

theorem Sends.entry {es : List Entry} {rs : List GoString} {cs : List C} {w : Worker C} (h : Sends es rs cs w)
    (e : Entry) (p : Packet) : Sends (e :: es) rs cs ⟨p :: w.received, ⟨some e, [], [], none⟩ :: w.sent, w.closed⟩ where
  closed := h.closed
  noError := List.forall_mem_cons.mpr ⟨rfl, h.noError⟩
  entries := congrArg (e :: ·) h.entries
  others := h.others

theorem Sends.referral {es : List Entry} {rs : List GoString} {cs : List C} {w : Worker C} (h : Sends es rs cs w)
    (ref : GoString) (p : Packet) : Sends es (ref :: rs) cs ⟨p :: w.received, .ofReferral ref :: w.sent, w.closed⟩ where
  closed := h.closed
  noError := List.forall_mem_cons.mpr ⟨rfl, h.noError⟩
  entries := h.entries
  others := by
    obtain ⟨fin, hfin, hcs⟩ := h.others
    exact ⟨fin, congrArg (SearchSingleResult.ofReferral ref :: ·) hfin, hcs⟩

/-- The run lemma: what `Search` has added to its result when it returns is what the worker sends. -/
theorem searchLoop_sends {addControlDescriptions : Assign} {debug closed : Bool} (req : SearchRequest)
    {packets : List (Except Err Packet)} (hplain : ∀ p, .ok p ∈ packets → PlainResponse p) {result res : SearchResult C}
    (h : searchLoop decodeControl addControlDescriptions debug req closed result packets = .returned (some res) none) :
    ∃ es rs cs, res = ⟨result.entries ++ es, result.referrals ++ rs, result.controls ++ cs⟩ ∧
      Sends es rs cs (workerLoop decodeControl addControlDescriptions debug closed packets) := by
  induction packets generalizing result with
  | nil =>
    rw [searchLoop] at h
    split at h <;> cases h
  | cons x packets ih =>
    cases x with
    | error e => cases h
    | ok p =>
      have hp : PlainResponse p := hplain p List.mem_cons_self
      have hrest : ∀ q, .ok q ∈ packets → PlainResponse q := fun q hq => hplain q (List.mem_cons_of_mem _ hq)
      rw [searchLoop] at h
      rw [workerLoop]
      cases hq : describeInDebug addControlDescriptions debug p with
      | error e =>
        rw [hq] at h
        cases h
      | ok q =>
        rw [hq] at h
        have hstep := @sameStep C decodeControl req result q ((plainResponse_describeInDebug hq).mpr hp)
        simp only at h ⊢
        generalize searchStep decodeControl req result q = st, handle decodeControl q = hd at hstep h
        cases hstep with
        | entry e =>
          obtain ⟨es, rs, cs, rfl, hsends⟩ := ih hrest h
          refine ⟨e :: es, rs, cs, ?_, hsends.entry e p⟩
          rw [List.append_assoc, List.singleton_append]
        | referral ref =>
          obtain ⟨es, rs, cs, rfl, hsends⟩ := ih hrest h
          refine ⟨es, ref :: rs, cs, ?_, hsends.referral ref p⟩
          rw [List.append_assoc, List.singleton_append]
        | done =>
          obtain rfl := (Option.some.inj (SearchEnd.returned.inj h).1).symm
          refine ⟨[], [], [], by simp, rfl, List.forall_mem_nil _, rfl, [], rfl, .inl ⟨rfl, rfl⟩⟩
        | controls cs =>
          obtain rfl := (Option.some.inj (SearchEnd.returned.inj h).1).symm
          refine ⟨[], [], cs, by simp, rfl, by simp [SearchSingleResult.ofControls], rfl, [.ofControls cs], rfl, .inr rfl⟩
        | failed result' e => cases h
        | panic => cases h

end

/-! ## The searches -/

/-- A search that returns without an error has sent its request and gone through its loop, and so does the worker. -/
theorem Connection.search_loop {C : Type} {E : Encoder} {addControlDescriptions : Assign}
    {decodeControl : Packet → Outcome Err C} {conn : Connection} {req : SearchRequest} {responses : Responses}
    {result : SearchResult C}
    (h : conn.search E addControlDescriptions decodeControl req responses = .returned (some result) none) :
    searchLoop decodeControl addControlDescriptions conn.debug req responses.closed ⟨[], [], []⟩ responses.packets =
        .returned (some result) none ∧
      conn.searchAsync E addControlDescriptions decodeControl req responses =
        workerLoop decodeControl addControlDescriptions conn.debug responses.closed responses.packets := by
  cases hsends : conn.sends E req with
  | true =>
    rw [conn.search_of_sends hsends] at h
    exact ⟨h, conn.searchAsync_of_sends hsends addControlDescriptions decodeControl responses⟩
  | false =>
    obtain ⟨e, he⟩ := conn.search_of_not_sends hsends addControlDescriptions decodeControl responses
    rw [he] at h
    cases h

/-- Where `Search` returns a result without an error on responses that are entries with a list of attributes, referrals
and SearchResultDone messages, the iteration of `SearchAsync` ends without an error.  It delivers the same entries and
the same referrals, each in the same order, and the same controls after them. -/
theorem searchAsync_agrees {C : Type} {E : Encoder} {addControlDescriptions : Assign}
    {decodeControl : Packet → Outcome Err C} {conn : Connection} {req : SearchRequest} {responses : Responses}
    {result : SearchResult C}
    (hsearch : conn.search E addControlDescriptions decodeControl req responses = .returned (some result) none)
    (hplain : ∀ p, .ok p ∈ responses.packets → PlainResponse p) :
    let it := (conn.searchAsync E addControlDescriptions decodeControl req responses).iterate
    it.ended = true ∧ it.last.err = none ∧ it.delivered.filterMap SearchResponse.entry = result.entries ∧
      ∃ fin, it.delivered.filter (·.entry.isNone) =
          result.referrals.map (fun ref => (SearchSingleResult.ofReferral ref).response) ++ fin ∧
        (fin = [] ∧ result.controls = [] ∨ fin = [(SearchSingleResult.ofControls result.controls).response]) := by
  obtain ⟨hloop, hworker⟩ := conn.search_loop hsearch
  obtain ⟨es, rs, cs, rfl, hsends⟩ := searchLoop_sends req hplain hloop
  obtain ⟨fin, hfin, hcs⟩ := hsends.others
  obtain ⟨hdelivered, hended, hlast⟩ := @iterate_ok C .initial true _ rfl hsends.noError
  rw [hworker, Worker.iterate, hsends.closed]
  refine ⟨hended, hlast, ?_, fin.map SearchSingleResult.response, ?_, ?_⟩
  · rw [hdelivered, List.filterMap_map]
    exact hsends.entries
  · rw [hdelivered, List.filter_map]
    show List.map _ (List.filter (fun r : SearchSingleResult C => r.entry.isNone) _) = _
    rw [hfin, List.map_append, List.map_map]
    rfl
  · obtain ⟨rfl, rfl⟩ | rfl := hcs
    · exact .inl ⟨rfl, rfl⟩
    · exact .inr rfl

/-- A referral message with a URI. -/
def referenceMessage (uri : GoString) : Packet := searchMessage applicationSearchResultReference [octetString uri]

theorem plainResponse_entryMessage (dn : GoString) : PlainResponse (entryMessage dn) := by
  refine ⟨_, rfl, .inl ⟨rfl, ?_, ?_⟩⟩
  · show 2 ≠ 3
    decide
  · show 2 ≤ 2
    exact le_rfl

theorem plainResponse_referenceMessage (uri : GoString) : PlainResponse (referenceMessage uri) :=
  ⟨_, rfl, .inr (.inr rfl)⟩

theorem plainResponse_doneMessage : PlainResponse doneMessage := ⟨_, rfl, .inr (.inl rfl)⟩

/-- An entry, a referral and the end. -/
theorem searchAsync_agrees_three :
    let responses : Responses :=
      ⟨[.ok (entryMessage (str "cn=a")), .ok (referenceMessage (str "ldap://b")), .ok doneMessage], false⟩
    let it := (openConnection.searchAsync shortEncoder .skip (fun _ => (.panic : Outcome Err Unit)) presenceRequest
      responses).iterate
    it.ended = true ∧ it.last.err = none ∧ it.delivered.filterMap SearchResponse.entry = [⟨str "cn=a", []⟩] := by
  intro responses it
  have hsearch : openConnection.search shortEncoder .skip (fun _ => (.panic : Outcome Err Unit)) presenceRequest
      responses = .returned (some ⟨[⟨str "cn=a", []⟩], [str "ldap://b"], []⟩) none := rfl
  obtain ⟨hended, herr, hentries, -⟩ := searchAsync_agrees hsearch (by
    intro p hp
    simp only [responses, List.mem_cons, Except.ok.injEq, List.not_mem_nil, or_false] at hp
    obtain rfl | rfl | rfl := hp
    · exact plainResponse_entryMessage _
    · exact plainResponse_referenceMessage _
    · exact plainResponse_doneMessage)
  exact ⟨hended, herr, hentries⟩

/-- A message with an operation neither loop looks for, an extended response: `Search` passes over it and returns the
entry, and the worker of `SearchAsync` reports an unknown tag.  An entry without a list of attributes has no attributes
for `Search`; the worker of `SearchAsync` panics, and the caller sees no entry. -/
theorem searchAsync_disagrees :
    (let responses : Responses := ⟨[.ok (entryMessage (str "cn=a")), .ok (searchMessage 24 []), .ok doneMessage], false⟩
    openConnection.search shortEncoder .skip (fun _ => (.panic : Outcome Err Unit)) presenceRequest responses =
        .returned (some ⟨[⟨str "cn=a", []⟩], [], []⟩) none ∧
      (openConnection.searchAsync shortEncoder .skip (fun _ => (.panic : Outcome Err Unit)) presenceRequest
        responses).iterate.last.err = some (.plain (.fmtNum "unknown tag: %d" 24))) ∧
    let responses : Responses := ⟨[.ok (bareEntryMessage (str "cn=a")), .ok doneMessage], false⟩
    openConnection.search shortEncoder .skip (fun _ => (.panic : Outcome Err Unit)) presenceRequest responses =
        .returned (some ⟨[⟨str "cn=a", []⟩], [], []⟩) none ∧
      (openConnection.searchAsync shortEncoder .skip (fun _ => (.panic : Outcome Err Unit)) presenceRequest
        responses).iterate.delivered = [] :=
  ⟨⟨rfl, rfl⟩, rfl, rfl⟩

end GoLdap
