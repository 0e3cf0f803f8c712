import GoLdap.Search.Async

/-!
# Search.Complete — when an iteration without an error was complete

A caller that sees `Next` return false and `Err` return nil takes the search for complete.  That is right exactly if the
connection was open, no packet made the worker panic, and no SearchResultDone had a result code that is zero as a
`uint16` only.
-/

namespace GoLdap

open Go Ber

/-! ## What a complete search is -/

/-- The entry in a SearchResultEntry. -/
def entryIn (op : Packet) : Option Entry :=
  match op.children with
  | name :: attributes :: _ =>
    match asString name.value, unpackAttributes attributes.children with
    | some dn, .ok attributes => some ⟨dn, attributes⟩
    | _, _ => none
  | _ => none

/-- The URI in a SearchResultReference. -/
def referralIn (op : Packet) : Option GoString :=
  match op.children with
  | uri :: _ => asString uri.value
  | [] => none

/-- A SearchResultDone with the result code success. -/
def IsSuccessDone (p : Packet) : Prop :=
  ∃ op ∈ p.children[1]?, op.classType = .application ∧ op.tag = applicationSearchResultDone ∧
    ∃ code ∈ op.children[0]?, code.value = .int 0

/-- The entry or the referral in a packet is what `Entry` or `Referral` returns. -/
structure Delivers {C : Type} (p : Packet) (r : SearchResponse C) : Prop where
  entry {op : Packet} : p.children[1]? = some op → op.tag = applicationSearchResultEntry →
    ∃ e, entryIn op = some e ∧ r.entry = some e
  referral {op : Packet} : p.children[1]? = some op → op.tag = applicationSearchResultReference →
    referralIn op = some r.referral

/-- The last packet received is a successful SearchResultDone, and each packet before it was delivered, in order. -/
def Complete {C : Type} (received : List Packet) (delivered : List (SearchResponse C)) : Prop :=
  ∃ before done results rest, received = before ++ [done] ∧ IsSuccessDone done ∧ delivered = results ++ rest ∧
    List.Forall₂ Delivers before results

/-! ## What ends a search without an error -/

section

variable {C : Type} (decodeControl : Packet → Outcome Err C)

/-- Entries on which the worker panics: there is no list of attributes; the name is not a string; or the controls have no
child, or one on which `DecodeControl` panics. -/
def EntryPanics (p op : Packet) : Prop :=
  op.children.length < 2 ∨ ∃ name attributes rest, op.children = name :: attributes :: rest ∧
    (∃ as, unpackAttributes attributes.children = .ok as) ∧
    (asString name.value = none ∨ ∃ mid op' controls, p.children = [mid, op', controls] ∧
      ∀ control ∈ controls.children.head?, decodeControl control = .panic)

/-- Packets on which the worker panics before it has seen a result code. -/
def PanicsOn (p : Packet) : Prop :=
  p.children[1]? = none ∨ ∃ op ∈ p.children[1]?,
    (op.tag = applicationSearchResultEntry ∧ EntryPanics decodeControl p op) ∨
    (op.tag = applicationSearchResultDone ∧ getLDAPError p = .panic) ∨
    (op.tag = applicationSearchResultReference ∧ referralIn op = none) ∨
    (op.tag = applicationIntermediateResponse ∧ decodeControl op = .panic)

/-- A SearchResultDone that `GetLDAPError` takes for a success although its code is not zero, and whose controls, if
there are any, are decoded without an error. -/
def FalseDone (p : Packet) : Prop :=
  getLDAPError p = .ok () ∧ ∃ op ∈ p.children[1]?, op.tag = applicationSearchResultDone ∧
    (∃ code ∈ op.children[0]?, code.value ≠ .int 0) ∧
    ∀ mid op' controls, p.children = [mid, op', controls] → ∀ e,
      (decodeControls decodeControl (.wrapped "failed to decode child control: %w") controls.children).2 ≠ .err e

/-- Packets that end the search without an error, although the search is not over. -/
def EndsSilently (p : Packet) : Prop := PanicsOn decodeControl p ∨ FalseDone decodeControl p

end

section

variable {C : Type} {decodeControl : Packet → Outcome Err C} {p op : Packet}

theorem endsSilently_entry (hop : p.children[1]? = some op) (htag : op.tag = applicationSearchResultEntry) :
    EndsSilently decodeControl p ↔ EntryPanics decodeControl p op := by
  simp [EndsSilently, PanicsOn, FalseDone, hop, htag, applicationSearchResultEntry, applicationSearchResultDone,
    applicationSearchResultReference, applicationIntermediateResponse]

theorem endsSilently_reference (hop : p.children[1]? = some op) (htag : op.tag = applicationSearchResultReference) :
    EndsSilently decodeControl p ↔ referralIn op = none := by
  simp [EndsSilently, PanicsOn, FalseDone, hop, htag, applicationSearchResultEntry, applicationSearchResultDone,
    applicationSearchResultReference, applicationIntermediateResponse]

theorem endsSilently_intermediate (hop : p.children[1]? = some op) (htag : op.tag = applicationIntermediateResponse) :
    EndsSilently decodeControl p ↔ decodeControl op = .panic := by
  simp [EndsSilently, PanicsOn, FalseDone, hop, htag, applicationSearchResultEntry, applicationSearchResultDone,
    applicationSearchResultReference, applicationIntermediateResponse]

theorem endsSilently_done (hop : p.children[1]? = some op) (htag : op.tag = applicationSearchResultDone) :
    EndsSilently decodeControl p ↔ getLDAPError p = .panic ∨ FalseDone decodeControl p := by
  simp [EndsSilently, PanicsOn, hop, htag, applicationSearchResultEntry, applicationSearchResultDone,
    applicationSearchResultReference, applicationIntermediateResponse]

theorem not_isSuccessDone (hop : p.children[1]? = some op) (htag : op.tag ≠ applicationSearchResultDone) :
    ¬ IsSuccessDone p := by
  simp [IsSuccessDone, hop, htag]

/-- The response after `Next` has taken a result without an error. -/
def SearchSingleResult.response (res : SearchSingleResult C) : SearchResponse C :=
  ⟨res.entry, res.referral, res.controls, none⟩

/-- A result that carries the entry or the referral of a packet. -/
def Carries (p : Packet) (r : SearchSingleResult C) : Prop := Delivers p r.response

/-- What the worker does with a packet, by how it ends. -/
def HandleSpec (decodeControl : Packet → Outcome Err C) (p : Packet) : Handled C → Prop
  | .goOn r => r.error = none ∧ Carries p r ∧ ¬ EndsSilently decodeControl p ∧ ¬ IsSuccessDone p
  | .stop r => r.error ≠ none ∧ ¬ EndsSilently decodeControl p
  | .found r => (∀ x ∈ r, x.error = none) ∧ (EndsSilently decodeControl p ↔ ¬ IsSuccessDone p)
  | .panic => EndsSilently decodeControl p ↔ ¬ IsSuccessDone p

theorem carries_of {r : SearchSingleResult C} (hop : p.children[1]? = some op)
    (he : op.tag = applicationSearchResultEntry → ∃ e, entryIn op = some e ∧ r.entry = some e)
    (hr : op.tag = applicationSearchResultReference → referralIn op = some r.referral) : Carries p r := by
  constructor
  · intro op' hop' htag
    obtain rfl := Option.some.inj (hop.symm.trans hop')
    exact he htag
  · intro op' hop' htag
    obtain rfl := Option.some.inj (hop.symm.trans hop')
    exact hr htag

theorem handleEntry_spec (hop : p.children[1]? = some op) (htag : op.tag = applicationSearchResultEntry) :
    HandleSpec decodeControl p (handleEntry decodeControl p op) := by
  have hnot : ¬ IsSuccessDone p := not_isSuccessDone hop (by rw [htag]; decide)
  have hsilent := @endsSilently_entry C decodeControl p op hop htag
  unfold EntryPanics at hsilent
  unfold handleEntry
  rcases hcs : op.children with _ | ⟨name, _ | ⟨attributes, rest⟩⟩
  · simp [HandleSpec, hsilent, hnot, hcs]
  · simp [HandleSpec, hsilent, hnot, hcs]
  · cases has : unpackAttributes attributes.children with
    | error e => simp [HandleSpec, hsilent, hcs, has, SearchSingleResult.ofError]
    | ok as =>
      cases hs : asString name.value with
      | none => simp [HandleSpec, hsilent, hnot, hcs, has, hs]
      | some dn =>
        have hcarries {r : SearchSingleResult C} (hr : r.entry = some ⟨dn, as⟩) : Carries p r := by
          refine carries_of hop (fun _ => ⟨⟨dn, as⟩, ?_, hr⟩) fun h => ?_
          · simp [entryIn, hcs, has, hs]
          · exact absurd (htag.symm.trans h) (by decide)
        simp only [has, hs]
        split
        · rename_i mid op' controls hp
          cases hctl : controls.children with
          | nil => simp [HandleSpec, hsilent, hnot, hcs, has, hp, hctl]
          | cons control more =>
            cases hd : decodeControl control with
            | panic => simp [HandleSpec, hsilent, hnot, hcs, has, hp, hctl, hd]
            | err e => simp [HandleSpec, hsilent, hcs, has, hs, hp, hctl, hd]
            | ok c =>
              simp only [hd]
              exact ⟨rfl, hcarries rfl, by simp [hsilent, hcs, hs, hp, hctl, hd], hnot⟩
        · rename_i hp
          refine ⟨rfl, hcarries rfl, ?_, hnot⟩
          rw [hsilent, hcs]
          rintro (hlt | ⟨_, _, _, heq, -, hname | ⟨mid, op', controls, hp', -⟩⟩)
          · rw [List.length_cons, List.length_cons] at hlt
            omega
          · rw [← (List.cons.inj heq).1, hs] at hname
            cases hname
          · exact hp mid op' controls hp'

theorem handleDone_spec (hop : p.children[1]? = some op) (htag : op.tag = applicationSearchResultDone) :
    HandleSpec decodeControl p (handleDone decodeControl p) := by
  have hsilent := @endsSilently_done C decodeControl p op hop htag
  unfold handleDone
  cases herr : getLDAPError p with
  | panic =>
    have hnot : ¬ IsSuccessDone p := by
      rintro ⟨op', hop', -, -, code, hcode, hv⟩
      exact getLDAPError_ne_panic hop' hcode hv herr
    simp [HandleSpec, hsilent, herr, hnot]
  | err e => simp [HandleSpec, hsilent, herr, FalseDone, SearchSingleResult.ofError]
  | ok _ =>
    obtain ⟨op', hop', hcls, -, -, code, hcode, -⟩ := getLDAPError_eq_ok.mp herr
    obtain rfl := Option.some.inj (hop.symm.trans hop')
    have hsuccess : IsSuccessDone p ↔ code.value = .int 0 := by
      rw [Option.mem_def] at hcode
      simp [IsSuccessDone, hop, hcls, htag, hcode]
    have hfalse : EndsSilently decodeControl p ↔ ¬ IsSuccessDone p ∧
        ∀ mid op' controls, p.children = [mid, op', controls] → ∀ e,
          (decodeControls decodeControl (.wrapped "failed to decode child control: %w") controls.children).2 ≠ .err e := by
      rw [Option.mem_def] at hcode
      rw [hsilent, hsuccess]
      simp [FalseDone, herr, hop, htag, hcode]
    simp only
    split
    · rename_i mid op' controls hp
      rw [hp] at hfalse
      simp only [List.cons.injEq, and_true] at hfalse
      generalize hcs : decodeControls decodeControl (.wrapped "failed to decode child control: %w") controls.children = r
      obtain ⟨cs, _ | e | _⟩ := r
      · refine ⟨by simp [SearchSingleResult.ofControls], ?_⟩
        rw [hfalse]
        refine and_iff_left ?_
        rintro _ _ _ ⟨-, -, rfl⟩ e
        simp [hcs]
      · refine ⟨nofun, fun h => ?_⟩
        exact (hfalse.mp h).2 mid op' controls ⟨rfl, rfl, rfl⟩ e (by rw [hcs])
      · show EndsSilently decodeControl p ↔ ¬ IsSuccessDone p
        rw [hfalse]
        refine and_iff_left ?_
        rintro _ _ _ ⟨-, -, rfl⟩ e
        simp [hcs]
    · rename_i hp
      refine ⟨by simp, ?_⟩
      rw [hfalse]
      exact and_iff_left fun mid op' controls hp' => absurd hp' (hp mid op' controls)

theorem handleReference_spec (hop : p.children[1]? = some op) (htag : op.tag = applicationSearchResultReference) :
    HandleSpec decodeControl p (handleReference op) := by
  have hnot : ¬ IsSuccessDone p := not_isSuccessDone hop (by rw [htag]; decide)
  have hsilent := @endsSilently_reference C decodeControl p op hop htag
  unfold handleReference
  cases hcs : op.children with
  | nil => simp [HandleSpec, hsilent, hnot, referralIn, hcs]
  | cons uri rest =>
    have href : referralIn op = asString uri.value := by simp [referralIn, hcs]
    cases hs : asString uri.value with
    | none => simp [HandleSpec, hsilent, hnot, href, hs]
    | some ref =>
      simp only [hs]
      refine ⟨rfl, carries_of hop (fun h => ?_) (fun _ => href.trans hs), by simp [hsilent, href, hs], hnot⟩
      exact absurd (htag.symm.trans h) (by decide)

theorem handleIntermediate_spec (hop : p.children[1]? = some op) (htag : op.tag = applicationIntermediateResponse) :
    HandleSpec decodeControl p (handleIntermediate decodeControl op) := by
  have hnot : ¬ IsSuccessDone p := not_isSuccessDone hop (by rw [htag]; decide)
  have hsilent := @endsSilently_intermediate C decodeControl p op hop htag
  unfold handleIntermediate
  cases hd : decodeControl op with
  | panic => simp [HandleSpec, hsilent, hnot, hd]
  | err e => simp [HandleSpec, hsilent, hd, SearchSingleResult.ofError]
  | ok c =>
    refine ⟨rfl, carries_of hop (fun h => ?_) (fun h => ?_), by simp [hsilent, hd], hnot⟩
    · exact absurd (htag.symm.trans h) (by decide)
    · exact absurd (htag.symm.trans h) (by decide)

theorem handle_spec (p : Packet) : HandleSpec decodeControl p (handle decodeControl p) := by
  unfold handle
  cases hop : p.children[1]? with
  | none =>
    refine iff_of_true (.inl (.inl hop)) ?_
    rintro ⟨op, hop', -⟩
    rw [hop] at hop'
    cases hop'
  | some op =>
    simp only
    split
    · exact handleEntry_spec hop ‹_›
    · split
      · exact handleDone_spec hop ‹_›
      · split
        · exact handleReference_spec hop ‹_›
        · split
          · exact handleIntermediate_spec hop ‹_›
          · rename_i h4 h5 h19 h25
            refine ⟨nofun, ?_⟩
            simp [EndsSilently, PanicsOn, FalseDone, hop, h4, h5, h19, h25]

/-! ## Descriptions play no part -/

theorem unpackValues_undescribed (name : GoString) (vs : List Packet) :
    unpackValues name (vs.map Packet.undescribed) = unpackValues name vs := by
  induction vs with
  | nil => rfl
  | cons v vs ih => simp [unpackValues, ih]

theorem unpackAttribute_undescribed (child : Packet) : unpackAttribute child.undescribed = unpackAttribute child := by
  unfold unpackAttribute
  rcases hcs : child.children with _ | ⟨type, _ | ⟨vals, rest⟩⟩ <;> simp [hcs, unpackValues_undescribed]

theorem unpackAttributes_undescribed (cs : List Packet) :
    unpackAttributes (cs.map Packet.undescribed) = unpackAttributes cs := by
  induction cs with
  | nil => rfl
  | cons c cs ih => simp [unpackAttributes, unpackAttribute_undescribed, ih]

theorem entryIn_undescribed (op : Packet) : entryIn op.undescribed = entryIn op := by
  unfold entryIn
  rcases hcs : op.children with _ | ⟨name, _ | ⟨attributes, rest⟩⟩ <;> simp [hcs, unpackAttributes_undescribed]

theorem referralIn_undescribed (op : Packet) : referralIn op.undescribed = referralIn op := by
  unfold referralIn
  cases hcs : op.children <;> simp [hcs]

theorem isSuccessDone_congr {q : Packet}
    (h : q.children[1]?.map Packet.undescribed = p.children[1]?.map Packet.undescribed) :
    IsSuccessDone q ↔ IsSuccessDone p := by
  have hsuccess (p : Packet) : IsSuccessDone p ↔ ∃ op ∈ p.children[1]?.map Packet.undescribed,
      op.classType = .application ∧ op.tag = applicationSearchResultDone ∧
        ∃ code ∈ op.children[0]?, code.value = .int 0 := by
    simp [IsSuccessDone]
  rw [hsuccess, hsuccess, h]

theorem carries_congr {q : Packet} {r : SearchSingleResult C}
    (h : q.children[1]?.map Packet.undescribed = p.children[1]?.map Packet.undescribed) (hq : Carries q r) :
    Carries p r := by
  have hmove {op : Packet} (hop : p.children[1]? = some op) :
      ∃ op', q.children[1]? = some op' ∧ op'.undescribed = op.undescribed := by
    rw [hop, Option.map_some, Option.map_eq_some_iff] at h
    exact h
  constructor
  · intro op hop htag
    obtain ⟨op', hop', hsame⟩ := hmove hop
    rw [← Packet.undescribed_tag, ← hsame, Packet.undescribed_tag] at htag
    rw [← entryIn_undescribed, ← hsame, entryIn_undescribed]
    exact hq.entry hop' htag
  · intro op hop htag
    obtain ⟨op', hop', hsame⟩ := hmove hop
    rw [← Packet.undescribed_tag, ← hsame, Packet.undescribed_tag] at htag
    rw [← referralIn_undescribed, ← hsame, referralIn_undescribed]
    exact hq.referral hop' htag

end

/-! ## The iteration -/

section

variable {C : Type} {r : SearchResponse C} {closed : Bool} {sent : List (SearchSingleResult C)}

theorem iterate_error {res : SearchSingleResult C} (h : res.error ≠ none) :
    (iterate closed r (res :: sent)).last.err ≠ none := by
  obtain ⟨e, he⟩ := Option.ne_none_iff_exists'.mp h
  simp [iterate, SearchResponse.next, he]

theorem iterate_cons {res : SearchSingleResult C} (h : res.error = none) : iterate closed r (res :: sent) =
    ⟨res.response :: (iterate closed res.response sent).delivered, (iterate closed res.response sent).ended,
      (iterate closed res.response sent).last⟩ := by
  simp [iterate, SearchResponse.next, SearchSingleResult.response, h]

/-- Without errors every result is delivered. -/
theorem iterate_ok (hr : r.err = none) (h : ∀ res ∈ sent, res.error = none) :
    (iterate closed r sent).delivered = sent.map SearchSingleResult.response ∧
      (iterate closed r sent).ended = closed ∧ (iterate closed r sent).last.err = none := by
  induction sent generalizing r with
  | nil => exact ⟨rfl, rfl, hr⟩
  | cons res sent ih =>
    rw [List.forall_mem_cons] at h
    obtain ⟨hdelivered, hended, hlast⟩ := ih (r := res.response) rfl h.2
    rw [iterate_cons h.1]
    exact ⟨congrArg (res.response :: ·) hdelivered, hended, hlast⟩

end

/-! ## The run of the worker -/

section

variable {C : Type} {decodeControl : Packet → Outcome Err C} {addControlDescriptions : Assign} {debug : Bool}

/-- A packet that, once it is described in debug mode, ends the search without an error. -/
def SilentAt (decodeControl : Packet → Outcome Err C) (addControlDescriptions : Assign) (debug : Bool) (p : Packet) :
    Prop :=
  ∃ q, describeInDebug addControlDescriptions debug p = .ok q ∧ EndsSilently decodeControl q

/-- What the worker does with a packet that comes next. -/
inductive WorkerStep (silent : Packet → Prop) (rest : Worker C) (p : Packet) : Worker C → Prop
  | failed (r : SearchSingleResult C) (hr : r.error ≠ none) (hp : ¬ silent p) :
      WorkerStep silent rest p ⟨[p], [r], true⟩
  | quiet (sent : List (SearchSingleResult C)) (hsent : ∀ r ∈ sent, r.error = none)
      (hp : silent p ↔ ¬ IsSuccessDone p) : WorkerStep silent rest p ⟨[p], sent, true⟩
  | goOn (r : SearchSingleResult C) (hr : r.error = none) (hd : Carries p r) (hp : ¬ silent p)
      (hnot : ¬ IsSuccessDone p) : WorkerStep silent rest p ⟨p :: rest.received, r :: rest.sent, rest.closed⟩

theorem workerLoop_cons (closed : Bool) (p : Packet) (rest : List (Except Err Packet)) :
    WorkerStep (SilentAt decodeControl addControlDescriptions debug)
      (workerLoop decodeControl addControlDescriptions debug closed rest) p
      (workerLoop decodeControl addControlDescriptions debug closed (.ok p :: rest)) := by
  rw [workerLoop]
  cases hq : describeInDebug addControlDescriptions debug p with
  | error e => exact .failed _ nofun (by simp [SilentAt, hq])
  | ok q =>
    have hsilent : SilentAt decodeControl addControlDescriptions debug p ↔ EndsSilently decodeControl q := by
      simp [SilentAt, hq]
    have hdone := isSuccessDone_congr (operation_describeInDebug hq)
    have hspec := @handle_spec C decodeControl q
    simp only
    generalize handle decodeControl q = h at hspec
    cases h with
    | panic =>
      refine .quiet [] nofun ?_
      rw [hsilent, ← hdone]
      exact hspec
    | stop r => exact .failed r hspec.1 (hsilent.not.mpr hspec.2)
    | found r =>
      refine .quiet r.toList (by simpa using hspec.1) ?_
      rw [hsilent, ← hdone]
      exact hspec.2
    | goOn r =>
      obtain ⟨hr, hcarries, hnot, hnotDone⟩ := hspec
      exact .goOn r hr (carries_congr (operation_describeInDebug hq) hcarries) (hsilent.not.mpr hnot)
        (hdone.not.mp hnotDone)

theorem complete_cons {p : Packet} {res : SearchResponse C} {ps : List Packet} {rs : List (SearchResponse C)}
    (hp : Delivers p res) (hnot : ¬ IsSuccessDone p) : Complete (p :: ps) (res :: rs) ↔ Complete ps rs := by
  constructor
  · rintro ⟨before, done, results, rest, hps, hdone, hrs, hall⟩
    cases hall with
    | nil =>
      rw [List.nil_append, List.cons.injEq] at hps
      exact absurd (hps.1 ▸ hdone) hnot
    | cons hd hall =>
      rw [List.cons_append, List.cons.injEq] at hps hrs
      exact ⟨_, done, _, rest, hps.2, hdone, hrs.2, hall⟩
  · rintro ⟨before, done, results, rest, rfl, hdone, rfl, hall⟩
    exact ⟨p :: before, done, res :: results, rest, rfl, hdone, rfl, .cons hp hall⟩

theorem complete_singleton {p : Packet} {rs : List (SearchResponse C)} : Complete [p] rs ↔ IsSuccessDone p := by
  constructor
  · rintro ⟨before, done, results, rest, hps, hdone, -, -⟩
    cases before with
    | nil =>
      rw [List.nil_append, List.cons.injEq] at hps
      exact hps.1 ▸ hdone
    | cons b before => simp at hps
  · intro hdone
    exact ⟨[], p, [], rs, rfl, hdone, rfl, .nil⟩

theorem Complete.received_ne_nil {received : List Packet} {delivered : List (SearchResponse C)}
    (h : Complete received delivered) : received ≠ [] := by
  obtain ⟨before, done, _, _, rfl, -⟩ := h
  exact List.append_ne_nil_of_right_ne_nil _ (List.cons_ne_nil _ _)

theorem Complete.done_of_getLast {received : List Packet} {delivered : List (SearchResponse C)}
    (h : Complete received delivered) : ∀ p ∈ received.getLast?, IsSuccessDone p := by
  obtain ⟨before, done, _, _, rfl, hdone, -⟩ := h
  intro p hp
  rw [List.getLast?_concat, Option.mem_some_iff] at hp
  exact hp ▸ hdone

/-- An iteration over the results of a worker, from a response on, that ends without an error was complete, if and only
if the worker has received nothing that ends the search silently. -/
def SoundRun (silent : Packet → Prop) (r : SearchResponse C) (w : Worker C) : Prop :=
  ((iterate w.closed r w.sent).ended = true → (iterate w.closed r w.sent).last.err = none →
    Complete w.received (iterate w.closed r w.sent).delivered) ↔ ∀ p ∈ w.received, ¬ silent p

/-- A worker that has sent an error. -/
theorem soundRun_of_error {silent : Packet → Prop} {r : SearchResponse C} {received : List Packet}
    {res : SearchSingleResult C} (hres : res.error ≠ none) (h : ∀ p ∈ received, ¬ silent p) :
    SoundRun silent r ⟨received, [res], true⟩ :=
  iff_of_true (fun _ herr => absurd herr (iterate_error hres)) h

theorem soundRun_fail {silent : Packet → Prop} {r : SearchResponse C} (e : Err) :
    SoundRun silent r (.fail e) :=
  soundRun_of_error (Option.some_ne_none e) (List.forall_mem_nil _)

/-- The run lemma. -/
theorem workerLoop_sound (closed : Bool) (packets : List (Except Err Packet)) {r : SearchResponse C}
    (hr : r.err = none) : SoundRun (SilentAt decodeControl addControlDescriptions debug) r
      (workerLoop decodeControl addControlDescriptions debug closed packets) := by
  induction packets generalizing r with
  | nil =>
    cases closed with
    | true => exact soundRun_fail _
    | false => exact iff_of_true nofun (List.forall_mem_nil _)
  | cons x packets ih =>
    cases x with
    | error e => exact soundRun_fail e
    | ok p =>
      have hstep := @workerLoop_cons C decodeControl addControlDescriptions debug closed p packets
      generalize workerLoop decodeControl addControlDescriptions debug closed (.ok p :: packets) = w at hstep
      cases hstep with
      | failed res hres hp => exact soundRun_of_error hres (by simpa using hp)
      | quiet sent hsent hp =>
        obtain ⟨-, hended, hlast⟩ := @iterate_ok C r true sent hr hsent
        simp only [SoundRun, hended, hlast, complete_singleton, List.forall_mem_singleton, hp, not_not,
          forall_true_left]
      | goOn res hres hd hp hnot =>
        simp only [SoundRun, iterate_cons hres, complete_cons hd hnot, List.forall_mem_cons, hp, not_false_eq_true,
          true_and]
        exact ih rfl

end

/-! ## The search -/

/-- An iteration that ends without an error was complete, if and only if the connection was not closing at the time of
the call and no packet the worker received ended the search silently. -/
theorem searchAsync_complete_iff {C : Type} (E : Encoder) (addControlDescriptions : Assign)
    (decodeControl : Packet → Outcome Err C) (conn : Connection) (req : SearchRequest) (responses : Responses) :
    let w := conn.searchAsync E addControlDescriptions decodeControl req responses
    (w.iterate.ended = true → w.iterate.last.err = none → Complete w.received w.iterate.delivered) ↔
      conn.closing = false ∧ ∀ p ∈ w.received, ¬ SilentAt decodeControl addControlDescriptions conn.debug p := by
  cases hclosing : conn.closing with
  | true =>
    simp only [Connection.searchAsync, hclosing, if_true]
    refine iff_of_false (fun h => ?_) (fun h => Bool.noConfusion h.1)
    exact (h rfl rfl).received_ne_nil rfl
  | false =>
    have hsound : SoundRun (SilentAt decodeControl addControlDescriptions conn.debug) .initial
        (conn.searchAsync E addControlDescriptions decodeControl req responses) := by
      obtain ⟨e, hw⟩ | hw := conn.searchAsync_open hclosing
      · rw [hw]
        exact soundRun_fail e
      · rw [hw]
        exact workerLoop_sound responses.closed responses.packets rfl
    exact ⟨fun h => ⟨rfl, hsound.mp h⟩, fun h => hsound.mpr h.2⟩

/-! ## A truncated search that looks complete -/

def presenceRequest : SearchRequest := ⟨str "dc=x", 2, 0, 0, 0, false, str "(a=*)", [], [], false⟩

/-- A message with the message ID 1, as it is read off the wire. -/
def searchMessage (application : ℕ) (cs : List Packet) : Packet :=
  readConstructed shortEncoder .universal tagSequence
    [readPrimitive .universal tagInteger (.int 1) [1], readConstructed shortEncoder .application application cs]

def octetString (s : GoString) : Packet := readPrimitive .universal tagOctetString (.string s) s

/-- A SearchResultEntry with an empty list of attributes. -/
def entryMessage (dn : GoString) : Packet :=
  searchMessage applicationSearchResultEntry
    [octetString dn, readConstructed shortEncoder .universal tagSequence []]

/-- A SearchResultEntry without its list of attributes. -/
def bareEntryMessage (dn : GoString) : Packet := searchMessage applicationSearchResultEntry [octetString dn]

def doneMessage : Packet :=
  searchMessage applicationSearchResultDone
    [readPrimitive .universal tagEnumerated (.int 0) [0], octetString [], octetString []]

/-- The second of two entries makes the worker panic: the caller sees the first one, the end and no error.  On a
connection that is closing the caller sees no entry, the end and no error. -/
theorem searchAsync_truncated :
    (let w := openConnection.searchAsync shortEncoder .skip (fun _ => (.panic : Outcome Err Unit)) presenceRequest
      ⟨[.ok (entryMessage (str "cn=a")), .ok (bareEntryMessage (str "cn=b")), .ok doneMessage], false⟩
    w.iterate.ended = true ∧ w.iterate.last.err = none ∧ ¬ Complete w.received w.iterate.delivered) ∧
    let w := { openConnection with closing := true }.searchAsync shortEncoder .skip
      (fun _ => (.panic : Outcome Err Unit)) presenceRequest ⟨[.ok (entryMessage (str "cn=a")), .ok doneMessage], false⟩
    w.iterate.ended = true ∧ w.iterate.last.err = none ∧ ¬ Complete w.received w.iterate.delivered := by
  refine ⟨⟨rfl, rfl, fun h => ?_⟩, rfl, rfl, fun h => ?_⟩
  · have hdone : ∀ p ∈ [entryMessage (str "cn=a"), bareEntryMessage (str "cn=b")].getLast?, IsSuccessDone p :=
      h.done_of_getLast
    exact not_isSuccessDone rfl (by decide) (hdone _ rfl)
  · exact h.received_ne_nil rfl

end GoLdap
