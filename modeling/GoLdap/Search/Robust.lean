import GoLdap.Search.SizeLimit

/-!
# Search.Robust — responses that make `Search` panic

`Search` takes the second child of every response and the first child of entries and referrals without looking, and asserts
that the latter is a string.  `unpackAttributes` checks what it takes, and `GetLDAPError` does not panic on a packet off the
wire.  So the responses that end the process are the ones listed by `Crashes`, if the loop gets to them.

* `searchStep_outcome`: what one response does to the loop.
* `searchLoop_eq_panicked`: the loop panics exactly if it gets to a response it panics on.
-/

namespace GoLdap

open Go Ber

/-! ## Shapes of responses -/

/-- The first child of the operation is a string: the name of an entry, or the URI of a referral. -/
def StartsWithString (op : Packet) : Prop := ∃ c ∈ op.children[0]?, ∃ s, c.value = .string s

/-- The attributes of an entry, if there is a list of them. -/
def attributePackets (op : Packet) : List Packet :=
  match op.children with
  | _ :: attributes :: _ => attributes.children
  | _ => []

def UnpacksAttributes (op : Packet) : Prop := ∃ as, unpackAttributes (attributePackets op) = .ok as

/-- No further entry is taken. -/
def SearchRequest.Full (req : SearchRequest) (taken : ℕ) : Prop :=
  req.enforceSizeLimit ∧ 0 < req.sizeLimit ∧ req.sizeLimit ≤ taken

/-- The loop, with so many entries taken, panics on a response: there is no operation; or an entry that is to be taken, or
a referral, does not start with a string. -/
def Crashes (req : SearchRequest) (taken : ℕ) (p : Packet) : Prop :=
  p.children[1]? = none ∨ ∃ op ∈ p.children[1]?, ¬ StartsWithString op ∧
    ((op.tag = applicationSearchResultEntry ∧ ¬ req.Full taken ∧ UnpacksAttributes op) ∨
      op.tag = applicationSearchResultReference)

/-- The loop goes on behind a response: it is not the last one, an entry is taken, and entries and referrals start with a
string. -/
def GoesOn (req : SearchRequest) (taken : ℕ) (p : Packet) : Prop :=
  ∃ op ∈ p.children[1]?, op.tag ≠ applicationSearchResultDone ∧
    (op.tag = applicationSearchResultEntry → ¬ req.Full taken ∧ UnpacksAttributes op ∧ StartsWithString op) ∧
    (op.tag = applicationSearchResultReference → StartsWithString op)

/-- The entries in a list of responses. -/
def entriesIn (ps : List Packet) : ℕ := (ps.map entriesDelivered).sum

/-- The loop gets to a response it panics on. -/
def CrashesIn (addControlDescriptions : Assign) (debug : Bool) (req : SearchRequest) (taken : ℕ)
    (packets : List (Except Err Packet)) : Prop :=
  ∃ before p after, packets = before.map .ok ++ .ok p :: after ∧
    (∀ (i : ℕ) q, before[i]? = some q →
      Describable addControlDescriptions debug q ∧ GoesOn req (taken + entriesIn (before.take i)) q) ∧
    Describable addControlDescriptions debug p ∧ Crashes req (taken + entriesIn before) p

theorem unpacksAttributes_undescribed {op : Packet} : UnpacksAttributes op.undescribed ↔ UnpacksAttributes op := by
  have hpackets : attributePackets op.undescribed = (attributePackets op).map Packet.undescribed := by
    unfold attributePackets
    rcases hcs : op.children with _ | ⟨name, _ | ⟨attributes, rest⟩⟩ <;> simp [hcs]
  rw [UnpacksAttributes, hpackets, unpackAttributes_undescribed, UnpacksAttributes]

theorem startsWithString_undescribed {op : Packet} : StartsWithString op.undescribed ↔ StartsWithString op := by
  simp [StartsWithString]

section

variable {req : SearchRequest} {taken : ℕ} {p q : Packet}

theorem crashes_congr (h : q.children[1]?.map Packet.undescribed = p.children[1]?.map Packet.undescribed) :
    Crashes req taken q ↔ Crashes req taken p := by
  have hcrashes (p : Packet) : Crashes req taken p ↔ p.children[1]?.map Packet.undescribed = none ∨
      ∃ op ∈ p.children[1]?.map Packet.undescribed, ¬ StartsWithString op ∧
        ((op.tag = applicationSearchResultEntry ∧ ¬ req.Full taken ∧ UnpacksAttributes op) ∨
          op.tag = applicationSearchResultReference) := by
    simp [Crashes, startsWithString_undescribed, unpacksAttributes_undescribed]
  rw [hcrashes, hcrashes, h]

theorem goesOn_congr (h : q.children[1]?.map Packet.undescribed = p.children[1]?.map Packet.undescribed) :
    GoesOn req taken q ↔ GoesOn req taken p := by
  have hgoesOn (p : Packet) : GoesOn req taken p ↔ ∃ op ∈ p.children[1]?.map Packet.undescribed,
      op.tag ≠ applicationSearchResultDone ∧
        (op.tag = applicationSearchResultEntry → ¬ req.Full taken ∧ UnpacksAttributes op ∧ StartsWithString op) ∧
        (op.tag = applicationSearchResultReference → StartsWithString op) := by
    simp [GoesOn, startsWithString_undescribed, unpacksAttributes_undescribed]
  rw [hgoesOn, hgoesOn, h]

theorem entriesDelivered_congr (h : q.children[1]?.map Packet.undescribed = p.children[1]?.map Packet.undescribed) :
    entriesDelivered q = entriesDelivered p := by
  have hentries (p : Packet) : entriesDelivered p =
      if (p.children[1]?.map Packet.undescribed).any (·.tag = applicationSearchResultEntry) then 1 else 0 := by
    unfold entriesDelivered
    cases p.children[1]? with
    | none => rfl
    | some op => simp
  rw [hentries, hentries, h]

/-! ## The step -/

/-- What a response does to a loop that has taken so many entries. -/
inductive StepOutcome {C : Type} (req : SearchRequest) (taken : ℕ) (p : Packet) : SearchStep C → Prop
  | panic (h : Crashes req taken p) : StepOutcome req taken p .panic
  | goOn {result : SearchResult C} (h : GoesOn req taken p) (hnot : ¬ Crashes req taken p)
      (hentries : result.entries.length = taken + entriesDelivered p) : StepOutcome req taken p (.goOn result)
  | ret {result : SearchResult C} {err : Option Err} (h : ¬ GoesOn req taken p) (hnot : ¬ Crashes req taken p) :
      StepOutcome req taken p (.ret result err)

variable {C : Type} {result : SearchResult C} {op : Packet}

theorem asString_eq_some {v : Value} {s : GoString} : asString v = some s ↔ v = .string s := by
  cases v <;> simp [asString]

theorem startsWithString_cons {c : Packet} {rest : List Packet} (hcs : op.children = c :: rest) :
    StartsWithString op ↔ ∃ s, asString c.value = some s := by
  simp [StartsWithString, hcs, asString_eq_some]

theorem searchEntry_error (hfull : ¬ req.Full result.entries.length) {e : Err}
    (has : unpackAttributes (attributePackets op) = .error e) : searchEntry req result op = .ret result (some e) := by
  unfold searchEntry
  rw [SearchRequest.Full] at hfull
  rw [attributePackets] at has
  rw [if_neg hfull]
  rcases hcs : op.children with _ | ⟨name, _ | ⟨attributes, rest⟩⟩ <;> rw [hcs] at has <;> dsimp only at has ⊢ <;> rw [has]

theorem searchEntry_ok (hfull : ¬ req.Full result.entries.length) {as : List EntryAttribute}
    (has : unpackAttributes (attributePackets op) = .ok as) :
    searchEntry req result op = ((op.children[0]?.bind fun name => asString name.value).elim .panic fun dn =>
      .goOn { result with entries := result.entries ++ [⟨dn, as⟩] }) := by
  unfold searchEntry
  rw [SearchRequest.Full] at hfull
  rw [attributePackets] at has
  rw [if_neg hfull]
  rcases hcs : op.children with _ | ⟨name, _ | ⟨attributes, rest⟩⟩ <;> rw [hcs] at has <;> dsimp only at has ⊢ <;>
    rw [has]
  · rfl
  · cases hname : asString name.value <;> simp [hname]
  · cases hname : asString name.value <;> simp [hname]

theorem searchEntry_outcome (hop : p.children[1]? = some op) (htag : op.tag = applicationSearchResultEntry) :
    StepOutcome req result.entries.length p (searchEntry req result op) := by
  have hcrashes : Crashes req result.entries.length p ↔
      ¬ StartsWithString op ∧ ¬ req.Full result.entries.length ∧ UnpacksAttributes op := by
    simp [Crashes, hop, htag, applicationSearchResultEntry, applicationSearchResultReference]
  have hgoesOn : GoesOn req result.entries.length p ↔
      ¬ req.Full result.entries.length ∧ UnpacksAttributes op ∧ StartsWithString op := by
    simp [GoesOn, hop, htag, applicationSearchResultEntry, applicationSearchResultReference, applicationSearchResultDone]
  have hone : entriesDelivered p = 1 := by simp [entriesDelivered, hop, htag]
  by_cases hfull : req.Full result.entries.length
  · have hstep : searchEntry req result op = .ret result (some errSizeLimitExceeded) := if_pos hfull
    rw [hstep]
    exact .ret (by simp [hgoesOn, hfull]) (by simp [hcrashes, hfull])
  cases has : unpackAttributes (attributePackets op) with
  | error e =>
    have hnot : ¬ UnpacksAttributes op := by simp [UnpacksAttributes, has]
    rw [searchEntry_error hfull has]
    exact .ret (by simp [hgoesOn, hnot]) (by simp [hcrashes, hnot])
  | ok as =>
    have hunpacks : UnpacksAttributes op := ⟨as, has⟩
    rw [searchEntry_ok hfull has]
    cases hcs : op.children with
    | nil => exact .panic (by simp [hcrashes, hfull, hunpacks, StartsWithString, hcs])
    | cons name rest =>
      have hstarts := startsWithString_cons hcs
      rw [List.getElem?_cons_zero, Option.bind_some]
      cases hname : asString name.value with
      | none => exact .panic (by simp [hcrashes, hfull, hunpacks, hstarts, hname])
      | some dn =>
        refine .goOn (by simp [hgoesOn, hfull, hunpacks, hstarts, hname]) (by simp [hcrashes, hstarts, hname]) ?_
        rw [hone]
        exact List.length_append

theorem searchReference_outcome (hop : p.children[1]? = some op) (htag : op.tag = applicationSearchResultReference) :
    StepOutcome req result.entries.length p (searchReference result op) := by
  have hcrashes : Crashes req result.entries.length p ↔ ¬ StartsWithString op := by simp [Crashes, hop, htag]
  have hgoesOn : GoesOn req result.entries.length p ↔ StartsWithString op := by
    simp [GoesOn, hop, htag, applicationSearchResultEntry, applicationSearchResultReference, applicationSearchResultDone]
  have hzero : entriesDelivered p = 0 := by
    simp [entriesDelivered, hop, htag, applicationSearchResultEntry, applicationSearchResultReference]
  unfold searchReference
  cases hcs : op.children with
  | nil => exact .panic (by simp [hcrashes, StartsWithString, hcs])
  | cons uri rest =>
    have hstarts := startsWithString_cons hcs
    dsimp only
    cases huri : asString uri.value with
    | none => exact .panic (by simp [hcrashes, hstarts, huri])
    | some ref => exact .goOn (by simp [hgoesOn, hstarts, huri]) (by simp [hcrashes, hstarts, huri]) (by rw [hzero]; rfl)

variable {decodeControl : Packet → Outcome Err C}

theorem searchDone_ret (result : SearchResult C) (hdecode : ∀ p, decodeControl p ≠ .panic)
    (hread : ∀ op ∈ p.children[1]?, AsRead op) :
    ∃ result' err, searchDone decodeControl result p = .ret result' err := by
  unfold searchDone
  cases herr : getLDAPError p with
  | panic => exact absurd herr (getLDAPError_ne_panic_of_asRead hread)
  | err e => exact ⟨_, _, rfl⟩
  | ok _ =>
    dsimp only
    split
    · rename_i mid op controls _
      obtain ⟨cs, h⟩ | ⟨cs, e, h⟩ := decodeControls_cases hdecode
        (.wrapped "failed to decode child control: %s") controls.children
      · exact ⟨_, _, by rw [h]⟩
      · exact ⟨_, _, by rw [h]⟩
    · exact ⟨_, _, rfl⟩

/-- **The step**: the loop panics, goes on or returns by the shape of the response. -/
theorem searchStep_outcome (req : SearchRequest) (result : SearchResult C) (hdecode : ∀ p, decodeControl p ≠ .panic)
    (hread : ∀ op ∈ p.children[1]?, AsRead op) :
    StepOutcome req result.entries.length p (searchStep decodeControl req result p) := by
  unfold searchStep
  cases hop : p.children[1]? with
  | none => exact .panic (.inl hop)
  | some op =>
    dsimp only
    by_cases hentry : op.tag = applicationSearchResultEntry
    · rw [if_pos hentry]
      exact searchEntry_outcome hop hentry
    rw [if_neg hentry]
    by_cases hdone : op.tag = applicationSearchResultDone
    · rw [if_pos hdone]
      obtain ⟨result', err, h⟩ := searchDone_ret result hdecode hread
      rw [h]
      refine .ret (by simp [GoesOn, hop, hdone]) ?_
      simp [Crashes, hop, hdone, applicationSearchResultDone, applicationSearchResultEntry,
        applicationSearchResultReference]
    rw [if_neg hdone]
    by_cases hreference : op.tag = applicationSearchResultReference
    · rw [if_pos hreference]
      exact searchReference_outcome hop hreference
    · rw [if_neg hreference]
      refine .goOn (by simp [GoesOn, hop, hentry, hdone, hreference]) (by simp [Crashes, hop, hentry, hreference]) ?_
      simp [entriesDelivered, hop, hentry]

end

/-! ## The run -/

section

variable {addControlDescriptions : Assign} {debug : Bool} {req : SearchRequest} {taken : ℕ}

theorem not_crashesIn_nil : ¬ CrashesIn addControlDescriptions debug req taken [] := by
  rintro ⟨before, p, after, h, -⟩
  simp at h

theorem not_crashesIn_error {e : Err} {rest : List (Except Err Packet)} :
    ¬ CrashesIn addControlDescriptions debug req taken (.error e :: rest) := by
  rintro ⟨_ | ⟨q, before⟩, p, after, h, -⟩
  · cases h
  · cases h

/-- The loop is at a response it panics on, or goes on to one. -/
theorem crashesIn_cons {p : Packet} {rest : List (Except Err Packet)} :
    CrashesIn addControlDescriptions debug req taken (.ok p :: rest) ↔ Describable addControlDescriptions debug p ∧
      (Crashes req taken p ∨
        GoesOn req taken p ∧ CrashesIn addControlDescriptions debug req (taken + entriesDelivered p) rest) := by
  constructor
  · rintro ⟨_ | ⟨q, before⟩, r, after, h, hbefore, hdescribable, hcrash⟩
    · cases h
      exact ⟨hdescribable, .inl hcrash⟩
    · obtain ⟨hq, rfl⟩ := List.cons.inj h
      obtain rfl := Except.ok.inj hq
      obtain ⟨hdesc, hgoes⟩ := hbefore 0 p rfl
      refine ⟨hdesc, .inr ⟨hgoes, before, r, after, rfl, fun i q hi => ?_, hdescribable, ?_⟩⟩
      · obtain ⟨hdesc', hgoes'⟩ := hbefore (i + 1) q hi
        refine ⟨hdesc', ?_⟩
        rwa [List.take_succ_cons, entriesIn, List.map_cons, List.sum_cons, ← Nat.add_assoc] at hgoes'
      · rwa [entriesIn, List.map_cons, List.sum_cons, ← Nat.add_assoc] at hcrash
  · rintro ⟨hdesc, hcrash | ⟨hgoes, before, r, after, rfl, hbefore, hdescribable, hcrash⟩⟩
    · exact ⟨[], p, rest, rfl, by simp, hdesc, hcrash⟩
    · refine ⟨p :: before, r, after, rfl, fun i q hi => ?_, hdescribable, ?_⟩
      · cases i with
        | zero =>
          obtain rfl := Option.some.inj hi
          exact ⟨hdesc, hgoes⟩
        | succ i =>
          obtain ⟨hdesc', hgoes'⟩ := hbefore i q hi
          refine ⟨hdesc', ?_⟩
          rwa [List.take_succ_cons, entriesIn, List.map_cons, List.sum_cons, ← Nat.add_assoc]
      · rwa [entriesIn, List.map_cons, List.sum_cons, ← Nat.add_assoc]

variable {C : Type} {decodeControl : Packet → Outcome Err C}

/-- **The run**: the loop panics exactly if it gets to a response it panics on. -/
theorem searchLoop_eq_panicked (addControlDescriptions : Assign) (debug : Bool) (req : SearchRequest)
    (hdecode : ∀ p, decodeControl p ≠ .panic) (closed : Bool) (result : SearchResult C)
    {packets : List (Except Err Packet)} (hmessage : ∀ p, .ok p ∈ packets → IsMessage p) :
    searchLoop decodeControl addControlDescriptions debug req closed result packets = .panicked ↔
      CrashesIn addControlDescriptions debug req result.entries.length packets := by
  induction packets generalizing result with
  | nil =>
    refine iff_of_false ?_ not_crashesIn_nil
    rw [searchLoop]
    split_ifs <;> rintro ⟨⟩
  | cons r rest ih =>
    cases r with
    | error e => exact iff_of_false (by rintro ⟨⟩) not_crashesIn_error
    | ok p =>
      rw [searchLoop, crashesIn_cons, describable_iff]
      cases hq : describeInDebug addControlDescriptions debug p with
      | error e => exact iff_of_false (by rintro ⟨⟩) (by simp)
      | ok q =>
        have hsame := operation_describeInDebug hq
        have hp : IsMessage p := hmessage p (by simp)
        have hstep := searchStep_outcome req result hdecode (hp.describeInDebug hq).operation
        rw [and_iff_right ⟨q, rfl⟩, ← crashes_congr hsame, ← goesOn_congr hsame, ← entriesDelivered_congr hsame]
        dsimp only
        generalize searchStep decodeControl req result q = step at hstep ⊢
        cases hstep with
        | panic h => exact iff_of_true rfl (.inl h)
        | ret h hnot => exact iff_of_false (by rintro ⟨⟩) (by simp [h, hnot])
        | goOn h hnot hentries =>
          rw [ih _ fun p hp => hmessage p (List.mem_cons_of_mem _ hp), hentries]
          simp [h, hnot]

theorem searchLoop_ne_waiting (result : SearchResult C) (packets : List (Except Err Packet)) :
    searchLoop decodeControl addControlDescriptions debug req true result packets ≠ .waiting := by
  induction packets generalizing result with
  | nil => rintro ⟨⟩
  | cons r rest ih =>
    cases r with
    | error e => rintro ⟨⟩
    | ok p =>
      rw [searchLoop]
      cases describeInDebug addControlDescriptions debug p with
      | error e => rintro ⟨⟩
      | ok q =>
        dsimp only
        cases searchStep decodeControl req result q with
        | panic => rintro ⟨⟩
        | ret _ _ => rintro ⟨⟩
        | goOn result => exact ih result

end

/-- A call of `Search` does not panic, and returns once its responses have ended, exactly if the loop does not get to a
response it panics on. -/
theorem search_returns_iff {C : Type} (E : Encoder) (addControlDescriptions : Assign)
    (decodeControl : Packet → Outcome Err C) (hdecode : ∀ p, decodeControl p ≠ .panic) (conn : Connection)
    (req : SearchRequest) (responses : Responses) (hmessage : ∀ p, .ok p ∈ responses.packets → IsMessage p) :
    (conn.search E addControlDescriptions decodeControl req responses ≠ .panicked ∧
      (responses.closed = true →
        ∃ result err, conn.search E addControlDescriptions decodeControl req responses = .returned result err)) ↔
      (conn.sends E req = true → ¬ CrashesIn addControlDescriptions conn.debug req 0 responses.packets) := by
  cases hsends : conn.sends E req with
  | false =>
    obtain ⟨e, he⟩ := conn.search_of_not_sends hsends addControlDescriptions decodeControl responses
    rw [he]
    exact iff_of_true ⟨by rintro ⟨⟩, fun _ => ⟨_, _, rfl⟩⟩ (by rintro ⟨⟩)
  | true =>
    have hpanic := searchLoop_eq_panicked addControlDescriptions conn.debug req hdecode responses.closed ⟨[], [], []⟩
      hmessage
    rw [List.length_nil] at hpanic
    rw [conn.search_of_sends hsends, imp_iff_right (rfl : true = true), ← not_congr hpanic]
    refine and_iff_left_of_imp fun hne hclosed => ?_
    rw [hclosed] at hne ⊢
    cases hloop : searchLoop decodeControl addControlDescriptions conn.debug req true ⟨[], [], []⟩ responses.packets with
    | returned result err => exact ⟨result, err, rfl⟩
    | panicked => exact absurd hloop hne
    | waiting => exact absurd hloop (searchLoop_ne_waiting _ _)

/-- A search that is answered by a SearchResultDone. -/
theorem search_returns_done : ∃ result err,
    openConnection.search shortEncoder .skip (fun _ => (.ok () : Outcome Err Unit)) presenceRequest
      ⟨[.ok doneMessage], true⟩ = .returned result err := by
  have hstring : AsRead (octetString []) := asRead_readPrimitive [] (.inl ⟨rfl, [], rfl⟩)
  have hcode : AsRead (readPrimitive .universal tagEnumerated (.int 0) [0]) :=
    asRead_readPrimitive [0] (.inr ⟨.inr rfl, 0, rfl⟩)
  have hdone : IsMessage doneMessage := by
    refine ⟨⟨_, rfl, 1, rfl⟩, fun op hop => ?_⟩
    cases hop
    refine asRead_readConstructed _ _ _ (List.forall_mem_cons.mpr ⟨hcode, ?_⟩)
    exact List.forall_mem_cons.mpr ⟨hstring, List.forall_mem_singleton.mpr hstring⟩
  refine ((search_returns_iff shortEncoder .skip (fun _ => (.ok () : Outcome Err Unit)) (by rintro p ⟨⟩) openConnection
    presenceRequest ⟨[.ok doneMessage], true⟩ ?_).mpr fun _ => ?_).2 rfl
  · intro p hp
    cases List.mem_singleton.mp hp
    exact hdone
  · rw [crashesIn_cons]
    rintro ⟨-, (h | ⟨op, hop, -, ⟨h, -⟩ | h⟩) | ⟨⟨op, hop, h, -⟩, -⟩⟩
    · cases h
    · cases hop
      cases h
    · cases hop
      cases h
    · cases hop
      exact h rfl

/-- A response with a message ID and nothing else. -/
def emptyMessage : Packet :=
  readConstructed shortEncoder .universal tagSequence [readPrimitive .universal tagInteger (.int 1) [1]]

/-- A search that is answered by one response. -/
def searchOn (p : Packet) : SearchEnd Unit :=
  openConnection.search shortEncoder .skip (fun _ => .ok ()) presenceRequest ⟨[.ok p], true⟩

/-- A referral to a number. -/
def numberReferral : Packet :=
  searchMessage applicationSearchResultReference [readPrimitive .universal tagInteger (.int 1) [1]]

/-- `Search` panics on these, and on an entry without a name. -/
theorem search_crashes : (IsMessage emptyMessage ∧ searchOn emptyMessage = .panicked) ∧
    (IsMessage (searchMessage applicationSearchResultEntry []) ∧
      searchOn (searchMessage applicationSearchResultEntry []) = .panicked) ∧
    (IsMessage numberReferral ∧ searchOn numberReferral = .panicked) := by
  refine ⟨⟨⟨⟨_, rfl, 1, rfl⟩, ?_⟩, rfl⟩, ⟨⟨⟨_, rfl, 1, rfl⟩, ?_⟩, rfl⟩, ⟨⟨_, rfl, 1, rfl⟩, ?_⟩, rfl⟩
  · intro op hop
    cases hop
  · intro op hop
    cases hop
    exact asRead_readConstructed _ _ _ (by simp)
  · intro op hop
    cases hop
    refine asRead_readConstructed _ _ _ (List.forall_mem_singleton.mpr ?_)
    exact asRead_readPrimitive [1] (.inr ⟨.inl rfl, 1, rfl⟩)

end GoLdap
