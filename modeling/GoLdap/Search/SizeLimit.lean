import GoLdap.Search.Paging
import GoLdap.Search.Complete
import GoLdap.Ber.Basic

/-!
# Search.SizeLimit — `EnforceSizeLimit` (`search.go`)

`Search` counts the entries of its own result before it takes one more.  `SearchWithPaging` adds up the results of many
calls of `Search`, and nothing counts over them: the limit holds for each page.

* `searchStep_counts`, `searchLoop_counts`: entries taken and entries delivered, after one response and after all of them.
* `search_limited`: the limit holds for the result of `Search`.
* `foldl_turn_counts`, `RunCounts.limited_iff`: the entries of a paged search are those of its pages, and when they are
  within the limit.
-/

namespace GoLdap

open Go Ber

/-! ## Entries that are delivered -/

/-- How many entries a response delivers: one, if its operation is an entry. -/
def entriesDelivered (packet : Packet) : ℕ :=
  if packet.children[1]?.any (·.tag = applicationSearchResultEntry) then 1 else 0

section

variable {C : Type} (decodeControl : Packet → Outcome Err C) (addControlDescriptions : Assign) (debug : Bool)

/-- The entries that are delivered until the loop in `Search` ends, also those that it does not take. -/
def searchDelivered (req : SearchRequest) : SearchResult C → List (Except Err Packet) → ℕ
  | _, [] => 0
  | _, .error _ :: _ => 0
  | result, .ok packet :: rest =>
    match describeInDebug addControlDescriptions debug packet with
    | .error _ => 0
    | .ok packet =>
      entriesDelivered packet + match searchStep decodeControl req result packet with
        | .goOn result => searchDelivered req result rest
        | _ => 0

end

/-- The entries that are delivered until a call of `Search` ends. -/
def Connection.delivered {C : Type} (E : Encoder) (addControlDescriptions : Assign)
    (decodeControl : Packet → Outcome Err C) (conn : Connection) (req : SearchRequest) (responses : Responses) : ℕ :=
  if conn.sends E req then
    searchDelivered decodeControl addControlDescriptions conn.debug req ⟨[], [], []⟩ responses.packets
  else 0

/-- The request has the limit `n` and enforces it. -/
structure SearchRequest.Limited (req : SearchRequest) (n : ℕ) : Prop where
  enforced : req.enforceSizeLimit = true
  sizeLimit : req.sizeLimit = n
  pos : 0 < n

/-! ## `Search` -/

/-- The entries taken and delivered, and the error, under the limit `n`: all are taken, one more than the limit was
delivered, or the last one delivered could not be unpacked. -/
inductive Counts (n taken delivered : ℕ) (err : Option Err) : Prop
  | all (h : taken = delivered) (hle : taken ≤ n)
  | limit (h : taken = n) (hone : delivered = n + 1) (herr : err = some errSizeLimitExceeded)
  | malformed (h : taken < n) (hone : delivered = taken + 1) {e : Err} (herr : err = some e) (hne : e ≠ errSizeLimitExceeded)

section

variable {n taken delivered : ℕ} {err : Option Err}

theorem Counts.taken_le (h : Counts n taken delivered err) : taken ≤ n := by
  rcases h with ⟨h, hle⟩ | ⟨h, hone, herr⟩ | ⟨h, hone, herr, hne⟩ <;> omega

theorem Counts.taken_le_delivered (h : Counts n taken delivered err) : taken ≤ delivered := by
  rcases h with ⟨h, hle⟩ | ⟨h, hone, herr⟩ | ⟨h, hone, herr, hne⟩ <;> omega

theorem Counts.error (h : Counts n taken delivered err) (hlt : n < delivered) : err = some errSizeLimitExceeded := by
  rcases h with ⟨h, hle⟩ | ⟨h, hone, herr⟩ | ⟨h, hone, herr, hne⟩
  · omega
  · exact herr
  · omega

/-- Without an error all entries are taken. -/
theorem Counts.taken_eq (h : Counts n taken delivered none) : taken = delivered := by
  rcases h with ⟨h, hle⟩ | ⟨h, hone, herr⟩ | ⟨h, hone, herr, hne⟩
  · exact h
  · cases herr
  · cases herr

end

section

variable {C : Type} {n : ℕ}

/-- What a response does under the limit `n` to a loop with `k` entries, if it delivers `a` more. -/
inductive StepCounts (n k a : ℕ) : SearchStep C → Prop
  | goOn {result : SearchResult C} (h : result.entries.length = k + a) (hle : k + a ≤ n) : StepCounts n k a (.goOn result)
  | ret {result : SearchResult C} {err : Option Err} (h : Counts n result.entries.length (k + a) err) :
      StepCounts n k a (.ret result err)
  | panic (hle : k + a ≤ n) : StepCounts n k a .panic

/-- The end of a loop to which `total` entries were delivered. -/
inductive EndCounts (n total : ℕ) : SearchEnd C → Prop
  | returned {result : SearchResult C} {err : Option Err} (h : Counts n result.entries.length total err) :
      EndCounts n total (.returned (some result) err)
  | panicked (hle : total ≤ n) : EndCounts n total .panicked
  | waiting (hle : total ≤ n) : EndCounts n total .waiting

theorem unpackValues_ne_sizeLimit {name : GoString} {values : List Packet} {e : Err}
    (h : unpackValues name values = .error e) : e ≠ errSizeLimitExceeded := by
  induction values with
  | nil => cases h
  | cons value rest ih =>
    rw [unpackValues] at h
    split at h
    · cases h
      rintro ⟨⟩
    · split at h
      · rename_i heq
        cases h
        exact ih heq
      · cases h

theorem unpackAttribute_ne_sizeLimit {child : Packet} {e : Err} (h : unpackAttribute child = .error e) :
    e ≠ errSizeLimitExceeded := by
  rw [unpackAttribute] at h
  split at h
  · split at h
    · cases h
      rintro ⟨⟩
    · split at h
      · rename_i heq
        cases h
        exact unpackValues_ne_sizeLimit heq
      · cases h
  · cases h
    rintro ⟨⟩

/-- An entry that cannot be unpacked is not reported as one too many. -/
theorem unpackAttributes_ne_sizeLimit {children : List Packet} {e : Err} (h : unpackAttributes children = .error e) :
    e ≠ errSizeLimitExceeded := by
  induction children with
  | nil => cases h
  | cons child rest ih =>
    rw [unpackAttributes] at h
    split at h
    · rename_i heq
      cases h
      exact unpackAttribute_ne_sizeLimit heq
    · split at h
      · rename_i heq
        cases h
        exact ih heq
      · cases h

variable {req : SearchRequest} {result : SearchResult C}

theorem searchEntry_counts (hreq : req.Limited n) (hle : result.entries.length ≤ n) (op : Packet) :
    StepCounts n result.entries.length 1 (searchEntry req result op) := by
  unfold searchEntry
  dsimp only
  split_ifs with hlimit
  · -- the count comes before the entry is looked at
    rw [hreq.sizeLimit] at hlimit
    have hn := hlimit.2.2
    exact .ret (.limit (by omega) (by omega) rfl)
  · have hlt : result.entries.length < n := by
      by_contra hge
      refine hlimit ⟨hreq.enforced, ?_, ?_⟩
      · rw [hreq.sizeLimit]
        exact_mod_cast hreq.pos
      · rw [hreq.sizeLimit]
        exact_mod_cast not_lt.mp hge
    split
    · rename_i hattr
      exact .ret (.malformed hlt rfl rfl (unpackAttributes_ne_sizeLimit hattr))
    · split
      · exact .panic hlt
      · split
        · exact .panic hlt
        · exact .goOn (by simp) hlt

theorem searchDone_counts (decodeControl : Packet → Outcome Err C) (hle : result.entries.length ≤ n) (packet : Packet) :
    StepCounts n result.entries.length 0 (searchDone decodeControl result packet) := by
  unfold searchDone
  repeat' split
  all_goals first
    | exact .panic hle
    | exact .ret (.all rfl hle)

/-- **The step**: what one response does to the count. -/
theorem searchStep_counts (decodeControl : Packet → Outcome Err C) (hreq : req.Limited n)
    (hle : result.entries.length ≤ n) (packet : Packet) :
    StepCounts n result.entries.length (entriesDelivered packet) (searchStep decodeControl req result packet) := by
  rw [searchStep, entriesDelivered]
  cases packet.children[1]? with
  | none => exact .panic hle
  | some op =>
    by_cases hentry : op.tag = applicationSearchResultEntry
    · simp only [hentry, Option.any_some, decide_true, if_true]
      exact searchEntry_counts hreq hle op
    · simp only [hentry, Option.any_some, decide_false, if_false, Bool.false_eq_true]
      split_ifs
      · exact searchDone_counts decodeControl hle packet
      · unfold searchReference
        repeat' split
        all_goals first
          | exact .panic hle
          | exact .goOn rfl hle
      · exact .goOn rfl hle

/-- **The run**: the loop keeps the count. -/
theorem searchLoop_counts (decodeControl : Packet → Outcome Err C) (addControlDescriptions : Assign) (debug closed : Bool)
    (hreq : req.Limited n) (result : SearchResult C) (hle : result.entries.length ≤ n)
    (packets : List (Except Err Packet)) :
    EndCounts n
      (result.entries.length + searchDelivered decodeControl addControlDescriptions debug req result packets)
      (searchLoop decodeControl addControlDescriptions debug req closed result packets) := by
  induction packets generalizing result with
  | nil =>
    rw [searchLoop, searchDelivered]
    split_ifs
    · exact .returned (.all rfl hle)
    · exact .waiting hle
  | cons packet rest ih =>
    cases packet with
    | error e => exact .returned (.all rfl hle)
    | ok packet =>
      rw [searchLoop, searchDelivered]
      cases describeInDebug addControlDescriptions debug packet with
      | error e => exact .returned (.all rfl hle)
      | ok packet =>
        have hstep := searchStep_counts decodeControl hreq hle packet
        dsimp only
        generalize searchStep decodeControl req result packet = step at hstep ⊢
        cases hstep with
        | panic hle => exact .panicked hle
        | ret h => exact .returned h
        | goOn h hle =>
          rw [← Nat.add_assoc, ← h]
          exact ih _ (h.trans_le hle)

/-- A call of `Search`: nothing is delivered to one that does not send its request. -/
theorem search_counts (E : Encoder) (addControlDescriptions : Assign) (decodeControl : Packet → Outcome Err C)
    (conn : Connection) (hreq : req.Limited n) (responses : Responses) :
    (conn.delivered E addControlDescriptions decodeControl req responses = 0 ∧
        ∃ e, conn.search E addControlDescriptions decodeControl req responses = .returned none (some e)) ∨
      EndCounts n (conn.delivered E addControlDescriptions decodeControl req responses)
        (conn.search E addControlDescriptions decodeControl req responses) := by
  unfold Connection.delivered
  cases hsends : conn.sends E req with
  | false => exact .inl ⟨rfl, conn.search_of_not_sends hsends _ _ _⟩
  | true =>
    right
    rw [conn.search_of_sends hsends, if_pos rfl]
    have hloop := searchLoop_counts decodeControl addControlDescriptions conn.debug responses.closed hreq ⟨[], [], []⟩
      (Nat.zero_le n) responses.packets
    rwa [List.length_nil, Nat.zero_add] at hloop

/-- **The limit of `Search` is hard**: no more entries, and an error for the first one too many. -/
theorem search_limited {E : Encoder} {addControlDescriptions : Assign} {decodeControl : Packet → Outcome Err C}
    (hreq : req.Limited n) (conn : Connection) (responses : Responses) :
    (∀ result err, conn.search E addControlDescriptions decodeControl req responses = .returned (some result) err →
        result.entries.length ≤ n) ∧
      (n < conn.delivered E addControlDescriptions decodeControl req responses →
        ∃ result, conn.search E addControlDescriptions decodeControl req responses =
          .returned (some result) (some errSizeLimitExceeded)) := by
  obtain ⟨hzero, e, hsearch⟩ | hcounts := search_counts E addControlDescriptions decodeControl conn hreq responses
  · rw [hsearch]
    refine ⟨fun _ _ h => ?_, fun hlt => ?_⟩
    · cases h
    · omega
  · generalize conn.search E addControlDescriptions decodeControl req responses = fin at hcounts ⊢
    cases hcounts with
    | returned h =>
      refine ⟨fun _ _ heq => ?_, fun hlt => ⟨_, by rw [h.error hlt]⟩⟩
      cases heq
      exact h.taken_le
    | panicked hle => exact ⟨nofun, fun hlt => absurd hlt (not_lt.mpr hle)⟩
    | waiting hle => exact ⟨nofun, fun hlt => absurd hlt (not_lt.mpr hle)⟩

end

/-! ## `SearchWithPaging` -/

/-- A page, with the connection, the encoded controls of the request and the responses at the time of the call. -/
structure Answer where
  conn : Connection
  controls : List Packet
  responses : Responses
  page : Page

section

variable (L : Codec) (addControlDescriptions : Assign) (request : SearchRequest)

/-- The page is what `Search` returns. -/
def Answer.OfSearch (answer : Answer) : Prop :=
  answer.conn.search L.toEncoder addControlDescriptions (decodeControl L) { request with controls := answer.controls }
    answer.responses = .returned answer.page.result answer.page.err

def Answer.delivered (answer : Answer) : ℕ :=
  answer.conn.delivered L.toEncoder addControlDescriptions (decodeControl L) { request with controls := answer.controls }
    answer.responses

/-- The answers that a run waits for; there are no more after it has ended. -/
def answersRead : PagingRun → List Answer → List Answer
  | .searching calls request result, answer :: answers =>
    answer :: answersRead ((PagingRun.searching calls request result).turn answer.page) answers
  | _, _ => []

theorem answersRead_returned (calls : List PagedRequest) (result : Option (SearchResult Control)) (err : Option Err)
    (answers : List Answer) : answersRead (.returned calls result err) answers = [] := by
  cases answers <;> rfl

/-- The entries delivered to a run, for each answer that it reads. -/
def deliveries (run : PagingRun) (answers : List Answer) : List ℕ :=
  (answersRead run answers).map (Answer.delivered L addControlDescriptions request)

end

/-- A run that started with `k` entries, after answers to which these numbers of entries were delivered. -/
inductive RunCounts (n k : ℕ) (delivered : List ℕ) : PagingRun → Prop
  | searching {calls : List PagedRequest} {request : PagedRequest} {result : SearchResult Control}
      (hle : ∀ a ∈ delivered, a ≤ n) (hlen : result.entries.length = k + delivered.sum) :
      RunCounts n k delivered (.searching calls request result)
  | returned {calls : List PagedRequest} {result : SearchResult Control} {err : Option Err} {init : List ℕ}
      {last taken : ℕ} (hdelivered : delivered = init ++ [last]) (hle : ∀ a ∈ init, a ≤ n)
      (hlast : Counts n taken last err) (hlen : result.entries.length = k + init.sum + taken) :
      RunCounts n k delivered (.returned calls (some result) err)

section

variable {L : Codec} {addControlDescriptions : Assign} {request : SearchRequest} {n k : ℕ}

theorem Answer.OfSearch.decoded {answer : Answer} (h : answer.OfSearch L addControlDescriptions request) :
    answer.page.Decoded :=
  search_decoded L addControlDescriptions answer.conn _ answer.responses h

theorem Answer.OfSearch.counts {answer : Answer} (hreq : request.Limited n)
    (h : answer.OfSearch L addControlDescriptions request) :
    Counts n answer.page.contribution.entries.length (answer.delivered L addControlDescriptions request)
      answer.page.error := by
  have hlimited : SearchRequest.Limited { request with controls := answer.controls } n :=
    ⟨hreq.enforced, hreq.sizeLimit, hreq.pos⟩
  have hcounts := search_counts L.toEncoder addControlDescriptions (decodeControl L) answer.conn hlimited answer.responses
  rw [Answer.OfSearch] at h
  rw [h] at hcounts
  obtain ⟨conn, controls, responses, ⟨result, err⟩⟩ := answer
  rcases hcounts with ⟨hzero, e, heq⟩ | hcounts
  · cases heq
    exact .all hzero.symm (Nat.zero_le n)
  · cases hcounts with
    | returned h => exact h

theorem RunCounts.cons {a : ℕ} {delivered : List ℕ} {run : PagingRun} (ha : a ≤ n)
    (h : RunCounts n (k + a) delivered run) : RunCounts n k (a :: delivered) run := by
  cases h with
  | searching hle hlen =>
    refine .searching (List.forall_mem_cons.mpr ⟨ha, hle⟩) ?_
    rw [hlen, List.sum_cons, Nat.add_assoc]
  | returned hdelivered hle hlast hlen =>
    refine .returned (congrArg (a :: ·) hdelivered) (List.forall_mem_cons.mpr ⟨ha, hle⟩) hlast ?_
    rw [hlen, List.sum_cons, Nat.add_assoc k]

/-- The entries of a run are those taken from its pages, and only the last page can have had more delivered. -/
theorem foldl_turn_counts (hreq : request.Limited n) {answers : List Answer}
    (hanswers : ∀ answer ∈ answers, answer.OfSearch L addControlDescriptions request) (calls : List PagedRequest)
    (paged : PagedRequest) (result : SearchResult Control) :
    RunCounts n result.entries.length
      (deliveries L addControlDescriptions request (.searching calls paged result) answers)
      ((answers.map Answer.page).foldl PagingRun.turn (.searching calls paged result)) := by
  induction answers generalizing calls paged result with
  | nil => exact .searching (List.forall_mem_nil _) rfl
  | cons answer answers ih =>
    obtain ⟨hanswer, hrest⟩ := List.forall_mem_cons.mp hanswers
    have hcounts := hanswer.counts hreq
    rw [deliveries, answersRead, List.map_cons, List.map_cons, List.foldl_cons]
    by_cases hl : answer.page.Last
    · rw [turn_last hanswer.decoded hl, foldl_turn_returned, answersRead_returned]
      refine .returned (List.nil_append _).symm (List.forall_mem_nil _) hcounts ?_
      simp [SearchResult.appendTo]
    · obtain ⟨hf, cookie, hne, hcookie⟩ := Page.cookie_of_not_last hl
      rw [Page.error_eq_none.mpr hf] at hcounts
      have htaken := hcounts.taken_eq
      rw [turn_next hf hne hcookie]
      refine .cons (htaken ▸ hcounts.taken_le) ?_
      have hlen : (answer.page.contribution.appendTo result).entries.length =
          result.entries.length + answer.delivered L addControlDescriptions request := by
        rw [← htaken]
        simp [SearchResult.appendTo]
      rw [← hlen]
      exact ih hrest _ _ _

theorem searchWithPaging_cases (paged : PagedRequest) (pagingSize : UInt32) :
    (∃ first, searchWithPaging paged pagingSize = .searching [] first ⟨[], [], []⟩) ∨
      ∃ e, searchWithPaging paged pagingSize = .returned [] none (some e) := by
  unfold searchWithPaging
  split
  · exact .inl ⟨_, rfl⟩
  · split_ifs
    · exact .inr ⟨_, rfl⟩
    · exact .inl ⟨_, rfl⟩
  · exact .inr ⟨_, rfl⟩

/-- The entries of a run are within the limit, and one too many is an error, exactly if not too many were delivered or
all of them were delivered to one call. -/
theorem RunCounts.limited_iff {delivered : List ℕ} {run : PagingRun} (h : RunCounts n 0 delivered run) :
    ((∀ calls result err, run = .returned calls (some result) err → result.entries.length ≤ n) ∧
        (n < delivered.sum → ∃ calls result, run = .returned calls (some result) (some errSizeLimitExceeded))) ↔
      delivered.sum ≤ n ∨ ∀ a ∈ delivered, a = 0 ∨ a = delivered.sum := by
  -- where all came in one call, a call that took all of them had none
  have hzero (l : List ℕ) (hle : ∀ a ∈ l, a ≤ n) (hone : ∀ a ∈ l, a = 0 ∨ a = delivered.sum)
      (hlt : n < delivered.sum) : l.sum = 0 := by
    refine List.sum_eq_zero_iff_forall_eq_nat.mpr fun a ha => (hone a ha).resolve_right ?_
    rintro rfl
    exact absurd (hle _ ha) (not_le.mpr hlt)
  cases h with
  | searching hle hlen =>
    constructor
    · rintro ⟨-, herr⟩
      refine .inl (not_lt.mp fun hlt => ?_)
      obtain ⟨calls, result, heq⟩ := herr hlt
      cases heq
    · intro h
      refine ⟨nofun, fun hlt => ?_⟩
      have := hzero delivered hle (h.resolve_left (not_le.mpr hlt)) hlt
      omega
  | @returned calls result err init last taken hdelivered hle hlast hlen =>
    have hsum : delivered.sum = init.sum + last := by simp [hdelivered]
    constructor
    · rintro ⟨hlength, herr⟩
      refine (le_or_gt delivered.sum n).imp_right fun hlt => ?_
      have hn := hlength calls result err rfl
      obtain ⟨calls', result', heq⟩ := herr hlt
      cases heq
      -- the last call had the limit to itself
      have hinit : init.sum = 0 := by
        rcases hlast with ⟨h, -⟩ | ⟨h, hone, -⟩ | ⟨-, -, herr, hne⟩
        · omega
        · omega
        · exact absurd (Option.some.inj herr).symm hne
      rw [hdelivered]
      intro a ha
      rcases List.mem_append.mp ha with ha | ha
      · exact .inl (List.sum_eq_zero_iff_forall_eq_nat.mp hinit a ha)
      · right
        rw [List.mem_singleton.mp ha, ← hdelivered]
        omega
    · intro h
      rcases le_or_gt delivered.sum n with hsmall | hlt
      · refine ⟨fun _ _ _ heq => ?_, fun hlt => absurd hlt (not_lt.mpr hsmall)⟩
        cases heq
        have := hlast.taken_le_delivered
        omega
      · have hone := h.resolve_left (not_le.mpr hlt)
        have hinit := hzero init hle (fun a ha => hone a (by simp [hdelivered, ha])) hlt
        refine ⟨fun _ _ _ heq => ?_, fun _ => ⟨calls, result, by rw [hlast.error (by omega)]⟩⟩
        cases heq
        have := hlast.taken_le
        omega

end

/-- The limit is hard for `Search`.  For `SearchWithPaging` it is exactly if the pages have no more entries together, or
all of them are on one page. -/
theorem sizeLimit_hard_iff (L : Codec) (addControlDescriptions : Assign) (request : PagedRequest) (pagingSize : UInt32)
    (n : ℕ) (hreq : request.request.Limited n) :
    (∀ (conn : Connection) (responses : Responses),
      (∀ result err, conn.search L.toEncoder addControlDescriptions (decodeControl L) request.request responses =
          .returned (some result) err → result.entries.length ≤ n) ∧
        (n < conn.delivered L.toEncoder addControlDescriptions (decodeControl L) request.request responses →
          ∃ result, conn.search L.toEncoder addControlDescriptions (decodeControl L) request.request responses =
            .returned (some result) (some errSizeLimitExceeded))) ∧
    ∀ answers : List Answer, (∀ answer ∈ answers, answer.OfSearch L addControlDescriptions request.request) →
      let run := (answers.map Answer.page).foldl PagingRun.turn (searchWithPaging request pagingSize)
      let delivered := deliveries L addControlDescriptions request.request (searchWithPaging request pagingSize) answers
      ((∀ calls result err, run = .returned calls (some result) err → result.entries.length ≤ n) ∧
          (n < delivered.sum → ∃ calls result, run = .returned calls (some result) (some errSizeLimitExceeded))) ↔
        delivered.sum ≤ n ∨ ∀ a ∈ delivered, a = 0 ∨ a = delivered.sum := by
  refine ⟨fun conn responses => search_limited hreq conn responses, fun answers hanswers => ?_⟩
  obtain ⟨first, hstart⟩ | ⟨e, hstart⟩ := searchWithPaging_cases request pagingSize
  · rw [hstart]
    exact (foldl_turn_counts hreq hanswers [] first ⟨[], [], []⟩).limited_iff
  · -- nothing is delivered to a call that is refused
    rw [hstart, foldl_turn_returned, deliveries, answersRead_returned]
    exact iff_of_true ⟨nofun, nofun⟩ (.inl (Nat.zero_le n))

/-- A SearchResultDone with a paging control of this value. -/
def pagedDoneMessage (value : GoString) : Packet :=
  readConstructed shortEncoder .universal tagSequence
    [readPrimitive .universal tagInteger (.int 1) [1],
      readConstructed shortEncoder .application applicationSearchResultDone
        [readPrimitive .universal tagEnumerated (.int 0) [0], octetString [], octetString []],
      readConstructed shortEncoder .context 0
        [readConstructed shortEncoder .universal tagSequence [octetString controlTypePaging, octetString value]]]

/-- A request for one entry at most. -/
def oneEntryRequest : PagedRequest := ⟨{ presenceRequest with sizeLimit := 1, enforceSizeLimit := true }, []⟩

/-- An entry, and the cookie for more. -/
def firstOfTwo : Answer :=
  ⟨openConnection, [], ⟨[.ok (entryMessage (str "cn=a")), .ok (pagedDoneMessage [48, 6, 2, 1, 0, 4, 1, 49])], false⟩,
    ⟨some ⟨[⟨str "cn=a", []⟩], [], [.paging ⟨0, str "1"⟩]⟩, none⟩⟩

/-- An entry, and no more. -/
def secondOfTwo : Answer :=
  ⟨openConnection, [], ⟨[.ok (entryMessage (str "cn=b")), .ok doneMessage], false⟩,
    ⟨some ⟨[⟨str "cn=b", []⟩], [], []⟩, none⟩⟩

/-- Two entries at once. -/
def bothAtOnce : Answer :=
  ⟨openConnection, [], ⟨[.ok (entryMessage (str "cn=a")), .ok (entryMessage (str "cn=b"))], false⟩,
    ⟨some ⟨[⟨str "cn=a", []⟩], [], []⟩, some errSizeLimitExceeded⟩⟩

theorem limited_oneEntryRequest : oneEntryRequest.request.Limited 1 := ⟨rfl, rfl, Nat.one_pos⟩

/-- One page with an entry too many. -/
theorem sizeLimit_hard_bothAtOnce :
    oneEntryRequest.request.Limited 1 ∧ bothAtOnce.OfSearch basicCodec .skip oneEntryRequest.request ∧
      ∃ calls result, [bothAtOnce.page].foldl PagingRun.turn (searchWithPaging oneEntryRequest 2) =
        .returned calls (some result) (some errSizeLimitExceeded) := by
  have hsearch : bothAtOnce.OfSearch basicCodec .skip oneEntryRequest.request := rfl
  refine ⟨limited_oneEntryRequest, hsearch, ?_⟩
  have hiff := (sizeLimit_hard_iff basicCodec .skip oneEntryRequest 2 1 limited_oneEntryRequest).2 [bothAtOnce]
    (List.forall_mem_singleton.mpr hsearch)
  have hdelivered : deliveries basicCodec .skip oneEntryRequest.request (searchWithPaging oneEntryRequest 2)
      [bothAtOnce] = [2] := rfl
  rw [hdelivered] at hiff
  exact (hiff.mpr (.inr (List.forall_mem_singleton.mpr (.inr rfl)))).2 (by decide)

/-- Two pages of one entry each, under a limit of one: both entries and no error. -/
theorem sizeLimit_exceeded :
    oneEntryRequest.request.Limited 1 ∧
      (∀ answer ∈ [firstOfTwo, secondOfTwo], answer.OfSearch basicCodec .skip oneEntryRequest.request) ∧
      ∃ calls result, ([firstOfTwo, secondOfTwo].map Answer.page).foldl PagingRun.turn
          (searchWithPaging oneEntryRequest 2) = .returned calls (some result) none ∧
        result.entries = [⟨str "cn=a", []⟩, ⟨str "cn=b", []⟩] :=
  ⟨limited_oneEntryRequest, List.forall_mem_cons.mpr ⟨rfl, List.forall_mem_singleton.mpr rfl⟩, _, _, rfl, rfl⟩

end GoLdap
