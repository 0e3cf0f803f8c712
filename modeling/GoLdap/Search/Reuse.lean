import GoLdap.Search.Paging

/-!
# Search.Reuse — search requests that are used again (`search.go`)

`SearchWithPaging`, `DirSync`, `DirSyncAsync` and `Syncrepl` put their control into the request of the caller, where the
next call finds it.  `SearchWithPaging` leaves the last cookie in it, `DirSync` never assigns a cookie to one that is
there, and the asynchronous operations add one more control with each call.

* `again_of_last`, `again_of_not_last`: what a second call of `SearchWithPaging` starts with.
* `dirSyncQueries_eq`: all queries of a sequence of `DirSync` calls are the same.
* `async_carries_iff`: the queries of a sequence of calls that add a control each.
-/

namespace GoLdap

open Go Ber

/-! ## Paging -/

/-- The request of the caller during and after a run: what the last call of `Search` had. -/
def PagingRun.requestAfter (request : PagedRequest) (run : PagingRun) : PagedRequest := run.calls.getLastD request

/-- The request with the paging control that `SearchWithPaging` adds. -/
def PagedRequest.withPaging (request : PagedRequest) (pagingSize : UInt32) : PagedRequest :=
  { request with controls := request.controls ++ [.paging ⟨pagingSize, []⟩] }

section Paging

variable (calls : List PagedRequest) (request first : PagedRequest) (result : SearchResult Control)
  {pagingSize : UInt32}

/-- Nothing happens after the last page. -/
theorem foldl_turn_of_last {page : Page} (h : page.Last) (pages : List Page) :
    (page :: pages).foldl PagingRun.turn (.searching calls request result) =
        .returned (calls ++ [request]) (some (page.contribution.appendTo result)) page.error ∨
      (page :: pages).foldl PagingRun.turn (.searching calls request result) = .panicked (calls ++ [request]) := by
  rw [List.foldl_cons]
  rcases turn_of_last h with hturn | ⟨hturn, -⟩
  · exact .inl (by rw [hturn, foldl_turn_returned])
  · exact .inr (by rw [hturn, foldl_turn_panicked])

theorem requestAfter_of_last {page : Page} (h : page.Last) (pages : List Page) :
    ((page :: pages).foldl PagingRun.turn (.searching calls first result)).requestAfter request = first := by
  rcases foldl_turn_of_last calls first result h pages with hrun | hrun
  · simp [hrun, PagingRun.requestAfter, PagingRun.calls]
  · simp [hrun, PagingRun.requestAfter, PagingRun.calls]

/-- Once a cookie was assigned, the request keeps one. -/
theorem requestAfter_of_searching {cookie : GoString} (hne : cookie ≠ []) (pages : List Page) :
    ∃ cookie', cookie' ≠ [] ∧
      (pages.foldl PagingRun.turn (.searching calls (first.withCookie cookie) result)).requestAfter request =
        first.withCookie cookie' := by
  induction pages generalizing calls cookie result with
  | nil => exact ⟨cookie, hne, by simp [PagingRun.requestAfter, PagingRun.calls]⟩
  | cons page pages ih =>
    by_cases hl : page.Last
    · exact ⟨cookie, hne, requestAfter_of_last _ _ _ _ hl pages⟩
    · obtain ⟨hf, cookie', hne', hcookie'⟩ := Page.cookie_of_not_last hl
      rw [List.foldl_cons, turn_next hf hne' hcookie', withCookie_withCookie]
      exact ih _ _ hne'

variable {request}

/-- The first query of a call on a request with a paging control of the size asked for. -/
theorem calls_head_of_paging {cookie : GoString}
    (h : findControl request.controls controlTypePaging = some (.paging ⟨pagingSize, cookie⟩)) :
    (searchWithPaging request pagingSize).calls.head? = some request := by
  rw [searchWithPaging_first (.given h)]
  rfl

theorem findControl_withPaging (pagingSize : UInt32) (h : findControl request.controls controlTypePaging = none) :
    findControl (request.withPaging pagingSize).controls controlTypePaging = some (.paging ⟨pagingSize, []⟩) := by
  rw [findControl] at h ⊢
  rw [PagedRequest.withPaging, List.find?_append, h]
  rfl

variable {calls result} {page : Page} {pages : List Page}

/-- A run that returns without an error on its first page has read one that does not fail. -/
theorem not_fails_of_returned (hl : page.Last)
    (hrun : (page :: pages).foldl PagingRun.turn (.searching [] first ⟨[], [], []⟩) =
      .returned calls (some result) none) : ¬ page.Fails := by
  refine Page.error_eq_none.mp ?_
  rcases foldl_turn_of_last [] first ⟨[], [], []⟩ hl pages with hlast | hlast
  · rw [hlast] at hrun
    exact (PagingRun.returned.inj hrun).2.2
  · rw [hlast] at hrun
    cases hrun

/-- After a single page the request is as the first call had it. -/
theorem again_of_last (hnone : findControl request.controls controlTypePaging = none) (hl : page.Last) :
    (searchWithPaging (((page :: pages).foldl PagingRun.turn
      (.searching [] (request.withPaging pagingSize) ⟨[], [], []⟩)).requestAfter request) pagingSize).calls.head? =
      some (request.withPaging pagingSize) := by
  rw [requestAfter_of_last _ _ _ _ hl, calls_head_of_paging (findControl_withPaging pagingSize hnone)]

/-- After more pages it has the cookie of the page before the last one. -/
theorem again_of_not_last (hnone : findControl request.controls controlTypePaging = none) (hl : ¬ page.Last) :
    (searchWithPaging (((page :: pages).foldl PagingRun.turn
      (.searching [] (request.withPaging pagingSize) ⟨[], [], []⟩)).requestAfter request) pagingSize).calls.head? ≠
      some (request.withPaging pagingSize) := by
  have hpaging := findControl_withPaging pagingSize hnone
  obtain ⟨hf, cookie, hne, hcookie⟩ := Page.cookie_of_not_last hl
  rw [List.foldl_cons, turn_next hf hne hcookie]
  obtain ⟨cookie', hne', hafter⟩ := requestAfter_of_searching ([] ++ [request.withPaging pagingSize]) request
    (request.withPaging pagingSize) (page.contribution.appendTo ⟨[], [], []⟩) hne pages
  have hpaging' : findControl ((request.withPaging pagingSize).withCookie cookie').controls controlTypePaging =
      some (.paging ⟨pagingSize, cookie'⟩) := findControl_setCookie cookie' hpaging
  rw [hafter, calls_head_of_paging hpaging']
  intro heq
  rw [← Option.some.inj heq] at hpaging
  have hsame := hpaging'.symm.trans hpaging
  simp only [Option.some.injEq, Control.paging.injEq, ControlPaging.mk.injEq] at hsame
  exact hne' hsame.2

end Paging

/-- After a successful call, a second call on the same request starts a new result set exactly if the first one had a
single page. -/
theorem searchWithPaging_again_iff (request : PagedRequest) (pagingSize : UInt32) (pages : List Page)
    (calls : List PagedRequest) (result : SearchResult Control)
    (hnone : findControl request.controls controlTypePaging = none)
    (hrun : pages.foldl PagingRun.turn (searchWithPaging request pagingSize) = .returned calls (some result) none) :
    (searchWithPaging ((PagingRun.returned calls (some result) none).requestAfter request) pagingSize).calls.head? =
        some (request.withPaging pagingSize) ↔
      ∀ page ∈ pages.head?, page.cookie = none ∨ page.cookie = some [] := by
  have hstart : searchWithPaging request pagingSize = .searching [] (request.withPaging pagingSize) ⟨[], [], []⟩ :=
    searchWithPaging_first (.added hnone)
  rw [hstart] at hrun
  rw [← hrun]
  cases pages with
  | nil => cases hrun
  | cons page pages =>
    simp only [List.head?_cons, Option.mem_some_iff, forall_eq']
    by_cases hl : page.Last
    · exact iff_of_true (again_of_last hnone hl) (hl.resolve_left (not_fails_of_returned _ hl hrun))
    · exact iff_of_false (again_of_not_last hnone hl) fun hcookie => hl (.inr hcookie)

/-- One page, without a cookie. -/
theorem searchWithPaging_again_onePage :
    ∃ calls result,
      [(⟨some ⟨[], [], [.paging ⟨0, []⟩]⟩, none⟩ : Page)].foldl PagingRun.turn (searchWithPaging anyRequest 2) =
        .returned calls (some result) none ∧
      (searchWithPaging ((PagingRun.returned calls (some result) none).requestAfter anyRequest) 2).calls.head? =
        some (anyRequest.withPaging 2) := by
  refine ⟨_, _, rfl, (searchWithPaging_again_iff anyRequest 2 [⟨some ⟨[], [], [.paging ⟨0, []⟩]⟩, none⟩] _ _ rfl
    rfl).mpr fun page hpage => ?_⟩
  cases hpage
  exact .inr rfl

/-- After two pages the request keeps the cookie of the first, and a second call sends it. -/
theorem searchWithPaging_again_twoPages :
    ∃ calls result, twoPages.foldl PagingRun.turn (searchWithPaging anyRequest 2) = .returned calls (some result) none ∧
      ∃ query, (searchWithPaging ((PagingRun.returned calls (some result) none).requestAfter anyRequest) 2).calls.head? =
          some query ∧ findControl query.controls controlTypePaging = some (.paging ⟨2, str "1"⟩) :=
  ⟨_, _, rfl, _, rfl, rfl⟩

/-! ## The sync operations -/

/-- Both numbers of the message are in its argument. -/
def errDirSyncFlags (given asked : Int64) : Err :=
  .plain (.fmt "flags given in search request (%d) conflicts with flags given in search call (%d)"
    (str (toString given.toInt) ++ str " " ++ str (toString asked.toInt)))

def errDirSyncMaxAttrCount (given asked : Int64) : Err :=
  .plain (.fmt "MaxAttrCnt given in search request (%d) conflicts with maxAttrCount given in search call (%d)"
    (str (toString given.toInt) ++ str " " ++ str (toString asked.toInt)))

/-- A call of `DirSync`: the query it sends, if any, the request of the caller after it, and what it returns. -/
structure DirSyncCall where
  query : Option PagedRequest
  after : PagedRequest
  outcome : Outcome Err (SearchResult Control)

/-- `DirSync` after the call of `Search`.  Whether there is a cookie makes no difference. -/
def dirSyncResult (page : Page) : Outcome Err (SearchResult Control) :=
  match page.result, page.err with
  | _, some e => .err e
  | none, none => .err errPacketNotReceived
  | some result, none =>
    match findControl result.controls controlTypeDirSync with
    | none => .ok result
    | some (.dirSync _) => .ok result
    -- the type assertion
    | some _ => .panic

/-- `(*Conn).DirSync`; `page` is what `Search` returns. -/
def dirSync (request : PagedRequest) (flags maxAttrCount : Int64) (cookie : GoString) (page : Page) : DirSyncCall :=
  match findControl request.controls controlTypeDirSync with
  | none =>
    let request := { request with controls := request.controls ++ [.dirSync ⟨true, flags, maxAttrCount, cookie⟩] }
    ⟨some request, request, dirSyncResult page⟩
  | some (.dirSync c) =>
    if c.flags ≠ flags then ⟨none, request, .err (errDirSyncFlags c.flags flags)⟩
    else if c.maxAttrCount ≠ maxAttrCount then
      ⟨none, request, .err (errDirSyncMaxAttrCount c.maxAttrCount maxAttrCount)⟩
    else ⟨some request, request, dirSyncResult page⟩
  -- the type assertion
  | some _ => ⟨none, request, .panic⟩

/-- The queries of a sequence of calls of `DirSync` on one request, each with its cookie and the answer of `Search`. -/
def dirSyncQueries (flags maxAttrCount : Int64) : PagedRequest → List (GoString × Page) → List (Option PagedRequest)
  | _, [] => []
  | request, (cookie, page) :: rest =>
    let call := dirSync request flags maxAttrCount cookie page
    call.query :: dirSyncQueries flags maxAttrCount call.after rest

/-- An asynchronous operation adds its control to the request. -/
def PagedRequest.withControl (request : PagedRequest) (control : Control) : PagedRequest :=
  { request with controls := request.controls ++ [control] }

/-- What `DirSyncAsync` makes of the request. -/
def dirSyncAsync (flags maxAttrCount : Int64) (request : PagedRequest) (cookie : GoString) : PagedRequest :=
  request.withControl (.dirSync ⟨true, flags, maxAttrCount, cookie⟩)

/-- What `Syncrepl` makes of the request. -/
def syncrepl (mode : Int64) (reloadHint : Bool) (request : PagedRequest) (cookie : GoString) : PagedRequest :=
  request.withControl (.syncRequest ⟨true, mode, cookie, reloadHint⟩)

/-- When the queries of `n` asynchronous calls are encoded.  That is done by a goroutine of the call, so that `encoded i`
calls, among them the `i`-th, were made by then. -/
def Schedule (n : ℕ) (encoded : ℕ → ℕ) : Prop := ∀ i < n, i < encoded i ∧ encoded i ≤ n

/-- The query of the `i`-th of a sequence of asynchronous calls. -/
def asyncQuery (call : PagedRequest → GoString → PagedRequest) (request : PagedRequest) (cookies : List GoString)
    (encoded : ℕ → ℕ) (i : ℕ) : PagedRequest := (cookies.take (encoded i)).foldl call request

/-! ## What the queries carry -/

/-- The cookie of a control of the sync operations. -/
def Control.syncCookie : Control → Option GoString
  | .dirSync c => some c.cookie
  | .syncRequest c => some c.cookie
  | _ => none

/-- The query has exactly one control of the type, and that has the cookie. -/
def CarriesOne (controlType cookie : GoString) (query : PagedRequest) : Prop :=
  ∃ c, query.controls.filter (·.getControlType = controlType) = [c] ∧ c.syncCookie = some cookie

section Sync

variable {request : PagedRequest} {controlType : GoString} {flags maxAttrCount : Int64}

theorem forall₂_replicate {α β : Type} {R : α → β → Prop} {l : List α} {y : β} :
    List.Forall₂ R l (List.replicate l.length y) ↔ ∀ x ∈ l, R x y := by
  induction l with
  | nil => simp
  | cons x l ih => rw [List.length_cons, List.replicate_succ, List.forall₂_cons, ih, List.forall_mem_cons]

theorem filter_of_findControl (h : findControl request.controls controlType = none) :
    request.controls.filter (·.getControlType = controlType) = [] := by
  rw [findControl, List.find?_eq_none] at h
  exact List.filter_eq_nil_iff.mpr h

theorem filter_withControl (h : findControl request.controls controlType = none) {control : Control}
    (hc : control.getControlType = controlType) :
    (request.withControl control).controls.filter (·.getControlType = controlType) = [control] := by
  rw [PagedRequest.withControl, List.filter_append, filter_of_findControl h]
  simp [hc]

/-- The control that is there is used for every further call, with its own cookie. -/
theorem dirSyncQueries_of_found {c : ControlDirSync}
    (h : findControl request.controls controlTypeDirSync = some (.dirSync c)) (hflags : c.flags = flags)
    (hmax : c.maxAttrCount = maxAttrCount) (calls : List (GoString × Page)) :
    dirSyncQueries flags maxAttrCount request calls = List.replicate calls.length (some request) := by
  induction calls with
  | nil => rfl
  | cons call calls ih =>
    have hcall : ∀ cookie page, dirSync request flags maxAttrCount cookie page =
        ⟨some request, request, dirSyncResult page⟩ := by
      intro cookie page
      rw [dirSync, h]
      simp only [hflags, hmax, ne_eq, not_true_eq_false, if_false]
    rw [dirSyncQueries, hcall, ih]
    rfl

/-- **All queries of a sequence of `DirSync` calls are the same**: they have the control of the first call. -/
theorem dirSyncQueries_eq (h : findControl request.controls controlTypeDirSync = none) (cookie : GoString) (page : Page)
    (calls : List (GoString × Page)) :
    dirSyncQueries flags maxAttrCount request ((cookie, page) :: calls) =
      List.replicate (calls.length + 1)
        (some (request.withControl (.dirSync ⟨true, flags, maxAttrCount, cookie⟩))) := by
  have hcall : dirSync request flags maxAttrCount cookie page =
      ⟨some (request.withControl (.dirSync ⟨true, flags, maxAttrCount, cookie⟩)),
        request.withControl (.dirSync ⟨true, flags, maxAttrCount, cookie⟩), dirSyncResult page⟩ := by
    rw [dirSync, h]
    rfl
  have hfound : findControl (request.withControl (.dirSync ⟨true, flags, maxAttrCount, cookie⟩)).controls
      controlTypeDirSync = some (.dirSync ⟨true, flags, maxAttrCount, cookie⟩) := by
    rw [findControl] at h ⊢
    rw [PagedRequest.withControl, List.find?_append, h]
    rfl
  rw [dirSyncQueries, hcall, dirSyncQueries_of_found hfound rfl rfl, List.replicate_succ]

theorem carriesOne_withControl (h : findControl request.controls controlType = none) (control : Control)
    (hc : control.getControlType = controlType) (cookie : GoString) :
    CarriesOne controlType cookie (request.withControl control) ↔ control.syncCookie = some cookie := by
  rw [CarriesOne, filter_withControl h hc]
  refine ⟨?_, fun hcookie => ⟨control, rfl, hcookie⟩⟩
  rintro ⟨c, hsingle, hcookie⟩
  cases hsingle
  exact hcookie

theorem dirSync_carries_iff (h : findControl request.controls controlTypeDirSync = none)
    (calls : List (GoString × Page)) :
    List.Forall₂ (fun call query => ∃ q, query = some q ∧ CarriesOne controlTypeDirSync call.1 q) calls
        (dirSyncQueries flags maxAttrCount request calls) ↔
      ∀ call ∈ calls, ∀ first ∈ calls.head?, call.1 = first.1 := by
  rcases calls with _ | ⟨⟨cookie, page⟩, calls⟩
  · simp [dirSyncQueries]
  · rw [dirSyncQueries_eq h, ← List.length_cons, forall₂_replicate]
    refine forall₂_congr fun call _ => ?_
    have hone := carriesOne_withControl h (.dirSync ⟨true, flags, maxAttrCount, cookie⟩) rfl call.1
    simp only [Option.some.injEq, exists_eq_left', hone, Control.syncCookie, List.head?_cons, Option.mem_def, forall_eq']
    exact eq_comm

/-- The controls after a sequence of calls that add one each. -/
theorem foldl_withControl (control : GoString → Control) (cookies : List GoString) :
    (cookies.foldl (fun request cookie => request.withControl (control cookie)) request).controls =
      request.controls ++ cookies.map control := by
  induction cookies generalizing request with
  | nil => simp
  | cons cookie cookies ih =>
    rw [List.foldl_cons, ih]
    simp [PagedRequest.withControl]

/-- **Only the first of a sequence of asynchronous calls can send a single control.** -/
theorem async_carries_iff (h : findControl request.controls controlType = none) (control : GoString → Control)
    (htype : ∀ cookie, (control cookie).getControlType = controlType)
    (hcookie : ∀ cookie, (control cookie).syncCookie = some cookie) {cookies : List GoString} {encoded : ℕ → ℕ}
    (hencoded : Schedule cookies.length encoded) :
    (∀ (i : ℕ) (cookie : GoString), cookies[i]? = some cookie → CarriesOne controlType cookie
        (asyncQuery (fun request cookie => request.withControl (control cookie)) request cookies encoded i)) ↔
      cookies.length ≤ 1 := by
  have hfilter : ∀ i, (asyncQuery (fun request cookie => request.withControl (control cookie)) request cookies encoded
      i).controls.filter (·.getControlType = controlType) = (cookies.take (encoded i)).map control := by
    intro i
    rw [asyncQuery, foldl_withControl, List.filter_append, filter_of_findControl h, List.nil_append]
    exact List.filter_eq_self.mpr fun c hc => by
      obtain ⟨cookie, -, rfl⟩ := List.mem_map.mp hc
      simp [htype]
  simp only [CarriesOne, hfilter]
  constructor
  · intro hall
    by_contra hlen
    -- the second query has the controls of two calls at least
    have hlt : 1 < cookies.length := by omega
    obtain ⟨c, hsingle, -⟩ := hall 1 _ (List.getElem?_eq_getElem hlt)
    have hone := congrArg List.length hsingle
    have henc := hencoded 1 hlt
    simp only [List.length_map, List.length_take, List.length_singleton] at hone
    omega
  · intro hlen i cookie hi
    have hlt := (List.getElem?_eq_some_iff.mp hi).1
    have henc := hencoded i hlt
    obtain ⟨only, rfl⟩ : ∃ only, cookies = [only] := List.length_eq_one_iff.mp (by omega)
    obtain rfl : i = 0 := by simpa using hlt
    have hone : encoded 0 = 1 := by
      simp only [List.length_singleton] at henc
      omega
    obtain rfl : only = cookie := by simpa using hi
    exact ⟨control only, by rw [hone]; rfl, hcookie only⟩

end Sync

/-- `DirSync` sends the cookie it is given exactly if that is the one of the first call.  `DirSyncAsync` and `Syncrepl` do
only if there is no second call. -/
theorem sync_carries_iff (request : PagedRequest) (flags maxAttrCount mode : Int64) (reloadHint : Bool)
    (hdir : findControl request.controls controlTypeDirSync = none)
    (hsync : findControl request.controls controlTypeSyncRequest = none) :
    (∀ calls : List (GoString × Page),
      List.Forall₂ (fun call query => ∃ q, query = some q ∧ CarriesOne controlTypeDirSync call.1 q) calls
          (dirSyncQueries flags maxAttrCount request calls) ↔
        ∀ call ∈ calls, ∀ first ∈ calls.head?, call.1 = first.1) ∧
    (∀ (cookies : List GoString) (encoded : ℕ → ℕ), Schedule cookies.length encoded →
      ((∀ (i : ℕ) (cookie : GoString), cookies[i]? = some cookie → CarriesOne controlTypeDirSync cookie
          (asyncQuery (dirSyncAsync flags maxAttrCount) request cookies encoded i)) ↔ cookies.length ≤ 1)) ∧
    ∀ (cookies : List GoString) (encoded : ℕ → ℕ), Schedule cookies.length encoded →
      ((∀ (i : ℕ) (cookie : GoString), cookies[i]? = some cookie → CarriesOne controlTypeSyncRequest cookie
          (asyncQuery (syncrepl mode reloadHint) request cookies encoded i)) ↔ cookies.length ≤ 1) :=
  ⟨dirSync_carries_iff hdir,
    fun _ _ => async_carries_iff hdir (fun cookie => .dirSync ⟨true, flags, maxAttrCount, cookie⟩) (fun _ => rfl)
      fun _ => rfl,
    fun _ _ => async_carries_iff hsync (fun cookie => .syncRequest ⟨true, mode, cookie, reloadHint⟩) (fun _ => rfl)
      fun _ => rfl⟩

/-- Two calls with the same cookie. -/
theorem sync_carries_same :
    findControl anyRequest.controls controlTypeDirSync = none ∧
      List.Forall₂ (fun call query => ∃ q, query = some q ∧ CarriesOne controlTypeDirSync call.1 q)
        [(str "1", (⟨none, none⟩ : Page)), (str "1", ⟨none, none⟩)]
        (dirSyncQueries 1 1000 anyRequest [(str "1", ⟨none, none⟩), (str "1", ⟨none, none⟩)]) := by
  refine ⟨rfl, ((sync_carries_iff anyRequest 1 1000 1 false rfl rfl).1 _).mpr fun call hcall first hfirst => ?_⟩
  cases hfirst
  rcases List.mem_cons.mp hcall with rfl | hcall
  · rfl
  · rw [List.mem_singleton.mp hcall]

/-- The second query of `DirSync` has the first cookie again, and that of the asynchronous operations has two controls. -/
theorem sync_carries_stale :
    (∃ q, (dirSyncQueries 1 1000 anyRequest [([], ⟨none, none⟩), (str "1", ⟨none, none⟩)])[1]? = some (some q) ∧
        q.controls = [.dirSync ⟨true, 1, 1000, []⟩]) ∧
      (asyncQuery (dirSyncAsync 1 1000) anyRequest [[], str "1"] (· + 1) 1).controls =
        [.dirSync ⟨true, 1, 1000, []⟩, .dirSync ⟨true, 1, 1000, str "1"⟩] ∧
      (asyncQuery (syncrepl 1 false) anyRequest [[], str "1"] (· + 1) 1).controls =
        [.syncRequest ⟨true, 1, [], false⟩, .syncRequest ⟨true, 1, str "1", false⟩] :=
  ⟨⟨_, rfl, rfl⟩, rfl, rfl⟩

end GoLdap
