import GoLdap.Search.Model
import GoLdap.Control.Decode

/-!
# Search.Paging — `SearchWithPaging` (`search.go`)

A search is repeated with the cookie of the page before, until a page fails, has no paging control or has an empty
cookie.  The cookie is assigned to a control that the request shares, so that a call sends what the page before it
assigned.  The loop is a machine that takes the result of one call of `Search` in each turn.

* `turn_of_last`, `turn_next`: what one turn does, for a page that ends the loop and for one that does not.
* `foldl_turn_calls`, `foldl_turn_endsWith`: the calls of a run, and how it ends.
* `search_decoded`: the assumption on the controls of a page holds for what `Search` returns.
-/

namespace GoLdap

open Go Ber

/-! ## The model -/

/-- A search request with its controls; in `SearchRequest` they are encoded. -/
structure PagedRequest where
  request : SearchRequest
  controls : List Control

/-- What a call of `Search` returns: a result, which may be nil, and an error, which may be nil. -/
structure Page where
  result : Option (SearchResult Control)
  err : Option Err

/-- `appendTo`. -/
def SearchResult.appendTo {C : Type} (s r : SearchResult C) : SearchResult C :=
  ⟨r.entries ++ s.entries, r.referrals ++ s.referrals, r.controls ++ s.controls⟩

/-- `SetCookie` on the first paging control of a request, which `SearchWithPaging` has a pointer to. -/
def setCookie (cookie : GoString) : List Control → List Control
  | [] => []
  | .paging c :: rest => .paging { c with cookie := cookie } :: rest
  | c :: rest => c :: setCookie cookie rest

def PagedRequest.withCookie (request : PagedRequest) (cookie : GoString) : PagedRequest :=
  { request with controls := setCookie cookie request.controls }

/-- A run of `SearchWithPaging`, with the requests of the calls of `Search` so far. -/
inductive PagingRun where
  | searching (calls : List PagedRequest) (request : PagedRequest) (result : SearchResult Control)
  | returned (calls : List PagedRequest) (result : Option (SearchResult Control)) (err : Option Err)
  | panicked (calls : List PagedRequest)

def errPacketNotReceived : Err := newError errorNetwork (.new "ldap: packet not received")

/-- `String`; the control type of a paging control needs no escapes in `%q`. -/
def ControlString.text (c : ControlString) : GoString :=
  str "Control Type: " ++ controlTypeMap c.controlType ++ str " (" ++ ch '"' :: c.controlType ++
    ch '"' :: str ")  Criticality: " ++ str (toString c.criticality) ++ str "  Control Value: " ++ c.controlValue

/-- The error for a control with the type of a paging control, which is a `ControlString` if it is not one. -/
def errNotControlPaging (control : Control) : Err :=
  .plain (.fmt "expected paging control to be of type *ControlPaging, got %v" (match control with
    | .string c => c.text
    | _ => []))

def errPagingSize (given asked : UInt32) : Err :=
  .plain ⟨"paging size given in search request (%d) conflicts with size given in search call (%d)",
    str (toString given.toNat), asked.toNat⟩

/-- `SearchWithPaging` up to the loop. -/
def searchWithPaging (request : PagedRequest) (pagingSize : UInt32) : PagingRun :=
  match findControl request.controls controlTypePaging with
  | none => .searching [] { request with controls := request.controls ++ [.paging ⟨pagingSize, []⟩] } ⟨[], [], []⟩
  | some (.paging c) =>
    if c.pagingSize ≠ pagingSize then .returned [] none (some (errPagingSize c.pagingSize pagingSize))
    else .searching [] request ⟨[], [], []⟩
  | some c => .returned [] none (some (errNotControlPaging c))

/-- One turn of the loop.  Both ways out of it that do not return set `pagingControl` to nil, so that the code after the
loop returns without a further call. -/
def PagingRun.turn : PagingRun → Page → PagingRun
  | .searching calls request searchResult, page =>
    let calls := calls ++ [request]
    let searchResult := match page.result with
      | some result => result.appendTo searchResult
      | none => searchResult
    match page.result, page.err with
    | none, none => .returned calls (some searchResult) (some errPacketNotReceived)
    | _, some e => .returned calls (some searchResult) (some e)
    | some result, none =>
      match findControl result.controls controlTypePaging with
      | none => .returned calls (some searchResult) none
      | some (.paging c) =>
        if c.cookie = [] then .returned calls (some searchResult) none
        else .searching calls (request.withCookie c.cookie) searchResult
      | some _ => .panicked calls
  | run, _ => run

/-! ## Pages -/

namespace Page

/-- `Search` returned an error or no result. -/
def Fails (page : Page) : Prop := page.err ≠ none ∨ page.result = none

/-- The cookie of the paging control of a page, if there is one. -/
def cookie (page : Page) : Option GoString :=
  match page.result.bind fun r => findControl r.controls controlTypePaging with
  | some (.paging c) => some c.cookie
  | _ => none

/-- The page fails, has no paging control, or has an empty cookie. -/
def Last (page : Page) : Prop := page.Fails ∨ page.cookie = none ∨ page.cookie = some []

instance (page : Page) : Decidable page.Fails := inferInstanceAs (Decidable (_ ∨ _))

instance (page : Page) : Decidable page.Last := inferInstanceAs (Decidable (_ ∨ _))

/-- The result of the page; one that is nil adds nothing. -/
def contribution (page : Page) : SearchResult Control := page.result.getD ⟨[], [], []⟩

/-- A control with the type of a paging control is one, as `DecodeControl` has it. -/
def Decoded (page : Page) : Prop :=
  ∀ result, page.result = some result → ∀ c ∈ result.controls, c.getControlType = controlTypePaging → ∃ p, c = .paging p

end Page

/-- The pages up to the first that is the last one. -/
def pagesRead : List Page → List Page
  | [] => []
  | page :: pages => if page.Last then [page] else page :: pagesRead pages

/-! ## The specification -/

/-- The results of pages, one after the other. -/
def concatenation (pages : List Page) : SearchResult Control :=
  ⟨pages.flatMap (·.contribution.entries), pages.flatMap (·.contribution.referrals),
    pages.flatMap (·.contribution.controls)⟩

/-- The request that the first call carries: the given one, with a paging control added if it has none. -/
inductive FirstRequest (request : PagedRequest) (pagingSize : UInt32) : PagedRequest → Prop
  | added : findControl request.controls controlTypePaging = none →
      FirstRequest request pagingSize { request with controls := request.controls ++ [.paging ⟨pagingSize, []⟩] }
  | given {cookie : GoString} : findControl request.controls controlTypePaging = some (.paging ⟨pagingSize, cookie⟩) →
      FirstRequest request pagingSize request

/-- The paging control of the request is not a `ControlPaging`, or has another size. -/
def Refused (request : PagedRequest) (pagingSize : UInt32) : Prop :=
  ∃ c, findControl request.controls controlTypePaging = some c ∧ ∀ cookie, c ≠ .paging ⟨pagingSize, cookie⟩

/-- The calls start with the first request; each later call is the first request with the cookie of the page before in
its paging control. -/
structure CarriesCookies (first : PagedRequest) (pagingSize : UInt32) (read : List Page) (calls : List PagedRequest) :
    Prop where
  head : calls.head? = some first
  next : ∀ i call, calls[i + 1]? = some call → ∃ page cookie, read[i]? = some page ∧ page.cookie = some cookie ∧
    call = first.withCookie cookie ∧ findControl call.controls controlTypePaging = some (.paging ⟨pagingSize, cookie⟩)

/-- The requests of the calls made so far, with the one that is waited for. -/
def PagingRun.calls : PagingRun → List PagedRequest
  | .searching calls request _ => calls ++ [request]
  | .returned calls _ _ => calls
  | .panicked calls => calls

/-! ## One turn -/

section

variable {page : Page} {calls : List PagedRequest} {request : PagedRequest} {result : SearchResult Control}

/-- The error that a page ends the loop with. -/
def Page.error (page : Page) : Option Err :=
  match page.result, page.err with
  | none, none => some errPacketNotReceived
  | _, e => e

theorem Page.error_eq_none : page.error = none ↔ ¬ page.Fails := by
  obtain ⟨_ | r, _ | e⟩ := page <;> simp [Page.error, Page.Fails]

theorem SearchResult.nil_appendTo {C : Type} (r : SearchResult C) : SearchResult.appendTo ⟨[], [], []⟩ r = r := by
  simp [SearchResult.appendTo]

theorem SearchResult.appendTo_nil {C : Type} (s : SearchResult C) : s.appendTo ⟨[], [], []⟩ = s := rfl

/-- The last page ends the loop, unless what is found as its paging control is not one. -/
theorem turn_of_last (h : page.Last) :
    PagingRun.turn (.searching calls request result) page =
        .returned (calls ++ [request]) (some (page.contribution.appendTo result)) page.error ∨
      PagingRun.turn (.searching calls request result) page = .panicked (calls ++ [request]) ∧ ¬ page.Decoded := by
  obtain ⟨_ | r, _ | e⟩ := page
  · left
    rw [Page.contribution, Option.getD_none, SearchResult.nil_appendTo]
    rfl
  · left
    rw [Page.contribution, Option.getD_none, SearchResult.nil_appendTo]
    rfl
  · -- the page does not fail, so that its paging control decides
    cases hc : findControl r.controls controlTypePaging with
    | none =>
      left
      simp only [PagingRun.turn, hc, Page.contribution, Option.getD_some, Page.error]
    | some c =>
      by_cases hp : ∃ p, c = .paging p
      · obtain ⟨p, rfl⟩ := hp
        have hcookie : p.cookie = [] := by simpa [Page.Last, Page.Fails, Page.cookie, hc] using h
        left
        simp only [PagingRun.turn, hc, hcookie, if_true, Page.contribution, Option.getD_some, Page.error]
      · right
        refine ⟨?_, fun hd => hp (hd r rfl c (List.mem_of_find?_eq_some hc) (by simpa using List.find?_some hc))⟩
        cases c with
        | paging p => exact absurd ⟨p, rfl⟩ hp
        | _ => simp only [PagingRun.turn, hc]
  · exact .inl rfl

theorem turn_last (hd : page.Decoded) (h : page.Last) :
    PagingRun.turn (.searching calls request result) page =
      .returned (calls ++ [request]) (some (page.contribution.appendTo result)) page.error :=
  (turn_of_last h).resolve_right fun hpanic => hpanic.2 hd

/-- A page that is not the last one has a cookie. -/
theorem Page.cookie_of_not_last (h : ¬ page.Last) :
    ¬ page.Fails ∧ ∃ cookie, cookie ≠ [] ∧ page.cookie = some cookie := by
  obtain ⟨hf, hn, he⟩ : ¬ page.Fails ∧ page.cookie ≠ none ∧ page.cookie ≠ some [] := by
    simpa only [Page.Last, not_or] using h
  obtain ⟨cookie, hcookie⟩ := Option.ne_none_iff_exists'.mp hn
  refine ⟨hf, cookie, ?_, hcookie⟩
  rintro rfl
  exact he hcookie

/-- A page with a cookie continues the loop, and the next call carries the cookie. -/
theorem turn_next {cookie : GoString} (hf : ¬ page.Fails) (hne : cookie ≠ []) (hcookie : page.cookie = some cookie) :
    PagingRun.turn (.searching calls request result) page =
      .searching (calls ++ [request]) (request.withCookie cookie) (page.contribution.appendTo result) := by
  obtain ⟨_ | r, _ | e⟩ := page
  · exact absurd (.inr rfl) hf
  · exact absurd (.inr rfl) hf
  · simp only [Page.cookie, Option.bind_some] at hcookie
    split at hcookie
    · rename_i p hp
      cases hcookie
      simp only [PagingRun.turn, hp, if_neg hne, Page.contribution, Option.getD_some]
    · cases hcookie
  · exact absurd (.inl (Option.some_ne_none e)) hf

@[simp] theorem foldl_turn_returned (pages : List Page) (r : Option (SearchResult Control)) (e : Option Err) :
    pages.foldl PagingRun.turn (.returned calls r e) = .returned calls r e := by
  induction pages with
  | nil => rfl
  | cons page pages ih => exact ih

@[simp] theorem foldl_turn_panicked (pages : List Page) :
    pages.foldl PagingRun.turn (.panicked calls) = .panicked calls := by
  induction pages with
  | nil => rfl
  | cons page pages ih => exact ih

end

/-! ## Cookies -/

section

variable {request first : PagedRequest} {pagingSize : UInt32}

theorem setCookie_setCookie (cookie cookie' : GoString) (cs : List Control) :
    setCookie cookie' (setCookie cookie cs) = setCookie cookie' cs := by
  fun_induction setCookie cookie cs with
  | case1 => rfl
  | case2 => rfl
  | case3 c rest hc ih =>
    rw [setCookie.eq_3 _ _ _ hc, ih, setCookie.eq_3 _ _ _ hc]

theorem withCookie_withCookie (cookie cookie' : GoString) :
    (request.withCookie cookie).withCookie cookie' = request.withCookie cookie' := by
  simp only [PagedRequest.withCookie, setCookie_setCookie]

/-- The cookie is assigned to the control that `FindControl` finds. -/
theorem findControl_setCookie {cs : List Control} {p : ControlPaging} (cookie : GoString)
    (h : findControl cs controlTypePaging = some (.paging p)) :
    findControl (setCookie cookie cs) controlTypePaging = some (.paging { p with cookie := cookie }) := by
  fun_induction setCookie cookie cs with
  | case1 => cases h
  | case2 q rest =>
    cases h
    rfl
  | case3 c rest hc ih =>
    by_cases ht : c.getControlType = controlTypePaging
    · -- then it is found, and is not a `ControlPaging`
      rw [findControl, List.find?_cons_of_pos (by simpa using ht)] at h
      exact absurd (Option.some.inj h) (hc p)
    · rw [findControl, List.find?_cons_of_neg (by simpa using ht)] at h ⊢
      exact ih h

/-- The first request has a paging control of the size asked for. -/
theorem FirstRequest.paging (h : FirstRequest request pagingSize first) :
    ∃ cookie, findControl first.controls controlTypePaging = some (.paging ⟨pagingSize, cookie⟩) := by
  cases h with
  | added h =>
    refine ⟨[], ?_⟩
    rw [findControl] at h ⊢
    rw [List.find?_append, h]
    rfl
  | given h => exact ⟨_, h⟩

theorem searchWithPaging_first (h : FirstRequest request pagingSize first) :
    searchWithPaging request pagingSize = .searching [] first ⟨[], [], []⟩ := by
  cases h with
  | added h => rw [searchWithPaging, h]
  | given h => simp only [searchWithPaging, h, ne_eq, not_true_eq_false, if_false]

/-- Without a paging control of the size asked for, no call is made. -/
theorem searchWithPaging_refused (h : Refused request pagingSize) :
    ∃ e, searchWithPaging request pagingSize = .returned [] none (some e) := by
  obtain ⟨c, hc, hne⟩ := h
  cases c with
  | paging p =>
    have hsize : p.pagingSize ≠ pagingSize := by
      rintro rfl
      exact hne p.cookie rfl
    refine ⟨errPagingSize p.pagingSize pagingSize, ?_⟩
    simp only [searchWithPaging, hc, ne_eq, hsize, not_false_eq_true, if_true]
  | _ => exact ⟨_, by rw [searchWithPaging, hc]⟩

end

/-! ## Runs -/

section

variable (calls : List PagedRequest) (request : PagedRequest) (result : SearchResult Control)

/-- The requests of the calls from `request` on, with one more call for each page that is not the last one. -/
def requestsFrom (request : PagedRequest) : List Page → List PagedRequest
  | [] => [request]
  | page :: pages => request :: if page.Last then [] else requestsFrom (request.withCookie (page.cookie.getD [])) pages

theorem foldl_turn_calls {pages : List Page} (hd : ∀ page ∈ pages, page.Decoded) :
    (pages.foldl PagingRun.turn (.searching calls request result)).calls = calls ++ requestsFrom request pages := by
  induction pages generalizing calls request result with
  | nil => rfl
  | cons page pages ih =>
    obtain ⟨hpage, hpages⟩ := List.forall_mem_cons.mp hd
    by_cases hl : page.Last
    · rw [List.foldl_cons, turn_last hpage hl, foldl_turn_returned, requestsFrom, if_pos hl]
      rfl
    · obtain ⟨hf, cookie, hne, hcookie⟩ := Page.cookie_of_not_last hl
      rw [List.foldl_cons, turn_next hf hne hcookie, ih _ _ _ hpages, requestsFrom, if_neg hl, hcookie,
        List.append_assoc]
      rfl

theorem concatenation_cons_appendTo (page : Page) (pages : List Page) :
    (concatenation (page :: pages)).appendTo result =
      (concatenation pages).appendTo (page.contribution.appendTo result) := by
  simp [concatenation, SearchResult.appendTo]

/-- How a run ends that has found `last`, if any, with the results read so far. -/
def PagingRun.EndsWith (result : SearchResult Control) (run : PagingRun) : Option Page → Prop
  | none => ∃ calls next, run = .searching calls next result
  | some last => run = .returned run.calls (some result) last.error

theorem foldl_turn_endsWith {pages : List Page} (hd : ∀ page ∈ pages, page.Decoded) :
    (pages.foldl PagingRun.turn (.searching calls request result)).EndsWith
      ((concatenation (pagesRead pages)).appendTo result) (pages.find? (·.Last)) := by
  induction pages generalizing calls request result with
  | nil => exact ⟨calls, request, by simp [pagesRead, concatenation, SearchResult.appendTo]⟩
  | cons page pages ih =>
    obtain ⟨hpage, hpages⟩ := List.forall_mem_cons.mp hd
    by_cases hl : page.Last
    · rw [List.foldl_cons, turn_last hpage hl, foldl_turn_returned, pagesRead, if_pos hl,
        List.find?_cons_of_pos (by simpa using hl)]
      simp [PagingRun.EndsWith, PagingRun.calls, concatenation]
    · obtain ⟨hf, cookie, hne, hcookie⟩ := Page.cookie_of_not_last hl
      rw [List.foldl_cons, turn_next hf hne hcookie, pagesRead, if_neg hl, concatenation_cons_appendTo,
        List.find?_cons_of_neg (by simpa using hl)]
      exact ih _ _ _ hpages

theorem pagesRead_of_find?_eq_none {pages : List Page} (h : pages.find? (·.Last) = none) : pagesRead pages = pages := by
  induction pages with
  | nil => rfl
  | cons page pages ih =>
    obtain ⟨hl, h⟩ : ¬ page.Last ∧ pages.find? (·.Last) = none := by simpa using h
    rw [pagesRead, if_neg hl, ih h]

/-- One call for each page read, and one that is waited for while no page was the last one. -/
theorem length_requestsFrom (pages : List Page) :
    (requestsFrom request pages).length =
      (pagesRead pages).length + if pages.find? (·.Last) = none then 1 else 0 := by
  induction pages generalizing request with
  | nil => rfl
  | cons page pages ih =>
    by_cases hl : page.Last
    · simp [requestsFrom, pagesRead, hl]
    · rw [requestsFrom, pagesRead, if_neg hl, if_neg hl, List.find?_cons_of_neg (by simpa using hl), List.length_cons,
        List.length_cons, ih]
      omega

theorem requestsFrom_head (pages : List Page) :
    (requestsFrom request pages)[0]? = some request := by
  cases pages <;> rfl

/-- Each later request has the cookie of the page before; what an earlier page assigned is overwritten. -/
theorem requestsFrom_next {first request : PagedRequest} {pages : List Page} {i : ℕ} {call : PagedRequest}
    (hr : ∀ cookie, request.withCookie cookie = first.withCookie cookie)
    (h : (requestsFrom request pages)[i + 1]? = some call) :
    ∃ page cookie, (pagesRead pages)[i]? = some page ∧ page.cookie = some cookie ∧ call = first.withCookie cookie := by
  induction pages generalizing request i with
  | nil => cases h
  | cons page pages ih =>
    rw [requestsFrom, List.getElem?_cons_succ] at h
    by_cases hl : page.Last
    · rw [if_pos hl] at h
      cases h
    · obtain ⟨-, cookie, -, hcookie⟩ := Page.cookie_of_not_last hl
      rw [if_neg hl, hcookie, Option.getD_some] at h
      rw [pagesRead, if_neg hl]
      cases i with
      | zero =>
        rw [requestsFrom_head] at h
        exact ⟨page, cookie, rfl, hcookie, by rw [← Option.some.inj h, hr]⟩
      | succ i => exact ih (fun cookie' => by rw [withCookie_withCookie, hr]) h

theorem carriesCookies_requestsFrom {first : PagedRequest} {pagingSize : UInt32} {cookie : GoString}
    (h : findControl first.controls controlTypePaging = some (.paging ⟨pagingSize, cookie⟩)) (pages : List Page) :
    CarriesCookies first pagingSize (pagesRead pages) (requestsFrom first pages) where
  head := by rw [List.head?_eq_getElem?, requestsFrom_head]
  next := by
    intro i call hcall
    obtain ⟨page, cookie', hpage, hcookie, rfl⟩ := requestsFrom_next (fun _ => rfl) hcall
    exact ⟨page, cookie', hpage, hcookie, rfl, findControl_setCookie cookie' h⟩

end

/-- `SearchWithPaging` returns the concatenation of the pages, for any answers of `Search`. -/
theorem searchWithPaging_concatenates (request : PagedRequest) (pagingSize : UInt32) (pages : List Page)
    (hd : ∀ page ∈ pages, page.Decoded) :
    let run := pages.foldl PagingRun.turn (searchWithPaging request pagingSize)
    (Refused request pagingSize → ∃ e, run = .returned [] none (some e)) ∧
    ∀ first, FirstRequest request pagingSize first →
      CarriesCookies first pagingSize (pagesRead pages) run.calls ∧
      match pages.find? (·.Last) with
      | none => run.calls.length = pages.length + 1 ∧ ∃ calls next, run = .searching calls next (concatenation pages)
      | some last => run.calls.length = (pagesRead pages).length ∧
        ∃ err, (err = none ↔ ¬ last.Fails) ∧
          run = .returned run.calls (some (concatenation (pagesRead pages))) err := by
  refine ⟨fun hrefused => ?_, fun first hfirst => ?_⟩
  · obtain ⟨e, he⟩ := searchWithPaging_refused hrefused
    exact ⟨e, by rw [he, foldl_turn_returned]⟩
  · obtain ⟨cookie, hcookie⟩ := hfirst.paging
    rw [searchWithPaging_first hfirst]
    have hcalls := foldl_turn_calls [] first ⟨[], [], []⟩ hd
    have hends := foldl_turn_endsWith [] first ⟨[], [], []⟩ hd
    rw [SearchResult.appendTo_nil] at hends
    rw [hcalls, List.nil_append, length_requestsFrom]
    refine ⟨carriesCookies_requestsFrom hcookie pages, ?_⟩
    cases hlast : pages.find? (·.Last) with
    | none =>
      rw [hlast, pagesRead_of_find?_eq_none hlast] at hends
      exact ⟨by rw [pagesRead_of_find?_eq_none hlast, if_pos rfl], hends⟩
    | some last =>
      rw [hlast, PagingRun.EndsWith, hcalls] at hends
      exact ⟨by simp, last.error, Page.error_eq_none, hends⟩

/-- Two pages; the cookie of the second is empty. -/
def twoPages : List Page := [
  ⟨some ⟨[⟨str "cn=a", []⟩], [], [.paging ⟨0, str "1"⟩]⟩, none⟩,
  ⟨some ⟨[⟨str "cn=b", []⟩], [], [.paging ⟨0, []⟩]⟩, none⟩]

def anyRequest : PagedRequest := ⟨⟨[], 2, 0, 0, 0, false, str "(objectClass=*)", [], [], false⟩, []⟩

theorem searchWithPaging_concatenates_twoPages :
    ∃ calls err, calls.length = 2 ∧ err = none ∧
      twoPages.foldl PagingRun.turn (searchWithPaging anyRequest 2) = .returned calls (some
        ⟨[⟨str "cn=a", []⟩, ⟨str "cn=b", []⟩], [], [.paging ⟨0, str "1"⟩, .paging ⟨0, []⟩]⟩) err := by
  have hd : ∀ page ∈ twoPages, page.Decoded := by
    have hpaging (entries : List Entry) (p : ControlPaging) :
        Page.Decoded ⟨some ⟨entries, [], [.paging p]⟩, none⟩ := by
      intro result hresult c hc _
      cases hresult
      exact ⟨p, List.mem_singleton.mp hc⟩
    exact List.forall_mem_cons.mpr ⟨hpaging _ _, List.forall_mem_singleton.mpr (hpaging _ _)⟩
  obtain ⟨-, hlength, err, herr, hrun⟩ := (searchWithPaging_concatenates anyRequest 2 twoPages hd).2 _ (.added rfl)
  exact ⟨_, err, hlength, herr.mpr (by decide), hrun⟩

/-! ## The pages of `Search`

What `DecodeControl` ensures of every control holds of the controls of every result of `Search`. -/

section

variable {C : Type} {P : C → Prop} {decode : Packet → Outcome Err C}

/-- The controls of the result after a response satisfy `P`. -/
def SearchStep.All (P : C → Prop) : SearchStep C → Prop
  | .goOn result => ∀ c ∈ result.controls, P c
  | .ret result _ => ∀ c ∈ result.controls, P c
  | .panic => True

theorem decodeControls_all (h : ∀ p, (decode p).Ensures P) (wrap : Err → Err) (children : List Packet) :
    ∀ c ∈ (decodeControls decode wrap children).1, P c := by
  induction children with
  | nil => simp [decodeControls]
  | cons child rest ih =>
    have hchild := h child
    cases hc : decode child with
    | ok c =>
      rw [hc] at hchild
      rw [decodeControls, hc]
      exact List.forall_mem_cons.mpr ⟨hchild, ih⟩
    | err e => simp [decodeControls, hc]
    | panic => simp [decodeControls, hc]

theorem searchDone_all (h : ∀ p, (decode p).Ensures P) {result : SearchResult C} (hr : ∀ c ∈ result.controls, P c)
    (packet : Packet) : (searchDone decode result packet).All P := by
  unfold searchDone
  split
  · trivial
  · exact hr
  · split
    · rename_i controls _
      have hcs := decodeControls_all h (.wrapped "failed to decode child control: %s") controls.children
      split
      · trivial
      · rename_i heq
        rw [heq] at hcs
        exact List.forall_mem_append.mpr ⟨hr, hcs⟩
      · rename_i heq
        rw [heq] at hcs
        exact List.forall_mem_append.mpr ⟨hr, hcs⟩
    · exact hr

theorem searchStep_all (h : ∀ p, (decode p).Ensures P) (req : SearchRequest) {result : SearchResult C}
    (hr : ∀ c ∈ result.controls, P c) (packet : Packet) : (searchStep decode req result packet).All P := by
  unfold searchStep
  split
  · trivial
  · rename_i op _
    split_ifs
    · unfold searchEntry
      dsimp only
      split_ifs
      · exact hr
      · split
        · exact hr
        · split
          · trivial
          · split
            · trivial
            · exact hr
    · exact searchDone_all h hr packet
    · unfold searchReference
      repeat' split
      all_goals trivial
    · exact hr

theorem searchLoop_all (h : ∀ p, (decode p).Ensures P) {acd : Assign} {debug closed : Bool} {req : SearchRequest}
    {result r : SearchResult C} {e : Option Err} (hr : ∀ c ∈ result.controls, P c) (packets : List (Except Err Packet))
    (hret : searchLoop decode acd debug req closed result packets = .returned (some r) e) : ∀ c ∈ r.controls, P c := by
  induction packets generalizing result with
  | nil =>
    rw [searchLoop] at hret
    split_ifs at hret
    cases hret
    exact hr
  | cons packet rest ih =>
    cases packet with
    | error e' =>
      cases hret
      exact hr
    | ok packet =>
      rw [searchLoop] at hret
      split at hret
      · cases hret
        exact hr
      · rename_i packet' _
        have hstep := searchStep_all h req hr packet'
        split at hret
        · cases hret
        · rename_i heq
          rw [heq] at hstep
          cases hret
          exact hstep
        · rename_i heq
          rw [heq] at hstep
          exact ih hstep hret

/-- Every page that `Search` returns has its controls from `DecodeControl`. -/
theorem search_decoded (L : Codec) (acd : Assign) (conn : Connection) (req : SearchRequest) (responses : Responses)
    {page : Page} (h : conn.search L.toEncoder acd (decodeControl L) req responses = .returned page.result page.err) :
    page.Decoded := by
  intro r hr
  rw [hr] at h
  cases hsends : conn.sends L.toEncoder req with
  | true =>
    rw [conn.search_of_sends hsends] at h
    exact searchLoop_all (decodeControl_paging L) (by simp) _ h
  | false =>
    obtain ⟨e, he⟩ := conn.search_of_not_sends hsends acd (decodeControl L) responses
    rw [he] at h
    cases h

end

end GoLdap
