import GoLdap.Descriptions.Described
import GoLdap.Search.Model

/-!
# Search.Async — `SearchAsync` (`response.go`)

A worker reads the responses and sends results to a channel; the caller takes them out with `Next` and asks `Err` once
`Next` has returned false.  The channel hands over what is sent, in order, whatever its buffer, and a context that is
never cancelled plays no part.  So the model is the list of results the worker sends, whether it then closes the channel
or waits for another response, and the calls of `Next` on these.

The deferred function of the worker closes the channel before it recovers a panic, and the error goes to the connection:
the caller sees a channel that is closed, as at the end of a complete search.
-/

namespace GoLdap

open Go Ber

/-! ## The worker -/

structure SearchSingleResult (C : Type) where
  entry : Option Entry
  referral : GoString
  controls : List C
  error : Option Err

def SearchSingleResult.ofError {C : Type} (e : Err) : SearchSingleResult C := ⟨none, [], [], some e⟩

def SearchSingleResult.ofReferral {C : Type} (ref : GoString) : SearchSingleResult C := ⟨none, ref, [], none⟩

def SearchSingleResult.ofControls {C : Type} (cs : List C) : SearchSingleResult C := ⟨none, [], cs, none⟩

/-- What the worker does with a packet: it sends a result and goes on; it sends a result with an error and returns; it
has found the end, and may have a result to send; or it panics. -/
inductive Handled (C : Type) where
  | goOn (sent : SearchSingleResult C)
  | stop (sent : SearchSingleResult C)
  | found (sent : Option (SearchSingleResult C))
  | panic

section

variable {C : Type} (decodeControl : Packet → Outcome Err C)

def handleEntry (packet op : Packet) : Handled C :=
  match op.children with
  | name :: attributes :: _ =>
    match unpackAttributes attributes.children with
    | .error e => .stop (.ofError e)
    | .ok attributes =>
      match asString name.value with
      | none => .panic
      | some dn =>
        match packet.children with
        | [_, _, controls] =>
          match controls.children with
          | [] => .panic
          | control :: _ =>
            match decodeControl control with
            | .panic => .panic
            | .err e =>
              .stop ⟨some ⟨dn, attributes⟩, [], [], some (.wrapped "failed to decode search result entry: %w" e)⟩
            | .ok decoded => .goOn ⟨some ⟨dn, attributes⟩, [], [decoded], none⟩
        | _ => .goOn ⟨some ⟨dn, attributes⟩, [], [], none⟩
  -- `packet.Children[1].Children[1]` is out of range
  | _ => .panic

def handleDone (packet : Packet) : Handled C :=
  match getLDAPError packet with
  | .panic => .panic
  | .err e => .stop (.ofError e)
  | .ok () =>
    match packet.children with
    | [_, _, controls] =>
      match decodeControls decodeControl (.wrapped "failed to decode child control: %w") controls.children with
      | (_, .panic) => .panic
      | (_, .err e) => .stop (.ofError e)
      | (cs, .ok ()) => .found (some (.ofControls cs))
    | _ => .found none

def handleReference (op : Packet) : Handled C :=
  match op.children with
  | [] => .panic
  | uri :: _ =>
    match asString uri.value with
    | none => .panic
    | some ref => .goOn (.ofReferral ref)

def handleIntermediate (op : Packet) : Handled C :=
  match decodeControl op with
  | .panic => .panic
  | .err e => .stop (.ofError (.wrapped "failed to decode intermediate response: %w" e))
  | .ok decoded => .goOn (.ofControls [decoded])

/-- The switch on the tag of the operation. -/
def handle (packet : Packet) : Handled C :=
  match packet.children[1]? with
  | none => .panic
  | some op =>
    if op.tag = applicationSearchResultEntry then handleEntry decodeControl packet op
    else if op.tag = applicationSearchResultDone then handleDone decodeControl packet
    else if op.tag = applicationSearchResultReference then handleReference op
    else if op.tag = applicationIntermediateResponse then handleIntermediate decodeControl op
    else .stop (.ofError (.plain (.fmtNum "unknown tag: %d" op.tag)))

/-- A run of the worker: the packets it has received, the results it has sent, and whether it has ended and closed the
channel. -/
structure Worker (C : Type) where
  received : List Packet
  sent : List (SearchSingleResult C)
  closed : Bool

/-- The worker has ended without reading a packet. -/
def Worker.fail (e : Err) : Worker C := ⟨[], [.ofError e], true⟩

variable (addControlDescriptions : Assign) (debug : Bool)

/-- The loop of the worker. -/
def workerLoop (closed : Bool) : List (Except Err Packet) → Worker C
  | [] => if closed then .fail errResponseChannelClosed else ⟨[], [], false⟩
  | .error e :: _ => .fail e
  | .ok packet :: rest =>
    match describeInDebug addControlDescriptions debug packet with
    | .error e => ⟨[packet], [.ofError e], true⟩
    | .ok described =>
      match handle decodeControl described with
      | .panic => ⟨[packet], [], true⟩
      | .stop r => ⟨[packet], [r], true⟩
      | .found r => ⟨[packet], r.toList, true⟩
      | .goOn r =>
        let w := workerLoop closed rest
        ⟨packet :: w.received, r :: w.sent, w.closed⟩

end

/-- `(*searchResponse).start`. -/
def Connection.searchAsync {C : Type} (E : Encoder) (addControlDescriptions : Assign)
    (decodeControl : Packet → Outcome Err C) (conn : Connection) (req : SearchRequest) (responses : Responses) :
    Worker C :=
  if conn.closing then ⟨[], [], true⟩
  else
    match req.appendTo E (requestEnvelope E conn.messageID) with
    | .panic => ⟨[], [], true⟩
    | .err e => .fail e
    | .ok packet =>
      match conn.sendMessage packet with
      | some e => .fail e
      | none => workerLoop decodeControl addControlDescriptions conn.debug responses.closed responses.packets

/-- On a connection that is not closing the worker fails to send the request, or enters its loop. -/
theorem Connection.searchAsync_open {C : Type} {E : Encoder} {addControlDescriptions : Assign}
    {decodeControl : Packet → Outcome Err C} {conn : Connection} {req : SearchRequest} {responses : Responses}
    (h : conn.closing = false) :
    (∃ e, conn.searchAsync E addControlDescriptions decodeControl req responses = .fail e) ∨
      conn.searchAsync E addControlDescriptions decodeControl req responses =
        workerLoop decodeControl addControlDescriptions conn.debug responses.closed responses.packets := by
  unfold Connection.searchAsync
  rw [h]
  cases happend : req.appendTo E (requestEnvelope E conn.messageID) with
  | panic => exact absurd happend (req.appendTo_ne_panic E _)
  | err e => exact .inl ⟨e, rfl⟩
  | ok packet =>
    cases hsend : conn.sendMessage packet with
    | some e => exact .inl ⟨e, by simp [hsend]⟩
    | none => exact .inr (by simp [hsend])

theorem Connection.searchAsync_of_sends {C : Type} {E : Encoder} {conn : Connection} {req : SearchRequest}
    (h : conn.sends E req = true) (addControlDescriptions : Assign) (decodeControl : Packet → Outcome Err C)
    (responses : Responses) :
    conn.searchAsync E addControlDescriptions decodeControl req responses =
      workerLoop decodeControl addControlDescriptions conn.debug responses.closed responses.packets := by
  obtain ⟨-, packet, happend, hsend⟩ := conn.exists_of_sends h
  have hopen : ¬ conn.closing = true := by
    intro hclosing
    rw [Connection.sendMessage, if_pos hclosing] at hsend
    cases hsend
  rw [Connection.searchAsync, if_neg hopen, happend]
  dsimp only
  rw [hsend]

/-! ## The caller -/

/-- `searchResponse`: what `Entry`, `Referral`, `Controls` and `Err` return. -/
structure SearchResponse (C : Type) where
  entry : Option Entry
  referral : GoString
  controls : List C
  err : Option Err

def SearchResponse.initial {C : Type} : SearchResponse C := ⟨none, [], [], none⟩

/-- `Next`, once a result has come out of the channel. -/
def SearchResponse.next {C : Type} (r : SearchResponse C) (res : SearchSingleResult C) : Bool × SearchResponse C :=
  match res.error with
  | some e => (false, { r with err := some e })
  | none => (true, ⟨res.entry, res.referral, res.controls, none⟩)

/-- Calls of `Next` until it returns false: the responses after each call that returned true, whether the last call has
returned, and the response then. -/
structure Iteration (C : Type) where
  delivered : List (SearchResponse C)
  ended : Bool
  last : SearchResponse C

def iterate {C : Type} (closed : Bool) : SearchResponse C → List (SearchSingleResult C) → Iteration C
  | r, [] => ⟨[], closed, r⟩
  | r, res :: rest =>
    match r.next res with
    | (false, r) => ⟨[], true, r⟩
    | (true, r) =>
      let it := iterate closed r rest
      ⟨r :: it.delivered, it.ended, it.last⟩

/-- The iteration over the results of a worker. -/
def Worker.iterate {C : Type} (w : Worker C) : Iteration C := GoLdap.iterate w.closed .initial w.sent

end GoLdap
