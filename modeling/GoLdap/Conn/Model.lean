import GoLdap.Lib.Machine
import Mathlib.Data.List.Basic
import Mathlib.Data.Int.Notation
import Mathlib.Algebra.Group.Nat.Defs
import Mathlib.Logic.Function.Basic

/-!
# Conn.Model — the connection and its goroutines (`conn.go`)

A connection as a state machine.  Its parties are the `processMessages` loop, the readers, the timers of requests and any
number of clients: goroutines that run operations of the API.  An operation takes a message ID, sends a request, reads
any number of responses and finishes the message; it may start another exchange before it has finished the first
(`DigestMD5Bind`, `NTLMChallengeBind`), or wait for the consumer of its results (the goroutine of `SearchAsync`).  Clients
also call `StartTLS` and `Close`.

A step is what one party does between two points at which another one can interfere: a channel operation, a critical
section of `messageMutex`, an atomic load or store, a network call.  Where a party blocks while it holds the mutex
(`sendProcessMessage` on a full `chanMessage`, `Close`), `messageMutex` records what the holder is doing.

An action carries the data its guard determines, so that guards are equations and effects need no case analysis.
-/

namespace GoLdap

/-! ## Messages -/

/-- An `int64` message ID. -/
abbrev MsgId := BitVec 64

/-- The `n`-th message ID that `processMessages` hands out: a counter that starts at 1 and wraps around. -/
def msgId (n : ℕ) : MsgId := BitVec.ofNat 64 (n + 1)

/-- A packet from the server with a message ID.  Of its contents the connection itself only looks at whether
`GetLDAPError` is nil. -/
structure SrvPacket where
  id : MsgId
  success : Bool
  body : ℕ
  deriving DecidableEq, Repr

/-- A `PacketResponse`: a packet, or the error of a failed write, of a request timer or of the reader. -/
inductive Response where
  | packet (p : SrvPacket)
  | writeError
  | timeoutError
  | closeError
  deriving DecidableEq, Repr

/-- A `messagePacket`.  Contexts are named by the order in which they were created. -/
inductive Message where
  | quit
  | request (c : ℕ)
  | response (p : SrvPacket)
  | finish (id : MsgId)
  | timeout (id : MsgId)
  deriving DecidableEq, Repr

/-- The goroutine that sends a `MessageTimeout` for a request. -/
inductive Timer where
  | off
  | armed
  | fired
  | over
  deriving DecidableEq, Repr

/-- How far `sendMessage` has come with a context: counted as outstanding, put into `chanMessage` and returned to the
caller, or refused because the connection is closing. -/
inductive Stage where
  | admitted
  | accepted
  | rejected
  deriving DecidableEq, Repr

/-- A `messageContext`, with what happened to it. -/
structure MessageContext where
  /-- Which ID of `nextMessageID` it has; none if the ID channel was closed. -/
  serial : Option ℕ
  /-- The client that made it. -/
  owner : ℕ
  /-- The request is a StartTLS request. -/
  startTLS : Bool
  stage : Stage
  /-- `close(done)` has been called. -/
  done : Bool
  /-- `finishMessage` has taken it off the outstanding requests. -/
  finished : Bool
  /-- How often `responses` was closed. -/
  closes : ℕ
  /-- What the client has read from `responses`. -/
  received : List Response
  /-- How many packets the readers had handed over when the request was put into `chanMessage`. -/
  since : ℕ
  timer : Timer
  deriving DecidableEq, Repr

/-- `messageContext.id`; `nextMessageID` returns 0 if the ID channel is closed. -/
def MessageContext.id (m : MessageContext) : MsgId :=
  match m.serial with
  | none => 0
  | some n => msgId n

/-! ## Parties -/

/-- Where a client is in `finishMessage`: before `close(done)`, before the check of `closing`, before the critical
section, before `sendProcessMessage`. -/
inductive FinishStage where
  | closeDone
  | check
  | decrement
  | send
  deriving DecidableEq, Repr

inductive ClientPc where
  /-- Between operations. -/
  | idle
  /-- In `nextMessageID`. -/
  | wantID
  /-- Has an ID, before the first check of `sendMessageWithFlags`. -/
  | hasID (serial : Option ℕ)
  /-- Before the critical section of `sendMessageWithFlags`. -/
  | locking (serial : Option ℕ)
  /-- In `sendProcessMessage` with its request. -/
  | admitted (c : ℕ)
  /-- Has the context and is not waiting for a response. -/
  | active (c : ℕ)
  /-- Waiting for a response. -/
  | receiving (c : ℕ)
  /-- The goroutine of `SearchAsync`, waiting for its consumer to take a result. -/
  | offering (c : ℕ)
  /-- `StartTLS` with the response it received; none if the channel was closed. -/
  | tlsGot (c : ℕ) (r : Option Response)
  /-- In `Close`, with the context to finish afterwards. -/
  | closing (ret : Option ℕ)
  | finishing (c : ℕ) (stage : FinishStage)
  deriving DecidableEq, Repr

structure Client where
  pc : ClientPc
  /-- Contexts of earlier exchanges of the operation whose deferred `finishMessage` is still to come. -/
  stack : List ℕ
  /-- The operation is `StartTLS`. -/
  startTLS : Bool
  deriving DecidableEq, Repr

/-- An exchange is over: the operation goes on with the exchange before it, or returns. -/
def Client.return (cl : Client) : Client :=
  match cl.stack with
  | [] => ⟨.idle, [], false⟩
  | c :: rest => ⟨.active c, rest, cl.startTLS⟩

inductive ReaderPc where
  /-- In `ber.ReadPacket`. -/
  | reading
  /-- Has a packet, before it looks at `isStartingTLS`; none if the packet has no message ID. -/
  | got (p : Option SrvPacket)
  /-- In `sendProcessMessage` with the packet. -/
  | forwarding (p : SrvPacket) (cleanstop : Bool)
  /-- Before it stores the read error in `closeErr`. -/
  | storing
  /-- In the deferred `Close`. -/
  | closing
  | stopped
  deriving DecidableEq, Repr

/-- What `processMessages` does after a `sendResponse`: go on, close the context of a failed write, drop the context of
a timed-out request, or go on with the deferred cleanup. -/
inductive AfterSend where
  | resume
  | closeFailed
  | drop
  | cleanup
  deriving DecidableEq, Repr

inductive ProcPc where
  /-- In the `select` of the loop. -/
  | loop
  /-- In `conn.Write` with a request. -/
  | writing (c : ℕ)
  /-- In `sendResponse`; `timed` says that its timeout is positive. -/
  | sending (c : ℕ) (r : Response) (timed : Bool) (next : AfterSend)
  /-- In the deferred function, between two contexts. -/
  | cleanup
  /-- `chanMessageID` and `chanConfirm` are closed. -/
  | stopped
  deriving DecidableEq, Repr

/-- A caller of `sendProcessMessage`. -/
inductive Sender where
  | request (i c : ℕ)
  | finish (i c : ℕ)
  | response (j : ℕ) (p : SrvPacket) (cleanstop : Bool)
  | timeout (c : ℕ)
  deriving DecidableEq, Repr

/-- A caller of `Close`. -/
inductive Closer where
  | client (i : ℕ) (ret : Option ℕ)
  | reader (j : ℕ)
  deriving DecidableEq, Repr

/-- What the holder of `messageMutex` is blocked in: a send on `chanMessage`, the send of the quit message, or the wait
for `chanConfirm` (with a timeout if `timed`). -/
inductive Holder where
  | push (x : Sender)
  | quit (k : Closer)
  | confirm (k : Closer) (timed : Bool)
  deriving DecidableEq, Repr

/-! ## The connection -/

structure Conn where
  closing : Bool
  /-- A read error is stored in `closeErr`. -/
  closeErr : Bool
  isTLS : Bool
  isStartingTLS : Bool
  /-- A `uint`; a value below zero stands for its wrap-around. -/
  outstandingRequests : ℤ
  /-- `requestTimeout` is positive. -/
  requestTimeout : Bool
  messageMutex : Option Holder
  chanMessage : List Message
  /-- How often `chanMessage` was closed. -/
  chanMessageCloses : ℕ
  /-- The number of message IDs handed out. -/
  idsIssued : ℕ
  messageContexts : List (MsgId × ℕ)
  proc : ProcPc
  /-- The readers, in the order they were started. -/
  readers : ℕ → ReaderPc
  readersStarted : ℕ
  clients : ℕ → Client
  /-- The contexts, in the order they were created. -/
  contexts : ℕ → MessageContext
  created : ℕ
  /-- The packets the readers have put into `chanMessage`, in order. -/
  forwarded : List SrvPacket

namespace Conn

/-- The capacity of `chanMessage`. -/
def capacity : ℕ := 10

/-- A connection after `Start`. -/
def start (isTLS : Bool) : Conn where
  closing := false
  closeErr := false
  isTLS := isTLS
  isStartingTLS := false
  outstandingRequests := 0
  requestTimeout := false
  messageMutex := none
  chanMessage := []
  chanMessageCloses := 0
  idsIssued := 0
  messageContexts := []
  proc := .loop
  readers := Function.update (fun _ => .stopped) 0 .reading
  readersStarted := 1
  clients := fun _ => ⟨.idle, [], false⟩
  contexts := fun _ => ⟨none, 0, false, .rejected, true, true, 0, [], 0, .off⟩
  created := 0
  forwarded := []

variable (s : Conn)

@[simp] def setClient (i : ℕ) (cl : Client) : Conn := { s with clients := Function.update s.clients i cl }

@[simp] def setPc (i : ℕ) (pc : ClientPc) : Conn := s.setClient i { s.clients i with pc := pc }

@[simp] def setContext (c : ℕ) (m : MessageContext) : Conn := { s with contexts := Function.update s.contexts c m }

@[simp] def setReader (j : ℕ) (pc : ReaderPc) : Conn := { s with readers := Function.update s.readers j pc }

/-- `close(msgCtx.responses)`. -/
@[simp] def closeResponses (c : ℕ) : Conn := s.setContext c { s.contexts c with closes := (s.contexts c).closes + 1 }

/-- `delete(l.messageContexts, id)`. -/
@[simp] def delete (id : MsgId) : Conn := { s with messageContexts := s.messageContexts.filter (·.1 ≠ id) }

/-- `l.messageContexts[id] = msgCtx`. -/
@[simp] def register (id : MsgId) (c : ℕ) : Conn :=
  { s with messageContexts := (id, c) :: s.messageContexts.filter (·.1 ≠ id) }

/-- The ID is not registered. -/
def Unknown (id : MsgId) : Prop := ∀ e ∈ s.messageContexts, e.1 ≠ id

instance (id : MsgId) : Decidable (s.Unknown id) := List.decidableBAll (fun e : MsgId × ℕ => e.1 ≠ id) s.messageContexts

end Conn

/-! ## Callers of `sendProcessMessage` and `Close` -/

namespace Sender

/-- The caller is about to enter `sendProcessMessage`. -/
def Ready (s : Conn) : Sender → Prop
  | request i c => (s.clients i).pc = .admitted c
  | finish i c => (s.clients i).pc = .finishing c .send
  | response j p cleanstop => s.readers j = .forwarding p cleanstop
  | timeout c => (s.contexts c).timer = .fired

def message (s : Conn) : Sender → Message
  | request _ c => .request c
  | finish _ c => .finish (s.contexts c).id
  | response _ p _ => .response p
  | timeout c => .timeout (s.contexts c).id

/-- `sendProcessMessage` returns true. -/
def sent (s : Conn) : Sender → Conn
  | request i c =>
    (s.setContext c { s.contexts c with stage := .accepted, since := s.forwarded.length }).setPc i (.active c)
  | finish i _ => s.setClient i (s.clients i).return
  | response j p cleanstop =>
    { s.setReader j (if cleanstop then .stopped else .reading) with forwarded := s.forwarded ++ [p] }
  | timeout c => s.setContext c { s.contexts c with timer := .over }

/-- `sendProcessMessage` returns false. -/
def refused (s : Conn) : Sender → Conn
  | request i c => (s.setContext c { s.contexts c with stage := .rejected }).setClient i (s.clients i).return
  | finish i _ => s.setClient i (s.clients i).return
  | response j _ cleanstop => s.setReader j (if cleanstop then .stopped else .closing)
  | timeout c => s.setContext c { s.contexts c with timer := .over }

instance (s : Conn) : DecidablePred (Ready s)
  | request i c => inferInstanceAs (Decidable ((s.clients i).pc = .admitted c))
  | finish i c => inferInstanceAs (Decidable ((s.clients i).pc = .finishing c .send))
  | response j p cleanstop => inferInstanceAs (Decidable (s.readers j = .forwarding p cleanstop))
  | timeout c => inferInstanceAs (Decidable ((s.contexts c).timer = .fired))

end Sender

namespace Closer

/-- The caller is in `Close`. -/
def Ready (s : Conn) : Closer → Prop
  | client i ret => (s.clients i).pc = .closing ret
  | reader j => s.readers j = .closing

/-- `Close` returns. -/
def returned (s : Conn) : Closer → Conn
  | client i none => s.setClient i (s.clients i).return
  | client i (some c) => s.setPc i (.finishing c .closeDone)
  | reader j => s.setReader j .stopped

instance (s : Conn) : DecidablePred (Ready s)
  | client i ret => inferInstanceAs (Decidable ((s.clients i).pc = .closing ret))
  | reader j => inferInstanceAs (Decidable (s.readers j = .closing))

end Closer

/-! ## Steps -/

inductive Action where
  -- clients: operations begin, take a message ID and send their request
  | begin (i : ℕ)
  | beginTLS (i : ℕ)
  | beginClose (i : ℕ)
  | beginNext (i c : ℕ)
  | takeID (i : ℕ)
  | takeClosedID (i : ℕ)
  | abandon (i : ℕ) (serial : Option ℕ)
  | checkSend (i : ℕ) (serial : Option ℕ)
  | checkSendClosing (i : ℕ) (serial : Option ℕ)
  | admitSend (i : ℕ) (serial : Option ℕ)
  | admitRefused (i : ℕ) (serial : Option ℕ)
  -- clients: responses and `finishMessage`
  | receive (i c : ℕ)
  | receiveClosed (i c : ℕ)
  | cancel (i c : ℕ)
  | offer (i c : ℕ)
  | consume (i c : ℕ)
  | finish (i c : ℕ)
  | closeDone (i c : ℕ)
  | checkFinish (i c : ℕ)
  | checkFinishClosing (i c : ℕ)
  | decrement (i c : ℕ)
  -- `StartTLS` with its response
  | tlsFail (i c : ℕ) (r : Option Response)
  | tlsAbort (i c : ℕ) (p : SrvPacket)
  | tlsUpgrade (i c : ℕ) (p : SrvPacket)
  -- `sendProcessMessage` and `Close`
  | enter (x : Sender)
  | refuse (x : Sender)
  | push (x : Sender)
  | closeEnter (k : Closer)
  | closeAgain (k : Closer)
  | closeQuit (k : Closer)
  | closeReturn (k : Closer) (timed : Bool)
  -- `processMessages`
  | takeQuit (q : List Message)
  | takeNil
  | takeRequest (c : ℕ) (q : List Message)
  | writeOk (c : ℕ)
  | writeFail (c : ℕ)
  | takeResponse (p : SrvPacket) (c : ℕ) (q : List Message)
  | takeUnexpected (p : SrvPacket) (q : List Message)
  | takeTimeout (id : MsgId) (c : ℕ) (q : List Message)
  | takeStaleTimeout (id : MsgId) (q : List Message)
  | takeFinish (id : MsgId) (c : ℕ) (q : List Message)
  | takeStaleFinish (id : MsgId) (q : List Message)
  | deliver (i c : ℕ) (r : Response) (timed : Bool) (next : AfterSend)
  | skipDone (c : ℕ) (r : Response) (timed : Bool) (next : AfterSend)
  | skipTimeout (c : ℕ) (r : Response) (next : AfterSend)
  | cleanupClose (id : MsgId) (c : ℕ)
  | cleanupSend (id : MsgId) (c : ℕ)
  | cleanupEnd
  -- readers
  | read (j : ℕ) (p : Option SrvPacket)
  | readFail (j : ℕ)
  | readFailClosing (j : ℕ)
  | storeErr (j : ℕ)
  | checkFlag (j : ℕ) (p : SrvPacket)
  | checkFlagNoID (j : ℕ)
  -- timers, `SetTimeout`
  | fire (c : ℕ)
  | stopTimer (c : ℕ)
  | setTimeout (positive : Bool)
  deriving DecidableEq, Repr

namespace Conn

/-- The response is a packet with a zero result code. -/
def succeeded : Option Response → Bool
  | some (.packet p) => p.success
  | _ => false

/-- The guards. -/
def Enabled (s : Conn) : Action → Prop
  | .begin i => (s.clients i).pc = .idle
  | .beginTLS i => (s.clients i).pc = .idle ∧ s.isTLS = false
  | .beginClose i => (s.clients i).pc = .idle
  | .beginNext i c => (s.clients i).pc = .active c ∧ (s.clients i).startTLS = false
  | .takeID i => (s.clients i).pc = .wantID ∧ s.proc = .loop
  | .takeClosedID i => (s.clients i).pc = .wantID ∧ s.proc = .stopped
  | .abandon i n => (s.clients i).pc = .hasID n ∧ (s.clients i).startTLS = false
  | .checkSend i n => (s.clients i).pc = .hasID n ∧ s.closing = false
  | .checkSendClosing i n => (s.clients i).pc = .hasID n ∧ s.closing = true
  | .admitSend i n => (s.clients i).pc = .locking n ∧ s.messageMutex = none ∧ s.isStartingTLS = false ∧
      ((s.clients i).startTLS = true → s.outstandingRequests = 0)
  | .admitRefused i n => (s.clients i).pc = .locking n ∧ s.messageMutex = none ∧
      (s.isStartingTLS = true ∨ (s.clients i).startTLS = true ∧ s.outstandingRequests ≠ 0)
  | .receive i c => (s.clients i).pc = .active c
  | .receiveClosed i c => (s.clients i).pc = .receiving c ∧ 0 < (s.contexts c).closes
  | .cancel i c => (s.clients i).pc = .receiving c ∧ (s.clients i).startTLS = false
  | .offer i c => (s.clients i).pc = .active c ∧ (s.clients i).startTLS = false
  | .consume i c => (s.clients i).pc = .offering c
  | .finish i c => (s.clients i).pc = .active c ∧ (s.clients i).startTLS = false
  | .closeDone i c => (s.clients i).pc = .finishing c .closeDone
  | .checkFinish i c => (s.clients i).pc = .finishing c .check ∧ s.closing = false
  | .checkFinishClosing i c => (s.clients i).pc = .finishing c .check ∧ s.closing = true
  | .decrement i c => (s.clients i).pc = .finishing c .decrement ∧ s.messageMutex = none
  | .tlsFail i c r => (s.clients i).pc = .tlsGot c r ∧ succeeded r = false
  | .tlsAbort i c p => (s.clients i).pc = .tlsGot c (some (.packet p))
  | .tlsUpgrade i c p => (s.clients i).pc = .tlsGot c (some (.packet p)) ∧ p.success = true
  | .enter x => x.Ready s ∧ s.messageMutex = none ∧ s.closing = false
  | .refuse x => x.Ready s ∧ s.messageMutex = none ∧ s.closing = true
  | .push x => s.messageMutex = some (.push x) ∧ s.chanMessage.length < capacity
  | .closeEnter k => k.Ready s ∧ s.messageMutex = none ∧ s.closing = false
  | .closeAgain k => k.Ready s ∧ s.messageMutex = none ∧ s.closing = true
  | .closeQuit k => s.messageMutex = some (.quit k) ∧ s.chanMessage.length < capacity
  | .closeReturn k timed => s.messageMutex = some (.confirm k timed) ∧ (s.proc = .stopped ∨ timed = true)
  | .takeQuit q => s.proc = .loop ∧ s.chanMessage = .quit :: q
  | .takeNil => s.proc = .loop ∧ s.chanMessage = [] ∧ 0 < s.chanMessageCloses
  | .takeRequest c q => s.proc = .loop ∧ s.chanMessage = .request c :: q
  | .writeOk c => s.proc = .writing c
  | .writeFail c => s.proc = .writing c
  | .takeResponse p c q => s.proc = .loop ∧ s.chanMessage = .response p :: q ∧ (p.id, c) ∈ s.messageContexts
  | .takeUnexpected p q => s.proc = .loop ∧ s.chanMessage = .response p :: q ∧ s.Unknown p.id
  | .takeTimeout id c q => s.proc = .loop ∧ s.chanMessage = .timeout id :: q ∧ (id, c) ∈ s.messageContexts
  | .takeStaleTimeout id q => s.proc = .loop ∧ s.chanMessage = .timeout id :: q ∧ s.Unknown id
  | .takeFinish id c q => s.proc = .loop ∧ s.chanMessage = .finish id :: q ∧ (id, c) ∈ s.messageContexts
  | .takeStaleFinish id q => s.proc = .loop ∧ s.chanMessage = .finish id :: q ∧ s.Unknown id
  | .deliver i c r timed next => s.proc = .sending c r timed next ∧ (s.clients i).pc = .receiving c
  | .skipDone c r timed next => s.proc = .sending c r timed next ∧ (s.contexts c).done = true
  | .skipTimeout c r next => s.proc = .sending c r true next
  | .cleanupClose id c => s.proc = .cleanup ∧ (id, c) ∈ s.messageContexts ∧ ¬ (s.closing = true ∧ s.closeErr = true)
  | .cleanupSend id c => s.proc = .cleanup ∧ (id, c) ∈ s.messageContexts ∧ s.closing = true ∧ s.closeErr = true
  | .cleanupEnd => s.proc = .cleanup ∧ s.messageContexts = []
  | .read j _ => s.readers j = .reading
  | .readFail j => s.readers j = .reading ∧ s.closing = false
  | .readFailClosing j => s.readers j = .reading ∧ s.closing = true
  | .storeErr j => s.readers j = .storing
  | .checkFlag j p => s.readers j = .got (some p) ∧ s.messageMutex = none
  | .checkFlagNoID j => s.readers j = .got none ∧ s.messageMutex = none
  | .fire c => (s.contexts c).timer = .armed
  | .stopTimer c => (s.contexts c).timer = .armed ∧ (s.contexts c).done = true
  | .setTimeout _ => True

instance (s : Conn) (a : Action) : Decidable (s.Enabled a) := by
  cases a <;> unfold Enabled <;> infer_instance

/-- After a `sendResponse` on the context. -/
def afterSend (s : Conn) (c : ℕ) : AfterSend → Conn
  | .resume => { s with proc := .loop }
  | .closeFailed => { s.closeResponses c with proc := .loop }
  | .drop => { (s.delete (s.contexts c).id).closeResponses c with proc := .loop }
  | .cleanup => { (s.delete (s.contexts c).id).closeResponses c with proc := .cleanup }

/-- The effects. -/
def next (s : Conn) : Action → Conn
  | .begin i => s.setClient i { s.clients i with pc := .wantID, startTLS := false }
  | .beginTLS i => s.setClient i { s.clients i with pc := .wantID, startTLS := true }
  | .beginClose i => s.setPc i (.closing none)
  | .beginNext i c => s.setClient i { s.clients i with pc := .wantID, stack := c :: (s.clients i).stack }
  | .takeID i => { s.setPc i (.hasID (some s.idsIssued)) with idsIssued := s.idsIssued + 1 }
  | .takeClosedID i => s.setPc i (.hasID none)
  | .abandon i _ => s.setClient i (s.clients i).return
  | .checkSend i n => s.setPc i (.locking n)
  | .checkSendClosing i _ => s.setClient i (s.clients i).return
  | .admitSend i n =>
    { (s.setContext s.created ⟨n, i, (s.clients i).startTLS, .admitted, false, false, 0, [], 0, .off⟩).setPc i
        (.admitted s.created) with
      created := s.created + 1
      outstandingRequests := s.outstandingRequests + 1
      isStartingTLS := (s.clients i).startTLS }
  | .admitRefused i _ => s.setClient i (s.clients i).return
  | .receive i c => s.setPc i (.receiving c)
  | .receiveClosed i c => s.setPc i (if (s.clients i).startTLS then .tlsGot c none else .active c)
  | .cancel i c => s.setPc i (.active c)
  -- the channel of the results is full: the goroutine goes on when its consumer calls `Next`, or when the context is
  -- cancelled and the result is sent by `send`
  | .offer i c => s.setPc i (.offering c)
  | .consume i c => s.setPc i (.active c)
  | .finish i c => s.setPc i (.finishing c .closeDone)
  | .closeDone i c => (s.setContext c { s.contexts c with done := true }).setPc i (.finishing c .check)
  | .checkFinish i c => s.setPc i (.finishing c .decrement)
  | .checkFinishClosing i _ => s.setClient i (s.clients i).return
  | .decrement i c =>
    { (s.setContext c { s.contexts c with finished := true }).setPc i (.finishing c .send) with
      outstandingRequests := s.outstandingRequests - 1
      isStartingTLS := false }
  | .tlsFail i c _ => s.setPc i (.finishing c .closeDone)
  -- the handshake failed, or in debug mode the packet could not be described
  | .tlsAbort i c _ => s.setPc i (.closing (some c))
  | .tlsUpgrade i c _ =>
    { (s.setReader s.readersStarted .reading).setPc i (.finishing c .closeDone) with
      readersStarted := s.readersStarted + 1
      isTLS := true }
  | .enter x => { s with messageMutex := some (.push x) }
  | .refuse x => x.refused s
  | .push x => { x.sent s with chanMessage := s.chanMessage ++ [x.message s], messageMutex := none }
  | .closeEnter k => { s with closing := true, messageMutex := some (.quit k) }
  -- `wgClose` was released before the first `Close` gave up the mutex
  | .closeAgain k => k.returned s
  | .closeQuit k =>
    { s with chanMessage := s.chanMessage ++ [.quit], messageMutex := some (.confirm k s.requestTimeout) }
  | .closeReturn k _ => { k.returned s with chanMessageCloses := s.chanMessageCloses + 1, messageMutex := none }
  | .takeQuit q => { s with proc := .cleanup, chanMessage := q }
  -- the nil message of a closed channel: the panic is recovered by the deferred function
  | .takeNil => { s with proc := .cleanup }
  | .takeRequest c q => { s with proc := .writing c, chanMessage := q }
  | .writeOk c =>
    { (s.register (s.contexts c).id c).setContext c
        { s.contexts c with timer := if s.requestTimeout then .armed else .off } with
      proc := .loop }
  | .writeFail c => { s with proc := .sending c .writeError s.requestTimeout .closeFailed }
  | .takeResponse p c q => { s with proc := .sending c (.packet p) s.requestTimeout .resume, chanMessage := q }
  | .takeUnexpected _ q => { s with chanMessage := q }
  | .takeTimeout _ c q => { s with proc := .sending c .timeoutError s.requestTimeout .drop, chanMessage := q }
  | .takeStaleTimeout _ q => { s with chanMessage := q }
  | .takeFinish id c q => { (s.delete id).closeResponses c with chanMessage := q }
  | .takeStaleFinish _ q => { s with chanMessage := q }
  | .deliver i c r _ next =>
    (((s.setContext c { s.contexts c with received := (s.contexts c).received ++ [r] }).setPc i
      (if (s.clients i).startTLS then .tlsGot c (some r) else .active c)).afterSend c next)
  | .skipDone c _ _ next => s.afterSend c next
  | .skipTimeout c _ next => s.afterSend c next
  | .cleanupClose id c => (s.delete id).closeResponses c
  | .cleanupSend _ c => { s with proc := .sending c .closeError s.requestTimeout .cleanup }
  | .cleanupEnd => { s with proc := .stopped }
  | .read j p => s.setReader j (.got p)
  | .readFail j => s.setReader j .storing
  | .readFailClosing j => s.setReader j .closing
  | .storeErr j => { s.setReader j .closing with closeErr := true }
  | .checkFlag j p => s.setReader j (.forwarding p s.isStartingTLS)
  -- the failed type assertion panics; the deferred function closes the connection unless it stops cleanly
  | .checkFlagNoID j => s.setReader j (if s.isStartingTLS then .stopped else .closing)
  | .fire c => s.setContext c { s.contexts c with timer := .fired }
  | .stopTimer c => s.setContext c { s.contexts c with timer := .over }
  | .setTimeout positive => { s with requestTimeout := positive }

/-- The machine of a connection. -/
def machine (isTLS : Bool) : Machine Conn Action where
  init := start isTLS
  Enabled := Enabled
  next := next

instance (isTLS : Bool) (s : Conn) (a : Action) : Decidable ((machine isTLS).Enabled s a) :=
  inferInstanceAs (Decidable (s.Enabled a))

end Conn

end GoLdap
