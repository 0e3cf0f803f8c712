import GoLdap.Conn.Model
import Mathlib.Tactic.Tauto

/-!
# Conn.Effects — what a step can change

The steps seen from one part of the connection at a time: which of them touch it, and how.  The invariants are derived
from these facts and not from the definition of `next`.
-/

namespace GoLdap

namespace Conn

variable {s : Conn} {a : Action}

/-! ## The callers of `sendProcessMessage` and `Close` leave the rest alone -/

@[simp] theorem sent_frame (s : Conn) (x : Sender) :
    (x.sent s).closing = s.closing ∧ (x.sent s).closeErr = s.closeErr ∧ (x.sent s).isTLS = s.isTLS ∧
    (x.sent s).isStartingTLS = s.isStartingTLS ∧ (x.sent s).outstandingRequests = s.outstandingRequests ∧
    (x.sent s).requestTimeout = s.requestTimeout ∧ (x.sent s).chanMessageCloses = s.chanMessageCloses ∧
    (x.sent s).idsIssued = s.idsIssued ∧ (x.sent s).messageContexts = s.messageContexts ∧ (x.sent s).proc = s.proc ∧
    (x.sent s).readersStarted = s.readersStarted ∧ (x.sent s).created = s.created := by
  cases x <;> exact ⟨rfl, rfl, rfl, rfl, rfl, rfl, rfl, rfl, rfl, rfl, rfl, rfl⟩

@[simp] theorem refused_frame (s : Conn) (x : Sender) :
    (x.refused s).closing = s.closing ∧ (x.refused s).closeErr = s.closeErr ∧ (x.refused s).isTLS = s.isTLS ∧
    (x.refused s).isStartingTLS = s.isStartingTLS ∧ (x.refused s).outstandingRequests = s.outstandingRequests ∧
    (x.refused s).requestTimeout = s.requestTimeout ∧ (x.refused s).messageMutex = s.messageMutex ∧
    (x.refused s).chanMessage = s.chanMessage ∧ (x.refused s).chanMessageCloses = s.chanMessageCloses ∧
    (x.refused s).idsIssued = s.idsIssued ∧ (x.refused s).messageContexts = s.messageContexts ∧
    (x.refused s).proc = s.proc ∧ (x.refused s).readersStarted = s.readersStarted ∧
    (x.refused s).created = s.created ∧ (x.refused s).forwarded = s.forwarded := by
  cases x <;> exact ⟨rfl, rfl, rfl, rfl, rfl, rfl, rfl, rfl, rfl, rfl, rfl, rfl, rfl, rfl, rfl⟩

@[simp] theorem returned_frame (s : Conn) (k : Closer) :
    (k.returned s).closing = s.closing ∧ (k.returned s).closeErr = s.closeErr ∧ (k.returned s).isTLS = s.isTLS ∧
    (k.returned s).isStartingTLS = s.isStartingTLS ∧ (k.returned s).outstandingRequests = s.outstandingRequests ∧
    (k.returned s).requestTimeout = s.requestTimeout ∧ (k.returned s).messageMutex = s.messageMutex ∧
    (k.returned s).chanMessage = s.chanMessage ∧ (k.returned s).chanMessageCloses = s.chanMessageCloses ∧
    (k.returned s).idsIssued = s.idsIssued ∧ (k.returned s).messageContexts = s.messageContexts ∧
    (k.returned s).proc = s.proc ∧ (k.returned s).readersStarted = s.readersStarted ∧
    (k.returned s).created = s.created ∧ (k.returned s).forwarded = s.forwarded ∧
    (k.returned s).contexts = s.contexts := by
  rcases k with ⟨i, _ | c⟩ | j <;>
    exact ⟨rfl, rfl, rfl, rfl, rfl, rfl, rfl, rfl, rfl, rfl, rfl, rfl, rfl, rfl, rfl, rfl⟩

@[simp] theorem afterSend_frame (s : Conn) (c : ℕ) (n : AfterSend) :
    (s.afterSend c n).closing = s.closing ∧ (s.afterSend c n).closeErr = s.closeErr ∧
    (s.afterSend c n).isTLS = s.isTLS ∧ (s.afterSend c n).isStartingTLS = s.isStartingTLS ∧
    (s.afterSend c n).outstandingRequests = s.outstandingRequests ∧
    (s.afterSend c n).requestTimeout = s.requestTimeout ∧ (s.afterSend c n).messageMutex = s.messageMutex ∧
    (s.afterSend c n).chanMessage = s.chanMessage ∧ (s.afterSend c n).chanMessageCloses = s.chanMessageCloses ∧
    (s.afterSend c n).idsIssued = s.idsIssued ∧ (s.afterSend c n).readers = s.readers ∧
    (s.afterSend c n).readersStarted = s.readersStarted ∧ (s.afterSend c n).clients = s.clients ∧
    (s.afterSend c n).created = s.created ∧ (s.afterSend c n).forwarded = s.forwarded := by
  cases n <;> exact ⟨rfl, rfl, rfl, rfl, rfl, rfl, rfl, rfl, rfl, rfl, rfl, rfl, rfl, rfl, rfl⟩

/-! ## Flags and counters -/

theorem closing_next : (s.next a).closing = true ↔ s.closing = true ∨ ∃ k, a = .closeEnter k := by
  cases a <;> simp [next]

theorem closing_of_next (h : (s.next a).closing = false) : s.closing = false := by
  cases hs : s.closing with
  | false => rfl
  | true =>
    rw [closing_next.mpr (Or.inl hs)] at h
    cases h

/-- The number of contexts, the counter of outstanding requests and the StartTLS flag. -/
theorem ledger_next :
    (∃ i n, a = .admitSend i n ∧ (s.next a).created = s.created + 1 ∧
      (s.next a).outstandingRequests = s.outstandingRequests + 1 ∧
      (s.next a).isStartingTLS = (s.clients i).startTLS) ∨
    (∃ i c, a = .decrement i c ∧ (s.next a).created = s.created ∧
      (s.next a).outstandingRequests = s.outstandingRequests - 1 ∧ (s.next a).isStartingTLS = false) ∨
    ((∀ i n, a ≠ .admitSend i n) ∧ (∀ i c, a ≠ .decrement i c) ∧ (s.next a).created = s.created ∧
      (s.next a).outstandingRequests = s.outstandingRequests ∧ (s.next a).isStartingTLS = s.isStartingTLS) := by
  cases a <;> simp [next]

/-- The steps that take or give up the mutex, or go on while they hold it. -/
def LockAction : Action → Prop
  | .enter _ | .push _ | .closeEnter _ | .closeQuit _ | .closeReturn _ _ => True
  | _ => False

/-- All that a step can do to `closing`, to `messageMutex` and to the closes of `chanMessage`. -/
inductive LockStep (s : Conn) : Action → Bool → Option Holder → ℕ → Prop
  | same {a : Action} (ha : ¬ LockAction a) : LockStep s a s.closing s.messageMutex s.chanMessageCloses
  | enter {x : Sender} (hr : x.Ready s) (hm : s.messageMutex = none) (hc : s.closing = false) :
      LockStep s (.enter x) s.closing (some (.push x)) s.chanMessageCloses
  | push {x : Sender} (hm : s.messageMutex = some (.push x)) :
      LockStep s (.push x) s.closing none s.chanMessageCloses
  | closeEnter {k : Closer} (hr : k.Ready s) (hm : s.messageMutex = none) (hc : s.closing = false) :
      LockStep s (.closeEnter k) true (some (.quit k)) s.chanMessageCloses
  | closeQuit {k : Closer} (hm : s.messageMutex = some (.quit k)) :
      LockStep s (.closeQuit k) s.closing (some (.confirm k s.requestTimeout)) s.chanMessageCloses
  | closeReturn {k : Closer} {t : Bool} (hm : s.messageMutex = some (.confirm k t)) :
      LockStep s (.closeReturn k t) s.closing none (s.chanMessageCloses + 1)

theorem lock_next (he : s.Enabled a) :
    LockStep s a (s.next a).closing (s.next a).messageMutex (s.next a).chanMessageCloses := by
  have hsame : ¬ LockAction a → (s.next a).closing = s.closing ∧ (s.next a).messageMutex = s.messageMutex ∧
      (s.next a).chanMessageCloses = s.chanMessageCloses := by
    cases a <;> simp [LockAction, next]
  by_cases ha : LockAction a
  · cases a with
    | enter x => exact .enter he.1 he.2.1 he.2.2
    | push x =>
      have h := LockStep.push (s := s) he.1
      simpa [next] using h
    | closeEnter k => exact .closeEnter he.1 he.2.1 he.2.2
    | closeQuit k => exact .closeQuit he.1
    | closeReturn k t =>
      have h := LockStep.closeReturn (s := s) he.1
      simpa [next] using h
    | _ => exact ha.elim
  · obtain ⟨hc, hm, hn⟩ := hsame ha
    rw [hc, hm, hn]
    exact .same ha

/-! ## Contexts -/

/-- How often `processMessages` closes the context after a `sendResponse`. -/
def closesAfter : AfterSend → ℕ
  | .resume => 0
  | _ => 1

theorem afterSend_contexts (s : Conn) (c : ℕ) (n : AfterSend) :
    (s.afterSend c n).contexts =
      Function.update s.contexts c { s.contexts c with closes := (s.contexts c).closes + closesAfter n } := by
  cases n with
  | resume => exact (Function.update_eq_self c s.contexts).symm
  | _ => rfl

/-- The steps of the timer of a context, and the one that makes it. -/
def TimerStep (c : ℕ) (a : Action) : Prop :=
  a = .writeOk c ∨ a = .fire c ∨ a = .stopTimer c ∨ a = .push (.timeout c) ∨ a = .refuse (.timeout c)

/-- The steps that close the responses of a context, except after a send. -/
def CloseStep (c : ℕ) (a : Action) : Prop := (∃ id q, a = .takeFinish id c q) ∨ ∃ id, a = .cleanupClose id c

/-- The steps that give up a send to a context. -/
def SkipStep (c : ℕ) (n : AfterSend) (a : Action) : Prop := (∃ r t, a = .skipDone c r t n) ∨ ∃ r, a = .skipTimeout c r n

/-- All that a step can do to a context. -/
inductive ContextStep (s : Conn) (c : ℕ) : Action → MessageContext → Prop
  | same {a : Action} : ContextStep s c a (s.contexts c)
  | admitSend {i : ℕ} {n : Option ℕ} (hc : c = s.created) :
      ContextStep s c (.admitSend i n) ⟨n, i, (s.clients i).startTLS, .admitted, false, false, 0, [], 0, .off⟩
  | done {i : ℕ} : ContextStep s c (.closeDone i c) { s.contexts c with done := true }
  | finished {i : ℕ} : ContextStep s c (.decrement i c) { s.contexts c with finished := true }
  | accepted {i : ℕ} :
      ContextStep s c (.push (.request i c)) { s.contexts c with stage := .accepted, since := s.forwarded.length }
  | rejected {i : ℕ} : ContextStep s c (.refuse (.request i c)) { s.contexts c with stage := .rejected }
  | timer {a : Action} {t : Timer} (h : TimerStep c a) : ContextStep s c a { s.contexts c with timer := t }
  | closed {a : Action} (h : CloseStep c a) :
      ContextStep s c a { s.contexts c with closes := (s.contexts c).closes + 1 }
  | skipped {a : Action} {n : AfterSend} (h : SkipStep c n a) :
      ContextStep s c a { s.contexts c with closes := (s.contexts c).closes + closesAfter n }
  | received {i : ℕ} {r : Response} {t : Bool} {n : AfterSend} :
      ContextStep s c (.deliver i c r t n) { s.contexts c with
        received := (s.contexts c).received ++ [r], closes := (s.contexts c).closes + closesAfter n }

/-- An update of one context, seen from a context. -/
private theorem contextStep_update {s : Conn} {c d : ℕ} {a : Action} {m : MessageContext}
    (h : c = d → ContextStep s c a m) : ContextStep s c a (Function.update s.contexts d m c) := by
  by_cases hcd : c = d
  · rw [hcd, Function.update_self, ← hcd]
    exact h hcd
  · rw [Function.update_of_ne hcd]
    exact .same

theorem contexts_next (s : Conn) (a : Action) (c : ℕ) : ContextStep s c a ((s.next a).contexts c) := by
  cases a with
  | admitSend i n => exact contextStep_update fun h => .admitSend h
  | closeDone i d =>
    refine contextStep_update fun h => ?_
    subst h
    exact .done
  | decrement i d =>
    refine contextStep_update fun h => ?_
    subst h
    exact .finished
  | push x =>
    cases x with
    | request i d =>
      refine contextStep_update fun h => ?_
      subst h
      exact .accepted
    | timeout d =>
      refine contextStep_update fun h => ?_
      subst h
      exact .timer (by simp [TimerStep])
    | _ => exact .same
  | refuse x =>
    cases x with
    | request i d =>
      refine contextStep_update fun h => ?_
      subst h
      exact .rejected
    | timeout d =>
      refine contextStep_update fun h => ?_
      subst h
      exact .timer (by simp [TimerStep])
    | _ => exact .same
  | writeOk d =>
    refine contextStep_update fun h => ?_
    subst h
    exact .timer (by simp [TimerStep])
  | fire d =>
    refine contextStep_update fun h => ?_
    subst h
    exact .timer (by simp [TimerStep])
  | stopTimer d =>
    refine contextStep_update fun h => ?_
    subst h
    exact .timer (by simp [TimerStep])
  | takeFinish id d q =>
    refine contextStep_update fun h => ?_
    subst h
    exact .closed (by simp [CloseStep])
  | cleanupClose id d =>
    refine contextStep_update fun h => ?_
    subst h
    exact .closed (by simp [CloseStep])
  | skipDone d r t n =>
    rw [next, afterSend_contexts]
    refine contextStep_update fun h => ?_
    subst h
    exact .skipped (Or.inl ⟨r, t, rfl⟩)
  | skipTimeout d r n =>
    rw [next, afterSend_contexts]
    refine contextStep_update fun h => ?_
    subst h
    exact .skipped (Or.inr ⟨r, rfl⟩)
  | deliver i d r t n =>
    rw [next, afterSend_contexts]
    simp only [setContext, setPc, setClient, Function.update_self, Function.update_idem]
    refine contextStep_update fun h => ?_
    subst h
    exact .received
  | closeAgain k =>
    rw [next, (returned_frame s k).2.2.2.2.2.2.2.2.2.2.2.2.2.2.2]
    exact .same
  | closeReturn k t =>
    show ContextStep s c _ ((k.returned s).contexts c)
    rw [(returned_frame s k).2.2.2.2.2.2.2.2.2.2.2.2.2.2.2]
    exact .same
  | _ => exact .same

/-- Whose context it is, its ID and its kind never change. -/
theorem context_static (s : Conn) (a : Action) {c : ℕ} (hc : c ≠ s.created) :
    ((s.next a).contexts c).owner = (s.contexts c).owner ∧
    ((s.next a).contexts c).serial = (s.contexts c).serial ∧
    ((s.next a).contexts c).startTLS = (s.contexts c).startTLS := by
  have h := contexts_next s a c
  generalize (s.next a).contexts c = m at h
  cases h <;> first | exact ⟨rfl, rfl, rfl⟩ | contradiction

theorem context_finished (s : Conn) (a : Action) {c : ℕ} (hc : c ≠ s.created) :
    ((s.next a).contexts c).finished = (s.contexts c).finished ∨
    (∃ i, a = .decrement i c) ∧ ((s.next a).contexts c).finished = true := by
  have h := contexts_next s a c
  generalize (s.next a).contexts c = m at h
  cases h with
  | admitSend h => exact absurd h hc
  | finished => exact Or.inr ⟨⟨_, rfl⟩, rfl⟩
  | _ => exact Or.inl rfl

theorem context_done (s : Conn) (a : Action) {c : ℕ} (hc : c ≠ s.created) :
    ((s.next a).contexts c).done = (s.contexts c).done ∨ ∃ i, a = .closeDone i c := by
  have h := contexts_next s a c
  generalize (s.next a).contexts c = m at h
  cases h with
  | admitSend h => exact absurd h hc
  | done => exact Or.inr ⟨_, rfl⟩
  | _ => exact Or.inl rfl

theorem context_stage (s : Conn) (a : Action) {c : ℕ} (hc : c ≠ s.created) :
    ((s.next a).contexts c).stage = (s.contexts c).stage ∨
    (∃ i, a = .push (.request i c)) ∧ ((s.next a).contexts c).stage = .accepted ∨
    (∃ i, a = .refuse (.request i c)) ∧ ((s.next a).contexts c).stage = .rejected := by
  have h := contexts_next s a c
  generalize (s.next a).contexts c = m at h
  cases h with
  | admitSend h => exact absurd h hc
  | accepted => exact Or.inr (Or.inl ⟨⟨_, rfl⟩, rfl⟩)
  | rejected => exact Or.inr (Or.inr ⟨⟨_, rfl⟩, rfl⟩)
  | _ => exact Or.inl rfl

/-! ## Clients -/

def senderClient : Sender → Option ℕ
  | .request i _ => some i
  | .finish i _ => some i
  | _ => none

def closerClient : Closer → Option ℕ
  | .client i _ => some i
  | .reader _ => none

/-- The client that a step moves. -/
def actingClient : Action → Option ℕ
  | .begin i | .beginTLS i | .beginClose i | .beginNext i _ | .takeID i | .takeClosedID i | .abandon i _ => some i
  | .checkSend i _ | .checkSendClosing i _ | .admitSend i _ | .admitRefused i _ => some i
  | .receive i _ | .receiveClosed i _ | .cancel i _ | .offer i _ | .consume i _ | .finish i _ => some i
  | .closeDone i _ | .checkFinish i _ => some i
  | .checkFinishClosing i _ | .decrement i _ | .tlsFail i _ _ | .tlsAbort i _ _ | .tlsUpgrade i _ _ => some i
  | .deliver i _ _ _ _ => some i
  | .push x | .refuse x => senderClient x
  | .closeAgain k | .closeReturn k _ => closerClient k
  | _ => none

theorem clients_next_of_ne {i : ℕ} (h : actingClient a ≠ some i) : (s.next a).clients i = s.clients i := by
  cases a with
  | push x | refuse x => cases x <;> simp_all [actingClient, senderClient, next, Sender.sent, Sender.refused, Ne.symm]
  | closeAgain k | closeReturn k t =>
    rcases k with ⟨j, _ | c⟩ | j <;> simp_all [actingClient, closerClient, next, Closer.returned, Ne.symm]
  | _ => simp_all [actingClient, next, Ne.symm]

/-- The client is inside `sendProcessMessage` or `Close`. -/
def InCall : ClientPc → Prop
  | .admitted _ | .finishing _ .send | .closing _ => True
  | _ => False

/-- While the mutex is held, a client in `sendProcessMessage` or `Close` moves only when the holder gives it up. -/
theorem clients_next_inCall {i : ℕ} (h : InCall (s.clients i).pc) (hm : s.messageMutex ≠ none) (he : s.Enabled a)
    (hpush : ∀ x, a ≠ .push x) (hret : ∀ k t, a ≠ .closeReturn k t) : (s.next a).clients i = s.clients i := by
  by_cases hi : actingClient a = some i
  · exfalso
    cases a with
    | push x => exact hpush x rfl
    | closeReturn k t => exact hret k t rfl
    | refuse x => exact hm he.2.1
    | closeAgain k => exact hm he.2.1
    | _ => simp_all [actingClient, Enabled, InCall]
  · exact clients_next_of_ne hi

/-! ## Readers -/

/-- All that a step can do to a reader. -/
inductive ReaderStep (s : Conn) (j : ℕ) : Action → ReaderPc → Prop
  | same {a : Action} : ReaderStep s j a (s.readers j)
  | started {i c : ℕ} {p : SrvPacket} (hj : j = s.readersStarted) : ReaderStep s j (.tlsUpgrade i c p) .reading
  | read {p : Option SrvPacket} (h : s.readers j = .reading) : ReaderStep s j (.read j p) (.got p)
  | failed (h : s.readers j = .reading) (hc : s.closing = false) : ReaderStep s j (.readFail j) .storing
  | failedClosing (h : s.readers j = .reading) (hc : s.closing = true) : ReaderStep s j (.readFailClosing j) .closing
  | stored (h : s.readers j = .storing) : ReaderStep s j (.storeErr j) .closing
  | checked {p : SrvPacket} (h : s.readers j = .got (some p)) (hm : s.messageMutex = none) :
      ReaderStep s j (.checkFlag j p) (.forwarding p s.isStartingTLS)
  | checkedNoID (h : s.readers j = .got none) (hm : s.messageMutex = none) :
      ReaderStep s j (.checkFlagNoID j) (if s.isStartingTLS then .stopped else .closing)
  | pushed {p : SrvPacket} {cleanstop : Bool} (hm : s.messageMutex = some (.push (.response j p cleanstop))) :
      ReaderStep s j (.push (.response j p cleanstop)) (if cleanstop then .stopped else .reading)
  | refused {p : SrvPacket} {cleanstop : Bool} (h : s.readers j = .forwarding p cleanstop)
      (hm : s.messageMutex = none) (hc : s.closing = true) :
      ReaderStep s j (.refuse (.response j p cleanstop)) (if cleanstop then .stopped else .closing)
  | closedAgain (h : s.readers j = .closing) (hm : s.messageMutex = none) (hc : s.closing = true) :
      ReaderStep s j (.closeAgain (.reader j)) .stopped
  | closed {t : Bool} (hm : s.messageMutex = some (.confirm (.reader j) t)) :
      ReaderStep s j (.closeReturn (.reader j) t) .stopped

private theorem readerStep_update {s : Conn} {j k : ℕ} {a : Action} {pc : ReaderPc}
    (h : j = k → ReaderStep s j a pc) : ReaderStep s j a (Function.update s.readers k pc j) := by
  by_cases hjk : j = k
  · rw [hjk, Function.update_self, ← hjk]
    exact h hjk
  · rw [Function.update_of_ne hjk]
    exact .same

theorem readers_next (he : s.Enabled a) (j : ℕ) : ReaderStep s j a ((s.next a).readers j) := by
  cases a with
  | tlsUpgrade i c p => exact readerStep_update fun h => .started h
  | read k p =>
    refine readerStep_update fun h => ?_
    subst h
    exact .read he
  | readFail k =>
    refine readerStep_update fun h => ?_
    subst h
    exact .failed he.1 he.2
  | readFailClosing k =>
    refine readerStep_update fun h => ?_
    subst h
    exact .failedClosing he.1 he.2
  | storeErr k =>
    refine readerStep_update fun h => ?_
    subst h
    exact .stored he
  | checkFlag k p =>
    refine readerStep_update fun h => ?_
    subst h
    exact .checked he.1 he.2
  | checkFlagNoID k =>
    refine readerStep_update fun h => ?_
    subst h
    exact .checkedNoID he.1 he.2
  | push x =>
    cases x with
    | response k p cleanstop =>
      refine readerStep_update fun h => ?_
      subst h
      exact .pushed he.1
    | _ => exact .same
  | refuse x =>
    cases x with
    | response k p cleanstop =>
      refine readerStep_update fun h => ?_
      subst h
      exact .refused he.1 he.2.1 he.2.2
    | _ => exact .same
  | closeAgain k =>
    rcases k with ⟨i, _ | c⟩ | k
    · exact .same
    · exact .same
    · refine readerStep_update fun h => ?_
      subst h
      exact .closedAgain he.1 he.2.1 he.2.2
  | closeReturn k t =>
    rcases k with ⟨i, _ | c⟩ | k
    · exact .same
    · exact .same
    · refine readerStep_update fun h => ?_
      subst h
      exact .closed he.1
  | skipDone c r t n | skipTimeout c r n | deliver i c r t n =>
    rw [next, (afterSend_frame _ c n).2.2.2.2.2.2.2.2.2.2.1]
    exact .same
  | _ => exact .same

/-! ## The queue, `processMessages` and its contexts -/

/-- The steps of `processMessages`, and those that put a message into `chanMessage`. -/
def LoopAction : Action → Prop
  | .push _ | .closeQuit _ | .takeQuit _ | .takeNil | .takeRequest _ _ | .writeOk _ | .writeFail _ => True
  | .takeResponse _ _ _ | .takeUnexpected _ _ | .takeTimeout _ _ _ | .takeStaleTimeout _ _ => True
  | .takeFinish _ _ _ | .takeStaleFinish _ _ | .deliver _ _ _ _ _ | .skipDone _ _ _ _ | .skipTimeout _ _ _ => True
  | .cleanupClose _ _ | .cleanupSend _ _ | .cleanupEnd => True
  | _ => False

/-- Where `processMessages` is after a `sendResponse`. -/
def procAfter : AfterSend → ProcPc
  | .cleanup => .cleanup
  | _ => .loop

/-- Whether the context is taken off `messageContexts` after a `sendResponse`. -/
def unregisters : AfterSend → Bool
  | .drop | .cleanup => true
  | _ => false

def registryAfter (s : Conn) (c : ℕ) (n : AfterSend) : List (MsgId × ℕ) :=
  if unregisters n then s.messageContexts.filter (·.1 ≠ (s.contexts c).id) else s.messageContexts

theorem afterSend_loop (s : Conn) (c : ℕ) (n : AfterSend) :
    (s.afterSend c n).proc = procAfter n ∧ (s.afterSend c n).messageContexts = s.registryAfter c n := by
  cases n <;> exact ⟨rfl, rfl⟩

/-- The step ends a send. -/
def EndsSend (c : ℕ) (r : Response) (t : Bool) (n : AfterSend) (a : Action) : Prop :=
  (∃ i, a = .deliver i c r t n) ∨ a = .skipDone c r t n ∨ t = true ∧ a = .skipTimeout c r n

/-- The step starts a send by taking a message off the queue. -/
inductive StartsSend (s : Conn) : Action → Message → List Message → ℕ → Response → AfterSend → Prop
  | response {p : SrvPacket} {c : ℕ} {q : List Message} (h : (p.id, c) ∈ s.messageContexts) :
      StartsSend s (.takeResponse p c q) (.response p) q c (.packet p) .resume
  | timeout {id : MsgId} {c : ℕ} {q : List Message} (h : (id, c) ∈ s.messageContexts) :
      StartsSend s (.takeTimeout id c q) (.timeout id) q c .timeoutError .drop

/-- The step takes a message off the queue that is about no registered context. -/
inductive Ignores (s : Conn) : Action → Message → List Message → Prop
  | response {p : SrvPacket} {q : List Message} (h : s.Unknown p.id) :
      Ignores s (.takeUnexpected p q) (.response p) q
  | timeout {id : MsgId} {q : List Message} (h : s.Unknown id) :
      Ignores s (.takeStaleTimeout id q) (.timeout id) q
  | finish {id : MsgId} {q : List Message} (h : s.Unknown id) :
      Ignores s (.takeStaleFinish id q) (.finish id) q

/-- All that a step can do to `chanMessage`, to `processMessages` and to `messageContexts`. -/
inductive LoopStep (s : Conn) : Action → List Message → ProcPc → List (MsgId × ℕ) → Prop
  | other {a : Action} (ha : ¬ LoopAction a) : LoopStep s a s.chanMessage s.proc s.messageContexts
  | pushed {x : Sender} (hm : s.messageMutex = some (.push x)) :
      LoopStep s (.push x) (s.chanMessage ++ [x.message s]) s.proc s.messageContexts
  | quitPushed {k : Closer} (hm : s.messageMutex = some (.quit k)) :
      LoopStep s (.closeQuit k) (s.chanMessage ++ [.quit]) s.proc s.messageContexts
  | takeQuit {q : List Message} (hp : s.proc = .loop) (hq : s.chanMessage = .quit :: q) :
      LoopStep s (.takeQuit q) q .cleanup s.messageContexts
  | takeNil (hp : s.proc = .loop) (hq : s.chanMessage = []) (hc : 0 < s.chanMessageCloses) :
      LoopStep s .takeNil s.chanMessage .cleanup s.messageContexts
  | takeRequest {c : ℕ} {q : List Message} (hp : s.proc = .loop) (hq : s.chanMessage = .request c :: q) :
      LoopStep s (.takeRequest c q) q (.writing c) s.messageContexts
  | writeOk {c : ℕ} (hp : s.proc = .writing c) :
      LoopStep s (.writeOk c) s.chanMessage .loop
        (((s.contexts c).id, c) :: s.messageContexts.filter (·.1 ≠ (s.contexts c).id))
  | writeFail {c : ℕ} (hp : s.proc = .writing c) :
      LoopStep s (.writeFail c) s.chanMessage (.sending c .writeError s.requestTimeout .closeFailed) s.messageContexts
  | startSend {a : Action} {m : Message} {q : List Message} {c : ℕ} {r : Response} {n : AfterSend}
      (ha : StartsSend s a m q c r n) (hp : s.proc = .loop) (hq : s.chanMessage = m :: q) :
      LoopStep s a q (.sending c r s.requestTimeout n) s.messageContexts
  | ignored {a : Action} {m : Message} {q : List Message} (ha : Ignores s a m q) (hp : s.proc = .loop)
      (hq : s.chanMessage = m :: q) : LoopStep s a q .loop s.messageContexts
  | takeFinish {id : MsgId} {c : ℕ} {q : List Message} (hp : s.proc = .loop) (hq : s.chanMessage = .finish id :: q)
      (h : (id, c) ∈ s.messageContexts) :
      LoopStep s (.takeFinish id c q) q .loop (s.messageContexts.filter (·.1 ≠ id))
  | endSend {a : Action} {c : ℕ} {r : Response} {t : Bool} {n : AfterSend} (ha : EndsSend c r t n a)
      (hp : s.proc = .sending c r t n) : LoopStep s a s.chanMessage (procAfter n) (s.registryAfter c n)
  | cleanupClose {id : MsgId} {c : ℕ} (hp : s.proc = .cleanup) (h : (id, c) ∈ s.messageContexts) :
      LoopStep s (.cleanupClose id c) s.chanMessage .cleanup (s.messageContexts.filter (·.1 ≠ id))
  | cleanupSend {id : MsgId} {c : ℕ} (hp : s.proc = .cleanup) (h : (id, c) ∈ s.messageContexts) :
      LoopStep s (.cleanupSend id c) s.chanMessage (.sending c .closeError s.requestTimeout .cleanup) s.messageContexts
  | cleanupEnd (hp : s.proc = .cleanup) (h : s.messageContexts = []) :
      LoopStep s .cleanupEnd s.chanMessage .stopped s.messageContexts

theorem loop_next (he : s.Enabled a) :
    LoopStep s a (s.next a).chanMessage (s.next a).proc (s.next a).messageContexts := by
  cases a with
  | push x =>
    have h : LoopStep s (.push x) (s.chanMessage ++ [x.message s]) s.proc s.messageContexts := .pushed he.1
    simpa [next] using h
  | closeQuit k => exact .quitPushed he.1
  | takeQuit q => exact .takeQuit he.1 he.2
  | takeNil => exact .takeNil he.1 he.2.1 he.2.2
  | takeRequest c q => exact .takeRequest he.1 he.2
  | writeOk c => exact .writeOk he
  | writeFail c => exact .writeFail he
  | takeResponse p c q => exact .startSend (.response he.2.2) he.1 he.2.1
  | takeTimeout id c q => exact .startSend (.timeout he.2.2) he.1 he.2.1
  | takeUnexpected p q =>
    have h := LoopStep.ignored (s := s) (.response he.2.2) he.1 he.2.1
    rwa [← he.1] at h
  | takeStaleTimeout id q =>
    have h := LoopStep.ignored (s := s) (.timeout he.2.2) he.1 he.2.1
    rwa [← he.1] at h
  | takeStaleFinish id q =>
    have h := LoopStep.ignored (s := s) (.finish he.2.2) he.1 he.2.1
    rwa [← he.1] at h
  | takeFinish id c q =>
    have h := LoopStep.takeFinish he.1 he.2.1 he.2.2
    rwa [← he.1] at h
  | deliver i c r t n =>
    have hreg : (s.next (.deliver i c r t n)).messageContexts = s.registryAfter c n := by
      rw [next, (afterSend_loop _ c n).2]
      simp only [registryAfter, setPc, setClient, setContext, Function.update_self]
      rfl
    have h := LoopStep.endSend (s := s) (Or.inl ⟨i, rfl⟩) he.1
    rw [hreg]
    simpa [next, afterSend_loop] using h
  | skipDone c r t n =>
    have h := LoopStep.endSend (s := s) (Or.inr (Or.inl rfl)) he.1
    simpa [next, afterSend_loop] using h
  | skipTimeout c r n =>
    have h := LoopStep.endSend (s := s) (Or.inr (Or.inr ⟨rfl, rfl⟩)) he
    simpa [next, afterSend_loop] using h
  | cleanupClose id c =>
    have h := LoopStep.cleanupClose he.1 he.2.1
    rwa [← he.1] at h
  | cleanupSend id c => exact .cleanupSend he.1 he.2.1
  | cleanupEnd => exact .cleanupEnd he.1 he.2
  | refuse x =>
    have h : LoopStep s (.refuse x) s.chanMessage s.proc s.messageContexts := .other (by simp [LoopAction])
    simpa [next] using h
  | closeAgain k =>
    have h : LoopStep s (.closeAgain k) s.chanMessage s.proc s.messageContexts := .other (by simp [LoopAction])
    simpa [next] using h
  | closeReturn k t =>
    have h : LoopStep s (.closeReturn k t) s.chanMessage s.proc s.messageContexts := .other (by simp [LoopAction])
    simpa [next] using h
  | _ => exact .other (by simp [LoopAction])

end Conn

end GoLdap
