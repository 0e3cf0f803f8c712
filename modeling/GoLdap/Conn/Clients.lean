import GoLdap.Conn.Mutex

/-!
# Conn.Clients — the program of a client

The control flow of a client, step by step: where it is before and after each of its steps.
-/

namespace GoLdap

namespace Conn

variable {s : Conn} {a : Action}

theorem return_pc (cl : Client) : cl.return.pc = .idle ∨ ∃ c, cl.return.pc = .active c := by
  obtain ⟨pc, _ | ⟨c, rest⟩, b⟩ := cl
  · exact Or.inl rfl
  · exact Or.inr ⟨c, rfl⟩

/-- The steps at which an exchange of a client ends, and where the client is before them. -/
inductive Returns (i : ℕ) : Action → ClientPc → Prop
  | abandoned {n : Option ℕ} : Returns i (.abandon i n) (.hasID n)
  | sendClosing {n : Option ℕ} : Returns i (.checkSendClosing i n) (.hasID n)
  | sendRefused {n : Option ℕ} : Returns i (.admitRefused i n) (.locking n)
  | requestRefused {c : ℕ} : Returns i (.refuse (.request i c)) (.admitted c)
  | finishClosing {c : ℕ} : Returns i (.checkFinishClosing i c) (.finishing c .check)
  | finishSent {c : ℕ} : Returns i (.push (.finish i c)) (.finishing c .send)
  | finishRefused {c : ℕ} : Returns i (.refuse (.finish i c)) (.finishing c .send)
  | closedAgain : Returns i (.closeAgain (.client i none)) (.closing none)
  | closed {t : Bool} : Returns i (.closeReturn (.client i none) t) (.closing none)

/-- The steps within an exchange, and where the client is before and after them. -/
inductive Moves (s : Conn) (i : ℕ) : Action → ClientPc → ClientPc → Prop
  | beginClose : Moves s i (.beginClose i) .idle (.closing none)
  | takeID : Moves s i (.takeID i) .wantID (.hasID (some s.idsIssued))
  | takeClosedID : Moves s i (.takeClosedID i) .wantID (.hasID none)
  | checkSend {n : Option ℕ} : Moves s i (.checkSend i n) (.hasID n) (.locking n)
  | admitSend {n : Option ℕ} : Moves s i (.admitSend i n) (.locking n) (.admitted s.created)
  | requestSent {c : ℕ} : Moves s i (.push (.request i c)) (.admitted c) (.active c)
  | receive {c : ℕ} : Moves s i (.receive i c) (.active c) (.receiving c)
  | receiveClosed {c : ℕ} : Moves s i (.receiveClosed i c) (.receiving c) (.active c)
  | receiveClosedTLS {c : ℕ} : Moves s i (.receiveClosed i c) (.receiving c) (.tlsGot c none)
  | delivered {c : ℕ} {r : Response} {t : Bool} {n : AfterSend} :
      Moves s i (.deliver i c r t n) (.receiving c) (.active c)
  | deliveredTLS {c : ℕ} {r : Response} {t : Bool} {n : AfterSend} :
      Moves s i (.deliver i c r t n) (.receiving c) (.tlsGot c (some r))
  | cancel {c : ℕ} : Moves s i (.cancel i c) (.receiving c) (.active c)
  | offer {c : ℕ} : Moves s i (.offer i c) (.active c) (.offering c)
  | consume {c : ℕ} : Moves s i (.consume i c) (.offering c) (.active c)
  | tlsFail {c : ℕ} {r : Option Response} : Moves s i (.tlsFail i c r) (.tlsGot c r) (.finishing c .closeDone)
  | tlsAbort {c : ℕ} {p : SrvPacket} : Moves s i (.tlsAbort i c p) (.tlsGot c (some (.packet p))) (.closing (some c))
  | tlsUpgrade {c : ℕ} {p : SrvPacket} :
      Moves s i (.tlsUpgrade i c p) (.tlsGot c (some (.packet p))) (.finishing c .closeDone)
  | closedAgain {c : ℕ} : Moves s i (.closeAgain (.client i (some c))) (.closing (some c)) (.finishing c .closeDone)
  | closed {c : ℕ} {t : Bool} :
      Moves s i (.closeReturn (.client i (some c)) t) (.closing (some c)) (.finishing c .closeDone)
  | finish {c : ℕ} : Moves s i (.finish i c) (.active c) (.finishing c .closeDone)
  | closeDone {c : ℕ} : Moves s i (.closeDone i c) (.finishing c .closeDone) (.finishing c .check)
  | checkFinish {c : ℕ} : Moves s i (.checkFinish i c) (.finishing c .check) (.finishing c .decrement)
  | decrement {c : ℕ} : Moves s i (.decrement i c) (.finishing c .decrement) (.finishing c .send)

/-- All that a step can do to a client. -/
inductive ClientStep (s : Conn) (i : ℕ) : Action → Client → Prop
  | same {a : Action} (ha : actingClient a ≠ some i) : ClientStep s i a (s.clients i)
  | begun {a : Action} {b : Bool} (ha : a = .begin i ∨ a = .beginTLS i) (hpc : (s.clients i).pc = .idle) :
      ClientStep s i a { s.clients i with pc := .wantID, startTLS := b }
  | nested {c : ℕ} (hpc : (s.clients i).pc = .active c) :
      ClientStep s i (.beginNext i c) { s.clients i with pc := .wantID, stack := c :: (s.clients i).stack }
  | moved {a : Action} {pc pc' : ClientPc} (hpc : (s.clients i).pc = pc) (h : Moves s i a pc pc') :
      ClientStep s i a { s.clients i with pc := pc' }
  | returned {a : Action} {pc : ClientPc} (hpc : (s.clients i).pc = pc) (h : Returns i a pc) :
      ClientStep s i a (s.clients i).return

theorem clients_next (hm : s.MutexOk) (he : s.Enabled a) (i : ℕ) : ClientStep s i a ((s.next a).clients i) := by
  by_cases hi : actingClient a = some i
  swap
  · rw [clients_next_of_ne hi]
    exact .same hi
  have hmoved : ∀ {pc pc' : ClientPc} {cl : Client}, (s.clients i).pc = pc → Moves s i a pc pc' →
      cl = { s.clients i with pc := pc' } → ClientStep s i a cl := by
    rintro pc pc' cl hpc h rfl
    exact .moved hpc h
  have hreturned : ∀ {pc : ClientPc} {cl : Client}, (s.clients i).pc = pc → Returns i a pc →
      cl = (s.clients i).return → ClientStep s i a cl := by
    rintro pc cl hpc h rfl
    exact .returned hpc h
  cases a with
  | begin k =>
    obtain rfl := Option.some.inj hi
    have h := ClientStep.begun (b := false) (Or.inl rfl) he
    simpa [next] using h
  | beginTLS k =>
    obtain rfl := Option.some.inj hi
    have h := ClientStep.begun (b := true) (Or.inr rfl) he.1
    simpa [next] using h
  | beginNext k c =>
    obtain rfl := Option.some.inj hi
    have h := ClientStep.nested he.1
    simpa [next] using h
  | beginClose k =>
    obtain rfl := Option.some.inj hi
    exact hmoved he .beginClose (by simp [next])
  | takeID k =>
    obtain rfl := Option.some.inj hi
    exact hmoved he.1 .takeID (by simp [next])
  | takeClosedID k =>
    obtain rfl := Option.some.inj hi
    exact hmoved he.1 .takeClosedID (by simp [next])
  | abandon k n =>
    obtain rfl := Option.some.inj hi
    exact hreturned he.1 .abandoned (by simp [next])
  | checkSend k n =>
    obtain rfl := Option.some.inj hi
    exact hmoved he.1 .checkSend (by simp [next])
  | checkSendClosing k n =>
    obtain rfl := Option.some.inj hi
    exact hreturned he.1 .sendClosing (by simp [next])
  | admitSend k n =>
    obtain rfl := Option.some.inj hi
    exact hmoved he.1 .admitSend (by simp [next])
  | admitRefused k n =>
    obtain rfl := Option.some.inj hi
    exact hreturned he.1 .sendRefused (by simp [next])
  | receive k c =>
    obtain rfl := Option.some.inj hi
    exact hmoved he .receive (by simp [next])
  | receiveClosed k c =>
    obtain rfl := Option.some.inj hi
    cases htls : (s.clients k).startTLS with
    | false => exact hmoved he.1 .receiveClosed (by simp [next, htls])
    | true => exact hmoved he.1 .receiveClosedTLS (by simp [next, htls])
  | deliver k c r t n =>
    obtain rfl := Option.some.inj hi
    cases htls : (s.clients k).startTLS with
    | false => exact hmoved he.2 .delivered (by simp [next, htls])
    | true => exact hmoved he.2 .deliveredTLS (by simp [next, htls])
  | cancel k c =>
    obtain rfl := Option.some.inj hi
    exact hmoved he.1 .cancel (by simp [next])
  | offer k c =>
    obtain rfl := Option.some.inj hi
    exact hmoved he.1 .offer (by simp [next])
  | consume k c =>
    obtain rfl := Option.some.inj hi
    exact hmoved he .consume (by simp [next])
  | finish k c =>
    obtain rfl := Option.some.inj hi
    exact hmoved he.1 .finish (by simp [next])
  | closeDone k c =>
    obtain rfl := Option.some.inj hi
    exact hmoved he .closeDone (by simp [next])
  | checkFinish k c =>
    obtain rfl := Option.some.inj hi
    exact hmoved he.1 .checkFinish (by simp [next])
  | checkFinishClosing k c =>
    obtain rfl := Option.some.inj hi
    exact hreturned he.1 .finishClosing (by simp [next])
  | decrement k c =>
    obtain rfl := Option.some.inj hi
    exact hmoved he.1 .decrement (by simp [next])
  | tlsFail k c r =>
    obtain rfl := Option.some.inj hi
    exact hmoved he.1 .tlsFail (by simp [next])
  | tlsAbort k c p =>
    obtain rfl := Option.some.inj hi
    exact hmoved he .tlsAbort (by simp [next])
  | tlsUpgrade k c p =>
    obtain rfl := Option.some.inj hi
    exact hmoved he.1 .tlsUpgrade (by simp [next])
  | push x =>
    have hwait := (hm.holder _ he.1).1
    cases x with
    | request k c =>
      obtain rfl := Option.some.inj hi
      exact hmoved hwait .requestSent (by simp [next, Sender.sent])
    | finish k c =>
      obtain rfl := Option.some.inj hi
      exact hreturned hwait .finishSent (by simp [next, Sender.sent])
    | _ => cases hi
  | refuse x =>
    cases x with
    | request k c =>
      obtain rfl := Option.some.inj hi
      exact hreturned he.1 .requestRefused (by simp [next, Sender.refused])
    | finish k c =>
      obtain rfl := Option.some.inj hi
      exact hreturned he.1 .finishRefused (by simp [next, Sender.refused])
    | _ => cases hi
  | closeAgain k =>
    rcases k with ⟨k, _ | c⟩ | j
    · obtain rfl := Option.some.inj hi
      exact hreturned he.1 .closedAgain (by simp [next, Closer.returned])
    · obtain rfl := Option.some.inj hi
      exact hmoved he.1 .closedAgain (by simp [next, Closer.returned])
    · cases hi
  | closeReturn k t =>
    have hwait := (hm.holder _ he.1).1
    rcases k with ⟨k, _ | c⟩ | j
    · obtain rfl := Option.some.inj hi
      exact hreturned hwait .closed (by simp [next, Closer.returned])
    · obtain rfl := Option.some.inj hi
      exact hmoved hwait .closed (by simp [next, Closer.returned])
    · cases hi
  | _ => cases hi

end Conn

end GoLdap
