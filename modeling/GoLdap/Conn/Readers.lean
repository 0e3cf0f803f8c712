import GoLdap.Conn.Outstanding

/-!
# Conn.Readers — the number of running readers

A reader that takes a packet while `isStartingTLS` is set hands it over and stops.  `StartTLS` starts a new reader on one
of its return paths only, and the flag is cleared later, by `finishMessage`.  So the connection keeps exactly one reader
if `StartTLS` takes that path exactly when a reader has stopped for it (`ReaderHandover`); `startTLS_refused_no_reader` is
a run that leaves it without one.
-/

namespace GoLdap

namespace Conn

variable {s : Conn} {a : Action}

/-- A call of `StartTLS` is in progress. -/
def StartTLSRunning (s : Conn) : Prop := ∃ i, (s.clients i).startTLS = true

/-- The reader is running and has not decided to stop. -/
def ReadsOn : ReaderPc → Prop
  | .forwarding _ true | .stopped => False
  | _ => True

theorem ReadsOn.ne_stopped {pc : ReaderPc} (h : ReadsOn pc) : pc ≠ .stopped := by
  rintro rfl
  exact h

/-- A `StartTLS` call is past the start of its new reader, or past its error: it only has to finish its message. -/
def StartTLSReturning (s : Conn) : Prop :=
  ∃ i c st, (s.clients i).startTLS = true ∧ (s.clients i).pc = .finishing c st

/-- The condition for one reader.  While the connection is open, `StartTLS` returns an error only if no reader has
stopped for it, starts its new reader only after the old one has stopped, and no reader looks at `isStartingTLS` between
the new reader's start and the end of the call. -/
def ReaderHandover (s : Conn) : Action → Prop
  | .tlsFail _ _ _ => s.closing = false → ∃ j, ReadsOn (s.readers j)
  | .tlsUpgrade _ _ _ => s.closing = false → ∀ j, s.readers j = .stopped
  | .checkFlag _ _ | .checkFlagNoID _ => s.closing = false → s.isStartingTLS = true → ¬ s.StartTLSReturning
  | _ => True

/-- The part of it that concerns the new reader. -/
def ReaderReplaced (s : Conn) : Action → Prop
  | .tlsUpgrade _ _ _ => s.closing = false → ∀ j, s.readers j = .stopped
  | _ => True

theorem ReaderHandover.replaced (h : ReaderHandover s a) : ReaderReplaced s a := by
  cases a with
  | tlsUpgrade => exact h
  | _ => trivial

/-- While the connection is open there is at most one reader. -/
def UniqueReader (s : Conn) : Prop :=
  s.closing = false → ∀ j k, s.readers j ≠ .stopped → s.readers k ≠ .stopped → j = k

/-- While the connection is open there is at most one reader; there is one that reads on, unless a `StartTLS` call waits
for its response. -/
structure OneReader (s : Conn) : Prop where
  unique : s.UniqueReader
  readsOn : s.closing = false → s.isStartingTLS = false ∨ s.StartTLSReturning → ∃ j, ReadsOn (s.readers j)

theorem uniqueReader_start (b : Bool) : (start b).UniqueReader := by
  intro _ j k hj hk
  have h0 : ∀ i, (start b).readers i ≠ .stopped → i = 0 := fun i hi => by
    have := (mutexOk_start b).started i hi
    simp [start] at this
    exact this
  rw [h0 j hj, h0 k hk]

theorem oneReader_start (b : Bool) : (start b).OneReader := ⟨uniqueReader_start b, fun _ _ => ⟨0, trivial⟩⟩

/-- The steps that bring a `StartTLS` call to the end of its message while the connection is open. -/
theorem returning_next (hm : s.MutexOk) (he : s.Enabled a) (hopen : (s.next a).closing = false)
    (h : (s.next a).StartTLSReturning) :
    s.StartTLSReturning ∨ (∃ i c r, a = .tlsFail i c r) ∨ ∃ i c p, a = .tlsUpgrade i c p := by
  obtain ⟨i, c, st, htls, hpc⟩ := h
  have hnot : s.closing ≠ true := Bool.eq_false_iff.mp (closing_of_next hopen)
  have hstep := clients_next hm he i
  generalize (s.next a).clients i = cl at hstep htls hpc
  cases hstep with
  | same => exact Or.inl ⟨i, c, st, htls, hpc⟩
  | begun | nested => cases hpc
  | moved hold hmove =>
    cases hmove with
    | tlsFail => exact Or.inr (Or.inl ⟨_, _, _, rfl⟩)
    | tlsUpgrade => exact Or.inr (Or.inr ⟨_, _, _, rfl⟩)
    | closeDone | checkFinish | decrement => exact Or.inl ⟨i, _, _, htls, hold⟩
    | finish =>
      rw [he.2] at htls
      cases htls
    | closedAgain => exact absurd he.2.2 hnot
    | closed => exact absurd (hm.holder _ he.1).2 hnot
    | _ => cases hpc
  | returned =>
    rcases return_pc (s.clients i) with h | ⟨d, h⟩ <;> rw [h] at hpc <;> cases hpc

/-- While the connection is open, a reader that reads on does so until it looks at the flag of a `StartTLS` call. -/
theorem readsOn_next (hm : s.MutexOk) (he : s.Enabled a) (hopen : (s.next a).closing = false) {j : ℕ}
    (h : ReadsOn (s.readers j)) (hflag : s.isStartingTLS = true → (∀ p, a ≠ .checkFlag j p) ∧ a ≠ .checkFlagNoID j) :
    ReadsOn ((s.next a).readers j) := by
  have hstep := readers_next he j
  have hnot : s.closing ≠ true := Bool.eq_false_iff.mp (closing_of_next hopen)
  generalize (s.next a).readers j = pc at hstep
  cases hstep with
  | same => exact h
  | started | read | failed | stored => trivial
  | failedClosing _ hc | refused _ _ hc | closedAgain _ _ hc => exact absurd hc hnot
  | closed hc => exact absurd (hm.holder _ hc).2 hnot
  | checked =>
    cases hf : s.isStartingTLS with
    | false => trivial
    | true => exact absurd rfl ((hflag hf).1 _)
  | checkedNoID =>
    cases hf : s.isStartingTLS with
    | false => trivial
    | true => exact absurd rfl (hflag hf).2
  | @pushed p cleanstop hp =>
    rw [(hm.holder _ hp).1] at h
    cases cleanstop with
    | false => trivial
    | true => exact h.elim

/-- A reader that is running was running before, or was started by this step. -/
theorem running_next (hm : s.MutexOk) (he : s.Enabled a) {j : ℕ} (h : (s.next a).readers j ≠ .stopped) :
    s.readers j ≠ .stopped ∨ ∃ i c p, a = .tlsUpgrade i c p := by
  have hstep := readers_next he j
  generalize (s.next a).readers j = pc at hstep h
  cases hstep with
  | same => exact Or.inl h
  | started => exact Or.inr ⟨_, _, _, rfl⟩
  | read hpc | failed hpc | failedClosing hpc | stored hpc | checked hpc | checkedNoID hpc | refused hpc
  | closedAgain hpc => exact Or.inl (by simp [hpc])
  | pushed hp =>
    refine Or.inl ?_
    rw [(hm.holder _ hp).1]
    simp
  | closed hc =>
    refine Or.inl ?_
    rw [(hm.holder _ hc).1]
    simp

theorem uniqueReader_next (h : s.UniqueReader) (hm : s.MutexOk) (he : s.Enabled a) (hok : ReaderReplaced s a) :
    (s.next a).UniqueReader := by
  intro hc j k hj hk
  have hopen := closing_of_next hc
  by_cases hup : ∃ i c p, a = .tlsUpgrade i c p
  · -- all readers had stopped: the new one is alone
    obtain ⟨i, c, p, rfl⟩ := hup
    have hstopped : ∀ j, s.readers j = .stopped := hok hopen
    have hnew : ∀ j, (s.next (.tlsUpgrade i c p)).readers j ≠ .stopped → j = s.readersStarted := by
      intro j hj
      by_contra hne
      exact hj (by simp [next, hne, hstopped j])
    exact (hnew j hj).trans (hnew k hk).symm
  · refine h hopen j k ((running_next hm he hj).resolve_right hup) ((running_next hm he hk).resolve_right hup)

theorem uniqueReader_of_reaches {b : Bool} (h : Machine.Reaches (machine b) ReaderReplaced s) : s.UniqueReader :=
  h.invariant_of (Q := MutexOk) (fun _ hs => mutexOk_of_reachable hs.reachable) (uniqueReader_start b)
    fun _ _ hm hs he hok => uniqueReader_next hs hm he hok

theorem oneReader_next (h : s.OneReader) (hm : s.MutexOk) (ho : s.Owned) (hl : s.LedgerOk) (he : s.Enabled a)
    (hok : ReaderHandover s a) : (s.next a).OneReader := by
  refine ⟨uniqueReader_next h.unique hm he hok.replaced, fun hc hcase => ?_⟩
  by_cases hup : ∃ i c p, a = .tlsUpgrade i c p
  · obtain ⟨i, c, p, rfl⟩ := hup
    exact ⟨s.readersStarted, by simp [next, ReadsOn]⟩
  · -- first: before the step a reader reads on
    have hopen := closing_of_next hc
    have hbefore : ∃ j, ReadsOn (s.readers j) := by
      rcases hcase with hflag | hret
      · rcases ledger_next (s := s) (a := a) with ⟨i, n, rfl, -⟩ | ⟨i, c, rfl, -⟩ | ⟨-, -, -, -, hsame⟩
        · exact h.readsOn hopen (Or.inl he.2.2.1)
        · -- the flag is cleared by the `StartTLS` call itself, on its way out
          cases hf : s.isStartingTLS with
          | false => exact h.readsOn hopen (Or.inl hf)
          | true =>
            obtain ⟨d, -, htls, honly⟩ := hl.exclusive hf
            have hheld : c ∈ holds (s.clients i) := by simp [holds_of_pc he.1, current]
            have hcd : c = d := honly c (ho.mem_counted_of_held hheld)
            refine h.readsOn hopen (Or.inr ⟨i, c, .decrement, ?_, he.1⟩)
            rw [← (ho.held i c hheld).2.2.2, hcd]
            exact htls
        · exact h.readsOn hopen (Or.inl (hsame ▸ hflag))
      · rcases returning_next hm he hc hret with hret | ⟨i, c, r, rfl⟩ | hup'
        · exact h.readsOn hopen (Or.inr hret)
        · exact hok hopen
        · exact absurd hup' hup
    -- then: the step does not make it stop
    obtain ⟨j, hj⟩ := hbefore
    refine ⟨j, readsOn_next hm he hc hj fun hf => ?_⟩
    have hcheck : ∀ b : Action, (∃ p, b = .checkFlag j p) ∨ b = .checkFlagNoID j → a ≠ b := by
      rintro b hb rfl
      have hret : s.StartTLSReturning := by
        rcases hcase with hflag | hret
        · exfalso
          rcases hb with ⟨p, rfl⟩ | rfl <;> simp [next, hf] at hflag
        · rcases returning_next hm he hc hret with hret | ⟨i, c, r, rfl⟩ | hup'
          · exact hret
          · rcases hb with ⟨p, hb⟩ | hb <;> cases hb
          · exact absurd hup' hup
      rcases hb with ⟨p, rfl⟩ | rfl <;> exact hok hopen hf hret
    exact ⟨fun p => hcheck _ (Or.inl ⟨p, rfl⟩), hcheck _ (Or.inr rfl)⟩

theorem oneReader_of_reaches {b : Bool} (h : Machine.Reaches (machine b) ReaderHandover s) : s.OneReader := by
  refine h.invariant_of (Q := fun s => s.MutexOk ∧ s.Owned ∧ s.LedgerOk) ?_ (oneReader_start b) ?_
  · exact fun s hs => ⟨mutexOk_of_reachable hs.reachable, owned_of_reachable hs.reachable,
      ledgerOk_of_reachable hs.reachable⟩
  · exact fun s a hq hs he hok => oneReader_next hs hq.1 hq.2.1 hq.2.2 he hok

/-- **One reader.**  In every run in which `StartTLS` hands over from the old reader to the new one, there is exactly one
running reader in every state in which the connection is not closing and no `StartTLS` call is in progress. -/
theorem existsUnique_reader (b : Bool) (s : Conn) (h : Machine.Reaches (machine b) ReaderHandover s)
    (hopen : s.closing = false) (htls : ¬ s.StartTLSRunning) : ∃! j, s.readers j ≠ .stopped := by
  have hone := oneReader_of_reaches h
  have ho := owned_of_reachable h.reachable
  have hflag : s.isStartingTLS = false := by
    -- the flag is set only during a `StartTLS` call
    by_contra hf
    obtain ⟨c, hc, hctls, -⟩ := (ledgerOk_of_reachable h.reachable).exclusive (by simpa using hf)
    have hheld := ho.holder hopen c (ho.mem_counted.mp hc)
    exact htls ⟨_, (ho.held _ c hheld).2.2.2.symm.trans hctls⟩
  obtain ⟨j, hj⟩ := hone.readsOn hopen (Or.inl hflag)
  exact ⟨j, hj.ne_stopped, fun k hk => hone.unique hopen k j hk hj.ne_stopped⟩

/-! ## Two runs of `StartTLS` -/

/-- `StartTLS` sends its request and receives the response. -/
def startTLSExchange (p : SrvPacket) : List Action :=
  [.beginTLS 0, .takeID 0, .checkSend 0 (some 0), .admitSend 0 (some 0), .enter (.request 0 0), .push (.request 0 0),
    .takeRequest 0 [], .writeOk 0, .receive 0 0, .read 0 (some p), .checkFlag 0 p, .enter (.response 0 p true),
    .push (.response 0 p true), .takeResponse p 0 [], .deliver 0 0 (.packet p) false .resume]

/-- `StartTLS` finishes its message and returns. -/
def startTLSFinish : List Action :=
  [.closeDone 0 0, .checkFinish 0 0, .decrement 0 0, .enter (.finish 0 0), .push (.finish 0 0)]

/-- The server refuses to start TLS: the reader has stopped, and `StartTLS` returns the error without a new one. -/
theorem startTLS_refused_no_reader :
    ∃ s, (machine false).Reachable s ∧ s.closing = false ∧ ¬ s.StartTLSRunning ∧ ¬ ∃! j, s.readers j ≠ .stopped := by
  let p : SrvPacket := ⟨1, false, 0⟩
  let run := startTLSExchange p ++ .tlsFail 0 0 (some (.packet p)) :: startTLSFinish
  refine ⟨(machine false).after (start false) run, Machine.reachable_after run (by decide), rfl, ?_, ?_⟩
  · rintro ⟨i, hi⟩
    cases i <;> cases hi
  · rintro ⟨j, hj, -⟩
    cases j <;> exact hj rfl

/-- The server starts TLS: the new reader is the only one. -/
theorem existsUnique_reader_startTLS :
    ∃ s, Machine.Reaches (machine false) ReaderHandover s ∧ s.isTLS = true ∧ ∃! j, s.readers j ≠ .stopped := by
  let p : SrvPacket := ⟨1, true, 0⟩
  let run := startTLSExchange p ++ .tlsUpgrade 0 0 p :: startTLSFinish
  have hrun : Machine.Reaches (machine false) ReaderHandover ((machine false).after (start false) run) := by
    apply Machine.reaches_after
    repeat' apply And.intro
    any_goals first | trivial | decide
    · -- the reader looks at the flag while `StartTLS` waits for its response
      rintro - - ⟨_ | i, c, st, -, hpc⟩ <;> cases hpc
    · -- when the upgrade starts the new reader, the old one has stopped
      rintro - (_ | j) <;> rfl
  refine ⟨_, hrun, rfl, existsUnique_reader false _ hrun rfl ?_⟩
  rintro ⟨i, hi⟩
  cases i <;> cases hi

end Conn

end GoLdap
