import GoLdap.Conn.Quit

/-!
# Conn.MessageIds — message IDs

`processMessages` hands out its counter, so no two clients get the same value before it wraps around; a request keeps the
ID of its client.  After the end of `processMessages` clients get the ID 0, but then no request is accepted.  The counter
is an `int64` and does not stop where the message IDs of the protocol do.
-/

namespace GoLdap

namespace Conn

variable {s : Conn} {a : Action}

/-- The ID a client has taken and not yet given to a context. -/
def ticket : ClientPc → Option (Option ℕ)
  | .hasID n | .locking n => some n
  | _ => none

theorem ticket_return (cl : Client) : ticket cl.return.pc = none := by
  rcases return_pc cl with h | ⟨c, h⟩ <;> rw [h] <;> rfl

/-- All that a step can do to the ID a client has taken. -/
inductive TicketStep (s : Conn) (i : ℕ) : Action → Option (Option ℕ) → Prop
  | gone {a : Action} : TicketStep s i a none
  | same {a : Action} (ha : ∀ n, a ≠ .admitSend i n) : TicketStep s i a (ticket (s.clients i).pc)
  | taken (hp : s.proc = .loop) : TicketStep s i (.takeID i) (some (some s.idsIssued))
  | closed (hp : s.proc = .stopped) : TicketStep s i (.takeClosedID i) (some none)

theorem ticket_next (hm : s.MutexOk) (he : s.Enabled a) (i : ℕ) :
    TicketStep s i a (ticket ((s.next a).clients i).pc) := by
  have hstep := clients_next hm he i
  generalize (s.next a).clients i = cl at hstep
  cases hstep with
  | same hi =>
    refine .same ?_
    rintro n rfl
    exact hi rfl
  | begun | nested => exact .gone
  | moved hpc hmove =>
    cases hmove with
    | takeID => exact .taken he.2
    | takeClosedID => exact .closed he.2
    | @checkSend n =>
      have h := TicketStep.same (s := s) (i := i) (a := .checkSend i n) (by simp)
      rwa [hpc] at h
    | _ => exact .gone
  | returned =>
    rw [ticket_return]
    exact .gone

theorem idsIssued_next (s : Conn) (a : Action) :
    (s.next a).idsIssued = s.idsIssued ∧ (∀ i, a ≠ .takeID i) ∨
    (∃ i, a = .takeID i) ∧ (s.next a).idsIssued = s.idsIssued + 1 := by
  cases a <;> simp [next]

/-- Who has a message ID: a client that has not sent its request yet, or a context. -/
inductive IdHolder where
  | client (i : ℕ)
  | context (c : ℕ)

def HasSerial (s : Conn) (n : ℕ) : IdHolder → Prop
  | .client i => ticket (s.clients i).pc = some (some n)
  | .context c => c < s.created ∧ (s.contexts c).serial = some n

/-- A message ID is handed out, or goes from a client to its context. -/
theorem hasSerial_next (hm : s.MutexOk) (he : s.Enabled a) {n : ℕ} {x : IdHolder} (h : (s.next a).HasSerial n x) :
    s.HasSerial n x ∧ (∀ i m, a = .admitSend i m → x ≠ .client i) ∨
    (∃ i, a = .takeID i ∧ n = s.idsIssued) ∨
    ∃ i, a = .admitSend i (some n) ∧ x = .context s.created := by
  cases x with
  | client i =>
    have hstep := ticket_next hm he i
    change ticket ((s.next a).clients i).pc = some (some n) at h
    generalize ticket ((s.next a).clients i).pc = t at hstep h
    cases hstep with
    | gone => cases h
    | same ha =>
      refine Or.inl ⟨h, ?_⟩
      rintro k m rfl heq
      obtain rfl := IdHolder.client.inj heq
      exact ha m rfl
    | taken => exact Or.inr (Or.inl ⟨i, rfl, (Option.some.inj (Option.some.inj h)).symm⟩)
    | closed => cases h
  | context c =>
    obtain ⟨hlt, hser⟩ := h
    by_cases hc : c = s.created
    · subst hc
      rcases created_next s a with ⟨hsame, -⟩ | ⟨i, m, rfl, -⟩
      · omega
      · refine Or.inr (Or.inr ⟨i, ?_, rfl⟩)
        simp only [next, setContext, setPc, setClient, Function.update_self] at hser
        rw [hser]
    · have hlt' : c < s.created := by
        rcases created_next s a with ⟨hsame, -⟩ | ⟨i, m, -, hsucc⟩ <;> omega
      exact Or.inl ⟨⟨hlt', (context_static s a hc).2.1 ▸ hser⟩, by simp⟩

structure Numbered (s : Conn) : Prop where
  issued : ∀ n x, s.HasSerial n x → n < s.idsIssued
  unique : ∀ n x y, s.HasSerial n x → s.HasSerial n y → x = y
  /-- The ID 0 of a closed ID channel. -/
  closedID : ∀ i, ticket (s.clients i).pc = some none → s.proc = .stopped
  closedIDContext : ∀ c, c < s.created → (s.contexts c).serial = none → s.proc = .stopped
  accepted : ∀ c, (s.contexts c).stage = .accepted → c < s.created ∧ (s.contexts c).serial ≠ none

theorem numbered_start (b : Bool) : (start b).Numbered where
  issued n x h := by cases x <;> simp [HasSerial, start, ticket] at h
  unique n x y h := by cases x <;> simp [HasSerial, start, ticket] at h
  closedID i h := by simp [start, ticket] at h
  closedIDContext c hc := by simp [start] at hc
  accepted c h := by simp [start] at h

theorem Numbered.issued_next (h : s.Numbered) (hm : s.MutexOk) (he : s.Enabled a) (n : ℕ) (x : IdHolder)
    (hx : (s.next a).HasSerial n x) : n < (s.next a).idsIssued := by
  have hmono : s.idsIssued ≤ (s.next a).idsIssued := by
    rcases idsIssued_next s a with ⟨hn, -⟩ | ⟨-, hn⟩ <;> omega
  rcases hasSerial_next hm he hx with ⟨hx, -⟩ | ⟨i, rfl, rfl⟩ | ⟨i, rfl, -⟩
  · exact Nat.lt_of_lt_of_le (h.issued n x hx) hmono
  · exact Nat.lt_succ_self s.idsIssued
  · refine Nat.lt_of_lt_of_le (h.issued n (.client i) ?_) hmono
    show ticket (s.clients i).pc = some (some n)
    rw [he.1]
    rfl

theorem Numbered.unique_next (h : s.Numbered) (hm : s.MutexOk) (he : s.Enabled a) (n : ℕ) (x y : IdHolder)
    (hx : (s.next a).HasSerial n x) (hy : (s.next a).HasSerial n y) : x = y := by
  -- the client that takes the ID, or hands it to its context, had it before and has it no longer
  have htaken : ∀ z i, a = .takeID i → n = s.idsIssued → (s.next a).HasSerial n z → z = .client i := by
    rintro z i rfl rfl hz
    cases z with
    | client k =>
      have hstep := ticket_next hm he k
      change ticket _ = some (some s.idsIssued) at hz
      generalize ticket ((s.next (.takeID i)).clients k).pc = t at hstep hz
      cases hstep with
      | gone => cases hz
      | same => exact absurd (h.issued _ (.client k) hz) (Nat.lt_irrefl _)
      | taken => rfl
    | context c => exact absurd (h.issued _ (.context c) hz) (Nat.lt_irrefl _)
  have hadm : ∀ z i, a = .admitSend i (some n) → s.HasSerial n z → (∀ k m, a = .admitSend k m → z ≠ .client k) → False := by
    rintro z i rfl hz hne
    refine hne i (some n) rfl (h.unique n z (.client i) hz ?_)
    show ticket (s.clients i).pc = some (some n)
    rw [he.1]
    rfl
  rcases hasSerial_next hm he hx with ⟨hx', hnx⟩ | ⟨i, ha, hn⟩ | ⟨i, ha, rfl⟩
  · rcases hasSerial_next hm he hy with ⟨hy', -⟩ | ⟨i, ha, hn⟩ | ⟨i, ha, rfl⟩
    · exact h.unique n x y hx' hy'
    · rw [htaken x i ha hn hx, htaken y i ha hn hy]
    · exact (hadm x i ha hx' hnx).elim
  · rw [htaken x i ha hn hx, htaken y i ha hn hy]
  · rcases hasSerial_next hm he hy with ⟨hy', hny⟩ | ⟨k, hk, -⟩ | ⟨k, -, rfl⟩
    · exact (hadm y i ha hy' hny).elim
    · rw [ha] at hk
      cases hk
    · rfl

theorem proc_stopped_next (he : s.Enabled a) (hp : s.proc = .stopped) : (s.next a).proc = .stopped := by
  have hstep := loop_next he
  generalize (s.next a).chanMessage = q', (s.next a).proc = pc, (s.next a).messageContexts = mc at hstep
  cases hstep with
  | other | pushed | quitPushed => exact hp
  | takeQuit h | takeNil h | takeRequest h | writeOk h | writeFail h | takeFinish h | cleanupClose h | cleanupSend h
  | cleanupEnd h => cases hp.symm.trans h
  | startSend _ h | ignored _ h | endSend _ h => cases hp.symm.trans h

theorem Numbered.accepted_next (h : s.Numbered) (hm : s.MutexOk) (ho : s.Owned) (hq : s.QuitPhase) (he : s.Enabled a)
    (c : ℕ) (hc : ((s.next a).contexts c).stage = .accepted) :
    c < (s.next a).created ∧ ((s.next a).contexts c).serial ≠ none := by
  have hmono : s.created ≤ (s.next a).created := by
    rcases created_next s a with ⟨hn, -⟩ | ⟨-, -, -, hn⟩ <;> omega
  have hold : (s.contexts c).stage = .accepted → ((s.next a).contexts c).serial = (s.contexts c).serial →
      c < (s.next a).created ∧ ((s.next a).contexts c).serial ≠ none := by
    intro hst hser
    obtain ⟨hlt, hne⟩ := h.accepted c hst
    exact ⟨Nat.lt_of_lt_of_le hlt hmono, hser ▸ hne⟩
  have hctx := contexts_next s a c
  generalize hnew : (s.next a).contexts c = m at hctx hc
  cases hctx with
  | admitSend | rejected => cases hc
  | @accepted i =>
    -- the sender holds the context; with the ID 0 the connection would be closing
    obtain ⟨hwait, hopen⟩ := hm.holder _ he.1
    have hheld : c ∈ holds (s.clients i) := by simp [holds_of_pc hwait, current]
    have hlt := (ho.held i c hheld).1
    refine ⟨Nat.lt_of_lt_of_le hlt hmono, fun hser => ?_⟩
    have hstop : PastQuit s.proc := by
      rw [h.closedIDContext c hlt hser]
      trivial
    rw [hq.closing_of_pastQuit hstop] at hopen
    cases hopen
  | _ =>
    rw [hnew] at hold
    exact hold hc rfl

theorem numbered_next (h : s.Numbered) (hm : s.MutexOk) (ho : s.Owned) (hq : s.QuitPhase) (he : s.Enabled a) :
    (s.next a).Numbered where
  issued := h.issued_next hm he
  unique := h.unique_next hm he
  closedID i hi := by
    have hstep := ticket_next hm he i
    generalize ticket ((s.next a).clients i).pc = t at hstep hi
    cases hstep with
    | gone | taken => cases hi
    | same => exact proc_stopped_next he (h.closedID i hi)
    | closed hp => exact proc_stopped_next he hp
  closedIDContext c hc hser := by
    refine proc_stopped_next he ?_
    by_cases hnew : c = s.created
    · rcases created_next s a with ⟨hsame, -⟩ | ⟨i, n, rfl, -⟩
      · omega
      · -- the new context has the ID of its client
        subst hnew
        simp only [next, setContext, setPc, setClient, Function.update_self] at hser
        refine h.closedID i ?_
        rw [he.1, hser]
        rfl
    · refine h.closedIDContext c ?_ ((context_static s a hnew).2.1 ▸ hser)
      rcases created_next s a with ⟨hsame, -⟩ | ⟨-, -, -, hsucc⟩ <;> omega
  accepted := h.accepted_next hm ho hq he

theorem numbered_of_reachable {b : Bool} (h : (machine b).Reachable s) : s.Numbered := by
  refine h.invariant_of (Q := fun s => s.MutexOk ∧ s.Owned ∧ s.QuitPhase) ?_ (numbered_start b) ?_
  · exact fun s hs => ⟨mutexOk_of_reachable hs, owned_of_reachable hs, quitPhase_of_reachable hs⟩
  · exact fun s a hq hs he _ => numbered_next hs hq.1 hq.2.1 hq.2.2 he

theorem msgId_injective {n m : ℕ} (hn : n < 2 ^ 64) (hm : m < 2 ^ 64) (h : msgId n = msgId m) : n = m := by
  have hmod : (n + 1) % 2 ^ 64 = (m + 1) % 2 ^ 64 := by
    have := congrArg BitVec.toNat h
    simpa only [msgId, BitVec.toNat_ofNat] using this
  omega

/-- Before the counter wraps around, the message IDs of accepted requests are distinct. -/
theorem Numbered.id_injective (h : s.Numbered) (hids : s.idsIssued ≤ 2 ^ 64) {c d : ℕ}
    (hc : (s.contexts c).stage = .accepted) (hd : (s.contexts d).stage = .accepted)
    (hid : (s.contexts c).id = (s.contexts d).id) : c = d := by
  obtain ⟨hclt, hcne⟩ := h.accepted c hc
  obtain ⟨hdlt, hdne⟩ := h.accepted d hd
  obtain ⟨n, hn⟩ := Option.ne_none_iff_exists'.mp hcne
  obtain ⟨m, hm⟩ := Option.ne_none_iff_exists'.mp hdne
  have hnlt := h.issued n (.context c) ⟨hclt, hn⟩
  have hmlt := h.issued m (.context d) ⟨hdlt, hm⟩
  have hnm : n = m := by
    refine msgId_injective (by omega) (by omega) ?_
    simpa [MessageContext.id, hn, hm] using hid
  subst hnm
  exact IdHolder.context.inj (h.unique n (.context c) (.context d) ⟨hclt, hn⟩ ⟨hdlt, hm⟩)

/-! ## Legal message IDs -/

/-- A message ID of RFC 4511; 0 is for unsolicited notifications. -/
def LegalID (id : MsgId) : Prop := 1 ≤ id.toInt ∧ id.toInt ≤ 2147483647

instance (id : MsgId) : Decidable (LegalID id) := inferInstanceAs (Decidable (_ ∧ _))

/-- The requests accepted so far have legal message IDs. -/
def LegalIDs (s : Conn) : Prop := ∀ c, (s.contexts c).stage = .accepted → LegalID (s.contexts c).id

theorem legalID_msgId {n : ℕ} (h : n < 2147483647) : LegalID (msgId n) := by
  have htoNat : (msgId n).toNat = n + 1 := by
    rw [msgId, BitVec.toNat_ofNat, Nat.mod_eq_of_lt (by omega)]
  have htoInt : (msgId n).toInt = (n + 1 : ℕ) := by
    rw [BitVec.toInt_eq_toNat_of_lt (by omega), htoNat]
  rw [LegalID, htoInt]
  omega

theorem Numbered.legalIDs (h : s.Numbered) (hids : s.idsIssued ≤ 2147483647) : s.LegalIDs := by
  intro c hc
  obtain ⟨hlt, hne⟩ := h.accepted c hc
  obtain ⟨n, hn⟩ := Option.ne_none_iff_exists'.mp hne
  have hissued := h.issued n (.context c) ⟨hlt, hn⟩
  have hid : (s.contexts c).id = msgId n := by rw [MessageContext.id, hn]
  rw [hid]
  exact legalID_msgId (by omega)

/-! ## The counter goes on -/

/-- A client that takes IDs and does not use them. -/
theorem reachable_idsIssued {b : Bool} (h : (machine b).Reachable s) (hp : s.proc = .loop)
    (hi : s.clients 1 = ⟨.idle, [], false⟩) (n : ℕ) :
    (machine b).Reachable { s with idsIssued := s.idsIssued + n } := by
  induction n with
  | zero => exact h
  | succ n ih =>
    have hrun := ((ih.step (a := .begin 1) (by simp [machine, Enabled, hi]) trivial).step (a := .takeID 1)
      (by simp [machine, Enabled, next, hp]) trivial).step (a := .abandon 1 (some (s.idsIssued + n)))
      (by simp [machine, Enabled, next]) trivial
    have hstate : (((({ s with idsIssued := s.idsIssued + n } : Conn).next (.begin 1)).next (.takeID 1)).next
        (.abandon 1 (some (s.idsIssued + n)))) = { s with idsIssued := s.idsIssued + (n + 1) } := by
      simp [next, Client.return, hi, ← Nat.add_assoc]
    exact hstate ▸ hrun

/-- The actions of a client that sends a request, as the `c`-th context. -/
def sendRequest (i n c : ℕ) : List Action :=
  [.begin i, .takeID i, .checkSend i (some n), .admitSend i (some n), .enter (.request i c), .push (.request i c)]

/-- After 2147483647 IDs, the next request is accepted with the ID 2147483648. -/
theorem reachable_beyond (b : Bool) : ∃ s, (machine b).Reachable s ∧ s.idsIssued = 2147483648 ∧
    (s.contexts 0).stage = .accepted ∧ (s.contexts 0).id.toInt = 2147483648 := by
  have hlater := reachable_idsIssued (s := start b) .init rfl rfl 2147483647
  cases b with
  | false =>
    have hsend := hlater.after (show Machine.Follows _ _ _ (sendRequest 0 2147483647 0) by decide)
    exact ⟨_, hsend, rfl, rfl, by decide⟩
  | true =>
    have hsend := hlater.after (show Machine.Follows _ _ _ (sendRequest 0 2147483647 0) by decide)
    exact ⟨_, hsend, rfl, rfl, by decide⟩

/-- In all runs that take at most `n` message IDs the requests have legal ones, exactly if `n` is at most 2147483647. -/
theorem legalIDs_iff (isTLS : Bool) (n : ℕ) :
    (∀ s, (machine isTLS).Reachable s → s.idsIssued ≤ n → s.LegalIDs) ↔ n ≤ 2147483647 := by
  constructor
  · intro h
    by_contra hn
    obtain ⟨s, hs, hids, hc, hid⟩ := reachable_beyond isTLS
    have hlegal := (h s hs (by omega) 0 hc).2
    omega
  · intro hn s hs hids
    exact (numbered_of_reachable hs).legalIDs (Nat.le_trans hids hn)

/-- A connection that has taken 2147483648 message IDs. -/
theorem messageID_beyond : ∃ s, (machine false).Reachable s ∧ ∃ c, (s.contexts c).stage = .accepted ∧
    (s.contexts c).id.toInt = 2147483648 := by
  obtain ⟨s, hs, -, hc, hid⟩ := reachable_beyond false
  exact ⟨s, hs, 0, hc, hid⟩

/-- After `2 ^ 64` further IDs a request gets the ID of the first one, which is still in the queue. -/
theorem messageIDs_wrap :
    ∃ s, (machine false).Reachable s ∧ ∃ c d, c ≠ d ∧ (s.contexts c).stage = .accepted ∧
      (s.contexts d).stage = .accepted ∧ (s.contexts c).id = (s.contexts d).id := by
  have hfirst := Machine.reachable_after (M := machine false) (sendRequest 0 0 0) (by decide)
  have hlater := reachable_idsIssued hfirst rfl rfl (2 ^ 64 - 1)
  have hsecond := hlater.after (show Machine.Follows _ _ _ (sendRequest 1 (2 ^ 64) 1) by decide)
  exact ⟨_, hsecond, 0, 1, by decide, rfl, rfl, by decide⟩

end Conn

end GoLdap
