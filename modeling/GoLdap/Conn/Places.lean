import GoLdap.Conn.MessageIds

/-!
# Conn.Places — where a request is

An accepted request is in exactly one place: in the queue, in the hands of `processMessages`, registered in
`messageContexts`, or done with, its `responses` closed.  `places` counts the places of a context; every step keeps the
count, except the one that puts the request into the queue.
-/

namespace GoLdap

namespace Conn

variable {s : Conn} {a : Action}

/-- The context of the request that `processMessages` has taken off the queue and not registered. -/
def handling : ProcPc → Option ℕ
  | .writing c | .sending c _ _ .closeFailed => some c
  | _ => none

theorem handling_sending_of_ne {c : ℕ} {r : Response} {t : Bool} {n : AfterSend} (h : n ≠ .closeFailed) :
    handling (.sending c r t n) = none := by
  cases n <;> first | rfl | contradiction

theorem handling_procAfter (n : AfterSend) : handling (procAfter n) = none := by
  cases n <;> rfl

/-- How often a context is registered. -/
def registrations (mc : List (MsgId × ℕ)) (c : ℕ) : ℕ := mc.countP (·.2 = c)

/-- The number of places a context is in. -/
def places (s : Conn) (c : ℕ) : ℕ :=
  s.chanMessage.count (.request c) + (if handling s.proc = some c then 1 else 0) +
    registrations s.messageContexts c + (s.contexts c).closes

structure Placed (s : Conn) : Prop where
  place : ∀ c, s.places c = if (s.contexts c).stage = .accepted then 1 else 0
  entry : ∀ e ∈ s.messageContexts, e.1 = (s.contexts e.2).id
  /-- Except after a failed write, responses go to registered contexts. -/
  sending : ∀ c r t n, s.proc = .sending c r t n → n ≠ .closeFailed → ((s.contexts c).id, c) ∈ s.messageContexts
  offered : ∀ c p t n, s.proc = .sending c (.packet p) t n → p.id = (s.contexts c).id

theorem placed_start (b : Bool) : (start b).Placed where
  place _ := rfl
  entry _ h := by cases h
  sending _ _ _ _ h := by cases h
  offered _ _ _ _ h := by cases h

theorem registrations_pos {mc : List (MsgId × ℕ)} {c : ℕ} : 0 < registrations mc c ↔ ∃ id, (id, c) ∈ mc := by
  rw [registrations, List.countP_pos_iff]
  constructor
  · rintro ⟨⟨id, d⟩, hmem, hd⟩
    obtain rfl : d = c := by simpa using hd
    exact ⟨id, hmem⟩
  · rintro ⟨id, hmem⟩
    exact ⟨_, hmem, by simp⟩

/-! ## Registered contexts -/

theorem Placed.accepted_of_pos (h : s.Placed) {c : ℕ} (hc : 0 < s.places c) : (s.contexts c).stage = .accepted := by
  rw [h.place c] at hc
  by_contra hne
  rw [if_neg hne] at hc
  exact Nat.lt_irrefl 0 hc

theorem Placed.le_one (h : s.Placed) (c : ℕ) : s.places c ≤ 1 := by
  rw [h.place c]
  split_ifs <;> simp

theorem Placed.accepted_of_mem (h : s.Placed) {id : MsgId} {c : ℕ} (hc : (id, c) ∈ s.messageContexts) :
    (s.contexts c).stage = .accepted := by
  refine h.accepted_of_pos ?_
  have := registrations_pos.mpr ⟨id, hc⟩
  unfold places
  omega

theorem Placed.accepted_of_handling (h : s.Placed) {c : ℕ} (hc : handling s.proc = some c) :
    (s.contexts c).stage = .accepted := by
  refine h.accepted_of_pos ?_
  unfold places
  rw [if_pos hc]
  omega

theorem Placed.accepted_of_sending (h : s.Placed) {c : ℕ} {r : Response} {t : Bool} {n : AfterSend}
    (hp : s.proc = .sending c r t n) : (s.contexts c).stage = .accepted := by
  by_cases hn : n = .closeFailed
  · refine h.accepted_of_handling ?_
    rw [hp, hn]
    rfl
  · exact h.accepted_of_mem (h.sending c r t n hp hn)

/-- Different accepted contexts have different message IDs. -/
def IdsDistinct (s : Conn) : Prop :=
  ∀ c d, (s.contexts c).stage = .accepted → (s.contexts d).stage = .accepted →
    (s.contexts c).id = (s.contexts d).id → c = d

/-- An ID is registered for one context only. -/
theorem Placed.mem_unique (h : s.Placed) (hd : s.IdsDistinct) {id : MsgId} {c d : ℕ}
    (hc : (id, c) ∈ s.messageContexts) (hdm : (id, d) ∈ s.messageContexts) : c = d :=
  hd c d (h.accepted_of_mem hc) (h.accepted_of_mem hdm) ((h.entry _ hc).symm.trans (h.entry _ hdm))

/-- Deleting an ID takes off the one registration of its context. -/
theorem Placed.registrations_delete (h : s.Placed) (hd : s.IdsDistinct) {id : MsgId} {d : ℕ}
    (hmem : (id, d) ∈ s.messageContexts) (c : ℕ) :
    registrations (s.messageContexts.filter (·.1 ≠ id)) c + (if c = d then 1 else 0) =
      registrations s.messageContexts c := by
  unfold registrations
  rw [List.countP_filter]
  by_cases hc : c = d
  · subst hc
    have hone : s.messageContexts.countP (·.2 = c) = 1 := by
      have hle := h.le_one c
      have hpos := registrations_pos.mpr ⟨id, hmem⟩
      unfold places registrations at *
      omega
    have hzero : s.messageContexts.countP (fun e => decide (e.2 = c) && decide (e.1 ≠ id)) = 0 := by
      rw [List.countP_eq_zero]
      rintro ⟨id', d'⟩ he hboth
      simp only [Bool.and_eq_true, decide_eq_true_eq] at hboth
      obtain ⟨rfl, hne⟩ := hboth
      exact hne ((h.entry _ he).trans (h.entry _ hmem).symm)
    rw [hzero, hone, if_pos rfl]
  · rw [if_neg hc, Nat.add_zero]
    refine List.countP_congr ?_
    rintro ⟨id', d'⟩ he
    simp only [Bool.and_eq_true, decide_eq_true_eq, and_iff_left_iff_imp]
    rintro rfl rfl
    exact hc (h.mem_unique hd he hmem)

/-- Registering the context in hand overwrites no other. -/
theorem Placed.registrations_register (h : s.Placed) (hd : s.IdsDistinct) {d : ℕ} (hh : handling s.proc = some d)
    (c : ℕ) :
    registrations (((s.contexts d).id, d) :: s.messageContexts.filter (·.1 ≠ (s.contexts d).id)) c =
      registrations s.messageContexts c + if c = d then 1 else 0 := by
  have hunreg : registrations s.messageContexts d = 0 := by
    have hle := h.le_one d
    unfold places at hle
    rw [if_pos hh] at hle
    omega
  have hall : s.messageContexts.filter (·.1 ≠ (s.contexts d).id) = s.messageContexts := by
    rw [List.filter_eq_self]
    rintro ⟨id, e⟩ he
    simp only [ne_eq, decide_eq_true_eq]
    rintro rfl
    -- the entry would be one of the context in hand
    have hed : e = d := hd e d (h.accepted_of_mem he) (h.accepted_of_handling hh) (h.entry _ he).symm
    subst hed
    exact Nat.lt_irrefl 0 (hunreg ▸ registrations_pos.mpr ⟨_, he⟩)
  rw [hall]
  unfold registrations
  rw [List.countP_cons]
  simp [eq_comm]

/-! ## Steps -/

/-- Whether the step puts the request of the context into the queue. -/
def requestSent (c : ℕ) : Action → ℕ
  | .push (.request _ d) => if d = c then 1 else 0
  | _ => 0

theorem requestSent_of_not_loopAction {c : ℕ} (ha : ¬ LoopAction a) : requestSent c a = 0 := by
  cases a with
  | push x => exact absurd trivial ha
  | _ => rfl

theorem count_message (s : Conn) (x : Sender) (c : ℕ) :
    [x.message s].count (.request c) = requestSent c (.push x) := by
  cases x with
  | request i d =>
    by_cases hd : d = c
    · simp [Sender.message, requestSent, hd]
    · simp [Sender.message, requestSent, hd]
  | _ => simp [Sender.message, requestSent]

/-- `responses` is closed by `processMessages` only. -/
theorem closes_next_of_not_loopAction (hfresh : (s.contexts s.created).closes = 0) (ha : ¬ LoopAction a) (c : ℕ) :
    ((s.next a).contexts c).closes = (s.contexts c).closes := by
  have h := contexts_next s a c
  generalize (s.next a).contexts c = m at h
  cases h with
  | admitSend hc => rw [hc, hfresh]
  | closed h => rcases h with ⟨id, q, rfl⟩ | ⟨id, rfl⟩ <;> exact absurd trivial ha
  | skipped h => rcases h with ⟨r, t, rfl⟩ | ⟨r, rfl⟩ <;> exact absurd trivial ha
  | received => exact absurd trivial ha
  | _ => rfl

theorem closes_next_push (s : Conn) (x : Sender) (c : ℕ) :
    ((s.next (.push x)).contexts c).closes = (s.contexts c).closes := by
  have h := contexts_next s (.push x) c
  generalize (s.next (.push x)).contexts c = m at h
  cases h with
  | closed h => rcases h with ⟨id, q, h⟩ | ⟨id, h⟩ <;> cases h
  | skipped h => rcases h with ⟨r, t, h⟩ | ⟨r, h⟩ <;> cases h
  | _ => rfl

theorem closes_update (f : ℕ → MessageContext) (c d k : ℕ) (m : MessageContext) (hm : m.closes = (f d).closes + k) :
    (Function.update f d m c).closes = (f c).closes + if c = d then k else 0 := by
  by_cases hc : c = d
  · subst hc
    simp [hm]
  · simp [hc]

theorem closes_endSend {c d : ℕ} {r : Response} {t : Bool} {n : AfterSend} (ha : EndsSend d r t n a) :
    ((s.next a).contexts c).closes = (s.contexts c).closes + if c = d then closesAfter n else 0 := by
  rcases ha with ⟨i, rfl⟩ | rfl | ⟨-, rfl⟩
  · rw [next, afterSend_contexts]
    simp only [setContext, setPc, setClient, Function.update_self, Function.update_idem]
    exact closes_update _ _ _ _ _ rfl
  · rw [next, afterSend_contexts]
    exact closes_update _ _ _ _ _ rfl
  · rw [next, afterSend_contexts]
    exact closes_update _ _ _ _ _ rfl

theorem StartsSend.frame {m : Message} {q : List Message} {d : ℕ} {r : Response} {n : AfterSend}
    (h : StartsSend s a m q d r n) (c : ℕ) : m ≠ .request c ∧ n ≠ .closeFailed ∧ requestSent c a = 0 ∧
      ((s.next a).contexts c).closes = (s.contexts c).closes ∧ ∃ id, (id, d) ∈ s.messageContexts := by
  cases h with
  | response h | timeout h => exact ⟨by simp, by simp, rfl, rfl, _, h⟩

theorem Ignores.frame {m : Message} {q : List Message} (h : Ignores s a m q) (c : ℕ) :
    m ≠ .request c ∧ requestSent c a = 0 ∧ ((s.next a).contexts c).closes = (s.contexts c).closes := by
  cases h <;> exact ⟨by simp, rfl, rfl⟩

theorem EndsSend.requestSent {c d : ℕ} {r : Response} {t : Bool} {n : AfterSend} (h : EndsSend d r t n a) :
    requestSent c a = 0 := by
  rcases h with ⟨i, rfl⟩ | rfl | ⟨-, rfl⟩ <;> rfl

/-- A step keeps the number of places of a context, unless it sends its request. -/
theorem Placed.places_next (h : s.Placed) (hd : s.IdsDistinct) (hfresh : (s.contexts s.created).closes = 0)
    (he : s.Enabled a) (c : ℕ) : (s.next a).places c = s.places c + requestSent c a := by
  have hstep := loop_next he
  have hother := closes_next_of_not_loopAction (a := a) hfresh
  unfold places
  generalize (s.next a).chanMessage = q', (s.next a).proc = pc, (s.next a).messageContexts = mc at hstep
  cases hstep with
  | other ha => rw [hother ha, requestSent_of_not_loopAction ha, Nat.add_zero]
  | @pushed x =>
    rw [closes_next_push, List.count_append, count_message]
    omega
  | quitPushed => simp [next, requestSent]
  | takeQuit hp hq => simp [next, requestSent, hp, hq, handling]
  | takeNil hp => simp [next, requestSent, hp, handling]
  | @takeRequest d q hp hq =>
    -- from the queue into the hands of `processMessages`
    have hcount : (Message.request d :: q').count (.request c) = q'.count (.request c) + if d = c then 1 else 0 := by
      rw [List.count_cons]
      simp
    rw [hq, hp, hcount]
    simp only [next, requestSent, handling, Option.some.injEq, reduceCtorEq, if_false]
    omega
  | @writeOk d hp =>
    -- from there into `messageContexts`
    rw [h.registrations_register hd (by rw [hp]; rfl), hp]
    have hcloses : ((s.next (.writeOk d)).contexts c).closes = (s.contexts c).closes := by
      have := closes_update s.contexts c d 0 { s.contexts d with timer := if s.requestTimeout then .armed else .off } rfl
      simpa [next] using this
    rw [hcloses]
    simp only [requestSent, handling, Option.some.injEq, reduceCtorEq, if_false, eq_comm (a := d)]
    omega
  | writeFail hp => simp [next, requestSent, hp, handling]
  | startSend ha hp hq =>
    obtain ⟨hm, hn, hsent, hcloses, -⟩ := ha.frame c
    rw [hcloses, hsent, hq, hp, List.count_cons_of_ne hm, handling_sending_of_ne hn]
    rfl
  | ignored ha hp hq =>
    obtain ⟨hm, hsent, hcloses⟩ := ha.frame c
    rw [hcloses, hsent, hq, hp, List.count_cons_of_ne hm, Nat.add_zero]
  | @takeFinish id d _ hp hq hmem =>
    -- off `messageContexts` and closed
    have hcloses : ((s.next (.takeFinish id d q')).contexts c).closes = (s.contexts c).closes + if c = d then 1 else 0 :=
      closes_update _ _ _ _ _ rfl
    have hreg := h.registrations_delete hd hmem c
    rw [hcloses, hq, hp, List.count_cons_of_ne (by simp)]
    simp only [requestSent]
    omega
  | @endSend _ d r t n ha hp =>
    rw [closes_endSend ha, ha.requestSent, hp, handling_procAfter]
    cases n with
    | resume => simp [registryAfter, unregisters, closesAfter, handling]
    | closeFailed =>
      simp only [registryAfter, unregisters, closesAfter, handling, Option.some.injEq, reduceCtorEq, if_false,
        eq_comm (a := d)]
      omega
    | drop =>
      have hreg := h.registrations_delete hd (h.sending d r t .drop hp (by simp)) c
      simp only [registryAfter, unregisters, closesAfter, handling, reduceCtorEq, if_false, if_true]
      omega
    | cleanup =>
      have hreg := h.registrations_delete hd (h.sending d r t .cleanup hp (by simp)) c
      simp only [registryAfter, unregisters, closesAfter, handling, reduceCtorEq, if_false, if_true]
      omega
  | @cleanupClose id d hp hmem =>
    have hcloses : ((s.next (.cleanupClose id d)).contexts c).closes = (s.contexts c).closes + if c = d then 1 else 0 :=
      closes_update _ _ _ _ _ rfl
    have hreg := h.registrations_delete hd hmem c
    rw [hcloses, hp]
    simp only [requestSent]
    omega
  | cleanupSend hp => simp [next, requestSent, hp, handling]
  | cleanupEnd hp => simp [next, requestSent, hp, handling]

theorem context_id (s : Conn) (a : Action) {c : ℕ} (hc : c ≠ s.created) :
    ((s.next a).contexts c).id = (s.contexts c).id := by
  unfold MessageContext.id
  rw [(context_static s a hc).2.1]

/-- A request is accepted by being put into the queue, and stays accepted. -/
theorem accepted_next (hn : s.Numbered) (ho : s.OpenOk) (hm : s.MutexOk) (he : s.Enabled a) (c : ℕ) :
    (if ((s.next a).contexts c).stage = .accepted then 1 else 0) =
      (if (s.contexts c).stage = .accepted then 1 else 0) + requestSent c a := by
  by_cases hsend : ∃ i, a = .push (.request i c)
  · obtain ⟨i, rfl⟩ := hsend
    have hst : (s.contexts c).stage = .admitted := ho.admitted i c (hm.holder _ he.1).1
    have hst' : ((s.next (.push (.request i c))).contexts c).stage = .accepted := by simp [next, Sender.sent]
    rw [hst, hst']
    simp [requestSent]
  · have hzero : requestSent c a = 0 := by
      cases a with
      | push x =>
        cases x with
        | request i d =>
          refine if_neg ?_
          rintro rfl
          exact hsend ⟨i, rfl⟩
        | _ => rfl
      | _ => rfl
    rw [hzero, Nat.add_zero]
    have hctx := contexts_next s a c
    generalize (s.next a).contexts c = m at hctx
    cases hctx with
    | admitSend hc =>
      have hold : (s.contexts c).stage ≠ .accepted := fun hacc => Nat.ne_of_lt (hn.accepted c hacc).1 hc
      rw [if_neg hold, if_neg (by simp)]
    | @accepted i => exact absurd ⟨i, rfl⟩ hsend
    | @rejected i =>
      have hst : (s.contexts c).stage = .admitted := ho.admitted i c he.1
      rw [hst]
      rfl
    | _ => rfl

theorem Placed.entry_next (h : s.Placed) (hn : s.Numbered) (he : s.Enabled a) :
    ∀ e ∈ (s.next a).messageContexts, e.1 = ((s.next a).contexts e.2).id := by
  have hlt : ∀ {c : ℕ}, (s.contexts c).stage = .accepted → ((s.next a).contexts c).id = (s.contexts c).id :=
    fun hacc => context_id s a (Nat.ne_of_lt (hn.accepted _ hacc).1)
  have hold : ∀ e ∈ s.messageContexts, e.1 = ((s.next a).contexts e.2).id := by
    intro e hmem
    rw [hlt (h.accepted_of_mem hmem)]
    exact h.entry e hmem
  have hdel : ∀ id, ∀ e ∈ s.messageContexts.filter (·.1 ≠ id), e.1 = ((s.next a).contexts e.2).id :=
    fun id e hmem => hold e (List.mem_of_mem_filter hmem)
  have hstep := loop_next he
  generalize (s.next a).chanMessage = q', (s.next a).proc = pc, (s.next a).messageContexts = mc at hstep
  cases hstep with
  | @writeOk d hp =>
    intro e hmem
    rcases List.mem_cons.mp hmem with rfl | hmem
    · exact (hlt (h.accepted_of_handling (by rw [hp]; rfl))).symm
    · exact hdel _ e hmem
  | takeFinish | cleanupClose => exact hdel _
  | @endSend _ d r t n =>
    unfold registryAfter
    split_ifs
    · exact hdel _
    · exact hold
  | _ => exact hold

/-- A response is being sent to a registered context, or to one whose write failed; a packet goes to its ID. -/
theorem Placed.sending_next (h : s.Placed) (hn : s.Numbered) (he : s.Enabled a) {c : ℕ} {r : Response} {t : Bool}
    {n : AfterSend} (hp : (s.next a).proc = .sending c r t n) :
    (n ≠ .closeFailed → (((s.next a).contexts c).id, c) ∈ (s.next a).messageContexts) ∧
    ∀ p, r = .packet p → p.id = ((s.next a).contexts c).id := by
  have hid : ∀ {id : MsgId} {c : ℕ}, (id, c) ∈ s.messageContexts → id = ((s.next a).contexts c).id := by
    intro id c hmem
    rw [context_id s a (Nat.ne_of_lt (hn.accepted _ (h.accepted_of_mem hmem)).1)]
    exact h.entry _ hmem
  have hold : s.proc = .sending c r t n → (n ≠ .closeFailed → (((s.next a).contexts c).id, c) ∈ s.messageContexts) ∧
      ∀ p, r = .packet p → p.id = ((s.next a).contexts c).id := by
    intro hp
    rw [context_id s a (Nat.ne_of_lt (hn.accepted c (h.accepted_of_sending hp)).1)]
    refine ⟨h.sending c r t n hp, ?_⟩
    rintro p rfl
    exact h.offered c p t n hp
  have hstep := loop_next he
  generalize (s.next a).chanMessage = q', (s.next a).proc = pc, (s.next a).messageContexts = mc at hstep hp
  cases hstep with
  | other | pushed | quitPushed => exact hold hp
  | writeFail =>
    cases hp
    exact ⟨fun h => absurd rfl h, by simp⟩
  | startSend ha =>
    cases hp
    cases ha with
    | response hmem =>
      refine ⟨fun _ => hid hmem ▸ hmem, ?_⟩
      intro p heq
      obtain rfl := Response.packet.inj heq
      exact hid hmem
    | timeout hmem => exact ⟨fun _ => hid hmem ▸ hmem, by simp⟩
  | cleanupSend _ hmem =>
    cases hp
    exact ⟨fun _ => hid hmem ▸ hmem, by simp⟩
  | @endSend _ _ _ _ n' => cases n' <;> cases hp
  | _ => cases hp

theorem placed_next (h : s.Placed) (hd : s.IdsDistinct) (hn : s.Numbered) (ho : s.OpenOk) (hm : s.MutexOk)
    (he : s.Enabled a) : (s.next a).Placed where
  place c := by
    have hfresh : (s.contexts s.created).closes = 0 := by
      have hplace := h.place s.created
      rw [if_neg fun hacc => Nat.lt_irrefl _ (hn.accepted _ hacc).1] at hplace
      unfold places at hplace
      omega
    rw [h.places_next hd hfresh he, h.place c, accepted_next hn ho hm he]
  entry := h.entry_next hn he
  sending _ _ _ _ hp := (h.sending_next hn he hp).1
  offered _ _ _ _ hp := (h.sending_next hn he hp).2 _ rfl

theorem placed_of_reachable {b : Bool} (h : (machine b).Reachable s) : s.idsIssued ≤ 2 ^ 64 → s.Placed := by
  refine h.invariant_of (P := fun s => s.idsIssued ≤ 2 ^ 64 → s.Placed)
    (Q := fun s => s.Numbered ∧ s.OpenOk ∧ s.MutexOk) ?_ (fun _ => placed_start b) ?_
  · exact fun s hs => ⟨numbered_of_reachable hs, openOk_of_reachable hs, mutexOk_of_reachable hs⟩
  · rintro s a ⟨hn, ho, hm⟩ ih he - hids
    have hle : s.idsIssued ≤ 2 ^ 64 := by
      have hids' : (s.next a).idsIssued ≤ 2 ^ 64 := hids
      rcases idsIssued_next s a with ⟨hsame, -⟩ | ⟨-, hsucc⟩ <;> omega
    exact placed_next (ih hle) (fun c d => hn.id_injective hle) hn ho hm he

/-! ## The discipline of messages -/

inductive Place where
  | queued
  | handled
  | registered
  | closed
  deriving DecidableEq, Repr

/-- The context is there: its request in the queue, taken off the queue and being written or answered with the error of
the failed write, registered under its ID, or its `responses` closed. -/
def At (s : Conn) (c : ℕ) : Place → Prop
  | .queued => .request c ∈ s.chanMessage
  | .handled => s.proc = .writing c ∨ ∃ r t, s.proc = .sending c r t .closeFailed
  | .registered => ((s.contexts c).id, c) ∈ s.messageContexts
  | .closed => 0 < (s.contexts c).closes

theorem handling_eq_some {pc : ProcPc} {c : ℕ} :
    handling pc = some c ↔ pc = .writing c ∨ ∃ r t, pc = .sending c r t .closeFailed := by
  constructor
  · intro h
    unfold handling at h
    split at h
    · exact Or.inl (by rw [Option.some.inj h])
    · exact Or.inr ⟨_, _, by rw [Option.some.inj h]⟩
    · cases h
  · rintro (rfl | ⟨r, t, rfl⟩) <;> rfl

theorem Placed.registered_iff (h : s.Placed) {c : ℕ} : s.At c .registered ↔ 0 < registrations s.messageContexts c := by
  rw [registrations_pos]
  constructor
  · exact fun hmem => ⟨_, hmem⟩
  · rintro ⟨id, hmem⟩
    have hid : id = (s.contexts c).id := h.entry _ hmem
    show ((s.contexts c).id, c) ∈ s.messageContexts
    rwa [← hid]

/-- An accepted request is in exactly one place. -/
theorem Placed.existsUnique_place (h : s.Placed) {c : ℕ} (hc : (s.contexts c).stage = .accepted) :
    ∃! p, s.At c p := by
  have hone := h.place c
  rw [if_pos hc] at hone
  unfold places at hone
  have hq : s.At c .queued ↔ 0 < s.chanMessage.count (.request c) := List.count_pos_iff.symm
  have hh : s.At c .handled ↔ 0 < if handling s.proc = some c then 1 else 0 := by
    refine handling_eq_some.symm.trans ?_
    split_ifs with hif <;> simp [hif]
  have hr := h.registered_iff (c := c)
  have hcl : s.At c .closed ↔ 0 < (s.contexts c).closes := Iff.rfl
  have hsome : s.At c .queued ∨ s.At c .handled ∨ s.At c .registered ∨ s.At c .closed := by
    rw [hq, hh, hr, hcl]
    omega
  -- two different places would make two
  have honly : ∀ p p', s.At c p → s.At c p' → p = p' := by
    intro p p' hp hp'
    cases p <;> cases p' <;> first | rfl | (simp only [hq, hh, hr, hcl] at hp hp'; omega)
  rcases hsome with hp | hp | hp | hp <;> exact ⟨_, hp, fun p' hp' => honly _ _ hp' hp⟩

/-- When `processMessages` has ended, no context is registered. -/
theorem stopped_unregistered {b : Bool} (h : (machine b).Reachable s) : s.proc = .stopped → s.messageContexts = [] := by
  refine h.invariant (P := fun s => s.proc = .stopped → s.messageContexts = []) (fun hp => by cases hp) ?_
  intro s a ih he _
  show (s.next a).proc = .stopped → (s.next a).messageContexts = []
  have hstep := loop_next he
  generalize (s.next a).chanMessage = q', (s.next a).proc = pc, (s.next a).messageContexts = mc at hstep
  cases hstep with
  | other | pushed | quitPushed => exact ih
  | cleanupEnd _ hmc => exact fun _ => hmc
  | @endSend _ _ _ _ n => cases n <;> simp [procAfter]
  | _ => simp

/-- **The discipline of messages.**  In every reachable state in which at most `2 ^ 64` message IDs have been handed out:
the IDs of accepted requests are distinct; a packet is offered only to the context with its ID; `responses` of a context
is closed at most once, and not while something is sent to it; so is `chanMessage`; an accepted request is in exactly one
place; and when `processMessages` has ended, the `responses` of every accepted request is closed. -/
theorem message_discipline (b : Bool) (s : Conn) (h : (machine b).Reachable s) (hids : s.idsIssued ≤ 2 ^ 64) :
    (∀ c d, (s.contexts c).stage = .accepted → (s.contexts d).stage = .accepted →
      (s.contexts c).id = (s.contexts d).id → c = d) ∧
    (∀ c p t n, s.proc = .sending c (.packet p) t n → p.id = (s.contexts c).id) ∧
    (∀ c, (s.contexts c).closes ≤ 1 ∧ ∀ r t n, s.proc = .sending c r t n → (s.contexts c).closes = 0) ∧
    (s.chanMessageCloses ≤ 1 ∧ (∀ x, s.messageMutex = some (.push x) → s.chanMessageCloses = 0) ∧
      ∀ k, s.messageMutex = some (.quit k) → s.chanMessageCloses = 0) ∧
    (∀ c, (s.contexts c).stage = .accepted → ∃! p, s.At c p) ∧
    (s.proc = .stopped → ∀ c, (s.contexts c).stage = .accepted → (s.contexts c).closes = 1) := by
  have hplaced := placed_of_reachable h hids
  have hquit := quitPhase_of_reachable h
  refine ⟨fun c d => (numbered_of_reachable h).id_injective hids, hplaced.offered, fun c => ⟨?_, ?_⟩,
    hquit.chanMessageCloses, fun c => hplaced.existsUnique_place, fun hp c hc => ?_⟩
  · have hle := hplaced.le_one c
    unfold places at hle
    omega
  · -- the context is registered, or in hand
    intro r t n hp
    have hle := hplaced.le_one c
    unfold places at hle
    by_cases hn : n = .closeFailed
    · rw [hp, hn, handling, if_pos rfl] at hle
      omega
    · have hreg := hplaced.registered_iff.mp (hplaced.sending c r t n hp hn)
      omega
  · -- nothing is queued, in hand or registered
    have hone := hplaced.place c
    have hempty : s.chanMessage = [] := by
      cases hquit with
      | unsent _ _ hpast | queued _ _ _ hpast =>
        rw [hp] at hpast
        exact absurd trivial hpast
      | taken _ hq => exact hq
    rw [if_pos hc, places, hempty, hp, stopped_unregistered h hp] at hone
    simpa [handling, registrations] using hone

/-- A request that has been written. -/
theorem message_discipline_registered :
    ∃ s, (machine false).Reachable s ∧ s.idsIssued ≤ 2 ^ 64 ∧ (s.contexts 0).stage = .accepted ∧
      s.At 0 .registered ∧ ∃! p, s.At 0 p := by
  have hs := Machine.reachable_after (M := machine false) (sendRequest 0 0 0 ++ [.takeRequest 0 [], .writeOk 0])
    (by decide)
  exact ⟨_, hs, by decide, rfl, List.mem_singleton.mpr rfl,
    (message_discipline false _ hs (by decide)).2.2.2.2.1 0 rfl⟩

/-- A request that is being written is not in the queue any more, and neither registered nor closed; and the message IDs
of accepted requests repeat after `2 ^ 64` of them. -/
theorem request_being_written_in_none :
    (∃ s, (machine false).Reachable s ∧ (s.contexts 0).stage = .accepted ∧ ¬ s.At 0 .queued ∧ ¬ s.At 0 .registered ∧
      ¬ s.At 0 .closed) ∧
    ∃ s, (machine false).Reachable s ∧ ∃ c d, c ≠ d ∧ (s.contexts c).stage = .accepted ∧
      (s.contexts d).stage = .accepted ∧ (s.contexts c).id = (s.contexts d).id := by
  have hs := Machine.reachable_after (M := machine false) (sendRequest 0 0 0 ++ [.takeRequest 0 []]) (by decide)
  exact ⟨⟨_, hs, rfl, List.not_mem_nil, List.not_mem_nil, Nat.lt_irrefl 0⟩, messageIDs_wrap⟩

end Conn

end GoLdap
