import GoLdap.Conn.Ownership
import Mathlib.Data.Finset.Card
import Mathlib.Tactic.Push

/-!
# Conn.Outstanding — the count of outstanding requests and the StartTLS phase

`outstandingRequests` counts the messages between the critical section of `sendMessageWithFlags` and that of
`finishMessage`.  While `isStartingTLS` is set, the StartTLS message is the only one of them.
-/

namespace GoLdap

namespace Conn

variable {s : Conn} {a : Action}

/-- The contexts that are counted as outstanding. -/
def counted (s : Conn) : Finset ℕ := (Finset.range s.created).filter fun c => (s.contexts c).finished = false

theorem mem_counted {c : ℕ} : c ∈ s.counted ↔ c < s.created ∧ (s.contexts c).finished = false := by
  simp [counted]

theorem Owned.mem_counted (h : s.Owned) {c : ℕ} : c ∈ s.counted ↔ (s.contexts c).finished = false := by
  rw [Conn.mem_counted]
  refine ⟨fun hc => hc.2, fun hc => ⟨?_, hc⟩⟩
  by_contra hle
  rw [h.fresh c (by omega)] at hc
  cases hc

theorem Owned.mem_counted_of_held (h : s.Owned) {i c : ℕ} (hc : c ∈ holds (s.clients i)) : c ∈ s.counted :=
  h.mem_counted.mpr (h.held i c hc).2.2.1

theorem counted_admitSend (i : ℕ) (n : Option ℕ) :
    (s.next (.admitSend i n)).counted = insert s.created s.counted := by
  ext c
  rw [Finset.mem_insert, Conn.mem_counted, Conn.mem_counted]
  by_cases hc : c = s.created
  · simp [next, hc]
  · simp [next, hc]
    omega

theorem counted_decrement (i c : ℕ) : (s.next (.decrement i c)).counted = s.counted.erase c := by
  ext d
  rw [Finset.mem_erase, Conn.mem_counted, Conn.mem_counted]
  by_cases hd : d = c
  · simp [next, hd]
  · simp [next, hd]

theorem counted_next_of_ne (hadm : ∀ i n, a ≠ .admitSend i n) (hdec : ∀ i c, a ≠ .decrement i c)
    (hcr : (s.next a).created = s.created) : (s.next a).counted = s.counted := by
  ext c
  rw [Conn.mem_counted, Conn.mem_counted, hcr]
  refine and_congr_right fun hlt => ?_
  rcases context_finished s a (Nat.ne_of_lt hlt) with hf | ⟨⟨i, rfl⟩, -⟩
  · rw [hf]
  · exact absurd rfl (hdec i c)

/-- The count of outstanding requests, and the StartTLS message while the flag is set. -/
structure LedgerOk (s : Conn) : Prop where
  count : s.outstandingRequests = s.counted.card
  exclusive : s.isStartingTLS = true → ∃ c ∈ s.counted, (s.contexts c).startTLS = true ∧ ∀ d ∈ s.counted, d = c

theorem ledgerOk_start (b : Bool) : (start b).LedgerOk where
  count := rfl
  exclusive h := by cases h

theorem ledgerOk_next (h : s.LedgerOk) (ho : s.Owned) (he : s.Enabled a) : (s.next a).LedgerOk := by
  rcases ledger_next (s := s) (a := a) with ⟨i, n, rfl, -, hout, hflag⟩ | ⟨i, c, rfl, -, hout, hflag⟩ |
    ⟨hadm, hdec, hcr, hout, hflag⟩
  · -- a new context; a StartTLS request is admitted only if nothing is outstanding
    have hnew : s.created ∉ s.counted := fun hc => Nat.lt_irrefl _ (Conn.mem_counted.mp hc).1
    have hcounted := counted_admitSend (s := s) i n
    refine ⟨?_, fun hf => ?_⟩
    · rw [hout, hcounted, Finset.card_insert_of_notMem hnew, h.count]
      rfl
    · rw [hflag] at hf
      have hzero : s.counted.card = 0 := by
        have := he.2.2.2 hf
        rw [h.count] at this
        exact_mod_cast this
      rw [Finset.card_eq_zero] at hzero
      rw [hcounted, hzero]
      exact ⟨s.created, by simp, by simpa [next] using hf, by simp⟩
  · -- one context less; the flag is cleared
    have hc : c ∈ s.counted := ho.mem_counted_of_held (i := i) (by simp [holds_of_pc he.1, current])
    refine ⟨?_, fun hf => ?_⟩
    · have hpos : 0 < s.counted.card := Finset.card_pos.mpr ⟨c, hc⟩
      rw [hout, counted_decrement, Finset.card_erase_of_mem hc, h.count]
      omega
    · rw [hflag] at hf
      cases hf
  · have hcounted := counted_next_of_ne hadm hdec hcr
    refine ⟨by rw [hout, hcounted, h.count], fun hf => ?_⟩
    rw [hflag] at hf
    obtain ⟨c, hc, htls, honly⟩ := h.exclusive hf
    rw [hcounted]
    refine ⟨c, hc, ?_, honly⟩
    rw [(context_static s a (Nat.ne_of_lt (Conn.mem_counted.mp hc).1)).2.2]
    exact htls

theorem ledgerOk_of_reachable {b : Bool} (h : (machine b).Reachable s) : s.LedgerOk :=
  h.invariant_of (fun _ => owned_of_reachable) (ledgerOk_start b) fun _ _ ho hl he _ => ledgerOk_next hl ho he

/-! ## Accepted messages -/

/-- A message is refused only when the connection is closing. -/
def RejectedClosing (s : Conn) : Prop := ∀ c, c < s.created → (s.contexts c).stage = .rejected → s.closing = true

theorem rejectedClosing_next (h : s.RejectedClosing) (he : s.Enabled a) : (s.next a).RejectedClosing := by
  intro c hc hst
  by_cases hnew : c = s.created
  · exfalso
    rcases created_next s a with ⟨hn, -⟩ | ⟨i, n, rfl, -⟩
    · omega
    · simp [next, hnew] at hst
  · have hlt : c < s.created := by
      rcases created_next s a with ⟨hn, -⟩ | ⟨-, -, -, hn⟩ <;> omega
    refine closing_next.mpr (Or.inl ?_)
    rcases context_stage s a hnew with hsame | ⟨-, hacc⟩ | ⟨⟨i, rfl⟩, -⟩
    · exact h c hlt (hsame.symm.trans hst)
    · exact absurd (hacc.symm.trans hst) (by simp)
    · exact he.2.2

theorem rejectedClosing_of_reachable {b : Bool} (h : (machine b).Reachable s) : s.RejectedClosing :=
  h.invariant (P := RejectedClosing) (fun _ hc => by cases hc) fun _ _ hs he _ => rejectedClosing_next hs he

/-- The messages that were accepted and are not yet finished. -/
def unfinished (s : Conn) : Finset ℕ := s.counted.filter fun c => (s.contexts c).stage ≠ .rejected

theorem unfinished_eq_counted {b : Bool} (h : (machine b).Reachable s) (hc : s.closing = false) :
    s.unfinished = s.counted := by
  refine Finset.filter_true_of_mem fun c hmem hst => ?_
  rw [rejectedClosing_of_reachable h c (Conn.mem_counted.mp hmem).1 hst] at hc
  cases hc

/-- **StartTLS exclusion and request accounting.**  In every reachable state the counter does not underflow, and while
the connection is not closing it is the number of accepted messages not yet finished.  While `isStartingTLS` is set, the
StartTLS message is the only one of these, no step admits a message, and only the StartTLS request can be put into
`chanMessage`. -/
theorem outstandingRequests_eq_unfinished (b : Bool) (s : Conn) (h : (machine b).Reachable s) :
    0 ≤ s.outstandingRequests ∧ (s.closing = false → s.outstandingRequests = s.unfinished.card) ∧
    (s.isStartingTLS = true → ∃ c, (s.contexts c).startTLS = true ∧ s.unfinished ⊆ {c} ∧
      (s.closing = false → s.unfinished = {c}) ∧
      ∀ a, s.Enabled a → (∀ i n, a ≠ .admitSend i n) ∧ ∀ i d, a = .push (.request i d) → d = c) := by
  have hl := ledgerOk_of_reachable h
  have ho := owned_of_reachable h
  refine ⟨?_, fun hc => ?_, fun hf => ?_⟩
  · rw [hl.count]
    exact Int.natCast_nonneg _
  · rw [unfinished_eq_counted h hc, hl.count]
  · obtain ⟨c, hc, htls, honly⟩ := hl.exclusive hf
    refine ⟨c, htls, fun d hd => ?_, fun hcl => ?_, fun a he => ⟨?_, ?_⟩⟩
    · exact Finset.mem_singleton.mpr (honly d (Finset.mem_filter.mp hd).1)
    · rw [unfinished_eq_counted h hcl]
      exact Finset.eq_singleton_iff_unique_mem.mpr ⟨hc, honly⟩
    · rintro i n rfl
      rw [he.2.2.1] at hf
      cases hf
    · -- the sender of a request holds its context
      rintro i d rfl
      have hpc := ((mutexOk_of_reachable h).holder _ he.1).1
      exact honly d (ho.mem_counted_of_held (i := i) (by simp [holds_of_pc hpc, current]))

/-- A client in `StartTLS` whose request has been counted. -/
theorem outstandingRequests_eq_unfinished_startTLS :
    ∃ s : Conn, s.isStartingTLS = true ∧ s.closing = false ∧
      0 ≤ s.outstandingRequests ∧ (s.closing = false → s.outstandingRequests = s.unfinished.card) ∧
      (s.isStartingTLS = true → ∃ c, (s.contexts c).startTLS = true ∧ s.unfinished ⊆ {c} ∧
        (s.closing = false → s.unfinished = {c}) ∧
        ∀ a, s.Enabled a → (∀ i n, a ≠ .admitSend i n) ∧ ∀ i d, a = .push (.request i d) → d = c) := by
  have hs := Machine.reachable_after (M := machine false)
    [.beginTLS 0, .takeID 0, .checkSend 0 (some 0), .admitSend 0 (some 0)] (by decide)
  exact ⟨_, rfl, rfl, outstandingRequests_eq_unfinished false _ hs⟩

end Conn

end GoLdap
