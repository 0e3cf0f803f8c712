import GoLdap.Filter.Compile

/-!
# Filter.Total — the compiler always answers

Every recursive call of the compiler is at a later position, so the recursion depth the model allows is enough.  A panic
inside the compiler is recovered and leaves a nil packet without an error; the position it leaves is so small that
`CompileFilter` then complains about extra characters.  So a call returns a packet or an error.

The same goes for a failure of any nested call (`Calls`): a call that returns an error or a nil packet makes the call it
was made by do so too (`failed_of_calls`), although the error itself may be lost on the way.
-/

namespace GoLdap

open Go Ber

theorem scan_pos {s t : Scan} {pos n skip : ℕ} {rest : GoString} (h : scan s pos skip rest = .close t n) : pos ≤ n := by
  induction rest generalizing s pos skip with
  | nil => simp [scan] at h
  | cons b rest ih =>
    cases skip with
    | succ skip =>
      rw [scan] at h
      have := ih h
      omega
    | zero =>
      simp only [scan] at h
      split at h
      · rw [(ScanEnd.close.inj h).2]
      · split at h
        · cases h
        · have := ih h
          omega

section

variable {E : Encoder} {filter : GoString}

/-- An ASCII code point is the byte at its position. -/
theorem decodeRune_drop_eq {pos : ℕ} {b : UInt8} (hb : b.toNat < 0x80)
    (h : (decodeRune (filter.drop pos)).1 = b.toNat) :
    filter[pos]? = some b ∧ (decodeRune (filter.drop pos)).2 = 1 := by
  rw [← List.head?_drop]
  rcases decodeRune_cases (filter.drop pos) with herr | ⟨c, t, hc, ht⟩ | ⟨r, t, hv, hr, -, ht⟩
  · rw [herr] at h
    unfold runeError at h
    omega
  · rw [ht, decodeRune_ascii hc] at h ⊢
    exact ⟨by rw [List.head?_cons, UInt8.toNat_inj.mp h], rfl⟩
  · rw [ht, decodeRune_encodeRune hv] at h
    dsimp only at h
    omega

theorem compileItem_pos {pos n : ℕ} {packet : Packet} (h : compileItem E filter pos = ⟨some packet, n, none⟩) :
    pos ≤ n := by
  unfold compileItem at h
  split at h
  · simp at h
  · simp at h
  · rename_i s newPos hscan
    have hle := scan_pos hscan
    split at h
    · simp at h
    · split at h
      · simp at h
      · simp only [Compiled.mk.injEq] at h
        omega

theorem compileItem_packet {pos n : ℕ} : compileItem E filter pos ≠ ⟨none, n, none⟩ := by
  unfold compileItem
  split
  · simp
  · simp
  · split
    · simp
    · split <;> simp

/-- What a call of `compileFilter` does, by the byte it finds; the recursive calls are at the next position. -/
inductive CompileStep (E : Encoder) (filter : GoString) (fuel pos : ℕ) : Option Compiled → Prop
  | outside (hpos : filter.length < pos) : CompileStep E filter fuel pos (some .recovered)
  | badRune (e : Err) : CompileStep E filter fuel pos (some ⟨none, 0, some e⟩)
  | nested (hpos : filter[pos]? = some (ch '(')) : CompileStep E filter fuel pos
      ((compileFilterAt E filter fuel (pos + 1)).map fun c => { c with pos := c.pos + 1 })
  | set {tag : ℕ} {op : UInt8} (hop : (tag, op) ∈ setOps) (hpos : filter[pos]? = some op) : CompileStep E filter fuel pos
      ((compileFilterSet E filter fuel (pos + 1) (filterPacket tag)).map SetResult.compiled)
  | not (hpos : filter[pos]? = some (ch '!')) : CompileStep E filter fuel pos
      ((compileFilterAt E filter fuel (pos + 1)).map (Compiled.negated E))
  | item (hpos : ∀ b ∈ filter[pos]?, b ∉ [ch '(', ch '&', ch '|', ch '!']) :
      CompileStep E filter fuel pos (some (compileItem E filter pos))

theorem compileFilterAt_succ (fuel pos : ℕ) :
    CompileStep E filter fuel pos (compileFilterAt E filter (fuel + 1) pos) := by
  by_cases hout : pos > filter.length
  · rw [compileFilterAt, if_pos hout]
    exact .outside hout
  by_cases hopen : filter[pos]? = some (ch '(')
  · rw [compileFilterAt_eq_open hopen]
    exact .nested hopen
  by_cases hset : ∃ tag op, (tag, op) ∈ setOps ∧ filter[pos]? = some op
  · obtain ⟨tag, op, hop, hpos⟩ := hset
    rw [compileFilterAt_eq_set hop hpos]
    exact .set hop hpos
  by_cases hnot : filter[pos]? = some (ch '!')
  · rw [compileFilterAt_eq_not hnot]
    exact .not hnot
  have hop : ∀ tag op, (tag, op) ∈ setOps → filter[pos]? ≠ some op := fun tag op h h' => hset ⟨tag, op, h, h'⟩
  have hand := hop filterAnd (ch '&') (by simp [setOps])
  have hor := hop filterOr (ch '|') (by simp [setOps])
  -- none of the operators is decoded, since none is there
  have hrune : ∀ {b : UInt8}, b.toNat < 0x80 → filter[pos]? ≠ some b → (decodeRune (filter.drop pos)).1 ≠ b.toNat :=
    fun hb hne h => hne (decodeRune_drop_eq hb h).1
  rw [compileFilterAt, if_neg hout]
  dsimp only
  rw [if_neg (hrune (by decide) hopen), if_neg (hrune (by decide) hand), if_neg (hrune (by decide) hor),
    if_neg (hrune (by decide) hnot)]
  split_ifs with herr
  · exact .badRune _
  · refine .item fun b hb hmem => ?_
    simp only [List.mem_cons, List.not_mem_nil, or_false] at hmem
    rcases hmem with rfl | rfl | rfl | rfl
    · exact hopen hb
    · exact hand hb
    · exact hor hb
    · exact hnot hb

/-- A packet that is compiled without an error ends at a later position. -/
theorem compile_pos (fuel : ℕ) :
    (∀ {pos n : ℕ} {packet : Packet}, compileFilterAt E filter fuel pos = some ⟨some packet, n, none⟩ → pos ≤ n) ∧
    ∀ {pos n : ℕ} {parent packet : Packet},
      compileFilterSet E filter fuel pos parent = some (.done packet n none) → pos ≤ n := by
  induction fuel with
  | zero => simp [compileFilterAt, compileFilterSet]
  | succ fuel ih =>
    obtain ⟨ihAt, ihSet⟩ := ih
    constructor
    · intro pos n packet h
      have hstep := @compileFilterAt_succ E filter fuel pos
      rw [h] at hstep
      generalize hc : some (⟨some packet, n, none⟩ : Compiled) = c at hstep
      cases hstep with
      | outside => simp [Compiled.recovered] at hc
      | badRune e => simp at hc
      | nested hpos =>
        obtain ⟨⟨p, m, e⟩, hcall, hc⟩ := Option.map_eq_some_iff.mp hc.symm
        simp only [Compiled.mk.injEq] at hc
        obtain ⟨rfl, rfl, rfl⟩ := hc
        have := ihAt hcall
        omega
      | set hop hpos =>
        obtain ⟨_ | ⟨p, m, e⟩, hcall, hc⟩ := Option.map_eq_some_iff.mp hc.symm
        · simp [SetResult.compiled, Compiled.recovered] at hc
        · simp only [SetResult.compiled, Compiled.mk.injEq] at hc
          obtain ⟨-, rfl, rfl⟩ := hc
          have := ihSet hcall
          omega
      | not hpos =>
        obtain ⟨⟨_ | p, m, e⟩, hcall, hc⟩ := Option.map_eq_some_iff.mp hc.symm
        · simp [Compiled.negated, Compiled.recovered] at hc
        · simp only [Compiled.negated, Compiled.mk.injEq] at hc
          obtain ⟨-, rfl, rfl⟩ := hc
          have := ihAt hcall
          omega
      | item => exact compileItem_pos (Option.some.inj hc).symm
    · intro pos n parent packet h
      rw [compileFilterSet] at h
      split at h
      · split at h
        · cases h
        · cases h
        · cases h
        · rename_i child newPos hchild
          have h1 := ihAt hchild
          have h2 := ihSet h
          omega
      · split at h
        · cases h
        · simp only [Option.some.injEq, SetResult.done.injEq] at h
          omega

/-- A recursion depth of one for each byte that is left is enough. -/
theorem compile_fuel (fuel : ℕ) :
    (∀ {pos : ℕ}, 0 < fuel → filter.length < pos + fuel → compileFilterAt E filter fuel pos ≠ none) ∧
    ∀ {pos : ℕ} {parent : Packet}, 0 < fuel → filter.length < pos + fuel →
      compileFilterSet E filter fuel pos parent ≠ none := by
  induction fuel with
  | zero => simp
  | succ fuel ih =>
    obtain ⟨ihAt, ihSet⟩ := ih
    constructor
    · intro pos _ hfuel
      have hstep := @compileFilterAt_succ E filter fuel pos
      generalize compileFilterAt E filter (fuel + 1) pos = c at hstep
      cases hstep with
      | outside | badRune | item => exact Option.some_ne_none _
      | nested hpos | not hpos =>
        have hlt := (List.getElem?_eq_some_iff.mp hpos).1
        have hcall : compileFilterAt E filter fuel (pos + 1) ≠ none := ihAt (by omega) (by omega)
        simpa using hcall
      | @set tag op hop hpos =>
        have hlt := (List.getElem?_eq_some_iff.mp hpos).1
        have hcall : compileFilterSet E filter fuel (pos + 1) (filterPacket tag) ≠ none := ihSet (by omega) (by omega)
        simpa using hcall
    · intro pos parent _ hfuel
      rw [compileFilterSet]
      split
      · rename_i hopen
        have hlt : pos < filter.length := (List.getElem?_eq_some_iff.mp hopen).1
        have hcall : compileFilterAt E filter fuel (pos + 1) ≠ none := ihAt (by omega) (by omega)
        split
        · exact absurd ‹_› hcall
        · exact Option.some_ne_none _
        · exact Option.some_ne_none _
        · rename_i child newPos hchild
          have hnext := (compile_pos fuel).1 hchild
          exact ihSet (by omega) (by omega)
      · split <;> exact Option.some_ne_none _

/-- The position of a nil packet without an error counts the parentheses around the panic. -/
theorem compile_nil (fuel : ℕ) {pos n : ℕ} (hle : pos ≤ filter.length)
    (h : compileFilterAt E filter fuel pos = some ⟨none, n, none⟩) : n + pos < filter.length := by
  induction fuel generalizing pos n with
  | zero => cases h
  | succ fuel ih =>
    have hstep := @compileFilterAt_succ E filter fuel pos
    rw [h] at hstep
    generalize hc : some (⟨none, n, none⟩ : Compiled) = c at hstep
    cases hstep with
    | outside => omega
    | badRune e => simp at hc
    | nested hpos =>
      have hlt := (List.getElem?_eq_some_iff.mp hpos).1
      obtain ⟨⟨p, m, e⟩, hcall, hc⟩ := Option.map_eq_some_iff.mp hc.symm
      simp only [Compiled.mk.injEq] at hc
      obtain ⟨rfl, rfl, rfl⟩ := hc
      have := ih hlt hcall
      omega
    | set hop hpos =>
      have hlt := (List.getElem?_eq_some_iff.mp hpos).1
      obtain ⟨_ | ⟨p, m, e⟩, hcall, hc⟩ := Option.map_eq_some_iff.mp hc.symm
      · simp only [SetResult.compiled, Compiled.recovered, Compiled.mk.injEq] at hc
        omega
      · simp [SetResult.compiled] at hc
    | not hpos =>
      have hlt := (List.getElem?_eq_some_iff.mp hpos).1
      obtain ⟨⟨_ | p, m, e⟩, hcall, hc⟩ := Option.map_eq_some_iff.mp hc.symm
      · simp only [Compiled.negated, Compiled.recovered, Compiled.mk.injEq] at hc
        omega
      · simp [Compiled.negated] at hc
    | item => exact absurd (Option.some.inj hc).symm compileItem_packet

/-- A call of `compileFilter` from which no packet can be used. -/
def Compiled.Failed (c : Compiled) : Prop := c.err ≠ none ∨ c.packet = none

/-- What `CompileFilter` makes of a first call that failed. -/
theorem compileFilter_of_failed {c : Compiled} (hopen : filter.head? = some (ch '('))
    (hcall : compileFilterAt E filter (filter.length + 2) 1 = some c) (hc : c.Failed) :
    ∃ e, compileFilter E filter = some (.error e) := by
  have hlen : 1 ≤ filter.length := List.length_pos_of_mem (List.mem_of_mem_head? hopen)
  unfold compileFilter compileFilterFuel
  rw [if_neg (not_not.mpr hopen), hcall]
  obtain ⟨packet, pos, _ | e⟩ := c
  · obtain rfl : packet = none := hc.resolve_left fun h => h rfl
    have hlt := compile_nil _ hlen hcall
    dsimp only
    rw [if_neg (by omega), if_pos (by omega)]
    exact ⟨_, rfl⟩
  · exact ⟨e, rfl⟩

/-- `CompileFilter` returns a packet or an error. -/
theorem compileFilter_total (E : Encoder) (filter : GoString) :
    (∃ packet, compileFilter E filter = some (.ok (some packet))) ∨ ∃ e, compileFilter E filter = some (.error e) := by
  unfold compileFilter compileFilterFuel
  split
  · exact .inr ⟨_, rfl⟩
  · rename_i hopen
    have hlen : 1 ≤ filter.length := by
      rw [not_not] at hopen
      exact List.length_pos_of_mem (List.mem_of_mem_head? hopen)
    have hfuel : compileFilterAt E filter (filter.length + 2) 1 ≠ none := (compile_fuel _).1 (by omega) (by omega)
    split
    · exact absurd ‹_› hfuel
    · exact .inr ⟨_, rfl⟩
    · rename_i packet pos hcall
      split
      · exact .inr ⟨_, rfl⟩
      · split
        · exact .inr ⟨_, rfl⟩
        · cases packet with
          | some packet => exact .inl ⟨packet, rfl⟩
          | none =>
            have := compile_nil _ hlen hcall
            omega

/-! ## Nested calls -/

section Nested

variable (E) (filter)

/-- The calls of `compileFilter` that a call of `compileFilterSet` makes, each with the recursion depth left for it.  The
loop goes on behind a child only if that was compiled. -/
inductive SetCalls : ℕ → ℕ → ℕ → ℕ → Prop
  | child {fuel pos : ℕ} (hopen : filter[pos]? = some (ch '(')) : SetCalls (fuel + 1) pos fuel (pos + 1)
  | next {fuel pos newPos fuel' pos' : ℕ} {child : Packet} (hopen : filter[pos]? = some (ch '('))
      (hchild : compileFilterAt E filter fuel (pos + 1) = some ⟨some child, newPos, none⟩)
      (hrest : SetCalls fuel newPos fuel' pos') : SetCalls (fuel + 1) pos fuel' pos'

/-- The calls of `compileFilter` that a call of `compileFilter` makes, by the byte it finds. -/
inductive Calls : ℕ × ℕ → ℕ × ℕ → Prop
  | nested {fuel pos : ℕ} (hpos : filter[pos]? = some (ch '(')) : Calls (fuel + 1, pos) (fuel, pos + 1)
  | not {fuel pos : ℕ} (hpos : filter[pos]? = some (ch '!')) : Calls (fuel + 1, pos) (fuel, pos + 1)
  | set {fuel pos fuel' pos' : ℕ} {tag : ℕ} {op : UInt8} (hop : (tag, op) ∈ setOps) (hpos : filter[pos]? = some op)
      (hset : SetCalls E filter fuel (pos + 1) fuel' pos') : Calls (fuel + 1, pos) (fuel', pos')

/-- The calls that `CompileFilter` makes, directly or through other calls. -/
def Reached (fuel pos : ℕ) : Prop :=
  Relation.ReflTransGen (Calls E filter) (filter.length + 2, 1) (fuel, pos)

variable {E} {filter}

/-- A failed child ends the loop of `compileFilterSet` with an error or a panic. -/
theorem failed_of_setCalls {fuel pos fuel' pos' : ℕ} (h : SetCalls E filter fuel pos fuel' pos') {c : Compiled}
    (hcall : compileFilterAt E filter fuel' pos' = some c) (hc : c.Failed) (parent : Packet) :
    ∃ r, compileFilterSet E filter fuel pos parent = some r ∧ r.compiled.Failed := by
  induction h generalizing parent with
  | child hopen =>
    rw [compileFilterSet, if_pos hopen, hcall]
    obtain ⟨packet, n, _ | e⟩ := c
    · obtain rfl : packet = none := hc.resolve_left fun h => h rfl
      exact ⟨.panic, rfl, .inr rfl⟩
    · exact ⟨.done parent _ (some e), rfl, .inl (by simp [SetResult.compiled])⟩
  | next hopen hchild _ ih =>
    rw [compileFilterSet, if_pos hopen, hchild]
    exact ih hcall _

/-- **A failed call fails the call it was made by.** -/
theorem failed_of_calls {q q' : ℕ × ℕ} (h : Calls E filter q q') {c : Compiled}
    (hcall : compileFilterAt E filter q'.1 q'.2 = some c) (hc : c.Failed) :
    ∃ c, compileFilterAt E filter q.1 q.2 = some c ∧ c.Failed := by
  cases h with
  | nested hpos =>
    rw [compileFilterAt_eq_open hpos, hcall]
    exact ⟨_, rfl, hc⟩
  | not hpos =>
    rw [compileFilterAt_eq_not hpos, hcall]
    refine ⟨_, rfl, ?_⟩
    -- a nil packet panics, and only a packet keeps its error
    obtain ⟨_ | child, n, e⟩ := c
    · exact .inr rfl
    · exact .inl (hc.resolve_right fun h => by cases h)
  | set hop hpos hset =>
    obtain ⟨r, hr, hfailed⟩ := failed_of_setCalls hset hcall hc (filterPacket _)
    rw [compileFilterAt_eq_set hop hpos, hr]
    exact ⟨_, rfl, hfailed⟩

/-- The first call fails with any call that is reached from it. -/
theorem failed_of_reached {q : ℕ × ℕ} (h : Relation.ReflTransGen (Calls E filter) (filter.length + 2, 1) q)
    {c : Compiled} (hcall : compileFilterAt E filter q.1 q.2 = some c) (hc : c.Failed) :
    ∃ c, compileFilterAt E filter (filter.length + 2) 1 = some c ∧ c.Failed := by
  induction h generalizing c with
  | refl => exact ⟨c, hcall, hc⟩
  | tail _ hstep ih =>
    obtain ⟨c', hcall', hc'⟩ := failed_of_calls hstep hcall hc
    exact ih hcall' hc'

end Nested

/-- **A failing subfilter fails the whole compilation.**  `CompileFilter` returns a packet or an error, and it returns an
error whenever a call that it makes, directly or through others, returns an error or a nil packet. -/
theorem compileFilter_failed (E : Encoder) (filter : GoString) :
    ((∃ packet, compileFilter E filter = some (.ok (some packet))) ∨ ∃ e, compileFilter E filter = some (.error e)) ∧
      ∀ fuel pos c, filter.head? = some (ch '(') → Reached E filter fuel pos →
        compileFilterAt E filter fuel pos = some c → (c.err ≠ none ∨ c.packet = none) →
        ∃ e, compileFilter E filter = some (.error e) := by
  refine ⟨compileFilter_total E filter, fun fuel pos c hopen hreached hcall hc => ?_⟩
  obtain ⟨c', hcall', hc'⟩ := failed_of_reached hreached hcall hc
  exact compileFilter_of_failed hopen hcall' hc'

end

/-- A negated filter that is empty. -/
theorem compileFilter_failed_not :
    ∃ c, Reached shortEncoder (str "(!)") 4 2 ∧ compileFilterAt shortEncoder (str "(!)") 4 2 = some c ∧ c.err ≠ none ∧
      ∃ e, compileFilter shortEncoder (str "(!)") = some (.error e) := by
  have hreached : Reached shortEncoder (str "(!)") 4 2 := .single (.not rfl)
  have hcall : compileFilterAt shortEncoder (str "(!)") 4 2 =
      some ⟨none, 2, some (compileError (.new "ldap: error parsing filter"))⟩ := rfl
  refine ⟨_, hreached, hcall, by simp, ?_⟩
  exact (compileFilter_failed shortEncoder (str "(!)")).2 4 2 _ rfl hreached hcall (.inl (by simp))

end GoLdap
