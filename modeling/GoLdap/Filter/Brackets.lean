import GoLdap.Filter.Items
import GoLdap.Filter.Total

/-!
# Filter.Brackets — the parentheses of what the compiler accepts

`compileFilterSet` returns the position behind the byte at which its loop stopped, and a call that found a second
opening parenthesis adds one to the position of the inner call.  Neither looks at the byte that is passed over.  So the
compiler accepts a filter whose sets and inner parentheses are closed by any byte.

* `Reads`: what the compiler reads behind an opening parenthesis, with the packet it makes of it; `compileFilter_reads`:
  everything accepted has been read this way.
* `closers`: the bytes of a filter at which a set or an inner parenthesis has to be closed, read off the string;
  `items`: the texts between the brackets.
* `isFilter_iff_closers`: an accepted string is a well-bracketed filter if and only if these bytes are parentheses.
-/

namespace GoLdap

open Go Ber

/-! ## The language of filters -/

/-- The first byte of an item. -/
def FirstOfItem (b : UInt8) : Prop := b ∉ [ch '(', ch '&', ch '|', ch '!']

instance (b : UInt8) : Decidable (FirstOfItem b) := inferInstanceAs (Decidable (_ ∉ _))

/-- `comp ::= '&' filter* | '|' filter* | '!' comp | filter | item`, where `filter ::= '(' comp ')'`. -/
inductive IsComp : GoString → Prop
  | set {tag : ℕ} {op : UInt8} (hop : (tag, op) ∈ setOps) (comps : List GoString) (hcomps : ∀ c ∈ comps, IsComp c) :
      IsComp (op :: comps.flatMap fun c => ch '(' :: c ++ [ch ')'])
  | not {c : GoString} (hc : IsComp c) : IsComp (ch '!' :: c)
  | filter {c : GoString} (hc : IsComp c) : IsComp (ch '(' :: c ++ [ch ')'])
  | item {text : GoString} (hne : text ≠ []) (hclose : ch ')' ∉ text) (hfirst : ∀ b ∈ text.head?, FirstOfItem b) :
      IsComp text

/-- `filter ::= '(' comp ')'`. -/
def IsFilter (s : GoString) : Prop := ∃ c, s = ch '(' :: c ++ [ch ')'] ∧ IsComp c

/-! ## Items and closing bytes -/

/-- What is left of a filter string without its operators and opening parentheses. -/
inductive Token where
  | item (text : GoString)
  | closer (b : UInt8)
  deriving DecidableEq, Repr

/-- What has been opened and waits to be closed. -/
inductive Frame where
  | set
  | filter
  deriving DecidableEq, Repr

/-- Where a reader of brackets is: in front of a component, in an item, or behind a component. -/
inductive Phase where
  | comp
  | item (text : GoString)
  | done
  deriving DecidableEq, Repr

/-- The items and the closing bytes of a string, in order.  Behind a component, an inner parenthesis is closed by
whatever comes next, and a set by anything but another opening parenthesis. -/
def tokens : List Frame → Phase → GoString → List Token
  | _, _, [] => []
  | stack, .comp, b :: s =>
    if b = ch '(' then tokens (.filter :: stack) .comp s
    else if b = ch '&' ∨ b = ch '|' then tokens (.set :: stack) .done s
    else if b = ch '!' then tokens stack .comp s
    else if b = ch ')' then []
    else tokens stack (.item [b]) s
  | stack, .item text, b :: s =>
    if b = ch ')' then .item text :: tokens stack .done s else tokens stack (.item (text ++ [b])) s
  | .filter :: stack, .done, b :: s => .closer b :: tokens stack .done s
  | .set :: stack, .done, b :: s =>
    if b = ch '(' then tokens (.set :: stack) .comp s else .closer b :: tokens stack .done s
  | [], .done, _ :: _ => []

/-- The items and closing bytes of a filter string, behind its first parenthesis. -/
def filterTokens (s : GoString) : List Token := tokens [] .comp (s.drop 1)

def Token.closer? : Token → Option UInt8
  | .item _ => none
  | .closer b => some b

/-- The bytes of a filter string where a set, a negated or a doubled parenthesis has to be closed. -/
def closers (s : GoString) : List UInt8 := (filterTokens s).filterMap Token.closer?

theorem mem_closers {s : GoString} {b : UInt8} : b ∈ closers s ↔ .closer b ∈ filterTokens s := by
  unfold closers
  rw [List.mem_filterMap]
  constructor
  · rintro ⟨t, ht, hb⟩
    cases t with
    | item text => cases hb
    | closer c =>
      obtain rfl := Option.some.inj hb
      exact ht
  · exact fun h => ⟨_, h, rfl⟩

def Token.item? : Token → Option GoString
  | .item text => some text
  | .closer _ => none

/-- The item texts of a filter string. -/
def items (s : GoString) : List GoString := (filterTokens s).filterMap Token.item?

theorem mem_items {s text : GoString} : text ∈ items s ↔ .item text ∈ filterTokens s := by
  unfold items
  rw [List.mem_filterMap]
  constructor
  · rintro ⟨t, ht, htext⟩
    cases t with
    | item u =>
      obtain rfl := Option.some.inj htext
      exact ht
    | closer b => cases htext
  · exact fun h => ⟨_, h, rfl⟩

theorem tokens_item (stack : List Frame) : ∀ (text acc rest : GoString), ch ')' ∉ text →
    tokens stack (.item acc) (text ++ ch ')' :: rest) = .item (acc ++ text) :: tokens stack .done rest
  | [], acc, rest, _ => by simp [tokens]
  | b :: text, acc, rest, h => by
    simp only [List.mem_cons, not_or] at h
    rw [List.cons_append, tokens, if_neg (Ne.symm h.1), tokens_item stack text _ rest h.2, List.append_assoc]
    rfl

/-- The reader of brackets on an item. -/
theorem tokens_comp_item {text : GoString} (hne : text ≠ []) (hclose : ch ')' ∉ text)
    (hfirst : ∀ b ∈ text.head?, FirstOfItem b) (stack : List Frame) (rest : GoString) :
    tokens stack .comp (text ++ ch ')' :: rest) = .item text :: tokens stack .done rest := by
  obtain ⟨b, text, rfl⟩ := List.exists_cons_of_ne_nil hne
  have hb : FirstOfItem b := hfirst b (by simp)
  simp only [FirstOfItem, List.mem_cons, List.not_mem_nil, or_false, not_or] at hb hclose
  obtain ⟨hopen, hand, hor, hnot⟩ := hb
  rw [List.cons_append, tokens, if_neg hopen, if_neg (by simp [hand, hor]), if_neg hnot, if_neg (Ne.symm hclose.1),
    tokens_item stack text [b] rest hclose.2]
  rfl

theorem tokens_comp_filter (stack : List Frame) (rest : GoString) :
    tokens stack .comp (ch '(' :: rest) = tokens (.filter :: stack) .comp rest := by
  rw [tokens, if_pos rfl]

theorem tokens_comp_not (stack : List Frame) (rest : GoString) :
    tokens stack .comp (ch '!' :: rest) = tokens stack .comp rest := by
  rw [tokens, if_neg (by decide), if_neg (by decide), if_pos rfl]

theorem tokens_comp_set {tag : ℕ} {op : UInt8} (hop : (tag, op) ∈ setOps) (stack : List Frame) (rest : GoString) :
    tokens stack .comp (op :: rest) = tokens (.set :: stack) .done rest := by
  simp only [setOps, List.mem_cons, Prod.mk.injEq, List.not_mem_nil, or_false] at hop
  rcases hop with ⟨-, rfl⟩ | ⟨-, rfl⟩ <;> rw [tokens, if_neg (by decide), if_pos (by simp)]

/-- The reader of brackets on the filters of a set, when it knows what they consist of. -/
theorem tokens_set {α : Type} (text : α → GoString) (toks : α → List Token) (stack : List Frame) (rest : GoString) :
    ∀ {rs : List α}, (∀ r ∈ rs, ∀ stack rest, tokens stack .comp (text r ++ rest) = toks r ++ tokens stack .done rest) →
      tokens (.set :: stack) .done (rs.flatMap (fun r => ch '(' :: text r) ++ rest) =
        rs.flatMap toks ++ tokens (.set :: stack) .done rest
  | [], _ => rfl
  | r :: rs, h => by
    rw [List.flatMap_cons, List.flatMap_cons, List.append_assoc, List.cons_append, tokens, if_pos rfl, h r (by simp),
      tokens_set text toks stack rest fun r' hr' => h r' (by simp [hr']), List.append_assoc]

/-- In the language, everything is closed by a parenthesis. -/
theorem IsComp.tokens_eq {c : GoString} (h : IsComp c) : ∃ toks : List Token,
    (∀ b, .closer b ∈ toks → b = ch ')') ∧
    ∀ stack rest, tokens stack .comp (c ++ ch ')' :: rest) = toks ++ tokens stack .done rest := by
  induction h with
  | @set tag op hop comps _ ih =>
    choose! toks hclosed htoks using ih
    refine ⟨comps.flatMap toks ++ [.closer (ch ')')], ?_, fun stack rest => ?_⟩
    · intro b hb
      simp only [List.mem_append, List.mem_flatMap, List.mem_singleton, Token.closer.injEq] at hb
      rcases hb with ⟨c, hc, hb⟩ | rfl
      · exact hclosed c hc b hb
      · rfl
    · have hcomps : ∀ c ∈ comps, ∀ stack rest,
          tokens stack .comp (c ++ [ch ')'] ++ rest) = toks c ++ tokens stack .done rest := by
        intro c hc stack rest
        simpa using htoks c hc stack rest
      have hset := tokens_set (fun c => c ++ [ch ')']) toks stack (ch ')' :: rest) hcomps
      rw [List.cons_append, tokens_comp_set hop]
      simp only [List.cons_append] at hset ⊢
      rw [hset, tokens, if_neg (by decide), List.append_assoc]
      rfl
  | not _ ih =>
    obtain ⟨toks, hclosed, htoks⟩ := ih
    refine ⟨toks, hclosed, fun stack rest => ?_⟩
    rw [List.cons_append, tokens_comp_not, htoks]
  | filter _ ih =>
    obtain ⟨toks, hclosed, htoks⟩ := ih
    refine ⟨toks ++ [.closer (ch ')')], ?_, fun stack rest => ?_⟩
    · intro b hb
      simp only [List.mem_append, List.mem_singleton, Token.closer.injEq] at hb
      rcases hb with hb | rfl
      · exact hclosed b hb
      · rfl
    · rw [List.append_assoc, List.cons_append, tokens_comp_filter, List.singleton_append, htoks, tokens, List.append_assoc]
      rfl
  | item hne hclose hfirst => exact ⟨[.item _], by simp, fun stack rest => tokens_comp_item hne hclose hfirst stack rest⟩

/-! ## What the compiler reads -/

/-- A piece of a filter string, what it consists of, and the packet that is made of it. -/
structure Reading where
  text : GoString
  tokens : List Token
  packet : Packet

/-- What the compiler reads behind an opening parenthesis, up to the byte that it takes for the closing one. -/
inductive Reads (E : Encoder) : Reading → Prop
  | set {tag : ℕ} {op closer : UInt8} (hop : (tag, op) ∈ setOps) (hcloser : closer ≠ ch '(') (rs : List Reading)
      (hrs : ∀ r ∈ rs, Reads E r) :
      Reads E ⟨op :: rs.flatMap (fun r => ch '(' :: r.text) ++ [closer],
        rs.flatMap Reading.tokens ++ [.closer closer], appendAll E (filterPacket tag) (rs.map Reading.packet)⟩
  | not {r : Reading} (hr : Reads E r) :
      Reads E ⟨ch '!' :: r.text, r.tokens, (filterPacket filterNot).appendChild E r.packet⟩
  | filter {r : Reading} (hr : Reads E r) (closer : UInt8) :
      Reads E ⟨ch '(' :: r.text ++ [closer], r.tokens ++ [.closer closer], r.packet⟩
  | item {text : GoString} {s : Scan} {packet p : Packet} (hread : Readable text) (hclose : ch ')' ∉ text)
      (hfirst : ∀ b ∈ text.head?, FirstOfItem b) (hform : ItemForm text s) (hs : s.packet = some packet)
      (hbuild : buildItem E s packet = (p, none)) : Reads E ⟨text ++ [ch ')'], [.item text], p⟩

section Soundness

variable {E : Encoder}

/-- An item that was read is not empty. -/
theorem ItemForm.ne_nil {text : GoString} {s : Scan} {packet : Packet} (h : ItemForm text s)
    (hs : s.packet = some packet) : text ≠ [] := by
  rintro rfl
  have hscan := h.scan_eq .nil (by simp) 0 []
  rw [List.nil_append, scan_close] at hscan
  obtain ⟨rfl, -⟩ := ScanEnd.close.inj hscan
  cases hs

theorem drop_eq_cons {filter : GoString} {pos : ℕ} {b : UInt8} (h : filter[pos]? = some b) :
    filter.drop pos = b :: filter.drop (pos + 1) := by
  obtain ⟨hlt, rfl⟩ := List.getElem?_eq_some_iff.mp h
  exact List.drop_eq_getElem_cons hlt

/-- Everything that is compiled has been read. -/
theorem compile_reads {filter : GoString} (fuel : ℕ) :
    (∀ {pos n : ℕ} {p : Packet}, compileFilterAt E filter fuel pos = some ⟨some p, n, none⟩ → n ≤ filter.length →
      ∃ r, Reads E r ∧ r.packet = p ∧ filter.drop pos = r.text ++ filter.drop n) ∧
    ∀ {pos n : ℕ} {parent p : Packet}, compileFilterSet E filter fuel pos parent = some (.done p n none) →
      n ≤ filter.length → ∃ (rs : List Reading) (closer : UInt8), (∀ r ∈ rs, Reads E r) ∧ closer ≠ ch '(' ∧
        p = appendAll E parent (rs.map Reading.packet) ∧
        filter.drop pos = rs.flatMap (fun r => ch '(' :: r.text) ++ closer :: filter.drop n := by
  induction fuel with
  | zero => simp [compileFilterAt, compileFilterSet]
  | succ fuel ih =>
    obtain ⟨ihAt, ihSet⟩ := ih
    constructor
    · intro pos n p h hn
      have hstep := @compileFilterAt_succ E filter fuel pos
      rw [h] at hstep
      generalize hc : some (⟨some p, n, none⟩ : Compiled) = c at hstep
      cases hstep with
      | outside => simp [Compiled.recovered] at hc
      | badRune e => simp at hc
      | nested hpos =>
        obtain ⟨⟨q, m, e⟩, hcall, hc⟩ := Option.map_eq_some_iff.mp hc.symm
        simp only [Compiled.mk.injEq] at hc
        obtain ⟨rfl, rfl, rfl⟩ := hc
        obtain ⟨r, hr, rfl, hdrop⟩ := ihAt hcall (by omega)
        -- the byte behind the inner call is passed over
        have hcloser := List.drop_eq_getElem_cons (l := filter) (i := m) (by omega)
        exact ⟨_, .filter hr filter[m], rfl, by rw [drop_eq_cons hpos, hdrop, hcloser]; simp⟩
      | set hop hpos =>
        obtain ⟨_ | ⟨q, m, e⟩, hcall, hc⟩ := Option.map_eq_some_iff.mp hc.symm
        · simp [SetResult.compiled, Compiled.recovered] at hc
        · simp only [SetResult.compiled, Compiled.mk.injEq, Option.some.injEq] at hc
          obtain ⟨rfl, rfl, rfl⟩ := hc
          obtain ⟨rs, closer, hrs, hcloser, rfl, hdrop⟩ := ihSet hcall hn
          exact ⟨_, .set hop hcloser rs hrs, rfl, by rw [drop_eq_cons hpos, hdrop]; simp⟩
      | not hpos =>
        obtain ⟨⟨_ | q, m, e⟩, hcall, hc⟩ := Option.map_eq_some_iff.mp hc.symm
        · simp [Compiled.negated, Compiled.recovered] at hc
        · simp only [Compiled.negated, Compiled.mk.injEq, Option.some.injEq] at hc
          obtain ⟨rfl, rfl, rfl⟩ := hc
          obtain ⟨r, hr, rfl, hdrop⟩ := ihAt hcall hn
          exact ⟨_, .not hr, rfl, by rw [drop_eq_cons hpos, hdrop]; rfl⟩
      | item hpos =>
        obtain ⟨text, s, packet, hdrop, hread, hclose, hform, hs, hbuild⟩ := compileItem_eq_ok (Option.some.inj hc).symm
        refine ⟨_, .item hread hclose (fun b hb => hpos b ?_) hform hs hbuild, rfl, by rw [hdrop]; simp⟩
        rw [← List.head?_drop, hdrop, List.head?_append_of_ne_nil _ (hform.ne_nil hs)]
        exact hb
    · intro pos n parent p h hn
      rw [compileFilterSet] at h
      split at h
      · rename_i hopen
        split at h
        · cases h
        · cases h
        · cases h
        · rename_i child newPos hchild
          have hle := (compile_pos fuel).2 h
          obtain ⟨r, hr, rfl, hdrop⟩ := ihAt hchild (by omega)
          obtain ⟨rs, closer, hrs, hcloser, rfl, hdrop'⟩ := ihSet h hn
          refine ⟨r :: rs, closer, ?_, hcloser, rfl, ?_⟩
          · rintro r' (_ | ⟨_, hr'⟩)
            · exact hr
            · exact hrs r' hr'
          · rw [drop_eq_cons hopen, hdrop, hdrop']
            simp
      · rename_i hopen
        split at h
        · cases h
        · simp only [Option.some.injEq, SetResult.done.injEq, and_true] at h
          obtain ⟨rfl, rfl⟩ := h
          refine ⟨[], filter[pos], by simp, fun hb => hopen ?_, rfl, List.drop_eq_getElem_cons (by omega)⟩
          rw [List.getElem?_eq_getElem (by omega), hb]

/-- A string that is accepted is an opening parenthesis and what the compiler has read behind it. -/
theorem compileFilter_reads {s : GoString} {p : Packet} (h : compileFilter E s = some (.ok (some p))) :
    ∃ r, Reads E r ∧ r.packet = p ∧ s = ch '(' :: r.text := by
  unfold compileFilter compileFilterFuel at h
  split at h
  · simp at h
  · rename_i hopen
    rw [not_not] at hopen
    obtain ⟨t, rfl⟩ := List.head?_eq_some_iff.mp hopen
    split at h
    · cases h
    · simp at h
    · rename_i packet pos hcall
      split at h
      · simp at h
      · split at h
        · simp at h
        · simp only [Option.some.injEq, Except.ok.injEq] at h
          subst h
          obtain ⟨r, hr, hp, hdrop⟩ := (compile_reads _).1 hcall (by omega)
          have hend : (ch '(' :: t).drop pos = [] := List.drop_eq_nil_of_le (by omega)
          rw [hend, List.append_nil] at hdrop
          exact ⟨r, hr, hp, by rw [← hdrop]; rfl⟩

/-- The reader of brackets finds what the compiler has read. -/
theorem Reads.tokens_eq {r : Reading} (h : Reads E r) : ∀ stack rest,
    tokens stack .comp (r.text ++ rest) = r.tokens ++ tokens stack .done rest := by
  induction h with
  | @set tag op closer hop hcloser rs _ ih =>
    intro stack rest
    have hset := tokens_set Reading.text Reading.tokens stack (closer :: rest) ih
    dsimp only
    rw [List.append_assoc, List.cons_append, tokens_comp_set hop, List.singleton_append, hset, tokens, if_neg hcloser,
      List.append_assoc]
    rfl
  | not _ ih =>
    intro stack rest
    exact (tokens_comp_not stack _).trans (ih stack rest)
  | filter _ closer ih =>
    intro stack rest
    dsimp only
    rw [List.append_assoc, List.cons_append, tokens_comp_filter, List.singleton_append, ih, tokens, List.append_assoc]
    rfl
  | item hread hclose hfirst hform hs hbuild =>
    intro stack rest
    dsimp only
    rw [List.append_assoc]
    exact tokens_comp_item (hform.ne_nil hs) hclose hfirst stack rest

theorem filterTokens_eq {r : Reading} (h : Reads E r) : filterTokens (ch '(' :: r.text) = r.tokens := by
  have := h.tokens_eq [] []
  rw [List.append_nil] at this
  exact this.trans (by simp [tokens])

/-- What is closed by parentheses only is in the language. -/
theorem Reads.isComp {r : Reading} (h : Reads E r) (hclosed : ∀ b, .closer b ∈ r.tokens → b = ch ')') :
    ∃ c, r.text = c ++ [ch ')'] ∧ IsComp c := by
  induction h with
  | @set tag op closer hop hcloser rs _ ih =>
    obtain rfl : closer = ch ')' := hclosed closer (by simp)
    have hcomp : ∀ r ∈ rs, ∃ c, r.text = c ++ [ch ')'] ∧ IsComp c := by
      intro r hr
      refine ih r hr fun b hb => hclosed b ?_
      simp only [List.mem_append, List.mem_flatMap]
      exact .inl ⟨r, hr, hb⟩
    choose! comp htext hcomp using hcomp
    refine ⟨op :: rs.flatMap fun r => ch '(' :: r.text, rfl, ?_⟩
    have hcomps := IsComp.set hop (rs.map comp) (by simpa using hcomp)
    rw [List.flatMap_map] at hcomps
    rw [List.flatMap_congr fun r hr => by rw [htext r hr]]
    exact hcomps
  | not _ ih =>
    obtain ⟨c, hc, hcomp⟩ := ih hclosed
    exact ⟨ch '!' :: c, by rw [List.cons_append, ← hc], .not hcomp⟩
  | filter _ closer ih =>
    obtain rfl : closer = ch ')' := hclosed closer (by simp)
    obtain ⟨c, hc, hcomp⟩ := ih fun b hb => hclosed b (by simp [hb])
    exact ⟨ch '(' :: c ++ [ch ')'], by simp [hc], .filter hcomp⟩
  | item hread hclose hfirst hform hs hbuild => exact ⟨_, rfl, .item (hform.ne_nil hs) hclose hfirst⟩

end Soundness

/-! ## Well-bracketed filters -/

theorem IsFilter.closers_eq {s : GoString} (h : IsFilter s) : ∀ b ∈ closers s, b = ch ')' := by
  obtain ⟨c, rfl, hc⟩ := h
  obtain ⟨toks, hclosed, htoks⟩ := hc.tokens_eq
  have hall : filterTokens (ch '(' :: c ++ [ch ')']) = toks := by
    have := htoks [] []
    exact this.trans (by simp [tokens])
  intro b hb
  rw [mem_closers, hall] at hb
  exact hclosed b hb

/-- **Accepted filters and their parentheses.**  A string that `CompileFilter` accepts is a filter of the language, and
ends with a parenthesis, if and only if every byte at which a set or an inner parenthesis has to be closed is one. -/
theorem isFilter_iff_closers (E : Encoder) (s : GoString) (p : Packet)
    (h : compileFilter E s = some (.ok (some p))) :
    (IsFilter s ∧ s.getLast? = some (ch ')')) ↔ ∀ b ∈ closers s, b = ch ')' := by
  obtain ⟨r, hr, -, rfl⟩ := compileFilter_reads h
  constructor
  · exact fun hs => hs.1.closers_eq
  · intro hclosed
    have htoks : ∀ b, .closer b ∈ r.tokens → b = ch ')' := by
      intro b hb
      rw [← filterTokens_eq hr, ← mem_closers] at hb
      exact hclosed b hb
    obtain ⟨c, hc, hcomp⟩ := hr.isComp htoks
    rw [hc]
    exact ⟨⟨c, rfl, hcomp⟩, List.getLast?_concat (l := ch '(' :: c)⟩

/-- A negation with both its parentheses. -/
theorem isFilter_not_equality :
    ∃ p, compileFilter shortEncoder (str "(!(a=b))") = some (.ok (some p)) ∧ IsFilter (str "(!(a=b))") ∧
      closers (str "(!(a=b))") = str ")" := by
  obtain ⟨p, hp⟩ : ∃ p, compileFilter shortEncoder (str "(!(a=b))") = some (.ok (some p)) := ⟨_, rfl⟩
  have hclosers : closers (str "(!(a=b))") = str ")" := by decide
  refine ⟨p, hp, ((isFilter_iff_closers shortEncoder _ p hp).mpr fun b hb => ?_).1, hclosers⟩
  rw [hclosers] at hb
  exact List.mem_singleton.mp hb

/-- The set is closed by a letter, and the filter is accepted. -/
theorem compileFilter_unclosed_set :
    (∃ p, compileFilter shortEncoder (str "(&(a=b)x") = some (.ok (some p))) ∧ ¬ IsFilter (str "(&(a=b)x") ∧
      (str "(&(a=b)x").getLast? = some (ch 'x') := by
  refine ⟨⟨_, rfl⟩, fun h => ?_, rfl⟩
  have := h.closers_eq (ch 'x') (by decide)
  exact absurd this (by decide)

end GoLdap
