import GoLdap.Go.Error
import GoLdap.Go.Utf8

/-!
# PostalAddress — postal addresses of RFC 4517 (`postaladdress.go`)

An address is a list of lines.  `Escape` writes the code points of every line, with `\` and `$` as `\5C` and `\24`, and a
`$` behind each line; `ParsePostalAddress` splits at `$` and reads the pieces byte by byte.  Both ways to make an address
skip empty lines and refuse an address without lines, which is what a `PostalAddress` carries with it.

* `parseLine_escapeLine`: a line that was escaped is read back, whatever it contains.
* `split_escapeLines`: the pieces between the dollar signs are the escaped lines.
-/

namespace GoLdap

open Go

/-- `ErrEmptyPostalAddress`. -/
def errEmptyPostalAddress : Error := .new "ldap: postal address cannot be empty"

/-- `PostalAddress`. -/
structure PostalAddress where
  lines : List GoString
  lines_ne_nil : lines ≠ []
  line_ne_nil : ∀ line ∈ lines, line ≠ []

/-- `NewPostalAddress`. -/
def newPostalAddress (lines : List GoString) : Except Error PostalAddress :=
  let copiedLines := lines.filter (· ≠ [])
  if h : copiedLines = [] then .error errEmptyPostalAddress
  else .ok ⟨copiedLines, h, fun _ hline => of_decide_eq_true (List.mem_filter.mp hline).2⟩

/-! ## Escaping -/

/-- The switch on a code point in `Escape`. -/
def escapeLineRune (r : ℕ) : GoString :=
  if r = 0x5C then str "\\5C"
  else if r = 0x24 then str "\\24"
  else encodeRune r

def escapeLine (line : GoString) : GoString := (runes line).flatMap escapeLineRune

/-- `Escape`. -/
def PostalAddress.escape (p : PostalAddress) : GoString := p.lines.flatMap fun line => escapeLine line ++ [ch '$']

/-! ## Parsing -/

/-- The loop over the bytes of a line, from position `i`. -/
def parseLine : ℕ → GoString → Except Error GoString
  | _, [] => .ok []
  | i, char :: s =>
    if char = ch '\\' then
      match s with
      | a :: b :: s =>
        if [a, b] = str "5C" ∨ [a, b] = str "5c" then (ch '\\' :: ·) <$> parseLine (i + 3) s
        else if [a, b] = str "24" then (ch '$' :: ·) <$> parseLine (i + 3) s
        else .error (.fmtAt "invalid escape sequence: \\%s at position %d" [a, b] i)
      -- `i+totalEscapeLen <= len(line)` does not hold
      | _ => .error (.fmtNum "incomplete escape sequence at position %d" i)
    else (char :: ·) <$> parseLine (i + 1) s

/-- The loop over the pieces. -/
def parseLines : List GoString → Except Error (List GoString)
  | [] => .ok []
  | line :: lines =>
    if line = [] then parseLines lines
    else do
      let parsedLine ← parseLine 0 line
      let parsedLines ← parseLines lines
      pure (parsedLine :: parsedLines)

/-- Every byte of a line, and every escape, gives a byte. -/
theorem parseLine_ne_nil {i : ℕ} {line parsed : GoString} (h : parseLine i line = .ok parsed) (hne : line ≠ []) :
    parsed ≠ [] := by
  unfold parseLine at h
  split at h
  · exact absurd rfl hne
  · -- each branch that returns puts a byte in front
    split at h
    · split at h
      · split at h
        · obtain ⟨_, -, rfl⟩ := except_map_eq_ok.mp h
          exact List.cons_ne_nil _ _
        · split at h
          · obtain ⟨_, -, rfl⟩ := except_map_eq_ok.mp h
            exact List.cons_ne_nil _ _
          · cases h
      · cases h
    · obtain ⟨_, -, rfl⟩ := except_map_eq_ok.mp h
      exact List.cons_ne_nil _ _

theorem parseLines_ne_nil {lines parsed : List GoString} (h : parseLines lines = .ok parsed) :
    ∀ line ∈ parsed, line ≠ [] := by
  induction lines generalizing parsed with
  | nil =>
    cases h
    simp
  | cons line lines ih =>
    rw [parseLines] at h
    split_ifs at h with hline
    · exact ih h
    · obtain ⟨first, hfirst, h⟩ := except_bind_eq_ok.mp h
      obtain ⟨rest, hrest, h⟩ := except_bind_eq_ok.mp h
      cases h
      exact List.forall_mem_cons.mpr ⟨parseLine_ne_nil hfirst hline, ih hrest⟩

/-- `ParsePostalAddress`. -/
def parsePostalAddress (escaped : GoString) : Except Error PostalAddress :=
  match h : parseLines (split (ch '$') escaped) with
  | .error e => .error e
  | .ok parsedLines =>
    if hne : parsedLines = [] then .error errEmptyPostalAddress
    else .ok ⟨parsedLines, hne, parseLines_ne_nil h⟩

theorem parsePostalAddress_of_parseLines {escaped : GoString} {parsed : List GoString}
    (h : parseLines (split (ch '$') escaped) = .ok parsed) (hne : parsed ≠ []) :
    parsePostalAddress escaped = .ok ⟨parsed, hne, parseLines_ne_nil h⟩ := by
  unfold parsePostalAddress
  split
  · rename_i e he
    rw [h] at he
    cases he
  · rename_i parsed' hparsed
    obtain rfl : parsed = parsed' := by
      rw [h] at hparsed
      exact Except.ok.inj hparsed
    rw [dif_neg hne]

/-! ## Round trip -/

theorem parseLine_cons {c : UInt8} (hc : c ≠ ch '\\') (i : ℕ) (s : GoString) :
    parseLine i (c :: s) = (c :: ·) <$> parseLine (i + 1) s := by
  conv_lhs => unfold parseLine
  exact if_neg hc

/-- Text without a backslash is read as it is. -/
theorem parseLine_append {p : GoString} (hp : ch '\\' ∉ p) (i : ℕ) (s : GoString) :
    parseLine i (p ++ s) = (p ++ ·) <$> parseLine (i + p.length) s := by
  induction p generalizing i with
  | nil =>
    show parseLine i s = (fun t => t) <$> parseLine i s
    cases parseLine i s with
    | ok t => rfl
    | error e => rfl
  | cons c p ih =>
    obtain ⟨hc, hp⟩ := not_or.mp (fun h => hp (List.mem_cons.mpr h))
    rw [List.cons_append, parseLine_cons (Ne.symm hc), ih hp, List.length_cons, Nat.add_right_comm, Nat.add_assoc]
    cases parseLine (i + (p.length + 1)) s with
    | ok t => rfl
    | error e => rfl

/-- One code point that was escaped, with anything behind it. -/
theorem parseLine_escapeLineRune {r : ℕ} (hr : ValidRune r) (i : ℕ) (s : GoString) :
    ∃ j, parseLine i (escapeLineRune r ++ s) = (encodeRune r ++ ·) <$> parseLine j s := by
  unfold escapeLineRune
  split_ifs with hbackslash hdollar
  · subst hbackslash
    exact ⟨i + 3, rfl⟩
  · subst hdollar
    exact ⟨i + 3, rfl⟩
  · have hmem : ch '\\' ∉ encodeRune r := fun h =>
      hbackslash (eq_of_mem_encodeRune hr (by decide) h)
    exact ⟨_, parseLine_append hmem i s⟩

theorem parseLine_flatMap {l : List ℕ} (hl : ∀ r ∈ l, ValidRune r) (i : ℕ) :
    parseLine i (l.flatMap escapeLineRune) = .ok (l.flatMap encodeRune) := by
  induction l generalizing i with
  | nil => rfl
  | cons r l ih =>
    obtain ⟨hr, hl⟩ := List.forall_mem_cons.mp hl
    obtain ⟨j, hj⟩ := parseLine_escapeLineRune hr i (l.flatMap escapeLineRune)
    rw [List.flatMap_cons, List.flatMap_cons, hj, ih hl]
    rfl

/-- A line of UTF-8 is read back from its escaped form. -/
theorem parseLine_escapeLine {line : GoString} (h : ValidString line) : parseLine 0 (escapeLine line) = .ok line := by
  rw [escapeLine, parseLine_flatMap (fun _ hr => runes_valid hr), h]

theorem escapeLine_ne_nil {line : GoString} (h : line ≠ []) : escapeLine line ≠ [] := by
  obtain ⟨r, rs, hrs⟩ := List.exists_cons_of_ne_nil (runes_ne_nil h)
  rw [escapeLine, hrs, List.flatMap_cons]
  refine List.append_ne_nil_of_left_ne_nil ?_ _
  unfold escapeLineRune
  split_ifs
  · decide
  · decide
  · exact encodeRune_ne_nil r

/-- Dollar signs of a line are escaped: the bytes of the other code points are not dollar signs. -/
theorem dollar_notMem_escapeLine (line : GoString) : ch '$' ∉ escapeLine line := by
  intro h
  obtain ⟨r, hr, h⟩ := List.mem_flatMap.mp h
  unfold escapeLineRune at h
  split_ifs at h with hbackslash hdollar
  · revert h
    decide
  · revert h
    decide
  · exact hdollar (eq_of_mem_encodeRune (runes_valid hr) (by decide) h)

/-- The pieces are the lines, and an empty one behind the last dollar sign. -/
theorem split_escapeLines (lines : List GoString) :
    split (ch '$') (lines.flatMap fun line => escapeLine line ++ [ch '$']) = lines.map escapeLine ++ [[]] := by
  induction lines with
  | nil => rfl
  | cons line lines ih =>
    rw [List.flatMap_cons, List.append_assoc, List.singleton_append,
      split_append_cons (dollar_notMem_escapeLine line), ih]
    rfl

theorem parseLines_map_escapeLine {lines : List GoString} (hne : ∀ line ∈ lines, line ≠ [])
    (hvalid : ∀ line ∈ lines, ValidString line) : parseLines (lines.map escapeLine ++ [[]]) = .ok lines := by
  induction lines with
  | nil => rfl
  | cons line lines ih =>
    obtain ⟨hline, hne⟩ := List.forall_mem_cons.mp hne
    obtain ⟨hv, hvalid⟩ := List.forall_mem_cons.mp hvalid
    rw [List.map_cons, List.cons_append, parseLines, if_neg (escapeLine_ne_nil hline), parseLine_escapeLine hv,
      except_ok_bind, ih hne hvalid]
    rfl

/-- An address whose lines are UTF-8 is read back from its escaped form. -/
theorem parsePostalAddress_escape (p : PostalAddress) (h : ∀ line ∈ p.lines, ValidString line) :
    parsePostalAddress p.escape = .ok p := by
  refine parsePostalAddress_of_parseLines ?_ p.lines_ne_nil
  rw [PostalAddress.escape, split_escapeLines, parseLines_map_escapeLine p.line_ne_nil h]

theorem lines_of_newPostalAddress {lines : List GoString} {p : PostalAddress} (h : newPostalAddress lines = .ok p) :
    p.lines = lines.filter (· ≠ []) := by
  unfold newPostalAddress at h
  dsimp only at h
  split_ifs at h
  cases h
  rfl

/-- There is an address for every list of lines one of which is not empty. -/
theorem exists_newPostalAddress {lines : List GoString} (h : ∃ line ∈ lines, line ≠ []) :
    ∃ p, newPostalAddress lines = .ok p := by
  obtain ⟨line, hline, hne⟩ := h
  have hfilter : lines.filter (· ≠ []) ≠ [] := by
    refine List.ne_nil_of_mem (a := line) ?_
    exact List.mem_filter.mpr ⟨hline, decide_eq_true hne⟩
  exact ⟨_, dif_neg hfilter⟩

/-- Addresses have lines and no empty ones, however they were made; and the lines an address was made of come back from
its escaped form, without the empty ones. -/
theorem postalAddress_round_trip :
    (∀ lines p, newPostalAddress lines = .ok p → p.lines ≠ [] ∧ ∀ line ∈ p.lines, line ≠ []) ∧
    (∀ escaped p, parsePostalAddress escaped = .ok p → p.lines ≠ [] ∧ ∀ line ∈ p.lines, line ≠ []) ∧
    ∀ lines, (∀ line ∈ lines, ValidString line) → (∃ line ∈ lines, line ≠ []) →
      ∃ p q, newPostalAddress lines = .ok p ∧ parsePostalAddress p.escape = .ok q ∧ q.lines = lines.filter (· ≠ []) := by
  refine ⟨fun _ p _ => ⟨p.lines_ne_nil, p.line_ne_nil⟩, fun _ p _ => ⟨p.lines_ne_nil, p.line_ne_nil⟩, ?_⟩
  intro lines hvalid hline
  obtain ⟨p, hp⟩ := exists_newPostalAddress hline
  have hlines := lines_of_newPostalAddress hp
  have hpvalid : ∀ line ∈ p.lines, ValidString line := by
    intro line h
    rw [hlines] at h
    exact hvalid line (List.mem_filter.mp h).1
  exact ⟨p, p, hp, parsePostalAddress_escape p hpvalid, hlines⟩

/-- Lines with a dollar sign, with text like an escape and with a newline, and an empty one. -/
theorem postalAddress_round_trip_special : ∃ p q,
    newPostalAddress [str "a$b", [], str "\\24", str "c\nd"] = .ok p ∧ parsePostalAddress p.escape = .ok q ∧
      q.lines = [str "a$b", str "\\24", str "c\nd"] :=
  postalAddress_round_trip.2.2 [str "a$b", [], str "\\24", str "c\nd"] (by decide +kernel) (by decide +kernel)

end GoLdap
