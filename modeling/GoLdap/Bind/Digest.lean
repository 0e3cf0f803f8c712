import GoLdap.Go.Error
import GoLdap.Go.Utf8
import GoLdap.Lib.Scanner
import Mathlib.Algebra.Order.BigOperators.Group.List
import Mathlib.Algebra.Order.Group.Nat
import Mathlib.Data.Bool.AllAny
import Mathlib.Logic.Function.Basic

/-!
# Bind.Digest — the directives of DIGEST-MD5 (`bind.go`)

`parseParams` reads a list of directives, `key=value` or `key="value"`, one byte at a time; `computeResponse` writes one.
A byte is added to a key or a value by `string(str[i])`, which is the UTF-8 encoding of the code point with the number of
the byte.  So bytes from 0x80 on come out as two, and a text comes back as it was exactly if it is ASCII.

* `Listed.run`: what is read from a list of directives.
* `listed_render`: a list that was rendered, with white space around its separators.
* `listed_response`: the response of the client is such a list, whatever the values in it are.
-/

namespace GoLdap

open Go

/-! ## `parseParams` -/

/-- A `map[string]string`. -/
abbrev Params := GoString → Option GoString

def Params.empty : Params := fun _ => none

/-- The value of a key, which is empty for a key that is not there. -/
def Params.get (m : Params) (key : GoString) : GoString := (m key).getD []

/-- `string(b)` for a byte. -/
def byteString (b : UInt8) : GoString := encodeRune b.toNat

inductive ParamState where
  | key
  | value
  | quoted
  deriving DecidableEq, Repr

/-- The variables of the loop. -/
structure ParamScan where
  m : Params
  key : GoString
  value : GoString
  state : ParamState
  escaped : Bool

def errParamSyntax (i : ℕ) : Error := .fmtNum "syntax error on %d" i

def IsBlank (b : UInt8) : Prop := b = ch ' ' ∨ b = ch '\t'

instance (b : UInt8) : Decidable (IsBlank b) := inferInstanceAs (Decidable (_ ∨ _))

/-- One turn of the loop, at a byte. -/
def ParamScan.step (i : ℕ) (s : ParamScan) (b : UInt8) : Except Error ParamScan :=
  match s.state with
  | .key =>
    if IsBlank b then .ok s
    else if b ≠ ch '=' then .ok { s with key := s.key ++ byteString b }
    else .ok { s with state := .value }
  | .value =>
    if IsBlank b then .ok s
    else if b = ch ',' then
      .ok { s with m := Function.update s.m s.key (some s.value), state := .key, key := [], value := [] }
    else if b = ch '"' then
      if s.value ≠ [] then .error (errParamSyntax i) else .ok { s with state := .quoted }
    else .ok { s with value := s.value ++ byteString b }
  | .quoted =>
    if s.escaped then .ok { s with value := s.value ++ byteString b, escaped := false }
    else if b = ch '\\' then .ok { s with escaped := true }
    else if b = ch '"' then .ok { s with state := .value }
    else .ok { s with value := s.value ++ byteString b }

/-- The last turn of the loop, behind the last byte. -/
def ParamScan.finish (i : ℕ) (s : ParamScan) : Except Error Params :=
  match s.state with
  | .value => .ok (Function.update s.m s.key (some s.value))
  | _ => .error (errParamSyntax i)

def paramScanner : Scanner UInt8 ParamScan Error Params := ⟨ParamScan.step, ParamScan.finish⟩

/-- `parseParams`. -/
def parseParams (s : GoString) : Except Error Params := paramScanner.run 0 ⟨.empty, [], [], .key, false⟩ s

/-! ## `computeResponse` -/

/-- `strings.ReplaceAll` for a string of one byte. -/
def replaceAll (old : UInt8) (new : GoString) (s : GoString) : GoString := s.flatMap fun b => if b = old then new else [b]

def quotedStringEscape (s : GoString) : GoString :=
  let s := replaceAll (ch '\\') (str "\\\\") s
  replaceAll (ch '"') (str "\\\"") s

/-- `hex.EncodeToString`. -/
def hexEncodeToString (s : GoString) : GoString := s.flatMap hexEncode

/-- `computeResponse`.  The hash and the random bytes are those of the Go library. -/
def computeResponse (md5Hash : GoString → GoString) (randomBytes : ℕ → Except Error GoString) (params : Params)
    (uri username password : GoString) : Except Error GoString := do
  let nc := str "00000001"
  let qop := str "auth"
  let rb ← randomBytes 16
  let cnonce := hexEncodeToString rb
  let x := username ++ str ":" ++ params.get (str "realm") ++ str ":" ++ password
  let y := md5Hash x
  let a1 := y ++ (str ":" ++ params.get (str "nonce") ++ str ":" ++ cnonce)
  let a1 := if 0 < (params.get (str "authzid")).length then a1 ++ (str ":" ++ params.get (str "authzid")) else a1
  let a2 := str "AUTHENTICATE" ++ (str ":" ++ uri)
  let ha1 := hexEncodeToString (md5Hash a1)
  let ha2 := hexEncodeToString (md5Hash a2)
  let kd := ha1 ++ (str ":" ++ params.get (str "nonce")) ++ (str ":" ++ nc) ++ (str ":" ++ cnonce) ++ (str ":" ++ qop) ++
    (str ":" ++ ha2)
  let resp := hexEncodeToString (md5Hash kd)
  pure (str "username=\"" ++ quotedStringEscape username ++ str "\",realm=\"" ++
    quotedStringEscape (params.get (str "realm")) ++ str "\",nonce=\"" ++ quotedStringEscape (params.get (str "nonce")) ++
    str "\",cnonce=\"" ++ cnonce ++ str "\",nc=00000001,qop=" ++ qop ++ str ",digest-uri=\"" ++ quotedStringEscape uri ++
    str "\",response=" ++ resp)

/-! ## What a text becomes -/

/-- A text, with every byte converted to a string. -/
def widen (s : GoString) : GoString := s.flatMap byteString

theorem byteString_ascii {b : UInt8} (h : b.toNat < 0x80) : byteString b = [b] := encodeRune_ascii h

/-- Other bytes become two, both outside of ASCII. -/
theorem byteString_wide {b : UInt8} (h : 0x80 ≤ b.toNat) :
    (byteString b).length = 2 ∧ ∀ c ∈ byteString b, 0x80 ≤ c.toNat := by
  have hlt := b.toNat_lt
  constructor
  · rw [byteString, encodeRune, if_neg (by omega), if_pos (by omega)]
    rfl
  · exact encodeRune_wide (.inl (by omega)) h

theorem widen_eq_self {s : GoString} (h : IsAscii s) : widen s = s := by
  induction s with
  | nil => rfl
  | cons b s ih =>
    obtain ⟨hb, hs⟩ := List.forall_mem_cons.mp h
    rw [widen, List.flatMap_cons, byteString_ascii hb]
    exact congrArg (b :: ·) (ih hs)

theorem length_le_widen (s : GoString) : s.length ≤ (widen s).length := by
  induction s with
  | nil => exact le_rfl
  | cons b s ih =>
    have hb : 1 ≤ (byteString b).length := List.length_pos_iff.mpr (encodeRune_ne_nil _)
    rw [widen, List.flatMap_cons, List.length_append, List.length_cons]
    rw [widen] at ih
    omega

/-- A text that is not ASCII becomes longer, and is not ASCII afterwards. -/
theorem widen_of_not_isAscii {s : GoString} (h : ¬ IsAscii s) : s.length < (widen s).length ∧ ¬ IsAscii (widen s) := by
  unfold IsAscii at h
  push Not at h
  obtain ⟨b, hb, hwide⟩ := h
  obtain ⟨p, t, rfl⟩ := List.append_of_mem hb
  obtain ⟨hlen, hbytes⟩ := byteString_wide hwide
  have hwiden : widen (p ++ b :: t) = widen p ++ (byteString b ++ widen t) := by
    rw [widen, List.flatMap_append, List.flatMap_cons]
    rfl
  constructor
  · have hp := length_le_widen p
    have ht := length_le_widen t
    rw [hwiden, List.length_append, List.length_append, List.length_append, List.length_cons, hlen]
    omega
  · intro hascii
    obtain ⟨c, rest, hc⟩ := List.exists_cons_of_ne_nil (encodeRune_ne_nil b.toNat)
    have hmem : c ∈ byteString b := by rw [byteString, hc]; exact List.mem_cons_self
    have hlow := hascii c (by rw [hwiden]; simp [hmem])
    have hhigh := hbytes c hmem
    omega

theorem widen_eq_self_iff {s : GoString} : widen s = s ↔ IsAscii s := by
  refine ⟨fun h => ?_, widen_eq_self⟩
  by_contra hnot
  have hlen := (widen_of_not_isAscii hnot).1
  rw [h] at hlen
  exact lt_irrefl _ hlen

/-! ## Reading one directive -/

/-- The text is read as a directive. -/
def ReadsAs (text key value : GoString) : Prop :=
  ∀ m, paramScanner.Feeds ⟨m, [], [], .key, false⟩ text ⟨m, key, value, .value, false⟩

/-- The text ends a directive, and another one follows. -/
def Separates (text : GoString) : Prop :=
  ∀ m key value, paramScanner.Feeds ⟨m, key, value, .value, false⟩ text
    ⟨Function.update m key (some value), [], [], .key, false⟩

/-- Bytes that have no meaning in a key. -/
def IsKeyByte (b : UInt8) : Prop := ¬ IsBlank b ∧ b ≠ ch '='

/-- Bytes that have no meaning in a value without quotes. -/
def IsTokenByte (b : UInt8) : Prop := ¬ IsBlank b ∧ b ≠ ch ',' ∧ b ≠ ch '"'

instance (b : UInt8) : Decidable (IsKeyByte b) := inferInstanceAs (Decidable (_ ∧ _))

instance (b : UInt8) : Decidable (IsTokenByte b) := inferInstanceAs (Decidable (_ ∧ _))

/-- The key and the equals sign, with white space around it. -/
theorem feeds_key {key before after : GoString} (hkey : ∀ b ∈ key, IsKeyByte b) (hbefore : ∀ b ∈ before, IsBlank b)
    (hafter : ∀ b ∈ after, IsBlank b) (m : Params) :
    paramScanner.Feeds ⟨m, [], [], .key, false⟩ (key ++ (before ++ ch '=' :: after))
      ⟨m, widen key, [], .value, false⟩ := by
  have hread : paramScanner.Feeds ⟨m, [], [], .key, false⟩ key ⟨m, widen key, [], .key, false⟩ := by
    refine Scanner.Feeds.collect (fun acc => (⟨m, acc, [], .key, false⟩ : ParamScan)) (fun b hb acc i => ?_) []
    obtain ⟨hblank, hequals⟩ := hkey b hb
    simp only [paramScanner, ParamScan.step, hblank, hequals, if_false, ne_eq, not_false_eq_true, if_true]
  refine hread.append ((Scanner.Feeds.skip fun b hb i => ?_).append ?_)
  · exact if_pos (hbefore b hb)
  · refine (Scanner.Feeds.single (t := ⟨m, widen key, [], .value, false⟩) fun i => rfl).append
      (Scanner.Feeds.skip fun b hb i => ?_)
    exact if_pos (hafter b hb)

/-- A value without quotes. -/
theorem readsAs_token {key value : GoString} (hkey : ∀ b ∈ key, IsKeyByte b) (hvalue : ∀ b ∈ value, IsTokenByte b) :
    ReadsAs (key ++ ch '=' :: value) (widen key) (widen value) := by
  intro m
  have hstart := feeds_key hkey (List.forall_mem_nil IsBlank) (List.forall_mem_nil IsBlank) m
  have hread : paramScanner.Feeds ⟨m, widen key, [], .value, false⟩ value ⟨m, widen key, widen value, .value, false⟩ := by
    refine Scanner.Feeds.collect (fun acc => (⟨m, widen key, acc, .value, false⟩ : ParamScan)) (fun b hb acc i => ?_) []
    obtain ⟨hblank, hcomma, hquote⟩ := hvalue b hb
    simp only [paramScanner, ParamScan.step, hblank, hcomma, hquote, if_false]
  have happend := hstart.append hread
  rwa [List.nil_append, List.append_assoc, List.singleton_append] at happend

/-- What the two replacements do to a byte. -/
def quoteByte (b : UInt8) : GoString := if b = ch '\\' ∨ b = ch '"' then [ch '\\', b] else [b]

theorem quotedStringEscape_eq (s : GoString) : quotedStringEscape s = s.flatMap quoteByte := by
  unfold quotedStringEscape replaceAll
  rw [List.flatMap_assoc]
  refine List.flatMap_congr fun b _ => ?_
  unfold quoteByte
  by_cases hbackslash : b = ch '\\'
  · subst hbackslash
    decide
  · by_cases hquote : b = ch '"'
    · subst hquote
      decide
    · simp [hbackslash, hquote]

/-- A value in quotes, whatever bytes it has. -/
theorem readsAs_quoted {key before after : GoString} (hkey : ∀ b ∈ key, IsKeyByte b)
    (hbefore : ∀ b ∈ before, IsBlank b) (hafter : ∀ b ∈ after, IsBlank b) (value : GoString) :
    ReadsAs (key ++ (before ++ ch '=' :: after) ++ (ch '"' :: (quotedStringEscape value ++ [ch '"'])))
      (widen key) (widen value) := by
  intro m
  have hread : paramScanner.Feeds ⟨m, widen key, [], .quoted, false⟩ (quotedStringEscape value)
      ⟨m, widen key, widen value, .quoted, false⟩ := by
    rw [quotedStringEscape_eq]
    refine Scanner.Feeds.flatMap (fun acc => (⟨m, widen key, acc, .quoted, false⟩ : ParamScan)) (fun b _ acc => ?_) []
    unfold quoteByte
    split_ifs with hb
    · -- the backslash sets the flag, and the byte behind it is taken whatever it is
      exact (Scanner.Feeds.single (t := ⟨m, widen key, acc, .quoted, true⟩) fun i => rfl).append (.single fun i => rfl)
    · obtain ⟨hbackslash, hquote⟩ := not_or.mp hb
      refine .single fun i => ?_
      simp only [paramScanner, ParamScan.step, hbackslash, hquote, if_false, Bool.false_eq_true]
  refine (feeds_key hkey hbefore hafter m).append ?_
  refine (Scanner.Feeds.single (t := ⟨m, widen key, [], .quoted, false⟩) fun i => rfl).append (hread.append ?_)
  exact .single fun i => rfl

theorem separates_comma {before after : GoString} (hbefore : ∀ b ∈ before, IsBlank b) (hafter : ∀ b ∈ after, IsBlank b) :
    Separates (before ++ ch ',' :: after) := by
  intro m key value
  refine (Scanner.Feeds.skip fun b hb i => ?_).append ?_
  · exact if_pos (hbefore b hb)
  · refine (Scanner.Feeds.single (t := ⟨Function.update m key (some value), [], [], .key, false⟩) fun i => rfl).append
      (Scanner.Feeds.skip fun b hb i => ?_)
    exact if_pos (hafter b hb)

/-! ## Reading a list of directives -/

/-- A text of directives with separators between them. -/
inductive Listed : GoString → List (GoString × GoString) → Prop
  | single {text key value : GoString} (h : ReadsAs text key value) : Listed text [(key, value)]
  | cons {text separator rest key value : GoString} {l : List (GoString × GoString)} (h : ReadsAs text key value)
      (hsep : Separates separator) (hrest : Listed rest l) : Listed (text ++ separator ++ rest) ((key, value) :: l)

/-- The map with the pairs of a list put into it, one after the other. -/
def Params.putAll (l : List (GoString × GoString)) (m : Params) : Params :=
  l.foldl (fun m p => Function.update m p.1 (some p.2)) m

theorem Listed.run {text : GoString} {l : List (GoString × GoString)} (h : Listed text l) (i : ℕ) (m : Params) :
    paramScanner.run i ⟨m, [], [], .key, false⟩ text = .ok (Params.putAll l m) := by
  induction h generalizing i m with
  | single h => exact (h m).run i
  | cons h hsep _ ih =>
    have hfeeds := (h m).append (hsep m _ _)
    rw [hfeeds, ih]
    rfl

theorem Listed.parseParams {text : GoString} {l : List (GoString × GoString)} (h : Listed text l) :
    parseParams text = .ok (Params.putAll l .empty) := h.run 0 .empty

theorem putAll_ne_none {l : List (GoString × GoString)} {m : Params} {key : GoString} :
    Params.putAll l m key ≠ none ↔ key ∈ l.map Prod.fst ∨ m key ≠ none := by
  induction l generalizing m with
  | nil => simp [Params.putAll]
  | cons p l ih =>
    rw [Params.putAll, List.foldl_cons]
    refine ih.trans ?_
    by_cases hkey : key = p.1
    · simp [hkey]
    · simp [hkey]

/-- With different keys the order does not matter. -/
theorem putAll_eq {l : List (GoString × GoString)} (h : (l.map Prod.fst).Nodup) {p : GoString × GoString} (hp : p ∈ l)
    (m : Params) : Params.putAll l m p.1 = some p.2 := by
  induction l generalizing m with
  | nil => cases hp
  | cons q l ih =>
    obtain ⟨hq, hl⟩ := List.nodup_cons.mp h
    rw [Params.putAll, List.foldl_cons]
    rcases List.mem_cons.mp hp with rfl | hp
    · -- no later pair has the key
      have hkeep (l : List (GoString × GoString)) (m : Params) (hnot : p.1 ∉ l.map Prod.fst) :
          Params.putAll l m p.1 = m p.1 := by
        induction l generalizing m with
        | nil => rfl
        | cons r l ih =>
          rw [List.map_cons, List.mem_cons, not_or] at hnot
          rw [Params.putAll, List.foldl_cons]
          exact (ih _ hnot.2).trans (Function.update_of_ne hnot.1 _ _)
      exact (hkeep l _ hq).trans (Function.update_self _ _ _)
    · exact ih hl hp _

theorem putAll_eq_some_iff {l : List (GoString × GoString)} (h : (l.map Prod.fst).Nodup) {k v : GoString} :
    Params.putAll l .empty k = some v ↔ (k, v) ∈ l := by
  constructor
  · intro hv
    have hread : Params.putAll l .empty k ≠ none := by simp [hv]
    obtain hmem | hempty := putAll_ne_none.mp hread
    · obtain ⟨p, hp, rfl⟩ := List.mem_map.mp hmem
      rw [putAll_eq h hp] at hv
      exact Option.some.inj hv ▸ hp
    · exact absurd rfl hempty
  · intro hmem
    exact putAll_eq h hmem .empty

/-! ## A challenge -/

/-- A directive of a challenge, with the white space around its equals sign and around the comma behind it. -/
structure Directive where
  key : GoString
  value : GoString
  beforeEquals : GoString
  afterEquals : GoString
  beforeComma : GoString
  afterComma : GoString
  key_ne_nil : key ≠ []
  key_plain : ∀ b ∈ key, ¬ IsBlank b ∧ b ≠ ch '=' ∧ b ≠ ch ',' ∧ b ≠ ch '"'
  blank : ∀ b ∈ beforeEquals ++ afterEquals ++ beforeComma ++ afterComma, IsBlank b

def Directive.text (d : Directive) : GoString :=
  d.key ++ (d.beforeEquals ++ ch '=' :: d.afterEquals) ++ (ch '"' :: (quotedStringEscape d.value ++ [ch '"']))

/-- The directives with commas between them. -/
def render : List Directive → GoString
  | [] => []
  | [d] => d.text
  | d :: e :: rest => d.text ++ (d.beforeComma ++ ch ',' :: d.afterComma) ++ render (e :: rest)

/-- The map has the keys and the values of the directives, and no others. -/
def IsMapOf (ds : List Directive) (m : Params) : Prop := ∀ k v, m k = some v ↔ ∃ d ∈ ds, d.key = k ∧ d.value = v

theorem Directive.readsAs (d : Directive) : ReadsAs d.text (widen d.key) (widen d.value) :=
  readsAs_quoted (fun b hb => ⟨(d.key_plain b hb).1, (d.key_plain b hb).2.1⟩) (fun b hb => d.blank b (by simp [hb]))
    (fun b hb => d.blank b (by simp [hb])) d.value

theorem listed_render {ds : List Directive} (h : ds ≠ []) :
    Listed (render ds) (ds.map fun d => (widen d.key, widen d.value)) := by
  induction ds with
  | nil => exact absurd rfl h
  | cons d ds ih =>
    cases ds with
    | nil => exact .single d.readsAs
    | cons e rest =>
      refine .cons d.readsAs (separates_comma (fun b hb => d.blank b ?_) fun b hb => d.blank b ?_) (ih (by simp))
      · simp [hb]
      · simp [hb]

/-- In a list of keys that is closed under `widen` all keys are ASCII: the others would grow without end. -/
theorem isAscii_of_widen_mem {keys : List GoString} (h : ∀ k ∈ keys, widen k ∈ keys) : ∀ k ∈ keys, IsAscii k := by
  -- the number of bytes that is left up to the longest key
  obtain ⟨n, hn⟩ : ∃ n, ∀ k ∈ keys, k.length ≤ n :=
    ⟨(keys.map List.length).sum, fun k hk => List.le_sum_of_mem (List.mem_map_of_mem hk)⟩
  intro k hk
  induction hm : n - k.length using Nat.strongRecOn generalizing k with
  | _ m ih =>
    by_contra hnot
    obtain ⟨hlt, hnot'⟩ := widen_of_not_isAscii hnot
    have hle := hn _ (h k hk)
    exact hnot' (ih (n - (widen k).length) (by omega) (widen k) (h k hk) rfl)

/-- A challenge is read back exactly if it is ASCII. -/
theorem parseParams_render_iff (ds : List Directive) (hne : ds ≠ []) (hkeys : (ds.map Directive.key).Nodup) :
    (∃ m, parseParams (render ds) = .ok m ∧ IsMapOf ds m) ↔ ∀ d ∈ ds, IsAscii d.key ∧ IsAscii d.value := by
  set l := ds.map fun d => (widen d.key, widen d.value) with hl
  have hnodup (hsame : ∀ d ∈ ds, widen d.key = d.key) : (l.map Prod.fst).Nodup := by
    have heq : l.map Prod.fst = ds.map Directive.key := by
      rw [hl, List.map_map]
      exact List.map_congr_left hsame
    rwa [heq]
  rw [(listed_render hne).parseParams]
  constructor
  · rintro ⟨m, hm, hmap⟩
    obtain rfl := Except.ok.inj hm
    have hascii : ∀ k ∈ ds.map Directive.key, IsAscii k := by
      refine isAscii_of_widen_mem fun k hk => ?_
      obtain ⟨d, hd, rfl⟩ := List.mem_map.mp hk
      -- the widened key was read, so it is one of the keys
      have hread : Params.putAll l .empty (widen d.key) ≠ none :=
        putAll_ne_none.mpr (.inl (List.mem_map.mpr ⟨_, List.mem_map.mpr ⟨d, hd, rfl⟩, rfl⟩))
      obtain ⟨v, hv⟩ := Option.ne_none_iff_exists'.mp hread
      obtain ⟨e, he, hkey, -⟩ := (hmap _ _).mp hv
      exact hkey ▸ List.mem_map_of_mem he
    have hsame : ∀ d ∈ ds, widen d.key = d.key := fun d hd => widen_eq_self (hascii _ (List.mem_map_of_mem hd))
    intro d hd
    refine ⟨hascii _ (List.mem_map_of_mem hd), widen_eq_self_iff.mp ?_⟩
    have hread := putAll_eq (hnodup hsame) (List.mem_map.mpr ⟨d, hd, rfl⟩) .empty
    dsimp only at hread
    rw [hsame d hd, (hmap d.key d.value).mpr ⟨d, hd, rfl, rfl⟩] at hread
    exact (Option.some.inj hread).symm
  · intro h
    have hsame : ∀ d ∈ ds, widen d.key = d.key := fun d hd => widen_eq_self (h d hd).1
    refine ⟨_, rfl, fun k v => ?_⟩
    rw [putAll_eq_some_iff (hnodup hsame), hl, List.mem_map]
    refine exists_congr fun d => and_congr_right fun hd => ?_
    rw [widen_eq_self (h d hd).1, widen_eq_self (h d hd).2, Prod.mk.injEq]

/-- `realm = "a\"b" , nonce="c"`, with a tab. -/
def spacedChallenge : List Directive :=
  [⟨str "realm", str "a\"b", str " ", str " ", str " ", str "\t", by decide, List.all_iff_forall_prop.mp (by decide),
      List.all_iff_forall_prop.mp (by decide)⟩,
    ⟨str "nonce", str "c", [], [], [], [], by decide, List.all_iff_forall_prop.mp (by decide), List.forall_mem_nil _⟩]

theorem parseParams_spacedChallenge : ∃ m, parseParams (render spacedChallenge) = .ok m ∧ IsMapOf spacedChallenge m :=
  (parseParams_render_iff spacedChallenge (by simp [spacedChallenge]) (by decide +kernel)).mpr (by decide +kernel)

/-- `realm="é"` in UTF-8. -/
def utf8Realm : Directive :=
  ⟨str "realm", [0xC3, 0xA9], [], [], [], [], by decide, List.all_iff_forall_prop.mp (by decide), List.forall_mem_nil _⟩

/-- The two bytes of the realm come back as four. -/
theorem parseParams_utf8Realm : ∃ m, parseParams (render [utf8Realm]) = .ok m ∧
    m (str "realm") = some [0xC3, 0x83, 0xC2, 0xA9] ∧ ¬ IsMapOf [utf8Realm] m := by
  refine ⟨_, rfl, rfl, fun h => ?_⟩
  obtain ⟨d, hd, -, hvalue⟩ := (h (str "realm") [0xC3, 0x83, 0xC2, 0xA9]).mp rfl
  obtain rfl := List.mem_singleton.mp hd
  exact absurd hvalue (by decide)

/-! ## The response -/

/-- Hexadecimal digits need no quotes. -/
theorem hexEncodeToString_plain (s : GoString) : ∀ b ∈ hexEncodeToString s, IsTokenByte b ∧ b.toNat < 0x80 := by
  have hdigits : ∀ c : UInt8, (hexEncode c).all (fun b => IsTokenByte b ∧ b.toNat < 0x80) = true := by decide +kernel
  intro b hb
  obtain ⟨c, -, hb⟩ := List.mem_flatMap.mp hb
  exact of_decide_eq_true (List.all_eq_true.mp (hdigits c) b hb)

/-- The directives of the response. -/
def responseDirectives (username realm nonce cnonce uri resp : GoString) : List (GoString × GoString) :=
  [(str "username", widen username), (str "realm", widen realm), (str "nonce", widen nonce), (str "cnonce", cnonce),
    (str "nc", str "00000001"), (str "qop", str "auth"), (str "digest-uri", widen uri), (str "response", resp)]

theorem putAll_responseDirectives {username realm nonce cnonce uri resp : GoString} {p : GoString × GoString}
    (hp : p ∈ responseDirectives username realm nonce cnonce uri resp) :
    Params.putAll (responseDirectives username realm nonce cnonce uri resp) .empty p.1 = some p.2 := by
  have hkeys : [str "username", str "realm", str "nonce", str "cnonce", str "nc", str "qop", str "digest-uri",
      str "response"].Nodup := by decide +kernel
  refine putAll_eq ?_ hp .empty
  rw [responseDirectives]
  exact hkeys

/-- A key of the response, and a value in quotes. -/
theorem readsAs_response_quoted (key : GoString) (hplain : key.all (fun b => IsKeyByte b ∧ b.toNat < 0x80) = true)
    (value : GoString) :
    ReadsAs (key ++ [ch '='] ++ (ch '"' :: (quotedStringEscape value ++ [ch '"']))) key (widen value) := by
  have hkey := List.all_iff_forall_prop.mp hplain
  have h := @readsAs_quoted key [] [] (fun b hb => (hkey b hb).1) (by simp) (by simp) value
  rwa [widen_eq_self fun b hb => (hkey b hb).2] at h

/-- A key of the response, and a value without quotes. -/
theorem readsAs_response_token (key value : GoString) (hplain : key.all (fun b => IsKeyByte b ∧ b.toNat < 0x80) = true)
    (hvalue : ∀ b ∈ value, IsTokenByte b ∧ b.toNat < 0x80) : ReadsAs (key ++ ch '=' :: value) key value := by
  have hkey := List.all_iff_forall_prop.mp hplain
  have h := readsAs_token (fun b hb => (hkey b hb).1) fun b hb => (hvalue b hb).1
  rwa [widen_eq_self fun b hb => (hkey b hb).2, widen_eq_self fun b hb => (hvalue b hb).2] at h

/-- Digits and letters are not escaped. -/
theorem quotedStringEscape_hexEncodeToString (s : GoString) :
    quotedStringEscape (hexEncodeToString s) = hexEncodeToString s := by
  have hdigits : ∀ c : UInt8, (hexEncode c).flatMap quoteByte = hexEncode c := by decide +kernel
  rw [quotedStringEscape_eq, hexEncodeToString, List.flatMap_assoc]
  exact List.flatMap_congr fun c _ => hdigits c

/-- The response is a list of its directives, whatever bytes the values have. -/
theorem listed_response (username realm nonce uri rb hash : GoString) :
    Listed (str "username=\"" ++ quotedStringEscape username ++ str "\",realm=\"" ++ quotedStringEscape realm ++
        str "\",nonce=\"" ++ quotedStringEscape nonce ++ str "\",cnonce=\"" ++ hexEncodeToString rb ++
        str "\",nc=00000001,qop=" ++ str "auth" ++ str ",digest-uri=\"" ++ quotedStringEscape uri ++ str "\",response=" ++
        hexEncodeToString hash)
      (responseDirectives username realm nonce (hexEncodeToString rb) uri (hexEncodeToString hash)) := by
  have hcomma : Separates [ch ','] := @separates_comma [] [] (by simp) (by simp)
  have hcnonce := readsAs_response_quoted (str "cnonce") (by decide) (hexEncodeToString rb)
  rw [quotedStringEscape_hexEncodeToString, widen_eq_self fun b hb => (hexEncodeToString_plain rb b hb).2] at hcnonce
  have hlist := Listed.cons (readsAs_response_quoted (str "username") (by decide) username) hcomma
    (.cons (readsAs_response_quoted (str "realm") (by decide) realm) hcomma
    (.cons (readsAs_response_quoted (str "nonce") (by decide) nonce) hcomma
    (.cons hcnonce hcomma
    (.cons (readsAs_response_token (str "nc") (str "00000001") (by decide) (List.all_iff_forall_prop.mp (by decide)))
      hcomma
    (.cons (readsAs_response_token (str "qop") (str "auth") (by decide) (List.all_iff_forall_prop.mp (by decide))) hcomma
    (.cons (readsAs_response_quoted (str "digest-uri") (by decide) uri) hcomma
    (.single (readsAs_response_token (str "response") _ (by decide) (hexEncodeToString_plain hash)))))))))
  -- the format string, cut at the same places
  have husername : str "username=\"" = str "username" ++ [ch '=', ch '"'] := rfl
  have hrealm : str "\",realm=\"" = [ch '"', ch ','] ++ str "realm" ++ [ch '=', ch '"'] := rfl
  have hnonce : str "\",nonce=\"" = [ch '"', ch ','] ++ str "nonce" ++ [ch '=', ch '"'] := rfl
  have hcnonce' : str "\",cnonce=\"" = [ch '"', ch ','] ++ str "cnonce" ++ [ch '=', ch '"'] := rfl
  have hnc : str "\",nc=00000001,qop=" =
      [ch '"', ch ','] ++ str "nc" ++ [ch '='] ++ str "00000001" ++ [ch ','] ++ str "qop" ++ [ch '='] := rfl
  have huri : str ",digest-uri=\"" = [ch ','] ++ str "digest-uri" ++ [ch '=', ch '"'] := rfl
  have hresponse : str "\",response=" = [ch '"', ch ','] ++ str "response" ++ [ch '='] := rfl
  rw [husername, hrealm, hnonce, hcnonce', hnc, huri, hresponse, responseDirectives]
  simpa only [List.append_assoc, List.cons_append, List.nil_append] using hlist

/-- What `computeResponse` returns is read as exactly the eight directives it was put together from; and a value that is
ASCII is read as it was. -/
theorem computeResponse_directives (md5Hash : GoString → GoString) (randomBytes : ℕ → Except Error GoString)
    (params : Params) (uri username password resp : GoString)
    (h : computeResponse md5Hash randomBytes params uri username password = .ok resp) :
    ∃ m, parseParams resp = .ok m ∧
      (∀ k, m k ≠ none ↔ k ∈ [str "username", str "realm", str "nonce", str "cnonce", str "nc", str "qop",
        str "digest-uri", str "response"]) ∧
      (IsAscii username → IsAscii (params.get (str "realm")) → IsAscii (params.get (str "nonce")) → IsAscii uri →
        m (str "username") = some username ∧ m (str "realm") = some (params.get (str "realm")) ∧
        m (str "nonce") = some (params.get (str "nonce")) ∧ m (str "digest-uri") = some uri) := by
  unfold computeResponse at h
  obtain ⟨rb, -, h⟩ := except_bind_eq_ok.mp h
  obtain rfl := Except.ok.inj h
  refine ⟨_, (listed_response _ _ _ _ _ _).parseParams, fun k => ?_, fun husername hrealm hnonce huri => ?_⟩
  · rw [putAll_ne_none]
    simp [responseDirectives, Params.empty]
  · refine ⟨?_, ?_, ?_, ?_⟩
    · exact (putAll_responseDirectives (p := (str "username", widen username)) (by simp [responseDirectives])).trans
        (congrArg some (widen_eq_self husername))
    · exact (putAll_responseDirectives (p := (str "realm", widen (params.get (str "realm"))))
        (by simp [responseDirectives])).trans (congrArg some (widen_eq_self hrealm))
    · exact (putAll_responseDirectives (p := (str "nonce", widen (params.get (str "nonce"))))
        (by simp [responseDirectives])).trans (congrArg some (widen_eq_self hnonce))
    · exact (putAll_responseDirectives (p := (str "digest-uri", widen uri)) (by simp [responseDirectives])).trans
        (congrArg some (widen_eq_self huri))

/-- A user name with a quote in it. -/
theorem computeResponse_quoted_username : ∃ resp m,
    computeResponse (fun _ => List.replicate 16 0xAB) (fun n => .ok (List.replicate n 7)) .empty (str "u") (str "a\"b")
        (str "p") = .ok resp ∧
      parseParams resp = .ok m ∧ m (str "username") = some (str "a\"b") := by
  obtain ⟨m, hm, -, hvalues⟩ := computeResponse_directives (fun _ => List.replicate 16 0xAB)
    (fun n => .ok (List.replicate n 7)) .empty (str "u") (str "a\"b") (str "p") _ rfl
  exact ⟨_, m, rfl, hm, (hvalues (by decide) (by decide) (by decide) (by decide)).1⟩

end GoLdap
