import GoLdap.Bind.Sound
import GoLdap.Protocol.Session

/-!
# Protocol.Digest — DIGEST-MD5 with a server (`bind.go`)

A server that speaks DIGEST-MD5: it offers a challenge, reads the directives of the response and compares the response
value with the one it computes from the password it has stored.  The server is written down from the mechanism, with its
own reader of directives; the client is `digestMD5Bind`, over the wire.
-/

namespace GoLdap

open Go Ber Octets

/-! ## The directives of a response -/

/-- Where the reader is: in a key, behind the equals sign, in a token, in a quoted string, behind a backslash in it, or
behind a value. -/
inductive DirectiveState where
  | key
  | start
  | token
  | quoted
  | escaped
  | after
  deriving DecidableEq, Repr

/-- The directives read so far, and the one that is being read. -/
structure DirectiveScan where
  read : List (GoString × GoString)
  key : GoString
  value : GoString
  state : DirectiveState

/-- Another directive follows. -/
def DirectiveScan.next (s : DirectiveScan) : DirectiveScan := ⟨s.read ++ [(s.key, s.value)], [], [], .key⟩

def DirectiveScan.step (s : DirectiveScan) (b : UInt8) : Option DirectiveScan :=
  match s.state with
  | .key =>
    if IsBlank b then some s
    else if b = ch '=' then some { s with state := .start }
    else if b = ch ',' ∨ b = ch '"' then none
    else some { s with key := s.key ++ [b] }
  | .start =>
    if IsBlank b then some s
    else if b = ch '"' then some { s with state := .quoted }
    else if b = ch ',' then none
    else some { s with value := [b], state := .token }
  | .token =>
    if IsBlank b then some { s with state := .after }
    else if b = ch ',' then some s.next
    else if b = ch '"' then none
    else some { s with value := s.value ++ [b] }
  | .quoted =>
    if b = ch '\\' then some { s with state := .escaped }
    else if b = ch '"' then some { s with state := .after }
    else some { s with value := s.value ++ [b] }
  | .escaped => some { s with value := s.value ++ [b], state := .quoted }
  | .after =>
    if IsBlank b then some s
    else if b = ch ',' then some s.next
    else none

def DirectiveScan.finish (s : DirectiveScan) : Option (List (GoString × GoString)) :=
  match s.state with
  | .token | .after => some (s.read ++ [(s.key, s.value)])
  | _ => none

def directiveScanner : Scanner UInt8 DirectiveScan Unit (List (GoString × GoString)) :=
  ⟨fun _ s b => (s.step b).elim (.error ()) .ok, fun _ s => s.finish.elim (.error ()) .ok⟩

/-- The directives in a text. -/
def readDirectives (text : GoString) : Option (List (GoString × GoString)) :=
  (directiveScanner.run 0 ⟨[], [], [], .key⟩ text).toOption

/-- The text is read as a directive. -/
def IsDirective (text key value : GoString) : Prop :=
  ∀ l, ∃ state, (state = .token ∨ state = .after) ∧
    directiveScanner.Feeds ⟨l, [], [], .key⟩ text ⟨l, key, value, state⟩

/-- Characters that a key is made of. -/
def IsDirectiveKey (key : GoString) : Prop := ∀ b ∈ key, ¬ IsBlank b ∧ b ≠ ch '=' ∧ b ≠ ch ',' ∧ b ≠ ch '"'

instance (key : GoString) : Decidable (IsDirectiveKey key) :=
  inferInstanceAs (Decidable (∀ b ∈ key, ¬ IsBlank b ∧ b ≠ ch '=' ∧ b ≠ ch ',' ∧ b ≠ ch '"'))

section

variable {l : List (GoString × GoString)} {key value : GoString}

theorem feeds_step {s t : DirectiveScan} {b : UInt8} (h : s.step b = some t) : directiveScanner.Feeds s [b] t :=
  .single fun _ => by
    show (s.step b).elim _ _ = _
    rw [h]
    rfl

/-- Characters that are collected as they are. -/
theorem feeds_collect (state : GoString → DirectiveScan) {text : GoString}
    (h : ∀ b ∈ text, ∀ acc, (state acc).step b = some (state (acc ++ [b]))) (acc : GoString) :
    directiveScanner.Feeds (state acc) text (state (acc ++ text)) := by
  have hfeeds : directiveScanner.Feeds (state acc) text (state (acc ++ text.flatMap fun b => [b])) :=
    Scanner.Feeds.collect state (fun b hb acc i => by
      show ((state acc).step b).elim _ _ = _
      rw [h b hb acc]
      rfl) acc
  rwa [List.flatMap_singleton'] at hfeeds

theorem feeds_directiveKey (hkey : IsDirectiveKey key) :
    directiveScanner.Feeds ⟨l, [], [], .key⟩ (key ++ [ch '=']) ⟨l, key, [], .start⟩ := by
  have hread : directiveScanner.Feeds ⟨l, [], [], .key⟩ key ⟨l, key, [], .key⟩ := by
    refine feeds_collect (fun acc => ⟨l, acc, [], .key⟩) (fun b hb acc => ?_) []
    obtain ⟨hblank, hequals, hcomma, hquote⟩ := hkey b hb
    simp [DirectiveScan.step, hblank, hequals, hcomma, hquote]
  exact hread.append (feeds_step rfl)

/-- A value in quotes, whatever bytes it has. -/
theorem isDirective_quoted (key : GoString) (hkey : IsDirectiveKey key) (value : GoString) :
    IsDirective (key ++ [ch '='] ++ (ch '"' :: (quotedStringEscape value ++ [ch '"']))) key value := by
  intro l
  have hread : directiveScanner.Feeds ⟨l, key, [], .quoted⟩ (quotedStringEscape value) ⟨l, key, value, .quoted⟩ := by
    have hfeeds : directiveScanner.Feeds ⟨l, key, [], .quoted⟩ (value.flatMap quoteByte)
        ⟨l, key, [] ++ value.flatMap fun b => [b], .quoted⟩ := by
      refine Scanner.Feeds.flatMap (fun acc => (⟨l, key, acc, .quoted⟩ : DirectiveScan)) (fun b _ acc => ?_) []
      unfold quoteByte
      split_ifs with hb
      · -- the byte behind the backslash is taken whatever it is
        exact (feeds_step (t := ⟨l, key, acc, .escaped⟩) rfl).append (feeds_step rfl)
      · obtain ⟨hbackslash, hquote⟩ := not_or.mp hb
        exact feeds_step (by simp [DirectiveScan.step, hbackslash, hquote])
    rwa [← quotedStringEscape_eq, List.nil_append, List.flatMap_singleton'] at hfeeds
  refine ⟨.after, .inr rfl, (feeds_directiveKey hkey).append ?_⟩
  exact (feeds_step (t := ⟨l, key, [], .quoted⟩) rfl).append (hread.append (feeds_step rfl))

/-- A value without quotes. -/
theorem isDirective_token (key : GoString) (hkey : IsDirectiveKey key) (value : GoString) (hne : value ≠ [])
    (hvalue : ∀ b ∈ value, IsTokenByte b) :
    IsDirective (key ++ ch '=' :: value) key value := by
  intro l
  obtain ⟨b, rest, rfl⟩ := List.exists_cons_of_ne_nil hne
  obtain ⟨⟨hblank, hcomma, hquote⟩, hrest⟩ := List.forall_mem_cons.mp hvalue
  have hfirst : directiveScanner.Feeds ⟨l, key, [], .start⟩ [b] ⟨l, key, [b], .token⟩ :=
    feeds_step (by simp [DirectiveScan.step, hblank, hcomma, hquote])
  have hread : directiveScanner.Feeds ⟨l, key, [b], .token⟩ rest ⟨l, key, [b] ++ rest, .token⟩ := by
    refine feeds_collect (fun acc => ⟨l, key, acc, .token⟩) (fun c hc acc => ?_) [b]
    obtain ⟨hblank, hcomma, hquote⟩ := hrest c hc
    simp [DirectiveScan.step, hblank, hcomma, hquote]
  refine ⟨.token, .inl rfl, ?_⟩
  have happend := (feeds_directiveKey (l := l) hkey).append (hfirst.append hread)
  simpa using happend

/-- Directives with commas between them. -/
inductive IsDirectiveList : GoString → List (GoString × GoString) → Prop
  | single {text key value : GoString} (h : IsDirective text key value) : IsDirectiveList text [(key, value)]
  | cons {text rest key value : GoString} {l : List (GoString × GoString)} (h : IsDirective text key value)
      (hrest : IsDirectiveList rest l) : IsDirectiveList (text ++ [ch ','] ++ rest) ((key, value) :: l)

theorem IsDirectiveList.run {text : GoString} (h : IsDirectiveList text l) (i : ℕ) (before : List (GoString × GoString)) :
    directiveScanner.run i ⟨before, [], [], .key⟩ text = .ok (before ++ l) := by
  induction h generalizing i before with
  | single h =>
    obtain ⟨state, rfl | rfl, hfeeds⟩ := h before
    · exact hfeeds.run i
    · exact hfeeds.run i
  | @cons text rest key value l h _ ih =>
    obtain ⟨state, hstate, hfeeds⟩ := h before
    have hcomma : directiveScanner.Feeds ⟨before, key, value, state⟩ [ch ','] ⟨before ++ [(key, value)], [], [], .key⟩ := by
      obtain rfl | rfl := hstate
      · exact feeds_step rfl
      · exact feeds_step rfl
    rw [(hfeeds.append hcomma) i rest, ih, List.append_assoc]
    rfl

theorem IsDirectiveList.readDirectives {text : GoString} (h : IsDirectiveList text l) : readDirectives text = some l := by
  rw [GoLdap.readDirectives, h.run]
  rfl

end

/-! ## The server -/

/-- A hash with 16 octets, as MD5. -/
structure Md5 where
  hash : GoString → GoString
  length_hash : ∀ s, (hash s).length = 16

/-- A directive of a challenge.  Some values are in quotes and others, such as the algorithm, are not. -/
structure OfferedDirective where
  key : GoString
  value : GoString
  quoted : Bool
  key_plain : ∀ b ∈ key, IsKeyByte b
  value_plain : quoted = false → ∀ b ∈ value, IsTokenByte b
  key_ascii : IsAscii key
  value_ascii : IsAscii value

def OfferedDirective.text (d : OfferedDirective) : GoString :=
  if d.quoted then d.key ++ [ch '='] ++ (ch '"' :: (quotedStringEscape d.value ++ [ch '"'])) else d.key ++ ch '=' :: d.value

/-- Directives with commas between them. -/
def challengeText : OfferedDirective → List OfferedDirective → GoString
  | d, [] => d.text
  | d, e :: rest => d.text ++ [ch ','] ++ challengeText e rest

/-- A challenge: the server does not send an authorization identity. -/
structure DigestOffer where
  first : OfferedDirective
  more : List OfferedDirective
  nodup : ((first :: more).map OfferedDirective.key).Nodup
  no_authzid : ∀ d ∈ first :: more, d.key ≠ str "authzid"

namespace DigestOffer

def directives (offer : DigestOffer) : List (GoString × GoString) :=
  (offer.first :: offer.more).map fun d => (d.key, d.value)

def text (offer : DigestOffer) : GoString := challengeText offer.first offer.more

end DigestOffer

/-- The value of a directive. -/
def directiveValue (directives : List (GoString × GoString)) (key : GoString) : Option GoString :=
  (directives.find? fun d => d.1 = key).map Prod.snd

/-- The value of a directive of the challenge; it is empty if there is none. -/
def DigestOffer.value (offer : DigestOffer) (key : GoString) : GoString := (directiveValue offer.directives key).getD []

/-- What the value of a response is computed from. -/
structure DigestInput where
  username : GoString
  realm : GoString
  password : GoString
  nonce : GoString
  cnonce : GoString
  nc : GoString
  qop : GoString
  uri : GoString

/-- The value of a response; the method is empty for the one that the server proves itself with. -/
def Md5.response (md5 : Md5) (method : GoString) (x : DigestInput) : GoString :=
  let secret := md5.hash (x.username ++ str ":" ++ x.realm ++ str ":" ++ x.password)
  let a1 := secret ++ (str ":" ++ x.nonce ++ str ":" ++ x.cnonce)
  let a2 := method ++ (str ":" ++ x.uri)
  hexEncodeToString (md5.hash (hexEncodeToString (md5.hash a1) ++ (str ":" ++ x.nonce) ++ (str ":" ++ x.nc) ++
    (str ":" ++ x.cnonce) ++ (str ":" ++ x.qop) ++ (str ":" ++ hexEncodeToString (md5.hash a2))))

/-- A server with passwords, which serves one URI and has a challenge for every bind. -/
structure DigestServer where
  md5 : Md5
  accounts : GoString → Option GoString
  service : GoString
  offers : ℕ → DigestOffer

/-- The challenges made so far, the one that is to be answered, and the user that is authenticated. -/
structure DigestSession where
  challenges : ℕ
  pending : Option DigestOffer
  user : Option GoString

namespace DigestServer

variable (server : DigestServer)

/-- The directives of a response, with the password of the user that it names. -/
def input (directives : List (GoString × GoString)) : Option DigestInput := do
  let username ← directiveValue directives (str "username")
  let password ← server.accounts username
  return {
    username := username
    realm := (directiveValue directives (str "realm")).getD []
    password := password
    nonce := ← directiveValue directives (str "nonce")
    cnonce := ← directiveValue directives (str "cnonce")
    nc := ← directiveValue directives (str "nc")
    qop := ← directiveValue directives (str "qop")
    uri := ← directiveValue directives (str "digest-uri") }

/-- The response answers the challenge. -/
def Confirms (offer : DigestOffer) (x : DigestInput) (response : GoString) : Prop :=
  x.realm = offer.value (str "realm") ∧ x.nonce = offer.value (str "nonce") ∧ x.nc = str "00000001" ∧
    x.qop = str "auth" ∧ x.uri = server.service ∧ response = server.md5.response (str "AUTHENTICATE") x

instance (offer : DigestOffer) (x : DigestInput) (response : GoString) : Decidable (server.Confirms offer x response) :=
  inferInstanceAs (Decidable (_ ∧ _))

/-- The response of the client is checked. -/
def authenticate (offer : DigestOffer) (text : GoString) : Option DigestInput := do
  let directives ← readDirectives text
  let x ← server.input directives
  let response ← directiveValue directives (str "response")
  if server.Confirms offer x response then some x else none

/-- A bind without credentials is answered with a challenge. -/
def challenge (s : DigestSession) : ServerAnswer × DigestSession :=
  let offer := server.offers s.challenges
  (.ofCode 14 (some offer.text), ⟨s.challenges + 1, some offer, none⟩)

/-- A bind with credentials ends the exchange. -/
def check (s : DigestSession) (text : GoString) : ServerAnswer × DigestSession :=
  match s.pending.bind fun offer => server.authenticate offer text with
  | some x =>
    (.ofCode 0 (some (str "rspauth=" ++ server.md5.response [] x)), ⟨s.challenges, none, some x.username⟩)
  | none => (.ofCode 49 none, ⟨s.challenges, none, none⟩)

def directory : Directory DigestSession := fun s op _ =>
  match op with
  | .bind _ _ (.sasl mechanism creds) =>
    if mechanism = str "DIGEST-MD5" then creds.elim (server.challenge s) (server.check s)
    else (.ofCode 7 none, ⟨s.challenges, none, none⟩)
  | _ => (.ofCode 53 none, s)

theorem directory_challenge (s : DigestSession) (version : ℤ) (name : GoString) (cs : List MessageControl) :
    server.directory s (.bind version name (.sasl (str "DIGEST-MD5") none)) cs = server.challenge s := by
  rw [directory, if_pos rfl, Option.elim_none]

theorem directory_check (s : DigestSession) (version : ℤ) (name text : GoString) (cs : List MessageControl) :
    server.directory s (.bind version name (.sasl (str "DIGEST-MD5") (some text))) cs = server.check s text := by
  rw [directory, if_pos rfl, Option.elim_some]

end DigestServer

/-! ## The challenge, as the client reads it -/

theorem directiveValue_of_mem {l : List (GoString × GoString)} (hl : (l.map Prod.fst).Nodup) {key value : GoString}
    (h : (key, value) ∈ l) : directiveValue l key = some value := by
  unfold directiveValue
  cases hfind : l.find? fun d => d.1 = key with
  | none => exact absurd (decide_eq_true rfl) (List.find?_eq_none.mp hfind _ h)
  | some d =>
    have hkey : d.1 = key := of_decide_eq_true (List.find?_some (p := fun d : GoString × GoString => d.1 = key) hfind)
    have heq := List.inj_on_of_nodup_map hl (List.mem_of_find?_eq_some hfind) h hkey
    rw [heq]
    rfl

theorem directiveValue_eq_none {l : List (GoString × GoString)} {key : GoString} (h : key ∉ l.map Prod.fst) :
    directiveValue l key = none := by
  rw [directiveValue, List.find?_eq_none.mpr, Option.map_none]
  intro d hd hkey
  exact h (of_decide_eq_true hkey ▸ List.mem_map_of_mem hd)

theorem OfferedDirective.readsAs (d : OfferedDirective) : ReadsAs d.text d.key d.value := by
  have hread : ReadsAs d.text (widen d.key) (widen d.value) := by
    unfold text
    cases hquoted : d.quoted with
    | true => exact readsAs_quoted d.key_plain (List.forall_mem_nil IsBlank) (List.forall_mem_nil IsBlank) d.value
    | false => exact readsAs_token d.key_plain (d.value_plain hquoted)
  rwa [widen_eq_self d.key_ascii, widen_eq_self d.value_ascii] at hread

theorem listed_challengeText (d : OfferedDirective) (ds : List OfferedDirective) :
    Listed (challengeText d ds) ((d :: ds).map fun d => (d.key, d.value)) := by
  induction ds generalizing d with
  | nil => exact .single d.readsAs
  | cons e rest ih =>
    exact .cons d.readsAs (separates_comma (List.forall_mem_nil IsBlank) (List.forall_mem_nil IsBlank)) (ih e)

/-- The client has the values of the challenge. -/
theorem DigestOffer.parseParams (offer : DigestOffer) :
    ∃ m, parseParams offer.text = .ok m ∧ m.get (str "authzid") = [] ∧ ∀ key, m.get key = offer.value key := by
  have hnodup : (offer.directives.map Prod.fst).Nodup := by
    rw [directives, List.map_map]
    exact offer.nodup
  have hvalue (key : GoString) : Params.putAll offer.directives .empty key = directiveValue offer.directives key := by
    by_cases hkey : key ∈ offer.directives.map Prod.fst
    · obtain ⟨d, hd, rfl⟩ := List.mem_map.mp hkey
      rw [putAll_eq hnodup hd, directiveValue_of_mem hnodup hd]
    · rw [directiveValue_eq_none hkey]
      by_contra hne
      exact hkey ((putAll_ne_none.mp hne).resolve_right fun h => h rfl)
  refine ⟨_, (listed_challengeText offer.first offer.more).parseParams, ?_, fun key => congrArg (·.getD []) (hvalue key)⟩
  have hnone : str "authzid" ∉ offer.directives.map Prod.fst := by
    rw [directives, List.map_map]
    intro hmem
    obtain ⟨d, hd, hkey⟩ := List.mem_map.mp hmem
    exact offer.no_authzid d hd hkey
  exact congrArg (·.getD []) ((hvalue _).trans (directiveValue_eq_none hnone))

/-! ## The response, as the server reads it -/

/-- The response of the client. -/
def digestResponseText (x : DigestInput) (response : GoString) : GoString :=
  str "username=\"" ++ quotedStringEscape x.username ++ str "\",realm=\"" ++ quotedStringEscape x.realm ++
    str "\",nonce=\"" ++ quotedStringEscape x.nonce ++ str "\",cnonce=\"" ++ x.cnonce ++ str "\",nc=00000001,qop=" ++
    x.qop ++ str ",digest-uri=\"" ++ quotedStringEscape x.uri ++ str "\",response=" ++ response

/-- Its directives. -/
def digestDirectives (x : DigestInput) (response : GoString) : List (GoString × GoString) :=
  [(str "username", x.username), (str "realm", x.realm), (str "nonce", x.nonce), (str "cnonce", x.cnonce),
    (str "nc", x.nc), (str "qop", x.qop), (str "digest-uri", x.uri), (str "response", response)]

/-- What a client with random bytes puts into its response. -/
def clientInput (offer : DigestOffer) (rb uri username password : GoString) : DigestInput where
  username := username
  realm := offer.value (str "realm")
  password := password
  nonce := offer.value (str "nonce")
  cnonce := hexEncodeToString rb
  nc := str "00000001"
  qop := str "auth"
  uri := uri

theorem hexEncodeToString_ne_nil {s : GoString} (h : s ≠ []) : hexEncodeToString s ≠ [] := by
  obtain ⟨b, rest, rfl⟩ := List.exists_cons_of_ne_nil h
  intro hnil
  rw [hexEncodeToString, List.flatMap_cons, List.append_eq_nil_iff] at hnil
  exact absurd (congrArg List.length hnil.1) (by simp [hexEncode])

section

variable (md5 : Md5) (offer : DigestOffer) (rb uri username password : GoString)

theorem Md5.response_ne_nil (method : GoString) (x : DigestInput) : md5.response method x ≠ [] := by
  refine hexEncodeToString_ne_nil fun h => ?_
  have hlen := congrArg List.length h
  rw [md5.length_hash] at hlen
  cases hlen

/-- The response has the values of the challenge and the value that the mechanism asks for. -/
theorem computeResponse_offer {randomBytes : ℕ → Except Error GoString} (hrandom : randomBytes 16 = .ok rb) {m : Params}
    (hauthzid : m.get (str "authzid") = []) (hm : ∀ key, m.get key = offer.value key) :
    computeResponse md5.hash randomBytes m uri username password =
      .ok (digestResponseText (clientInput offer rb uri username password)
        (md5.response (str "AUTHENTICATE") (clientInput offer rb uri username password))) := by
  unfold computeResponse
  rw [hrandom, hauthzid, hm, hm]
  rfl

/-- The directives of a response are read with the bytes they were made of. -/
theorem readDirectives_response {response : GoString} (hne : response ≠ []) (hresponse : ∀ b ∈ response, IsTokenByte b) :
    readDirectives (digestResponseText (clientInput offer rb uri username password) response) =
      some (digestDirectives (clientInput offer rb uri username password) response) := by
  have hcnonce := isDirective_quoted (str "cnonce") (by decide +kernel) (hexEncodeToString rb)
  rw [quotedStringEscape_hexEncodeToString] at hcnonce
  have hlist := IsDirectiveList.cons (isDirective_quoted (str "username") (by decide +kernel) username)
    (.cons (isDirective_quoted (str "realm") (by decide +kernel) (offer.value (str "realm")))
    (.cons (isDirective_quoted (str "nonce") (by decide +kernel) (offer.value (str "nonce")))
    (.cons hcnonce
    (.cons (isDirective_token (str "nc") (by decide +kernel) (str "00000001") (by decide +kernel)
      (by decide +kernel))
    (.cons (isDirective_token (str "qop") (by decide +kernel) (str "auth") (by decide +kernel)
      (by decide +kernel))
    (.cons (isDirective_quoted (str "digest-uri") (by decide +kernel) uri)
    (.single (isDirective_token (str "response") (by decide +kernel) response hne hresponse))))))))
  refine IsDirectiveList.readDirectives ?_
  -- the format string, cut at the same places
  have husername : str "username=\"" = str "username" ++ [ch '=', ch '"'] := rfl
  have hrealm : str "\",realm=\"" = [ch '"', ch ','] ++ str "realm" ++ [ch '=', ch '"'] := rfl
  have hnonce : str "\",nonce=\"" = [ch '"', ch ','] ++ str "nonce" ++ [ch '=', ch '"'] := rfl
  have hcnonce' : str "\",cnonce=\"" = [ch '"', ch ','] ++ str "cnonce" ++ [ch '=', ch '"'] := rfl
  have hnc : str "\",nc=00000001,qop=" =
      [ch '"', ch ','] ++ str "nc" ++ [ch '='] ++ str "00000001" ++ [ch ','] ++ str "qop" ++ [ch '='] := rfl
  have huri : str ",digest-uri=\"" = [ch ','] ++ str "digest-uri" ++ [ch '=', ch '"'] := rfl
  have hresponse : str "\",response=" = [ch '"', ch ','] ++ str "response" ++ [ch '='] := rfl
  rw [digestResponseText, husername, hrealm, hnonce, hcnonce', hnc, huri, hresponse]
  simpa only [clientInput, digestDirectives, List.append_assoc, List.cons_append, List.nil_append] using hlist

theorem directiveValue_digestDirectives (x : DigestInput) (response key value : GoString)
    (h : (key, value) ∈ digestDirectives x response) : directiveValue (digestDirectives x response) key = some value := by
  have hkeys : [str "username", str "realm", str "nonce", str "cnonce", str "nc", str "qop", str "digest-uri",
      str "response"].Nodup := by decide +kernel
  have hnodup : ((digestDirectives x response).map Prod.fst).Nodup := hkeys
  exact directiveValue_of_mem hnodup h

/-- The server looks the password up and uses everything else as it was sent. -/
theorem DigestServer.input_digestDirectives (server : DigestServer) (x : DigestInput) (response : GoString) :
    server.input (digestDirectives x response) =
      (server.accounts x.username).map fun stored => { x with password := stored } := by
  have hvalue (key value : GoString) (h : (key, value) ∈ digestDirectives x response) :=
    directiveValue_digestDirectives x response key value h
  unfold input
  rw [hvalue (str "username") x.username (by simp [digestDirectives]),
    hvalue (str "realm") x.realm (by simp [digestDirectives]),
    hvalue (str "nonce") x.nonce (by simp [digestDirectives]),
    hvalue (str "cnonce") x.cnonce (by simp [digestDirectives]),
    hvalue (str "nc") x.nc (by simp [digestDirectives]),
    hvalue (str "qop") x.qop (by simp [digestDirectives]),
    hvalue (str "digest-uri") x.uri (by simp [digestDirectives])]
  rw [Option.bind_eq_bind, Option.bind_some]
  cases server.accounts x.username <;> rfl

theorem DigestServer.authenticate_response (server : DigestServer) :
    server.authenticate offer (digestResponseText (clientInput offer rb uri username password)
      (server.md5.response (str "AUTHENTICATE") (clientInput offer rb uri username password))) =
    (server.accounts username).bind fun stored =>
      if uri = server.service ∧ server.md5.response (str "AUTHENTICATE") (clientInput offer rb uri username password) =
        server.md5.response (str "AUTHENTICATE") (clientInput offer rb uri username stored)
      then some (clientInput offer rb uri username stored) else none := by
  have hplain (x : DigestInput) : ∀ b ∈ server.md5.response (str "AUTHENTICATE") x, IsTokenByte b :=
    fun b hb => (hexEncodeToString_plain _ b hb).1
  unfold authenticate
  rw [readDirectives_response offer rb uri username password (server.md5.response_ne_nil _ _) (hplain _)]
  rw [Option.bind_eq_bind, Option.bind_some, server.input_digestDirectives,
    directiveValue_digestDirectives _ _ (str "response")
      (server.md5.response (str "AUTHENTICATE") (clientInput offer rb uri username password))
      (by simp [digestDirectives])]
  show Option.bind (Option.map _ (server.accounts username)) _ = _
  rw [Option.bind_map]
  refine Option.bind_congr fun stored _ => ?_
  simp only [Function.comp, Option.bind_eq_bind, Option.bind_some]
  refine if_congr ?_ rfl rfl
  simp [Confirms, clientInput]

end

/-! ## Both sides -/

/-- What the channel of the responses has. -/
def Reply.ofResponse : Except Err Packet → Reply
  | .error err => .failed err
  | .ok p => .packet p

section

variable {σ : Type} (L : LawfulCodec) (dir : Directory σ) (addControlDescriptions : Assign) (ids : ℕ → Int64)

/-- The server behind a connection, for the exchanges of a bind; the state has the number of messages sent. -/
def bindOnWire : Dialog.Peer Question (fun _ => Reply) (σ × ℕ) := fun s q =>
  match q (ids s.2).toInt with
  | .error err => (some (.unsent err), s)
  | .ok p =>
    let served := serve L dir s.1 (p.bytes L.toEncoder)
    let responses := served.1.filterMap (readFrame L addControlDescriptions (ids s.2).toInt)
    (responses.head?.map Reply.ofResponse, (served.2, s.2 + 1))

/-- The response to a bind request, off the wire. -/
def receivedBind (id : ℤ) (a : ServerAnswer) : Packet :=
  received L id (resultResponse L.toEncoder applicationBindResponse a.result (optionalComponent 7 a.serverSaslCreds))

theorem wellFormed_receivedBind (id : ℤ) (a : ServerAnswer) : WellFormedReply (receivedBind L id a) :=
  wellFormed_result (by decide)

theorem bindOnWire_bind {message : ℤ → Packet} {version : ℤ} {name : GoString} {auth : Authentication}
    {cs : List MessageControl}
    (h : ∀ id, Fits 8 id → Conveys L readMessage (message id) ⟨id, .bind version name auth, cs⟩) (s : σ) (n : ℕ) :
    bindOnWire L dir addControlDescriptions ids (s, n) (fun id => .ok (message id)) =
      (some (.packet (handOver addControlDescriptions
          (receivedBind L (ids n).toInt (dir s (.bind version name auth) cs).1))),
        ((dir s (.bind version name auth) cs).2, n + 1)) := by
  have hid : Fits 8 (ids n).toInt := fits_toInt _
  unfold bindOnWire
  simp only [serve_conveyed dir s (h _ hid)]
  rw [filterMap_readFrame hid (ServerAnswer.encodable_packets _ _)]
  rfl

end

section

variable {L : LawfulCodec} {id : ℤ} {addControlDescriptions : Assign} {debug : Bool}

theorem digestInProgress_undescribed (p : Packet) : digestInProgress p.undescribed = digestInProgress p := by
  unfold digestInProgress
  rw [Packet.undescribed_children]
  rcases p.children with _ | ⟨mid, _ | ⟨op, _ | ⟨c, rest⟩⟩⟩
  · rfl
  · rfl
  · simp only [List.map_cons, List.map_nil, Packet.undescribed_children, Packet.undescribed_classType,
      Packet.undescribed_tagType]
    rcases op.children with _ | ⟨code, _ | ⟨dn, _ | ⟨message, rest⟩⟩⟩ <;> simp
  · rfl

/-- The challenge of the server is found in its response. -/
theorem digestChallenge_receivedBind {text : GoString} {m : Params} (hm : parseParams text = .ok m) :
    digestChallenge (receivedBind L id (ServerAnswer.ofCode 14 (some text))) = .params m := by
  unfold digestChallenge receivedBind
  rw [children_received, wire_resultResponse, constructedOf_eq]
  simp only [ServerAnswer.ofCode, LDAPResult.ofCode, optionalComponent, Option.toList_some, List.map_cons, List.map_nil,
    wire_context]
  simp [readPrimitive, tagObjectDescriptor, hm]

theorem digestInProgress_receivedBind {a : ServerAnswer} (h : a.result.code ≠ 14) :
    digestInProgress (receivedBind L id a) = some false := by
  have hlt := a.result.code_lt
  have hmod : (a.result.code : ℤ) % 65536 = a.result.code := Int.emod_eq_of_lt (by omega) (by omega)
  unfold digestInProgress receivedBind
  rw [children_received, wire_resultResponse, constructedOf_eq]
  simp only [readPrimitive, hmod]
  simp [typeOfTag, tagEnumerated]
  omega

/-- The last response ends the bind. -/
theorem digestAfterResponse_receivedBind {req : DigestMD5BindRequest} {a : ServerAnswer} (h : a.result.code ≠ 14) :
    digestAfterResponse L.toEncoder req (handOver addControlDescriptions (receivedBind L id a)) =
      .done (.returned (true, a.result.err)) := by
  have hsame : (handOver addControlDescriptions (receivedBind L id a)).undescribed = (receivedBind L id a).undescribed :=
    (described_handOver (wellFormed_receivedBind L id a).length).same
  unfold digestAfterResponse finishBind
  rw [eq_of_undescribed digestInProgress_undescribed hsame, digestInProgress_receivedBind h,
    eq_of_undescribed getLDAPError_undescribed hsame]
  dsimp only
  rw [receivedBind, getLDAPError_received, LDAPResult.outcome]
  cases a.result.err <;> rfl

/-- The first response, in debug mode or not. -/
theorem first_receivedBind (addControlDescriptions : Assign) (debug : Bool) (id : ℤ) (a : ServerAnswer) :
    ∃ q, (Reply.packet (handOver addControlDescriptions (receivedBind L id a))).first addControlDescriptions debug = .ok q ∧
      q.undescribed = (receivedBind L id a).undescribed := by
  have hp := wellFormed_receivedBind L id a
  obtain ⟨q, hq, hsame⟩ := hp.delivered addControlDescriptions debug
  obtain ⟨r, hr, hsame'⟩ := hp.inDebug addControlDescriptions debug hsame
  exact ⟨r, except_bind_eq_ok.mpr ⟨q, hq, hr⟩, hsame'⟩

end

/-- The server knows the user, and the password that it has gives the response that the client has sent. -/
def DigestServer.Accepts (server : DigestServer) (offer : DigestOffer) (rb uri username password : GoString) : Prop :=
  uri = server.service ∧ ∃ stored, server.accounts username = some stored ∧
    server.md5.response (str "AUTHENTICATE") (clientInput offer rb uri username password) =
      server.md5.response (str "AUTHENTICATE") (clientInput offer rb uri username stored)

/-- What the server makes of the response of a client. -/
theorem DigestServer.check_response (server : DigestServer) (challenges : ℕ) (offer : DigestOffer) (user : Option GoString)
    (rb uri username password : GoString) {checked : ServerAnswer × DigestSession}
    (hchecked : server.check ⟨challenges, some offer, user⟩ (digestResponseText
      (clientInput offer rb uri username password)
      (server.md5.response (str "AUTHENTICATE") (clientInput offer rb uri username password))) = checked) :
    (server.Accepts offer rb uri username password → checked.1.result.code = 0 ∧ checked.2.user = some username) ∧
      (¬ server.Accepts offer rb uri username password →
        checked.1.result = .ofCode 49 ∧ checked.2.user = none) := by
  subst hchecked
  unfold check
  dsimp only
  rw [Option.bind_some, server.authenticate_response]
  cases haccount : server.accounts username with
  | none =>
    refine ⟨fun h => ?_, fun _ => ⟨rfl, rfl⟩⟩
    obtain ⟨-, stored, hstored, -⟩ := h
    rw [haccount] at hstored
    cases hstored
  | some stored =>
    rw [Option.bind_some]
    split_ifs with hconfirms
    · exact ⟨fun _ => ⟨rfl, rfl⟩, fun h => absurd ⟨hconfirms.1, stored, haccount, hconfirms.2⟩ h⟩
    · refine ⟨fun h => absurd ?_ hconfirms, fun _ => ⟨rfl, rfl⟩⟩
      obtain ⟨huri, stored', hstored, hresponse⟩ := h
      rw [haccount] at hstored
      cases hstored
      exact ⟨huri, hresponse⟩

section

variable (server : DigestServer) (L : LawfulCodec) (addControlDescriptions : Assign) (debug : Bool) (ids : ℕ → Int64)
  (req : DigestMD5BindRequest) (toLower : GoString → GoString) (randomBytes : ℕ → Except Error GoString) (rb : GoString)

/-- The exchanges of the bind: the challenge, and what comes of the response to it. -/
theorem run_digestMD5Bind (hrandom : randomBytes 16 = .ok rb) (hpassword : req.password ≠ []) {ms : List MessageControl}
    (hcontrols : List.Forall₂ (SentControl L.toEncoder) req.controls ms) (s : DigestSession) (n : ℕ) {offer : DigestOffer}
    (hoffer : server.offers s.challenges = offer) {x : DigestInput}
    (hx : clientInput offer rb (str "ldap/" ++ toLower req.host) req.username req.password = x)
    {checked : ServerAnswer × DigestSession} (hchecked : server.check ⟨s.challenges + 1, some offer, none⟩
      (digestResponseText x (server.md5.response (str "AUTHENTICATE") x)) = checked) (hcode : checked.1.result.code ≠ 14) :
    let run := (digestMD5Bind L.toEncoder addControlDescriptions debug req server.md5.hash randomBytes toLower).run
      (bindOnWire L server.directory addControlDescriptions ids) (s, n)
    run.result = some (.returned (true, checked.1.result.err)) ∧ run.state = (checked.2, n + 2) := by
  obtain ⟨m, hm, hauthzid, hvalue⟩ := offer.parseParams
  have hresponse := computeResponse_offer server.md5 offer rb (str "ldap/" ++ toLower req.host) req.username req.password
    hrandom hauthzid hvalue
  rw [hx] at hresponse
  have hfirst : bindOnWire L server.directory addControlDescriptions ids (s, n) (req.question L.toEncoder) = _ :=
    bindOnWire_bind L server.directory addControlDescriptions ids
      (fun id hid => req.conveys hid (conveys_sent hcontrols)) s n
  have hsecond := bindOnWire_bind L server.directory addControlDescriptions ids
    (fun id hid => conveys_digestResponse (digestResponseText x (server.md5.response (str "AUTHENTICATE") x)) hid)
    ⟨s.challenges + 1, some offer, none⟩ (n + 1)
  rw [server.directory_challenge, DigestServer.challenge, hoffer] at hfirst
  rw [server.directory_check, hchecked] at hsecond
  obtain ⟨q, hq, hsame⟩ := first_receivedBind (L := L) addControlDescriptions debug (ids n).toInt
    (ServerAnswer.ofCode 14 (some offer.text))
  have hfound := (eq_of_undescribed digestChallenge_undescribed hsame).trans (digestChallenge_receivedBind hm)
  rw [digestMD5Bind, if_neg hpassword, Dialog.run_ask_some hfirst]
  dsimp only
  rw [hq]
  dsimp only
  rw [digestAfterChallenge, hfound]
  dsimp only
  rw [hresponse]
  dsimp only
  rw [Dialog.run_ask_some hsecond]
  dsimp only [Reply.later]
  rw [digestAfterResponse_receivedBind hcode]
  exact ⟨rfl, rfl⟩

/-- **`DigestMD5Bind` with a server.**  Without a password nothing is sent.  Otherwise, whatever bytes the user name and the
password have, the bind succeeds, and the server has authenticated the user, if the user is known and the password that the
server has gives the same response value; if not, the bind fails with `LDAPResultInvalidCredentials`, and the server has
authenticated nobody. -/
theorem digestMD5Bind_served (hrandom : randomBytes 16 = .ok rb) (ms : List MessageControl)
    (hcontrols : List.Forall₂ (SentControl L.toEncoder) req.controls ms) (s : DigestSession) (n : ℕ) :
    let run := (digestMD5Bind L.toEncoder addControlDescriptions debug req server.md5.hash randomBytes toLower).run
      (bindOnWire L server.directory addControlDescriptions ids) (s, n)
    let accepts := server.Accepts (server.offers s.challenges) rb (str "ldap/" ++ toLower req.host) req.username
      req.password
    (req.password = [] → run = ⟨[], some (.returned (false, some errEmptyPassword)), (s, n)⟩) ∧
      (req.password ≠ [] → accepts →
        run.result = some (.returned (true, none)) ∧ run.state.1.user = some req.username) ∧
      (req.password ≠ [] → ¬ accepts →
        run.result = some (.returned (true, some (.ldap 49 [] (.fmt "%v" [])))) ∧ run.state.1.user = none) := by
  obtain ⟨x, hx⟩ : ∃ x, clientInput (server.offers s.challenges) rb (str "ldap/" ++ toLower req.host) req.username
      req.password = x := ⟨_, rfl⟩
  obtain ⟨checked, hchecked⟩ : ∃ checked, server.check ⟨s.challenges + 1, some (server.offers s.challenges), none⟩
      (digestResponseText x (server.md5.response (str "AUTHENTICATE") x)) = checked := ⟨_, rfl⟩
  have hrun (hpassword : req.password ≠ []) := run_digestMD5Bind server L addControlDescriptions debug ids req toLower
    randomBytes rb hrandom hpassword hcontrols s n rfl hx hchecked
  subst hx
  obtain ⟨haccepted, hrejected⟩ := server.check_response (s.challenges + 1) (server.offers s.challenges) none rb
    (str "ldap/" ++ toLower req.host) req.username req.password hchecked
  refine ⟨fun hempty => ?_, fun hpassword haccepts => ?_, fun hpassword haccepts => ?_⟩
  · rw [digestMD5Bind, if_pos hempty]
    rfl
  · obtain ⟨hcode, huser⟩ := haccepted haccepts
    obtain ⟨hresult, hstate⟩ := hrun hpassword (by rw [hcode]; decide)
    rw [LDAPResult.err, if_pos hcode] at hresult
    exact ⟨hresult, (congrArg (fun t => t.1.user) hstate).trans huser⟩
  · obtain ⟨hcode, huser⟩ := hrejected haccepts
    obtain ⟨hresult, hstate⟩ := hrun hpassword (by rw [hcode]; decide)
    rw [hcode] at hresult
    exact ⟨hresult, (congrArg (fun t => t.1.user) hstate).trans huser⟩

end

/-- A server with one account, for a hash that is not MD5. -/
def tinyDigestServer : DigestServer where
  md5 := ⟨fun s => List.replicate 16 (s.headD 0), fun _ => List.length_replicate⟩
  accounts user := if user = str "a\"b" then some (str "secret") else none
  service := str "ldap/h"
  offers _ := ⟨⟨str "realm", str "r", true, by decide +kernel, by decide +kernel, by decide +kernel, by decide +kernel⟩,
    [⟨str "algorithm", str "md5-sess", false, by decide +kernel, by decide +kernel, by decide +kernel, by decide +kernel⟩],
    by decide +kernel, by decide +kernel⟩

/-- A bind with a quote in the user name. -/
theorem digestMD5Bind_served_quote :
    let run := (digestMD5Bind basicLawful.toEncoder Assign.skip true ⟨str "h", str "a\"b", str "secret", []⟩
      tinyDigestServer.md5.hash (fun n => .ok (List.replicate n 7)) id).run
        (bindOnWire basicLawful tinyDigestServer.directory Assign.skip fun n => Int64.ofNat (n + 1)) (⟨0, none, none⟩, 0)
    run.result = some (.returned (true, none)) ∧ run.state.1.user = some (str "a\"b") :=
  (digestMD5Bind_served tinyDigestServer basicLawful Assign.skip true (fun n => Int64.ofNat (n + 1))
    ⟨str "h", str "a\"b", str "secret", []⟩ id (fun n => .ok (List.replicate n 7)) (List.replicate 16 7) rfl [] .nil
    ⟨0, none, none⟩ 0).2.1 (by decide +kernel) ⟨by decide +kernel, str "secret", by decide +kernel, rfl⟩

end GoLdap
