import GoLdap.Bind.Challenge
import GoLdap.Descriptions.Described

/-!
# Bind.Sound — what a bind with a challenge has seen and said

Whatever the server answers, `DigestMD5Bind` and `NTLMChallengeBind` send a bounded number of messages, report a success
only for a result code that is zero as a `uint16` in the last response, and use the password only where the mechanism does.
-/

namespace GoLdap

open Go Ber

/-- The messages that were answered, with what came of them. -/
abbrev Answers := List ((_ : Question) × Reply)

/-- A bind returns without an error only after a last response with the result code success. -/
def SuccessSeen (past : Answers) (result : CallEnd (Bool × Option Err)) : Prop :=
  ∀ b, result = .returned (b, none) → b = true ∧ ∃ q p, past.getLast? = some ⟨q, .packet p⟩ ∧ getLDAPError p = .ok ()

section

variable {P : Answers → Question → Prop} {n : ℕ} {past : Answers}

theorem complies_failBind (err : Err) : Dialog.Complies P SuccessSeen n past (failBind err) :=
  .done fun b h => by cases h

/-- The end of a bind, at a packet that has the result of the last response. -/
theorem complies_finishBind {q : Question} {p packet : Packet} (h : getLDAPError packet = getLDAPError p) :
    Dialog.Complies P SuccessSeen n (past ++ [⟨q, .packet p⟩]) (finishBind packet) := by
  unfold finishBind
  rw [h]
  cases hp : getLDAPError p with
  | ok _ =>
    refine .done fun b hb => ?_
    cases hb
    exact ⟨rfl, q, p, List.getLast?_concat, hp⟩
  | err e => exact .done fun b hb => by cases hb
  | panic => exact .done fun b hb => by cases hb

/-- The first response, with its descriptions; a packet that is not taken to carry controls is the same but for them. -/
theorem first_eq_ok {addControlDescriptions : Assign} {debug : Bool} {reply : Reply} {packet : Packet}
    (h : reply.first addControlDescriptions debug = .ok packet) :
    ∃ p, reply = .packet p ∧ getLDAPError packet = getLDAPError p ∧
      (packet.children.length = 2 → packet.undescribed = p.undescribed) := by
  have hsame {p q : Packet} (hq : describeInDebug addControlDescriptions debug p = .ok q) (h2 : q.children.length = 2) :
      q.undescribed = p.undescribed := by
    rw [length_describeInDebug hq] at h2
    obtain rfl | rfl := describeInDebug_eq hq
    · rfl
    · exact addLDAPDescriptions_undescribed (by rw [WithoutControls, h2]; decide)
  cases reply with
  | packet p =>
    obtain ⟨q, hq, hpacket⟩ := except_bind_eq_ok.mp h
    refine ⟨p, rfl, (getLDAPError_describeInDebug hpacket).trans (getLDAPError_describeInDebug hq), fun h2 => ?_⟩
    rw [hsame hpacket h2, hsame hq (by rwa [length_describeInDebug hpacket] at h2)]
  | unsent e => cases h
  | closed => cases h
  | failed e => cases h

theorem later_eq_ok {wrapSend : Err → Err} {reply : Reply} {packet : Packet} (h : reply.later wrapSend = .ok packet) :
    reply = .packet packet := by
  cases reply with
  | packet p => exact congrArg Reply.packet (Except.ok.inj h)
  | unsent e => cases h
  | closed => cases h
  | failed e => cases h

end

/-! ## `DigestMD5Bind` -/

section

variable (E : Encoder) (req : DigestMD5BindRequest) (md5Hash : GoString → GoString)
  (randomBytes : ℕ → Except Error GoString) (toLower : GoString → GoString)

/-- The messages of `DigestMD5Bind`: a first request, which is the same for every host, user name and password; the
response that `computeResponse` makes to the challenge in the answer to it; and the first request once more. -/
inductive DigestQuestion : Answers → Question → Prop
  | first {q : Question}
      (h : ∀ host username password, q = DigestMD5BindRequest.question E ⟨host, username, password, req.controls⟩) :
      DigestQuestion [] q
  | response {q : Question} {p : Packet} {params : Params} {resp : GoString} (hchallenge : digestChallenge p = .params params)
      (hresp : computeResponse md5Hash randomBytes params (str "ldap/" ++ toLower req.host) req.username req.password =
        .ok resp) :
      DigestQuestion [⟨q, .packet p⟩] fun messageID => .ok (digestResponseRequest E resp messageID)
  | again {first second : (_ : Question) × Reply} {q : Question}
      (h : ∀ host username password, q = DigestMD5BindRequest.question E ⟨host, username, password, req.controls⟩) :
      DigestQuestion [first, second] q

theorem digestChallenge_undescribed (p : Packet) : digestChallenge p.undescribed = digestChallenge p := by
  unfold digestChallenge
  rw [Packet.undescribed_children]
  rcases p.children with _ | ⟨mid, _ | ⟨op, _ | ⟨c, rest⟩⟩⟩
  · rfl
  · rfl
  · simp only [List.map_cons, List.map_nil, Packet.undescribed_children]
    rcases op.children with _ | ⟨code, _ | ⟨dn, _ | ⟨message, _ | ⟨creds, _ | ⟨c, rest⟩⟩⟩⟩⟩ <;> simp
  · rfl

/-- A challenge is found in packets with two children. -/
theorem length_of_digestChallenge {p : Packet} {m : Params} (h : digestChallenge p = .params m) :
    p.children.length = 2 := by
  unfold digestChallenge at h
  split at h
  · rename_i hcs
    rw [hcs]
    rfl
  · cases h

variable {E req md5Hash randomBytes toLower}

theorem complies_digestAfterResponse {first : (_ : Question) × Reply} {q : Question} (p : Packet) :
    Dialog.Complies (DigestQuestion E req md5Hash randomBytes toLower) SuccessSeen 1 ([first] ++ [⟨q, .packet p⟩])
      (digestAfterResponse E req p) := by
  unfold digestAfterResponse
  cases digestInProgress p with
  | none => exact .done fun b hb => by cases hb
  | some again =>
    cases again with
    | false => exact complies_finishBind rfl
    | true =>
      refine .ask (.again fun _ _ _ => rfl) fun reply => ?_
      cases hreply : reply.later id with
      | error err => exact complies_failBind err
      | ok packet =>
        rw [later_eq_ok hreply]
        exact complies_finishBind rfl

theorem complies_digestAfterChallenge {q : Question} {p packet : Packet} (h : getLDAPError packet = getLDAPError p)
    (hsame : packet.children.length = 2 → packet.undescribed = p.undescribed) :
    Dialog.Complies (DigestQuestion E req md5Hash randomBytes toLower) SuccessSeen 2 ([] ++ [⟨q, .packet p⟩])
      (digestAfterChallenge E req md5Hash randomBytes toLower packet) := by
  unfold digestAfterChallenge
  cases hchallenge : digestChallenge packet with
  | panic => exact .done fun b hb => by cases hb
  | invalid e => exact .done fun b hb => by cases hb
  | refused => exact complies_finishBind h
  | none => exact complies_finishBind h
  | params m =>
    have hp : digestChallenge p = .params m := by
      rw [← digestChallenge_undescribed, ← hsame (length_of_digestChallenge hchallenge), digestChallenge_undescribed,
        hchallenge]
    dsimp only
    cases hresp : computeResponse md5Hash randomBytes m (str "ldap/" ++ toLower req.host) req.username req.password with
    | error e => exact complies_failBind _
    | ok resp =>
      refine .ask (.response hp hresp) fun reply => ?_
      cases hreply : reply.later (.wrapped "send message: %s") with
      | error err => exact complies_failBind err
      | ok packet =>
        rw [later_eq_ok hreply]
        exact complies_digestAfterResponse packet

theorem complies_digestMD5Bind {addControlDescriptions : Assign} {debug : Bool} :
    Dialog.Complies (DigestQuestion E req md5Hash randomBytes toLower) SuccessSeen (if req.password = [] then 0 else 3)
      [] (digestMD5Bind E addControlDescriptions debug req md5Hash randomBytes toLower) := by
  unfold digestMD5Bind
  split_ifs
  · exact complies_failBind _
  · refine .ask (.first fun _ _ _ => rfl) fun reply => ?_
    cases hreply : reply.first addControlDescriptions debug with
    | error err => exact complies_failBind err
    | ok packet =>
      obtain ⟨p, rfl, hp, hsame⟩ := first_eq_ok hreply
      exact complies_digestAfterChallenge hp hsame

end

/-- **`DigestMD5Bind` with any server.**  It sends at most three messages, and none without a password; the first and the
third are the same for every host, user name and password, and the second has the response that `computeResponse` makes to
the challenge in the answer to the first; and if it returns without an error, the last response had the result code
success. -/
theorem digestMD5Bind_sound {σ : Type} (peer : Dialog.Peer Question (fun _ => Reply) σ) (s : σ) (E : Encoder)
    (addControlDescriptions : Assign) (debug : Bool) (req : DigestMD5BindRequest) (md5Hash : GoString → GoString)
    (randomBytes : ℕ → Except Error GoString) (toLower : GoString → GoString) :
    let run := (digestMD5Bind E addControlDescriptions debug req md5Hash randomBytes toLower).run peer s
    run.history.length ≤ (if req.password = [] then 0 else 3) ∧
      Dialog.AllowedBy (DigestQuestion E req md5Hash randomBytes toLower) [] run.history ∧
      ∀ result ∈ run.result, SuccessSeen (Dialog.answered run.history) result :=
  complies_digestMD5Bind.run peer s

/-! ## `NTLMChallengeBind` -/

section

variable (E : Encoder) (ntlmssp : Ntlmssp) (req : NTLMBindRequest) (ntHash : GoString → GoString)

/-- There is something to authenticate with, or there need not be. -/
def NTLMBindRequest.HasSecret : Prop := req.allowEmptyPassword = true ∨ req.password ≠ [] ∨ req.hash ≠ []

/-- The messages of `NTLMChallengeBind`: a first request, which is the same for every user name, password and hash, and
the response to the challenge in the answer to it. -/
inductive NTLMQuestion : Answers → Question → Prop
  | first {q : Question} (h : ∀ username password hash, q = NTLMBindRequest.question E ntlmssp
      { req with username := username, password := password, hash := hash }) : NTLMQuestion [] q
  | response {q : Question} {p : Packet} {challenge responseMessage : GoString}
      (hchallenge : ntlmChallenge p = some (.ok challenge))
      (hresp : req.responseMessage ntlmssp ntHash challenge = .ok responseMessage) :
      NTLMQuestion [⟨q, .packet p⟩] fun messageID => .ok (ntlmResponseRequest E responseMessage messageID)

theorem ntlmChallenge_undescribed (p : Packet) : ntlmChallenge p.undescribed = ntlmChallenge p := by
  unfold ntlmChallenge
  rw [Packet.undescribed_children]
  rcases p.children with _ | ⟨mid, _ | ⟨op, _ | ⟨c, rest⟩⟩⟩
  · rfl
  · rfl
  · simp only [List.map_cons, List.map_nil, Packet.undescribed_children]
    rcases op.children with _ | ⟨code, _ | ⟨token, _ | ⟨message, _ | ⟨c, rest⟩⟩⟩⟩ <;> simp
  · rfl

theorem length_of_ntlmChallenge {p : Packet} {challenge : Except Unit GoString} (h : ntlmChallenge p = some challenge) :
    p.children.length = 2 := by
  unfold ntlmChallenge at h
  split at h
  · rename_i hcs
    rw [hcs]
    rfl
  · cases h

variable {E ntlmssp req ntHash}

theorem complies_ntlmAfterChallenge {q : Question} {p packet : Packet} (h : getLDAPError packet = getLDAPError p)
    (hsame : packet.children.length = 2 → packet.undescribed = p.undescribed) :
    Dialog.Complies (NTLMQuestion E ntlmssp req ntHash) SuccessSeen 1 ([] ++ [⟨q, .packet p⟩])
      (ntlmAfterChallenge E ntlmssp req ntHash packet) := by
  unfold ntlmAfterChallenge
  cases hchallenge : ntlmChallenge packet with
  | none => exact complies_finishBind h
  | some x =>
    have hp : ntlmChallenge p = some x := by
      rw [← ntlmChallenge_undescribed, ← hsame (length_of_ntlmChallenge hchallenge), ntlmChallenge_undescribed, hchallenge]
    cases x with
    | error _ => exact complies_finishBind h
    | ok challenge =>
      dsimp only
      cases hresp : req.responseMessage ntlmssp ntHash challenge with
      | error e => exact .done fun b hb => by cases hb
      | ok responseMessage =>
        refine .ask (.response hp hresp) fun reply => ?_
        cases hreply : reply.later (.wrapped "send message: %s") with
        | error err => exact complies_failBind err
        | ok packet =>
          rw [later_eq_ok hreply]
          exact complies_finishBind rfl

theorem complies_ntlmChallengeBind {addControlDescriptions : Assign} {debug : Bool} :
    Dialog.Complies (NTLMQuestion E ntlmssp req ntHash) SuccessSeen 2 []
      (ntlmChallengeBind E ntlmssp req ntHash addControlDescriptions debug) := by
  unfold ntlmChallengeBind
  split_ifs
  · exact complies_failBind _
  · refine .ask (.first fun _ _ _ => rfl) fun reply => ?_
    cases hreply : reply.first addControlDescriptions debug with
    | error err => exact complies_failBind err
    | ok packet =>
      obtain ⟨p, rfl, hp, hsame⟩ := first_eq_ok hreply
      exact complies_ntlmAfterChallenge hp hsame

end

/-- **`NTLMChallengeBind` with any server.**  It sends at most two messages, and none if there is nothing to authenticate
with and the caller has not allowed that; the first is the same for every user name, password and hash, and the second
answers the challenge in the first response, which starts with the signature of NTLM; and if it returns without an error,
the last response had the result code success. -/
theorem ntlmChallengeBind_sound {σ : Type} (peer : Dialog.Peer Question (fun _ => Reply) σ) (s : σ) (E : Encoder)
    (addControlDescriptions : Assign) (debug : Bool) (ntlmssp : Ntlmssp) (req : NTLMBindRequest)
    (ntHash : GoString → GoString) :
    let run := (ntlmChallengeBind E ntlmssp req ntHash addControlDescriptions debug).run peer s
    run.history.length ≤ 2 ∧ (¬ req.HasSecret → run.history = []) ∧
      Dialog.AllowedBy (NTLMQuestion E ntlmssp req ntHash) [] run.history ∧
      ∀ result ∈ run.result, SuccessSeen (Dialog.answered run.history) result := by
  obtain ⟨hlen, hall, hresult⟩ := complies_ntlmChallengeBind.run peer s
  refine ⟨hlen, fun hsecret => ?_, hall, hresult⟩
  rw [NTLMBindRequest.HasSecret] at hsecret
  push Not at hsecret
  rw [ntlmChallengeBind, if_pos ⟨Bool.not_eq_true _ ▸ hsecret.1, hsecret.2⟩]
  rfl

end GoLdap
