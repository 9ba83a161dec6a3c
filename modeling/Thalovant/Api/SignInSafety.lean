import Thalovant.Api.SignIn
import Thalovant.Lib.Machine

/-!
# Every sequence of sign-ins and revocations

The id held came with the token held, whatever the API answers: `sign_in_tokens`.
-/

namespace Thalovant.Api

variable {lib : Libraries} {plane plane' : ControlPlane}

/-! ## Operations -/

/-- An operation, with what the API answers. -/
inductive Op where
  | login (email password : String) (options : LoginOptions) (answer : Option HttpAnswer)
  | completeNativeSignIn (code verifier clientId redirectUri : String) (answer : Option HttpAnswer)
  | loginWithBrowser (options : DeviceLoginOptions) (clientId : Option String)
    (begun : Option HttpAnswer) (polls : List (HttpAnswer × Duration))
  | pollDeviceLogin (authorization : DeviceAuthorization) (answer : Option HttpAnswer)
  | revokeApiToken (tokenId : Option String) (answer : Option HttpAnswer)

namespace Op

def isSignIn : Op → Bool
  | revokeApiToken _ _ => false
  | _ => true

/-- The answers that the operation may have had. -/
def answers : Op → List HttpAnswer
  | login _ _ _ answer | completeNativeSignIn _ _ _ _ answer | pollDeviceLogin _ answer
  | revokeApiToken _ answer => answer.toList
  | loginWithBrowser _ _ begun polls => begun.toList ++ polls.map Prod.fst

/-- The client after the operation, and whether it succeeded. -/
def turn (lib : Libraries) (plane : ControlPlane) : Op → Bool × ControlPlane
  | login email password options answer =>
    let turn := loginWithOptions lib plane email password options answer
    (turn.reply.any Except.isOk, turn.plane)
  | completeNativeSignIn code verifier clientId redirectUri answer =>
    let turn := Api.completeNativeSignIn lib plane code verifier clientId redirectUri answer
    (turn.reply.any Except.isOk, turn.plane)
  | loginWithBrowser options clientId begun polls =>
    let turn := loginWithBrowserAs lib plane options clientId begun polls
    (turn.reply.any Except.isOk, turn.plane)
  | pollDeviceLogin authorization answer =>
    let turn := Api.pollDeviceLogin lib plane authorization answer
    (turn.reply.any Except.isOk, turn.plane)
  | revokeApiToken tokenId answer =>
    let turn := Api.revokeApiToken lib plane tokenId answer
    (turn.reply.any Except.isOk, turn.plane)

end Op

/-! ## What an answer says -/

/-- The value that an answer gives. -/
def valueOf (lib : Libraries) : HttpAnswer → Option Value
  | .response status text => if isSuccess status then parse lib text else none
  | .failed _ => none

theorem valueOf_response {status : Nat} {text : String} {value : Value}
    (hsuccess : isSuccess status = true) (hparse : lib.fromStr text = .ok value) :
    valueOf lib (.response status text) = some value := by
  rw [valueOf, if_pos hsuccess, parse, hparse]
  rfl

theorem Reply.andThen_eq_ok {α β : Type} {reply : Reply α} {f : α → Reply β} {b : β}
    (h : reply.andThen f = some (.ok b)) : ∃ a, reply = some (.ok a) ∧ f a = some (.ok b) := by
  cases reply with
  | none => cases h
  | some result =>
    cases result with
    | error err => cases h
    | ok a => exact ⟨a, rfl, h⟩

theorem sendRequest_eq_ok {sending : Request} {answer : Option HttpAnswer} {status : Nat}
    {text : String} (h : sendRequest lib plane sending answer = some (.ok (status, text))) :
    answer = some (.response status text) := by
  unfold sendRequest at h
  split at h
  · cases h
  · obtain ⟨a, rfl, ha⟩ := Option.map_eq_some_iff.mp h
    cases a with
    | failed message => cases ha
    | response status' text' =>
      rw [readAnswer] at ha
      split at ha
      · cases ha
      · cases ha
        rfl

/-- The value of a request is that of its answer. -/
theorem request_eq_ok {sending : Request} {answer : Option HttpAnswer} {value : Value}
    (h : request lib plane sending answer = some (.ok value)) (hnull : value ≠ .null) :
    ∃ a ∈ answer.toList, valueOf lib a = some value := by
  obtain ⟨⟨status, text⟩, hsend, hvalue⟩ := Reply.andThen_eq_ok h
  refine ⟨.response status text, Option.mem_toList.mpr (sendRequest_eq_ok hsend), ?_⟩
  have hanswer : answerValue lib status text = .ok value := Option.some.inj hvalue
  unfold answerValue at hanswer
  split at hanswer
  · cases hanswer
  · next hsuccess =>
    split at hanswer
    · cases hanswer
      exact absurd rfl hnull
    · split at hanswer
      · next hparse =>
        cases hanswer
        exact valueOf_response (by simpa using hsuccess) hparse
      · cases hanswer

theorem readDeviceToken_eq_ok {interval : Duration} {status : Nat} {text : String} {value : Value}
    (h : readDeviceToken lib interval status text = .ok value) :
    valueOf lib (.response status text) = some value := by
  unfold readDeviceToken at h
  split at h
  · next hsuccess =>
    split at h
    · cases h
    · split at h
      · next hparse =>
        cases h
        exact valueOf_response hsuccess hparse
      · cases h
  · dsimp only at h
    split at h <;> cases h

theorem deviceTokenOnce_eq_ok {deviceCode : String} {interval : Duration}
    {answer : Option HttpAnswer} {value : Value}
    (h : deviceTokenOnce lib plane deviceCode interval answer = some (.ok value)) :
    ∃ a ∈ answer.toList, valueOf lib a = some value := by
  obtain ⟨⟨status, text⟩, hsend, hvalue⟩ := Reply.andThen_eq_ok h
  refine ⟨.response status text, Option.mem_toList.mpr (sendRequest_eq_ok hsend), ?_⟩
  exact readDeviceToken_eq_ok (Option.some.inj hvalue)

/-- The token that polling ends with is that of one poll's answer. -/
theorem pollDeviceToken_eq_ok {deviceCode : String} {timeout : Duration} {value : Value}
    {polls : List (HttpAnswer × Duration)} : ∀ {wait : Duration},
    (pollDeviceToken lib plane deviceCode timeout polls wait).2 = some (.ok value) →
      ∃ a ∈ polls.map Prod.fst, valueOf lib a = some value := by
  induction polls with
  | nil =>
    intro wait h
    obtain ⟨a, ha, -⟩ := deviceTokenOnce_eq_ok h
    cases ha
  | cons p polls ih =>
    intro wait h
    obtain ⟨answer, elapsed⟩ := p
    rw [pollDeviceToken] at h
    split at h
    · split at h
      · cases h
      · obtain ⟨a, ha, hvalue⟩ := ih h
        exact ⟨a, List.mem_cons_of_mem _ ha, hvalue⟩
    · cases h
    · cases h
    · obtain ⟨a, ha, hvalue⟩ := deviceTokenOnce_eq_ok h
      rw [Option.toList_some, List.mem_singleton] at ha
      exact ⟨a, ha ▸ List.mem_cons_self, hvalue⟩

/-! ## One operation -/

/-- The same token is held, with the same id. -/
structure SameToken (plane plane' : ControlPlane) : Prop where
  accessToken : plane'.accessToken = plane.accessToken
  tokenId : plane'.tokenId = plane.tokenId
  revokedOwn : plane'.revokedOwn = plane.revokedOwn

theorem SameToken.of_eq (h : plane' = plane) : SameToken plane plane' := by
  subst h
  exact ⟨rfl, rfl, rfl⟩

/-- What is held, token and id, is from one of the answers. -/
def Took (lib : Libraries) (answers : List HttpAnswer) (plane : ControlPlane) : Prop :=
  ∃ a ∈ answers, ∃ token accessToken, valueOf lib a = some token
    ∧ accessTokenValue token = some accessToken ∧ plane.accessToken = some accessToken
    ∧ plane.tokenId = tokenIdValue token ∧ plane.revokedOwn = false

/-- A sign-in takes what an answer gives, or it fails and the same token is held. -/
def SignedIn (lib : Libraries) (answers : List HttpAnswer) (plane : ControlPlane)
    (turn : Bool × ControlPlane) : Prop :=
  turn.1 = true ∧ Took lib answers turn.2 ∨ turn.1 = false ∧ SameToken plane turn.2

theorem keepToken_signedIn {answers : List HttpAnswer} {sent : List Request} {reply : Reply Value}
    (h : ∀ token, reply = some (.ok token) → token ≠ .null → ∃ a ∈ answers, valueOf lib a = some token) :
    SignedIn lib answers plane
      ((keepToken plane sent reply).reply.any Except.isOk, (keepToken plane sent reply).plane) := by
  unfold keepToken
  split
  · next token =>
    split
    · next accessToken haccess =>
      have hnull : token ≠ .null := fun hnull => by
        rw [hnull] at haccess
        cases haccess
      obtain ⟨a, ha, hvalue⟩ := h token rfl hnull
      exact .inl ⟨rfl, a, ha, token, accessToken, hvalue, haccess, rfl, rfl, rfl⟩
    · exact .inr ⟨rfl, .of_eq rfl⟩
  · next hnot =>
    refine .inr ⟨?_, .of_eq rfl⟩
    cases hreply : reply with
    | none => rfl
    | some result =>
      cases result with
      | error err => rfl
      | ok token => exact absurd hreply (hnot token)

theorem signedIn_failed {answers : List HttpAnswer} (hsame : SameToken plane plane') :
    SignedIn lib answers plane (false, plane') := .inr ⟨rfl, hsame⟩

theorem completeNativeSignIn_signedIn (code verifier clientId redirectUri : String)
    (answer : Option HttpAnswer) :
    SignedIn lib answer.toList plane
      ((Op.completeNativeSignIn code verifier clientId redirectUri answer).turn lib plane) := by
  dsimp only [Op.turn]
  unfold completeNativeSignIn
  split
  · exact signedIn_failed (.of_eq rfl)
  · exact keepToken_signedIn fun token htoken hnull => request_eq_ok htoken hnull

theorem loginWithBrowserAs_signedIn (options : DeviceLoginOptions) (clientId : Option String)
    (begun : Option HttpAnswer) (polls : List (HttpAnswer × Duration)) :
    SignedIn lib (begun.toList ++ polls.map Prod.fst) plane
      ((Op.loginWithBrowser options clientId begun polls).turn lib plane) := by
  dsimp only [Op.turn]
  unfold loginWithBrowserAs
  dsimp only
  split
  · refine keepToken_signedIn fun token htoken _ => ?_
    obtain ⟨a, ha, hvalue⟩ := pollDeviceToken_eq_ok htoken
    exact ⟨a, List.mem_append_right _ ha, hvalue⟩
  · exact signedIn_failed (.of_eq rfl)
  · exact signedIn_failed (.of_eq rfl)

theorem ApiToken.fromValue_eq_ok {value : Value} {token : ApiToken}
    (h : ApiToken.fromValue value = .ok token) :
    accessTokenValue value = some token.accessToken ∧ token.tokenId = tokenIdValue value := by
  unfold ApiToken.fromValue at h
  split at h
  · cases h
  · next haccess =>
    cases h
    exact ⟨haccess, rfl⟩

theorem pollDeviceLogin_signedIn (authorization : DeviceAuthorization) (answer : Option HttpAnswer) :
    SignedIn lib answer.toList plane
      ((Op.pollDeviceLogin authorization answer).turn lib plane) := by
  dsimp only [Op.turn]
  unfold pollDeviceLogin
  dsimp only
  split
  · next value hvalue =>
    obtain ⟨a, ha, hvalue⟩ := deviceTokenOnce_eq_ok hvalue
    split
    · next token htoken =>
      obtain ⟨haccess, htokenId⟩ := ApiToken.fromValue_eq_ok htoken
      exact .inl ⟨rfl, a, ha, value, token.accessToken, hvalue, haccess, rfl, htokenId, rfl⟩
    · exact signedIn_failed ⟨rfl, rfl, rfl⟩
  · exact signedIn_failed ⟨rfl, rfl, rfl⟩
  · exact signedIn_failed ⟨rfl, rfl, rfl⟩
  · exact signedIn_failed ⟨rfl, rfl, rfl⟩
  · exact signedIn_failed ⟨rfl, rfl, rfl⟩
  · exact signedIn_failed ⟨rfl, rfl, rfl⟩

/-- **Every sign-in takes what an answer gives, or leaves the token as it is.** -/
theorem signIn_turn {op : Op} (h : op.isSignIn = true) :
    SignedIn lib op.answers plane (op.turn lib plane) := by
  cases op with
  | login email password options answer =>
    exact keepToken_signedIn fun token htoken hnull => request_eq_ok htoken hnull
  | completeNativeSignIn code verifier clientId redirectUri answer =>
    exact completeNativeSignIn_signedIn code verifier clientId redirectUri answer
  | loginWithBrowser options clientId begun polls =>
    exact loginWithBrowserAs_signedIn options clientId begun polls
  | pollDeviceLogin authorization answer => exact pollDeviceLogin_signedIn authorization answer
  | revokeApiToken tokenId answer => cases h

/-- The revocation is of the token in use. -/
def IsOwn (plane : ControlPlane) (tokenId : Option String) : Prop :=
  ∃ own, plane.tokenId = some own ∧ revokeTarget plane tokenId = some own

/-- **A revocation forgets the token in use or leaves everything as it is.** -/
theorem revokeApiToken_cases (lib : Libraries) (plane : ControlPlane) (tokenId : Option String)
    (answer : Option HttpAnswer) :
    (revokeApiToken lib plane tokenId answer).plane = plane
      ∧ ((revokeApiToken lib plane tokenId answer).reply.any Except.isOk = true → ¬IsOwn plane tokenId)
    ∨ (revokeApiToken lib plane tokenId answer).plane = plane.forgetToken ∧ IsOwn plane tokenId
      ∧ (revokeApiToken lib plane tokenId answer).reply = some (.ok ()) := by
  unfold revokeApiToken
  split
  · next htarget =>
    have hother : ¬IsOwn plane tokenId := fun ⟨own, _, hown⟩ => nomatch htarget.symm.trans hown
    split <;> exact .inl ⟨rfl, fun _ => hother⟩
  · next target htarget =>
    have hown : IsOwn plane tokenId ↔ plane.tokenId = some target := by
      refine ⟨fun ⟨own, hid, hown⟩ => ?_, fun h => ⟨target, h, htarget⟩⟩
      cases htarget.symm.trans hown
      exact hid
    dsimp only
    split
    · by_cases h : plane.tokenId = some target
      · rw [if_pos h]
        exact .inr ⟨rfl, hown.mpr h, rfl⟩
      · rw [if_neg h]
        exact .inl ⟨rfl, fun _ => hown.not.mpr h⟩
    · split
      · next hrefused =>
        have h : plane.tokenId = some target := of_decide_eq_true (Bool.and_eq_true_iff.mp hrefused).1
        exact .inr ⟨rfl, hown.mpr h, rfl⟩
      · exact .inl ⟨rfl, fun hok => nomatch hok⟩
    · exact .inl ⟨rfl, fun hok => nomatch hok⟩

/-- The server's refusal of our own revocation as unauthenticated counts as forgotten. -/
theorem revokeApiToken_unauthenticated {tokenId : Option String} (hown : IsOwn plane tokenId)
    {own : String} (hid : plane.tokenId = some own)
    (hsent : prepare lib plane (revokeRequest own) = .ok ()) (text : String) :
    (revokeApiToken lib plane tokenId (some (.response 401 text))).plane = plane.forgetToken
    ∧ (revokeApiToken lib plane tokenId (some (.response 401 text))).reply = some (.ok ()) := by
  obtain ⟨target, htarget, hrevoke⟩ := hown
  cases hid.symm.trans htarget
  have hreply : request lib plane (revokeRequest own) (some (.response 401 text))
      = some (.error (apiResponseError lib 401 text)) := by
    simp [request, sendRequest, hsent, readAnswer, Reply.andThen, answerValue, isSuccess]
  simp [revokeApiToken, hrevoke, hreply, hid, apiResponseError, ThalovantError.statusCode,
    ThalovantError.apiAnswer]

/-! ## Every sequence -/

/-- The client after a sequence of operations. -/
def planeAfter (lib : Libraries) (plane : ControlPlane) (ops : List Op) : ControlPlane :=
  Machine.final (fun plane op => op.turn lib plane) plane ops

/-- No sign-in of the sequence succeeds. -/
def NoSignIn (lib : Libraries) : ControlPlane → List Op → Prop
  | _, [] => True
  | plane, op :: ops =>
    ¬(op.isSignIn = true ∧ (op.turn lib plane).1 = true) ∧ NoSignIn lib (op.turn lib plane).2 ops

/-- An operation that fails leaves the token as it is. -/
theorem turn_failed {op : Op} (h : (op.turn lib plane).1 = false) :
    SameToken plane (op.turn lib plane).2 := by
  by_cases hsign : op.isSignIn = true
  · rcases signIn_turn hsign with ⟨hok, -⟩ | ⟨-, hsame⟩
    · exact nomatch hok.symm.trans h
    · exact hsame
  · cases op with
    | revokeApiToken tokenId answer =>
      rcases revokeApiToken_cases lib plane tokenId answer with ⟨hsame, -⟩ | ⟨-, -, hok⟩
      · exact .of_eq hsame
      · have hturn : (Op.turn lib plane (.revokeApiToken tokenId answer)).1 = true := by
          show (revokeApiToken lib plane tokenId answer).reply.any Except.isOk = true
          rw [hok]
          rfl
        exact nomatch hturn.symm.trans h
    | _ => exact absurd rfl hsign

/-- Where an id is held, it came with the token held, in one of the answers. -/
def Paired (lib : Libraries) (answers : List HttpAnswer) (plane : ControlPlane) : Prop :=
  plane.tokenId ≠ none → Took lib answers plane

theorem Paired.turn {answers : List HttpAnswer} (h : Paired lib answers plane) (op : Op) :
    Paired lib (answers ++ op.answers) (op.turn lib plane).2 := by
  have hsame : ∀ {plane'}, SameToken plane plane' → Paired lib (answers ++ op.answers) plane' := by
    intro plane' hsame hid
    rw [hsame.tokenId] at hid
    obtain ⟨a, ha, token, accessToken, hvalue, haccess, hheld, hid, hrevoked⟩ := h hid
    exact ⟨a, List.mem_append_left _ ha, token, accessToken, hvalue, haccess,
      hsame.accessToken.trans hheld, hsame.tokenId.trans hid, hsame.revokedOwn.trans hrevoked⟩
  by_cases hsign : op.isSignIn = true
  · rcases signIn_turn hsign with ⟨-, a, ha, htoken⟩ | ⟨-, hkept⟩
    · exact fun _ => ⟨a, List.mem_append_right _ ha, htoken⟩
    · exact hsame hkept
  · cases op with
    | revokeApiToken tokenId answer =>
      rcases revokeApiToken_cases lib plane tokenId answer with ⟨hplane, -⟩ | ⟨hplane, -, -⟩
      · exact hsame (.of_eq hplane)
      · intro hid
        rw [show (Op.turn lib plane (.revokeApiToken tokenId answer)).2 = plane.forgetToken from hplane]
          at hid
        exact absurd rfl hid
    | _ => exact absurd rfl hsign

theorem Paired.planeAfter (ops : List Op) :
    ∀ {plane : ControlPlane} {answers : List HttpAnswer}, Paired lib answers plane →
      Paired lib (answers ++ ops.flatMap Op.answers) (planeAfter lib plane ops) := by
  induction ops with
  | nil =>
    intro plane answers h
    rwa [List.flatMap_nil, List.append_nil]
  | cons op ops ih =>
    intro plane answers h
    rw [List.flatMap_cons, ← List.append_assoc]
    exact ih (h.turn op)

/-- The token in use has been revoked, and is forgotten. -/
def Forgotten (plane : ControlPlane) : Prop :=
  plane.accessToken = none ∧ plane.tokenId = none ∧ plane.revokedOwn = true

/-- It stays forgotten until a sign-in succeeds. -/
theorem Forgotten.planeAfter (ops : List Op) : ∀ {plane : ControlPlane}, Forgotten plane →
    NoSignIn lib plane ops → Forgotten (planeAfter lib plane ops) := by
  induction ops with
  | nil => exact fun h _ => h
  | cons op ops ih =>
    intro plane h hnone
    refine ih ?_ hnone.2
    have hkept : SameToken plane (op.turn lib plane).2 := by
      by_cases hok : (op.turn lib plane).1 = true
      · cases op with
        | revokeApiToken tokenId answer =>
          rcases revokeApiToken_cases lib plane tokenId answer with ⟨hsame, -⟩ | ⟨-, hown, -⟩
          · exact .of_eq hsame
          · obtain ⟨own, hid, -⟩ := hown
            exact nomatch h.2.1.symm.trans hid
        | _ => exact absurd ⟨rfl, hok⟩ hnone.1
      · exact turn_failed (Bool.eq_false_iff.mpr hok)
    exact ⟨hkept.accessToken.trans h.1, hkept.tokenId.trans h.2.1, hkept.revokedOwn.trans h.2.2⟩

/-- Revoking a forgotten token again sends nothing and succeeds. -/
theorem Forgotten.revoke (h : Forgotten plane) {tokenId : Option String}
    (hnone : tokenId.filter (· ≠ "") = none) (answer : Option HttpAnswer) :
    revokeApiToken lib plane tokenId answer = ⟨plane, [], some (.ok ())⟩ := by
  have htarget : revokeTarget plane tokenId = none := by
    rw [revokeTarget, hnone, h.2.1]
    rfl
  simp [revokeApiToken, htarget, h.1, h.2.2]

/-- **The id held came with the token held**, however sign-ins and revocations follow each other. One
that fails leaves both, a revocation of another token leaves everything, and a token that is revoked is
forgotten: to revoke it again sends nothing and succeeds, until a sign-in does. -/
theorem sign_in_tokens (lib : Libraries) (apiUrl userAgent : String) (accessToken : Option String)
    (ops : List Op) :
    let plane := planeAfter lib (ControlPlane.new apiUrl accessToken userAgent) ops
    (∀ id, plane.tokenId = some id → ∃ answer ∈ ops.flatMap Op.answers, ∃ token,
      valueOf lib answer = some token ∧ plane.accessToken ≠ none
      ∧ accessTokenValue token = plane.accessToken ∧ tokenIdValue token = some id)
    ∧ (∀ op : Op, (op.turn lib plane).1 = false → SameToken plane (op.turn lib plane).2)
    ∧ (∀ tokenId own text, IsOwn plane tokenId → plane.tokenId = some own →
      prepare lib plane (revokeRequest own) = .ok () →
      (Op.revokeApiToken tokenId (some (.response 401 text))).turn lib plane
        = (true, plane.forgetToken))
    ∧ (∀ tokenId answer, ¬IsOwn plane tokenId → (revokeApiToken lib plane tokenId answer).plane = plane)
    ∧ ∀ tokenId answer later, IsOwn plane tokenId →
      ((Op.revokeApiToken tokenId answer).turn lib plane).1 = true →
      NoSignIn lib ((Op.revokeApiToken tokenId answer).turn lib plane).2 later →
      ∀ again answer', again = none ∨ again = some "" →
        let plane' := planeAfter lib ((Op.revokeApiToken tokenId answer).turn lib plane).2 later
        revokeApiToken lib plane' again answer' = ⟨plane', [], some (.ok ())⟩ := by
  intro plane
  -- the id and the token are set together, so that they are of one answer over any turns
  have hpaired : Paired lib (ops.flatMap Op.answers) plane := by
    have hnew : Paired lib [] (ControlPlane.new apiUrl accessToken userAgent) := fun h => absurd rfl h
    exact hnew.planeAfter ops
  refine ⟨fun id hid => ?_, fun op => turn_failed, fun tokenId own text hown hid hsent => ?_,
    fun tokenId answer hother => ?_, fun tokenId answer later hown hok hnone again answer' hagain => ?_⟩
  · obtain ⟨a, ha, token, accessToken, hvalue, haccess, hheld, htokenId, -⟩ :=
      hpaired (by rw [hid]; exact nofun)
    exact ⟨a, ha, token, hvalue, by rw [hheld]; exact nofun, haccess.trans hheld.symm,
      htokenId.symm.trans hid⟩
  · obtain ⟨hplane, hreply⟩ := revokeApiToken_unauthenticated hown hid hsent text
    exact Prod.ext (by dsimp only [Op.turn]; rw [hreply]; rfl) hplane
  · rcases revokeApiToken_cases lib plane tokenId answer with ⟨hsame, -⟩ | ⟨-, hown, -⟩
    · exact hsame
    · exact absurd hown hother
  · have hforgotten : Forgotten ((Op.revokeApiToken tokenId answer).turn lib plane).2 := by
      rcases revokeApiToken_cases lib plane tokenId answer with ⟨-, hother⟩ | ⟨hplane, -⟩
      · exact absurd hown (hother hok)
      · have hturn : ((Op.revokeApiToken tokenId answer).turn lib plane).2 = plane.forgetToken := hplane
        rw [hturn]
        exact ⟨rfl, rfl, rfl⟩
    refine (hforgotten.planeAfter later hnone).revoke ?_ answer'
    rcases hagain with rfl | rfl <;> rfl

end Thalovant.Api
