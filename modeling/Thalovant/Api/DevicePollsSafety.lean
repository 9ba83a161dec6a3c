import Thalovant.Api.DevicePolls

/-!
# The interval of a device code

* `devicePolls_law`: where no success comes without a token, a pending answer reports the initial interval
  of its code and five seconds for each `slow_down`, as the blocking loop waits
-/

namespace Thalovant.Api

variable {lib : Libraries} {plane : ControlPlane}

/-! ## What an answer comes to -/

/-- The error is none of a device sign-in. -/
def Unrelated : ThalovantError → Prop
  | .deviceLoginPending _ _ _ | .deviceLoginDenied _ _ | .deviceLoginExpired _ _ => False
  | _ => True

/-- What comes of asking once for the token of a code, by what is answered. -/
inductive Once (interval : Duration) : DeviceAnswer → Reply Value → Prop
  | pending (status : Nat) (problem : Option Map) :
      Once interval .pending (some (.error (.deviceLoginPending interval status problem)))
  | slowDown (status : Nat) (problem : Option Map) :
      Once interval .slowDown (some (.error
        (.deviceLoginPending (interval.saturatingAdd DEVICE_SLOW_DOWN) status problem)))
  | token {value : Value} {token : ApiToken} : ApiToken.fromValue value = .ok token →
      Once interval (.token token) (some (.ok value))
  | unusable {value : Value} {err : ThalovantError} : ApiToken.fromValue value = .error err →
      Once interval .unusable (some (.ok value))
  | denied (status : Nat) (problem : Option Map) :
      Once interval .denied (some (.error (.deviceLoginDenied status problem)))
  | expired (status : Nat) (problem : Option Map) :
      Once interval .expired (some (.error (.deviceLoginExpired status problem)))
  | failed {err : ThalovantError} : Unrelated err → Once interval .other (some (.error err))
  | dropped : Once interval .other none

theorem readDeviceToken_once (interval : Duration) (status : Nat) (text : String) :
    Once interval (answerKind lib (some (.response status text)))
      (some (readDeviceToken lib interval status text)) := by
  rw [answerKind, readDeviceToken]
  split
  · split
    · exact .failed trivial
    · cases lib.fromStr text with
      | error err => exact .failed trivial
      | ok value =>
        dsimp only
        cases htoken : ApiToken.fromValue value with
        | ok token => exact .token htoken
        | error err => exact .unusable htoken
  · dsimp only
    rw [show (if status = 400 then ((parse lib text).bind (member "error")).bind Json.Value.asStr else none)
      = deviceError lib status text from rfl]
    by_cases h₁ : deviceError lib status text = some "authorization_pending"
    · rw [if_pos h₁, h₁]
      exact .pending status _
    · rw [if_neg h₁]
      by_cases h₂ : deviceError lib status text = some "slow_down"
      · rw [if_pos h₂, h₂]
        exact .slowDown status _
      · rw [if_neg h₂]
        by_cases h₃ : deviceError lib status text = some "access_denied"
        · rw [if_pos h₃, h₃]
          exact .denied status _
        · rw [if_neg h₃]
          by_cases h₄ : deviceError lib status text = some "expired_token"
          · rw [if_pos h₄, h₄]
            exact .expired status _
          · rw [if_neg h₄]
            split
            · next h => exact absurd h h₁
            · next h => exact absurd h h₂
            · next h => exact absurd h h₃
            · next h => exact absurd h h₄
            · exact .failed trivial

theorem validate_unrelated {raw : String} {sensitive : Bool} {err : ThalovantError}
    (h : validateControlRequestUrl lib raw sensitive = .error err) : Unrelated err := by
  unfold validateControlRequestUrl at h
  split at h
  · cases h
    trivial
  · split at h
    · cases h
      trivial
    · split at h
      · cases h
        trivial
      · cases h

theorem headerValue_unrelated {text : String} {err : ThalovantError}
    (h : headerValue text = .error err) : Unrelated err := by
  unfold headerValue at h
  split at h
  · cases h
  · cases h
    trivial

theorem prepare_unrelated {deviceCode : String} {err : ThalovantError}
    (h : prepare lib plane (deviceTokenRequest deviceCode) = .error err) : Unrelated err := by
  unfold prepare at h
  cases hurl : validateControlRequestUrl lib
      (plane.apiUrl ++ trimStartChar '/' (deviceTokenRequest deviceCode).path)
      ((deviceTokenRequest deviceCode).auth || (deviceTokenRequest deviceCode).body.isSome) with
  | error err' =>
    rw [hurl] at h
    cases h
    exact validate_unrelated hurl
  | ok url =>
    rw [hurl] at h
    cases hagent : headerValue plane.userAgent with
    | error err' =>
      simp only [hagent] at h
      cases h
      exact headerValue_unrelated hagent
    | ok _ =>
      simp only [hagent] at h
      cases h

theorem deviceTokenOnce_once (deviceCode : String) (interval : Duration) (answer : Option HttpAnswer) :
    Once interval (pollKind lib plane deviceCode answer)
      (deviceTokenOnce lib plane deviceCode interval answer) := by
  unfold pollKind deviceTokenOnce sendRequest
  cases hsend : prepare lib plane (deviceTokenRequest deviceCode) with
  | error err => exact .failed (prepare_unrelated hsend)
  | ok _ =>
    dsimp only
    rcases answer with _ | message | ⟨status, text⟩
    · exact .dropped
    · exact .failed trivial
    · rw [Option.map_some, readAnswer]
      by_cases hredirect : (decide (300 ≤ status) && decide (status < 400)) = true
      · rw [if_pos hredirect]
        simp only [Bool.and_eq_true, decide_eq_true_eq] at hredirect
        have hother : answerKind lib (some (.response status text)) = .other := by
          have hsuccess : isSuccess status = false := by simp [isSuccess]; omega
          have herror : deviceError lib status text = none := if_neg (by omega)
          simp [answerKind, hsuccess, herror]
        rw [hother]
        exact .failed trivial
      · rw [if_neg hredirect]
        exact readDeviceToken_once interval status text

/-! ## One poll -/

/-- The sign-in is not finished yet: the answer is pending, or tells to slow down. -/
def DeviceAnswer.isPending : DeviceAnswer → Bool
  | .pending | .slowDown => true
  | _ => false

/-- The interval that is held of a code after an answer. -/
def heldAfter (interval : Duration) : DeviceAnswer → Option Duration
  | .slowDown => some (interval.saturatingAdd DEVICE_SLOW_DOWN)
  | .pending | .other => some interval
  | .token _ | .unusable | .denied | .expired => none

/-- The token that is held after an answer. -/
def tokenAfter (accessToken : Option String) : DeviceAnswer → Option String
  | .token token => some token.accessToken
  | _ => accessToken

/-- The interval that is held of a code. -/
def ControlPlane.held (plane : ControlPlane) (code : String) : Option Duration :=
  SortedMap.get code plane.deviceIntervals

/-- What a poll does, by what is answered. -/
structure Polled (plane : ControlPlane) (poll : DevicePoll) (kind : DeviceAnswer) (turn : Turn ApiToken) :
    Prop where
  held : ∀ code, turn.plane.held code = if code = poll.code then
    heldAfter ((plane.held poll.code).getD poll.authorization.pollInterval) kind else plane.held code
  token : turn.plane.accessToken = tokenAfter plane.accessToken kind
  obtained : ∀ token, kind = .token token → turn.reply = some (.ok token)
  client : turn.plane.apiUrl = plane.apiUrl ∧ turn.plane.userAgent = plane.userAgent
  pending : kind.isPending → ∃ interval status problem,
    turn.reply = some (.error (.deviceLoginPending interval status problem)) ∧
      heldAfter ((plane.held poll.code).getD poll.authorization.pollInterval) kind = some interval
  only : ∀ interval status problem,
    turn.reply = some (.error (.deviceLoginPending interval status problem)) → kind.isPending

theorem held_setInterval (plane : ControlPlane) (deviceCode code : String) (interval : Duration) :
    (plane.setInterval deviceCode interval).held code
      = if code = deviceCode then some interval else plane.held code :=
  SortedMap.get_insert code deviceCode interval plane.deviceIntervals

theorem held_forgetInterval (plane : ControlPlane) (deviceCode code : String) :
    (plane.forgetInterval deviceCode).held code = if code = deviceCode then none else plane.held code :=
  SortedMap.get_erase code deviceCode plane.deviceIntervals

theorem held_acceptToken (plane : ControlPlane) (accessToken : String) (tokenId : Option String)
    (code : String) : (plane.acceptToken accessToken tokenId).held code = plane.held code := rfl

variable (lib) in
theorem polled_pollDeviceLogin (plane : ControlPlane) (poll : DevicePoll) :
    Polled plane poll (poll.kind lib plane) (pollDeviceLogin lib plane poll.authorization poll.answer) := by
  -- what one poll does to the interval that is held, by what the answer was
  have honce : Once ((plane.held poll.code).getD poll.authorization.pollInterval) (poll.kind lib plane)
      (deviceTokenOnce lib
        (plane.setInterval poll.code ((plane.held poll.code).getD poll.authorization.pollInterval))
        poll.code ((plane.held poll.code).getD poll.authorization.pollInterval) poll.answer) :=
    deviceTokenOnce_once poll.code _ poll.answer
  unfold pollDeviceLogin
  dsimp only
  rw [show SortedMap.get poll.authorization.deviceCode plane.deviceIntervals = plane.held poll.code from rfl,
    show poll.authorization.deviceCode = poll.code from rfl]
  generalize deviceTokenOnce lib _ poll.code _ poll.answer = reply at honce ⊢
  generalize poll.kind lib plane = kind at honce ⊢
  cases honce with
  | pending status problem =>
    refine ⟨fun code => ?_, rfl, nofun, ⟨rfl, rfl⟩, fun _ => ⟨_, status, problem, rfl, rfl⟩,
      fun _ _ _ _ => rfl⟩
    simp only [held_setInterval, heldAfter]
    split <;> rfl
  | slowDown status problem =>
    refine ⟨fun code => ?_, rfl, nofun, ⟨rfl, rfl⟩, fun _ => ⟨_, status, problem, rfl, rfl⟩,
      fun _ _ _ _ => rfl⟩
    simp only [held_setInterval, heldAfter]
    split <;> rfl
  | @token value token htoken =>
    dsimp only
    rw [htoken]
    refine ⟨fun code => ?_, rfl, fun _ h => ?_, ⟨rfl, rfl⟩, nofun, nofun⟩
    · simp only [held_acceptToken, held_forgetInterval, held_setInterval, heldAfter]
      split <;> rfl
    · rw [DeviceAnswer.token.inj h]
  | @unusable value err herr =>
    have herr' : err = unusableToken := by
      unfold ApiToken.fromValue at herr
      split at herr
      · exact (Except.error.inj herr).symm
      · cases herr
    dsimp only
    rw [herr, herr']
    refine ⟨fun code => ?_, rfl, nofun, ⟨rfl, rfl⟩, nofun, nofun⟩
    simp only [held_forgetInterval, held_setInterval, heldAfter]
    split <;> rfl
  | denied status problem =>
    refine ⟨fun code => ?_, rfl, nofun, ⟨rfl, rfl⟩, nofun, nofun⟩
    simp only [held_forgetInterval, held_setInterval, heldAfter]
    split <;> rfl
  | expired status problem =>
    refine ⟨fun code => ?_, rfl, nofun, ⟨rfl, rfl⟩, nofun, nofun⟩
    simp only [held_forgetInterval, held_setInterval, heldAfter]
    split <;> rfl
  | @failed err herr =>
    cases err with
    | deviceLoginPending | deviceLoginExpired | deviceLoginDenied => exact herr.elim
    | _ =>
      refine ⟨fun code => ?_, rfl, nofun, ⟨rfl, rfl⟩, nofun, nofun⟩
      simp only [held_setInterval, heldAfter]
  -- a poll that was dropped has set the interval and no more
  | dropped =>
    refine ⟨fun code => ?_, rfl, nofun, ⟨rfl, rfl⟩, nofun, nofun⟩
    simp only [held_setInterval, heldAfter]

/-! ## Runs -/

/-- Nothing that a request of the token depends on has changed. -/
def SameClient (plane plane' : ControlPlane) : Prop :=
  plane'.apiUrl = plane.apiUrl ∧ plane'.userAgent = plane.userAgent

theorem pollKind_congr {plane' : ControlPlane} (h : SameClient plane plane') (deviceCode : String)
    (answer : Option HttpAnswer) :
    pollKind lib plane' deviceCode answer = pollKind lib plane deviceCode answer := by
  have hprepare : prepare lib plane' (deviceTokenRequest deviceCode)
      = prepare lib plane (deviceTokenRequest deviceCode) := by
    unfold prepare
    rw [h.1, h.2]
    rfl
  rw [pollKind, pollKind, hprepare]

theorem afterPolls_concat (plane : ControlPlane) (polls : List DevicePoll) (poll : DevicePoll) :
    afterPolls lib plane (polls ++ [poll])
      = (pollDeviceLogin lib (afterPolls lib plane polls) poll.authorization poll.answer).plane := by
  simp [afterPolls]

theorem track_concat (plane : ControlPlane) (polls : List DevicePoll) (poll : DevicePoll) :
    track lib plane (polls ++ [poll]) = (track lib plane polls).next poll (poll.kind lib plane) := by
  simp [track]

theorem sameClient_afterPolls (plane : ControlPlane) (polls : List DevicePoll) :
    SameClient plane (afterPolls lib plane polls) := by
  induction polls using List.reverseRecOn with
  | nil => exact ⟨rfl, rfl⟩
  | append_singleton polls poll ih =>
    rw [afterPolls_concat]
    have hpoll := (polled_pollDeviceLogin lib (afterPolls lib plane polls) poll).client
    exact ⟨hpoll.1.trans ih.1, hpoll.2.trans ih.2⟩

variable (lib) in
/-- A poll in a run does what its answer says. -/
theorem polled_afterPolls (plane : ControlPlane) (polls : List DevicePoll) (poll : DevicePoll) :
    Polled (afterPolls lib plane polls) poll (poll.kind lib plane)
      (pollDeviceLogin lib (afterPolls lib plane polls) poll.authorization poll.answer) := by
  have hkind : poll.kind lib (afterPolls lib plane polls) = poll.kind lib plane :=
    pollKind_congr (sameClient_afterPolls plane polls) poll.code poll.answer
  exact hkind ▸ polled_pollDeviceLogin lib (afterPolls lib plane polls) poll

/-- The interval held of each code is that of its sign-in. -/
def Agrees (plane : ControlPlane) (tracking : Tracking) : Prop :=
  ∀ code, plane.held code = (tracking code).map Tracked.interval

/-- What a poll goes by. -/
theorem Agrees.interval {tracking : Tracking} (h : Agrees plane tracking) (poll : DevicePoll) :
    (plane.held poll.code).getD poll.authorization.pollInterval = (tracking.at poll).interval := by
  rw [h poll.code, Tracking.at]
  cases tracking poll.code with
  | none => exact (lengthened_zero _).symm
  | some t => rfl

/-- What is held after an answer is what should be, unless a success came without a token. -/
theorem heldAfter_interval {kind : DeviceAnswer} (hkind : kind ≠ .unusable) (t : Tracked) :
    heldAfter t.interval kind = (t.next kind).map Tracked.interval := by
  cases kind with
  | unusable => exact absurd rfl hkind
  | slowDown => exact congrArg some (lengthened_succ t.initial t.slowDowns).symm
  | _ => rfl

theorem Agrees.poll {tracking : Tracking} (h : Agrees plane tracking) {poll : DevicePoll}
    {kind : DeviceAnswer} (hkind : kind ≠ .unusable) {turn : Turn ApiToken}
    (hpolled : Polled plane poll kind turn) : Agrees turn.plane (tracking.next poll kind) := by
  intro code
  rw [hpolled.held, Tracking.next, h.interval, heldAfter_interval hkind]
  split
  · rfl
  · exact h code

variable (lib) in
theorem agrees_afterPolls (plane : ControlPlane) (hnew : plane.deviceIntervals = [])
    (polls : List DevicePoll) (h : ∀ poll ∈ polls, poll.kind lib plane ≠ .unusable) :
    Agrees (afterPolls lib plane polls) (track lib plane polls) := by
  induction polls using List.reverseRecOn with
  | nil =>
    intro code
    show SortedMap.get code plane.deviceIntervals = none
    rw [hnew, SortedMap.get_nil]
  | append_singleton polls poll ih =>
    rw [afterPolls_concat, track_concat]
    have hpolls := ih fun other hother => h other (List.mem_append_left _ hother)
    exact hpolls.poll (h poll (List.mem_append_right _ (List.mem_singleton.mpr rfl)))
      (polled_afterPolls lib plane polls poll)

/-! ## The blocking loop -/

def DeviceAnswer.isSlowDown : DeviceAnswer → Bool
  | .slowDown => true
  | _ => false

/-- How many answers told a code to slow down. -/
def slowDowns (lib : Libraries) (plane : ControlPlane) (deviceCode : String)
    (answers : List (HttpAnswer × Duration)) : Nat :=
  answers.countP fun answer => (pollKind lib plane deviceCode (some answer.1)).isSlowDown

/-- The answer is pending or slows down, and there is time left after it. -/
def GoesOn (lib : Libraries) (plane : ControlPlane) (deviceCode : String) (timeout : Duration)
    (answer : HttpAnswer × Duration) : Prop :=
  (pollKind lib plane deviceCode (some answer.1) = .pending ∨
    pollKind lib plane deviceCode (some answer.1) = .slowDown) ∧
  (timeout.saturatingSub answer.2).isZero = false

/-- A pending answer leaves the interval, or lengthens it by one. -/
theorem deviceTokenOnce_goesOn {deviceCode : String} {timeout : Duration}
    {answer : HttpAnswer × Duration} (h : GoesOn lib plane deviceCode timeout answer) (initial : Duration)
    (n : Nat) : ∃ status problem,
      deviceTokenOnce lib plane deviceCode (lengthened initial n) (some answer.1)
        = some (.error (.deviceLoginPending
            (lengthened initial (n + slowDowns lib plane deviceCode [answer])) status problem)) := by
  have honce : Once (lengthened initial n) (pollKind lib plane deviceCode (some answer.1))
      (deviceTokenOnce lib plane deviceCode (lengthened initial n) (some answer.1)) :=
    deviceTokenOnce_once deviceCode (lengthened initial n) (some answer.1)
  rw [slowDowns, List.countP_singleton]
  rcases h.1 with hkind | hkind
  · rw [hkind] at honce ⊢
    generalize deviceTokenOnce lib plane deviceCode _ _ = reply at honce ⊢
    cases honce with
    | pending status problem => exact ⟨status, problem, rfl⟩
  · rw [hkind] at honce ⊢
    generalize deviceTokenOnce lib plane deviceCode _ _ = reply at honce ⊢
    cases honce with
    | slowDown status problem =>
      refine ⟨status, problem, ?_⟩
      rw [← lengthened_succ]
      rfl

/-- The loop waits its interval after each answer, and five seconds more for each `slow_down`. -/
theorem deviceWaits_goesOn {deviceCode : String} {timeout : Duration} (initial : Duration)
    {answer : HttpAnswer × Duration} (after : List (HttpAnswer × Duration)) :
    ∀ {before : List (HttpAnswer × Duration)} (n : Nat),
      (∀ a ∈ before ++ [answer], GoesOn lib plane deviceCode timeout a) →
      (deviceWaits lib plane deviceCode timeout (before ++ answer :: after) (lengthened initial n))[before.length]?
        = some ((lengthened initial (n + slowDowns lib plane deviceCode (before ++ [answer]))).min
            (timeout.saturatingSub answer.2)) := by
  intro before
  induction before with
  | nil =>
    intro n h
    have hgoes := h answer (by simp)
    obtain ⟨status, problem, honce⟩ := deviceTokenOnce_goesOn hgoes initial n
    rw [List.nil_append, deviceWaits, honce]
    dsimp only
    rw [if_neg (by simp [hgoes.2])]
    rfl
  | cons first before ih =>
    intro n h
    have hgoes := h first (by simp)
    obtain ⟨status, problem, honce⟩ := deviceTokenOnce_goesOn hgoes initial n
    rw [List.cons_append, deviceWaits, honce]
    dsimp only
    rw [if_neg (by simp [hgoes.2]), List.length_cons, List.getElem?_cons_succ,
      ih _ fun a ha => h a (List.mem_cons_of_mem _ ha)]
    have hsum : slowDowns lib plane deviceCode (first :: before ++ [answer])
        = slowDowns lib plane deviceCode [first] + slowDowns lib plane deviceCode (before ++ [answer]) := by
      rw [slowDowns, slowDowns, slowDowns, ← List.countP_append]
      rfl
    rw [hsum, Nat.add_assoc]

/-- The polls of a code that get the answers of the loop. -/
def pollsOf (authorization : DeviceAuthorization) (answers : List (HttpAnswer × Duration)) :
    List DevicePoll :=
  answers.map fun answer => ⟨authorization, some answer.1⟩

/-- Polling with the same answers counts the same. -/
theorem track_pollsOf {polls : List DevicePoll} {authorization : DeviceAuthorization}
    {timeout : Duration} (hnew : track lib plane polls authorization.deviceCode = none)
    {answers : List (HttpAnswer × Duration)} (hne : answers ≠ [])
    (h : ∀ a ∈ answers, GoesOn lib plane authorization.deviceCode timeout a) :
    track lib plane (polls ++ pollsOf authorization answers) authorization.deviceCode
      = some ⟨authorization.pollInterval, slowDowns lib plane authorization.deviceCode answers⟩ := by
  induction answers using List.reverseRecOn with
  | nil => exact absurd rfl hne
  | append_singleton answers last ih =>
    have hlast : GoesOn lib plane authorization.deviceCode timeout last := h last (by simp)
    have hat : (track lib plane (polls ++ pollsOf authorization answers)).at ⟨authorization, some last.1⟩
        = ⟨authorization.pollInterval, slowDowns lib plane authorization.deviceCode answers⟩ := by
      rw [Tracking.at]
      cases answers with
      | nil => simp [pollsOf, DevicePoll.code, hnew, slowDowns]
      | cons first answers =>
        rw [DevicePoll.code, ih (by simp) fun a ha => h a (List.mem_append_left _ ha)]
        rfl
    have hpolls : polls ++ pollsOf authorization (answers ++ [last])
        = (polls ++ pollsOf authorization answers) ++ [⟨authorization, some last.1⟩] := by
      simp [pollsOf]
    rw [hpolls, track_concat, Tracking.next,
      if_pos (show authorization.deviceCode = DevicePoll.code ⟨authorization, some last.1⟩ from rfl), hat]
    have hkind : DevicePoll.kind lib plane ⟨authorization, some last.1⟩
        = pollKind lib plane authorization.deviceCode (some last.1) := rfl
    rw [hkind, slowDowns, slowDowns, List.countP_append, List.countP_singleton]
    rcases hlast.1 with hpending | hslow
    · rw [hpending]
      rfl
    · rw [hslow]
      rfl

/-! ## The law -/

/-- A sign-in is that of the polls of its code. -/
theorem track_filter (lib : Libraries) (plane : ControlPlane) (polls : List DevicePoll) (code : String) :
    track lib plane polls code = track lib plane (polls.filter fun poll => poll.code = code) code := by
  induction polls using List.reverseRecOn with
  | nil => rfl
  | append_singleton polls poll ih =>
    rw [track_concat, List.filter_append, Tracking.next]
    by_cases hcode : code = poll.code
    · rw [if_pos hcode, List.filter_cons_of_pos (by simp [hcode]), List.filter_nil, track_concat,
        Tracking.next, if_pos hcode, Tracking.at, Tracking.at, ← hcode, ih]
    · rw [if_neg hcode, List.filter_cons_of_neg (by simpa using Ne.symm hcode), List.filter_nil,
        List.append_nil, ih]

/-- What is asked of the polls after some others. -/
structure PollsLaw (lib : Libraries) (plane : ControlPlane) (polls : List DevicePoll) : Prop where
  pending : ∀ poll : DevicePoll, (poll.kind lib plane).isPending →
    ∃ interval status problem,
      (pollDeviceLogin lib (afterPolls lib plane polls) poll.authorization poll.answer).reply
        = some (.error (.deviceLoginPending interval status problem)) ∧
      (track lib plane ((polls ++ [poll]).filter fun other => other.code = poll.code) poll.code).map
        Tracked.interval = some interval
  only : ∀ (poll : DevicePoll) interval status problem,
    (pollDeviceLogin lib (afterPolls lib plane polls) poll.authorization poll.answer).reply
      = some (.error (.deviceLoginPending interval status problem)) → (poll.kind lib plane).isPending
  blocking : ∀ (authorization : DeviceAuthorization) timeout before answer after,
    track lib plane polls authorization.deviceCode = none →
    (∀ a ∈ before ++ [answer], GoesOn lib plane authorization.deviceCode timeout a) →
    ∃ interval, (track lib plane (polls ++ pollsOf authorization (before ++ [answer]))
        authorization.deviceCode).map Tracked.interval = some interval ∧
      (deviceWaits lib plane authorization.deviceCode timeout (before ++ answer :: after)
        authorization.pollInterval)[before.length]?
          = some (interval.min (timeout.saturatingSub answer.2))
  asks : ∀ (authorization : DeviceAuthorization) timeout answers,
    (pollDeviceToken lib plane authorization.deviceCode timeout answers authorization.pollInterval).1.length
      = ((deviceWaits lib plane authorization.deviceCode timeout answers
            authorization.pollInterval).length + 1)
        * (sentOf lib plane (deviceTokenRequest authorization.deviceCode)).length
  token : ∀ poll : DevicePoll,
    let turn := pollDeviceLogin lib (afterPolls lib plane polls) poll.authorization poll.answer
    turn.plane.accessToken = tokenAfter (afterPolls lib plane polls).accessToken (poll.kind lib plane) ∧
    ∀ token, poll.kind lib plane = .token token → turn.reply = some (.ok token)

/-- **Where no success comes without a token, a pending answer reports the initial interval of its code
and five seconds for each `slow_down`**, and the blocking loop waits the same. -/
theorem devicePolls_law (lib : Libraries) (apiUrl userAgent : String) (accessToken : Option String)
    (polls : List DevicePoll)
    (h : ∀ poll ∈ polls, poll.kind lib (ControlPlane.new apiUrl accessToken userAgent) ≠ .unusable) :
    PollsLaw lib (ControlPlane.new apiUrl accessToken userAgent) polls := by
  have hagrees := agrees_afterPolls lib (ControlPlane.new apiUrl accessToken userAgent) rfl polls h
  have hpolled := polled_afterPolls lib (ControlPlane.new apiUrl accessToken userAgent) polls
  refine ⟨fun poll hpending => ?_, fun poll => (hpolled poll).only, fun authorization timeout before answer
    after hnew hgoes => ?_, fun authorization timeout answers => length_pollDeviceToken lib _ _ timeout
      answers _, fun poll => ⟨(hpolled poll).token, (hpolled poll).obtained⟩⟩
  · obtain ⟨interval, status, problem, hreply, hheld⟩ := (hpolled poll).pending hpending
    have husable : poll.kind lib (ControlPlane.new apiUrl accessToken userAgent) ≠ .unusable := by
      intro hkind
      rw [hkind] at hpending
      cases hpending
    rw [hagrees.interval, heldAfter_interval husable] at hheld
    refine ⟨interval, status, problem, hreply, ?_⟩
    rw [← track_filter, track_concat, Tracking.next, if_pos rfl]
    exact hheld
  · refine ⟨_, by rw [track_pollsOf hnew (by simp) hgoes]; rfl, ?_⟩
    have hwaits := deviceWaits_goesOn authorization.pollInterval after 0 hgoes
    rw [lengthened_zero, Nat.zero_add] at hwaits
    exact hwaits

/-! ## An interval forgotten -/

/-- The libraries on the URL and the texts below. -/
def deviceLibraries : Libraries where
  parseUrl raw :=
    if raw = "https://api.thalovant.com/v1/auth/device/token" then some
      { scheme := "https", username := "", password := none, host := some "api.thalovant.com",
        port := none, path := "/v1/auth/device/token", query := none, fragment := none }
    else none
  fromStr text :=
    if text = "\x7b\"error\":\"slow_down\"\x7d" then .ok (.object [("error", .string "slow_down")])
    else if text = "\x7b\"error\":\"authorization_pending\"\x7d" then
      .ok (.object [("error", .string "authorization_pending")])
    else if text = "\x7b\x7d" then .ok (.object [])
    else .error "expected value at line 1 column 1"
  print _ := ""

def deviceGrant : DeviceAuthorization where
  deviceCode := "device-code"
  userCode := "ABCD-EFGH"
  verificationUri := "https://thalovant.com/device"
  verificationUriComplete := none
  expiresIn := some 900
  interval := some 5
  raw := []

def devicePlane : ControlPlane := ControlPlane.new "https://api.thalovant.com" none "thalovant"

def slowDownPoll : DevicePoll := ⟨deviceGrant, some (.response 400 "\x7b\"error\":\"slow_down\"\x7d")⟩

def emptyPoll : DevicePoll := ⟨deviceGrant, some (.response 200 "\x7b\x7d")⟩

def pendingPoll : DevicePoll :=
  ⟨deviceGrant, some (.response 400 "\x7b\"error\":\"authorization_pending\"\x7d")⟩

/-- A pending answer after the two reports five seconds, where it should report ten. -/
theorem devicePolls_forgets :
    (pollDeviceLogin deviceLibraries (afterPolls deviceLibraries devicePlane [slowDownPoll, emptyPoll])
        pendingPoll.authorization pendingPoll.answer).reply
      = some (.error (.deviceLoginPending (.fromSecs 5 Duration.fiveSecs) 400
          (some [("error", .string "authorization_pending")]))) ∧
    ((track deviceLibraries devicePlane [slowDownPoll, emptyPoll, pendingPoll] "device-code").map
      Tracked.interval).map Duration.nanos = some 10000000000 ∧
    ¬PollsLaw deviceLibraries devicePlane [slowDownPoll, emptyPoll] := by
  have hreply : (pollDeviceLogin deviceLibraries
      (afterPolls deviceLibraries devicePlane [slowDownPoll, emptyPoll])
      pendingPoll.authorization pendingPoll.answer).reply
        = some (.error (.deviceLoginPending (.fromSecs 5 Duration.fiveSecs) 400
            (some [("error", .string "authorization_pending")]))) := by rfl
  have htracked : ((track deviceLibraries devicePlane [slowDownPoll, emptyPoll, pendingPoll]
      "device-code").map Tracked.interval).map Duration.nanos = some 10000000000 := by decide +kernel
  refine ⟨hreply, htracked, fun h => ?_⟩
  obtain ⟨interval, status, problem, hreported, hpending⟩ :=
    h.pending pendingPoll (h.only pendingPoll _ _ _ hreply)
  simp only [hreply, Option.some.injEq, Except.error.injEq,
    ThalovantError.deviceLoginPending.injEq] at hreported
  rw [← track_filter, ← hreported.1] at hpending
  have hnanos := congrArg (Option.map Duration.nanos) hpending
  exact absurd (htracked.symm.trans hnanos) (by decide +kernel)

/-- After a `slow_down` the law holds. -/
theorem devicePolls_slower : PollsLaw deviceLibraries devicePlane [slowDownPoll] := by
  refine devicePolls_law deviceLibraries "https://api.thalovant.com" "thalovant" none [slowDownPoll]
    fun poll hpoll => ?_
  obtain rfl := List.mem_singleton.mp hpoll
  have hkind : slowDownPoll.kind deviceLibraries devicePlane = .slowDown := by rfl
  intro hcontra
  cases hkind.symm.trans hcontra

end Thalovant.Api
