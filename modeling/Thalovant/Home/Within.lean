import Thalovant.Duration
import Thalovant.Error
import Thalovant.Home.Response
import Thalovant.Lib.Clock

/-!
# Answering a home request within its bound

A handler runs on a task of its own up to a deadline, and what comes of it is replied in what is left of
the hub's bound. Time is counted from the call, in nanoseconds. The order of what is due at one instant
is the scheduler's: `Order`.
-/

namespace Thalovant.Home

/-! ## What the caller gives -/

/-- What comes of a task: what the handler returned, or its panic. -/
inductive Joined (ε : Type) where
  | returned (result : Except ε HomeAnswer)
  | panicked

/-- What a handler does when it is called: it panics, or makes a future, which ends after a delay or
never. -/
inductive Called (ε : Type) where
  | panicked
  | future (ends : Option (Nat × Joined ε))

/-- The monotonic clock: how far the instants reach from this one. A year is within reach. -/
structure Horizon where
  reach : Nat
  year : 86400 * 365 * 1000000000 ≤ reach

/-- Whether what is ready at a deadline is seen before the deadline is. -/
structure Order where
  handlerFirst : Bool
  replyFirst : Bool

/-- A call of `Replier::reply`: when it started and ended, and whether it ended because it was
withdrawn. -/
structure ReplyCall where
  event : Event
  msgType : String
  data : Data
  started : Nat
  ended : Nat
  withdrawn : Bool

/-- What answering a request did and returned. -/
structure Answered where
  calls : List ReplyCall
  returned : Nat
  result : Result (Option Data)

/-! ## The code -/

/-- `far`: the instant after a span, or a year from now if the clock does not reach it. -/
def far (horizon : Horizon) (span : Duration) : Nat :=
  if span.nanos ≤ horizon.reach then span.nanos else 86400 * 365 * 1000000000

/-- `handle`, from the first instant: when it ends, and with what answer. -/
def handle {ε : Type} (order : Order) (handler : HomeRequest → Called ε) (request : HomeRequest)
    (deadline : Nat) : Nat × HomeAnswer :=
  match handler request with
  | .panicked => (0, HomeAnswer.error "failed_to_handle")
  | .future ends =>
    match Clock.timeoutAt order.handlerFirst 0 deadline ends with
    | (now, some (.returned (.ok answer))) => (now, answer)
    | (now, some (.returned (.error _))) => (now, HomeAnswer.error "failed_to_handle")
    | (now, some .panicked) => (now, HomeAnswer.error "failed_to_handle")
    | (now, none) => (now, HomeAnswer.error "timeout")

/-- `answer_home_request_within`. -/
def answerHomeRequestWithin {ε : Type} (horizon : Horizon) (order : Order)
    (reply : Event → String → Data → Option (Nat × Result Unit)) (event : Event)
    (handler : HomeRequest → Called ε) (timeout hubTimeout : Duration) : Answered :=
  let bound := far horizon hubTimeout
  let request := HomeRequest.fromEvent event
  let (now, answer) := handle order handler request (far horizon (timeout.min hubTimeout))
  let payload := homeResponse request answer
  if now ≥ bound then { calls := [], returned := now, result := .ok none }
  else
    match Clock.timeoutAt order.replyFirst now bound (reply event HOME_RESPONSE payload) with
    | (ended, some sent) =>
      { calls := [⟨event, HOME_RESPONSE, payload, now, ended, false⟩]
        returned := ended
        result := sent.map fun _ => some payload }
    | (ended, none) =>
      { calls := [⟨event, HOME_RESPONSE, payload, now, ended, true⟩]
        returned := ended
        result := .ok none }

/-! ## What the handler gives -/

/-- The answer that a handler comes to by itself, and when: its own, or that it failed. -/
def Called.answer {ε : Type} : Called ε → Option (Nat × HomeAnswer)
  | .panicked => some (0, HomeAnswer.error "failed_to_handle")
  | .future ends => ends.map fun end_ =>
    match end_.2 with
    | .returned (.ok answer) => (end_.1, answer)
    | .returned (.error _) => (end_.1, HomeAnswer.error "failed_to_handle")
    | .panicked => (end_.1, HomeAnswer.error "failed_to_handle")

/-- The answer to give by a deadline: what the handler came to, or that it timed out. At the deadline
itself it may be either. -/
def Gives {ε : Type} (called : Called ε) (deadline : Nat) (answer : HomeAnswer) : Prop :=
  (∃ delay ≤ deadline, called.answer = some (delay, answer)) ∨
    (answer = HomeAnswer.error "timeout" ∧
      ∀ delay own, called.answer = some (delay, own) → deadline ≤ delay)

section

variable {ε : Type} {horizon : Horizon} {order : Order} {handler : HomeRequest → Called ε}
  {request : HomeRequest} {deadline : Nat}

variable (order handler request deadline) in
/-- What ends before the deadline is what the handler came to, and the rest is a timeout. -/
theorem handle_spec :
    (handle order handler request deadline).1 ≤ deadline ∧
    ((handler request).answer = some (handle order handler request deadline) ∨
      (handle order handler request deadline = (deadline, HomeAnswer.error "timeout") ∧
        ∀ delay own, (handler request).answer = some (delay, own) → deadline ≤ delay)) := by
  unfold handle
  cases handler request with
  | panicked => exact ⟨Nat.zero_le _, .inl rfl⟩
  | future ends =>
    dsimp only
    have hle := Clock.timeoutAt_le order.handlerFirst 0 deadline ends
    rw [Nat.zero_max] at hle
    rcases h : Clock.timeoutAt order.handlerFirst 0 deadline ends with ⟨now, seen⟩
    rw [h] at hle
    cases seen with
    | some joined =>
      obtain ⟨delay, rfl, rfl, -⟩ := Clock.timeoutAt_some h
      rw [Nat.zero_add] at hle ⊢
      rcases joined with (_ | answer) | _ <;> exact ⟨hle, .inl rfl⟩
    | none =>
      obtain ⟨hnow, hlate⟩ := Clock.timeoutAt_none h
      rw [Nat.zero_max] at hnow hlate
      subst hnow
      refine ⟨hle, .inr ⟨rfl, fun delay own hown => ?_⟩⟩
      obtain ⟨⟨delay', joined⟩, rfl, hjoined⟩ := Option.map_eq_some_iff.mp hown
      have hdelay : delay' = delay := by
        rcases joined with (_ | answer) | _ <;> exact congrArg Prod.fst hjoined
      have hlate' := hlate delay' joined rfl
      omega

/-- What the handler comes to before the deadline is its answer. -/
theorem handle_of_lt {delay : Nat} {answer : HomeAnswer}
    (h : (handler request).answer = some (delay, answer)) (hdelay : delay < deadline) :
    handle order handler request deadline = (delay, answer) := by
  obtain ⟨-, hown | ⟨-, hlate⟩⟩ := handle_spec order handler request deadline
  · exact Option.some.inj (hown.symm.trans h)
  · exact absurd hdelay (Nat.not_lt.mpr (hlate delay answer h))

/-- What the handler comes to after the deadline is not waited for. -/
theorem handle_of_late
    (h : ∀ delay answer, (handler request).answer = some (delay, answer) → deadline < delay) :
    handle order handler request deadline = (deadline, HomeAnswer.error "timeout") := by
  obtain ⟨hle, hown | ⟨htimeout, -⟩⟩ := handle_spec order handler request deadline
  · exact absurd hle (Nat.not_le.mpr (h _ _ hown))
  · exact htimeout

variable (order) in
/-- What the handler comes to at the deadline may be its answer, or a timeout. -/
theorem handle_of_eq {answer : HomeAnswer} (h : (handler request).answer = some (deadline, answer)) :
    handle order handler request deadline = (deadline, answer) ∨
      handle order handler request deadline = (deadline, HomeAnswer.error "timeout") := by
  obtain ⟨-, hown | ⟨htimeout, -⟩⟩ := handle_spec order handler request deadline
  · exact .inl (Option.some.inj (hown.symm.trans h))
  · exact .inr htimeout

/-- An instant that is as far as the clock reaches is no later than asked. -/
theorem far_le (horizon : Horizon) (span : Duration) : far horizon span ≤ span.nanos := by
  have hyear := horizon.year
  unfold far
  split <;> omega

/-- An instant that is out of reach is a year away. -/
theorem far_of_gt {span : Duration} (h : ¬span.nanos ≤ horizon.reach) :
    far horizon span = 86400 * 365 * 1000000000 := if_neg h

theorem far_of_le {span : Duration} (h : span.nanos ≤ horizon.reach) :
    far horizon span = span.nanos := if_pos h

variable (horizon order handler request) in
/-- What is answered in time for a reply was due by the deadline that the caller asked for. -/
theorem gives_of_lt (timeout hubTimeout : Duration)
    (h : (handle order handler request (far horizon (timeout.min hubTimeout))).1
      < far horizon hubTimeout) :
    Gives (handler request) (timeout.min hubTimeout).nanos
      (handle order handler request (far horizon (timeout.min hubTimeout))).2 := by
  obtain ⟨hle, hown | ⟨htimeout, hlate⟩⟩ :=
    handle_spec order handler request (far horizon (timeout.min hubTimeout))
  · exact .inl ⟨_, hle.trans (far_le horizon _), hown⟩
  · refine .inr ⟨by rw [htimeout], ?_⟩
    rw [htimeout] at h
    -- a deadline out of reach is the bound itself, and nothing is replied then
    by_cases hreach : (timeout.min hubTimeout).nanos ≤ horizon.reach
    · rwa [far_of_le hreach] at hlate
    · have hmin : (timeout.min hubTimeout).nanos ≤ hubTimeout.nanos := by
        rw [Duration.nanos_min]
        exact min_le_right _ _
      rw [far_of_gt hreach, far_of_gt (by omega)] at h
      exact absurd h (lt_irrefl _)

end

/-! ## What is replied -/

/-- What holds of a reply call to a request. -/
structure ReplySound {ε : Type} (horizon : Horizon)
    (reply : Event → String → Data → Option (Nat × Result Unit)) (event : Event)
    (handler : HomeRequest → Called ε) (timeout hubTimeout : Duration) (call : ReplyCall) : Prop where
  toEvent : call.event = event ∧ call.msgType = HOME_RESPONSE
  started : call.started < hubTimeout.nanos
  ended : call.ended ≤ hubTimeout.nanos
  running : (∀ delay sent, reply event HOME_RESPONSE call.data = some (delay, sent) →
    far horizon hubTimeout < call.started + delay) → call.withdrawn = true
  withdrawn : call.withdrawn = true → call.ended = far horizon hubTimeout
  finished : call.withdrawn = false → ∃ delay sent,
    reply event HOME_RESPONSE call.data = some (delay, sent) ∧ call.ended = call.started + delay
  payload : ∃ answer, Gives (handler (HomeRequest.fromEvent event)) (timeout.min hubTimeout).nanos answer ∧
    call.data = homeResponse (HomeRequest.fromEvent event) answer ∧
    HomeContract (HomeRequest.fromEvent event) answer call.data
  requestId : ∀ id, event.data.get "request_id" = some (.string id) →
    call.data.get "request_id" = some (.string id)

/-- What comes of a reply that starts in time: it is sent, or the bound withdraws it. At the bound itself
it may be either. -/
inductive Replied (reply : Event → String → Data → Option (Nat × Result Unit)) (event : Event)
    (now bound : Nat) (payload : Data) : Answered → Prop
  | sent {delay : Nat} {sent : Result Unit} :
      reply event HOME_RESPONSE payload = some (delay, sent) → now + delay ≤ bound →
      Replied reply event now bound payload
        { calls := [⟨event, HOME_RESPONSE, payload, now, now + delay, false⟩]
          returned := now + delay
          result := sent.map fun _ => some payload }
  | withdrawn :
      (∀ delay sent, reply event HOME_RESPONSE payload = some (delay, sent) → bound ≤ now + delay) →
      Replied reply event now bound payload
        { calls := [⟨event, HOME_RESPONSE, payload, now, bound, true⟩]
          returned := bound
          result := .ok none }

/-- What a request is owed, by what the handler comes to: nothing once the bound has passed. -/
structure Owed {ε : Type} (reply : Event → String → Data → Option (Nat × Result Unit)) (event : Event)
    (handler : HomeRequest → Called ε) (deadline bound : Nat) (answered : Answered) : Prop where
  handled : ∀ delay answer, (handler (HomeRequest.fromEvent event)).answer = some (delay, answer) →
    delay < deadline → delay < bound →
    Replied reply event delay bound (homeResponse (HomeRequest.fromEvent event) answer) answered
  timedOut : (∀ delay answer, (handler (HomeRequest.fromEvent event)).answer = some (delay, answer) →
      deadline < delay) → deadline < bound →
    Replied reply event deadline bound
      (homeResponse (HomeRequest.fromEvent event) (HomeAnswer.error "timeout")) answered
  tied : ∀ answer, (handler (HomeRequest.fromEvent event)).answer = some (deadline, answer) →
    deadline < bound →
    Replied reply event deadline bound (homeResponse (HomeRequest.fromEvent event) answer) answered ∨
    Replied reply event deadline bound
      (homeResponse (HomeRequest.fromEvent event) (HomeAnswer.error "timeout")) answered
  late : (∀ delay answer, (handler (HomeRequest.fromEvent event)).answer = some (delay, answer) →
      bound ≤ delay) → bound ≤ deadline → answered.calls = [] ∧ answered.result = .ok none

section

variable {ε : Type} {horizon : Horizon} {order : Order}
  {reply : Event → String → Data → Option (Nat × Result Unit)} {event : Event}
  {handler : HomeRequest → Called ε} {timeout hubTimeout : Duration} {now : Nat} {answer : HomeAnswer}

/-- An answer that comes before the bound is replied. -/
theorem replied_of_lt (h : handle order handler (HomeRequest.fromEvent event)
      (far horizon (timeout.min hubTimeout)) = (now, answer)) (hnow : now < far horizon hubTimeout) :
    Replied reply event now (far horizon hubTimeout) (homeResponse (HomeRequest.fromEvent event) answer)
      (answerHomeRequestWithin horizon order reply event handler timeout hubTimeout) := by
  unfold answerHomeRequestWithin
  dsimp only
  rw [h]
  dsimp only
  rw [if_neg (Nat.not_le.mpr hnow)]
  have hle := Clock.timeoutAt_le order.replyFirst now (far horizon hubTimeout)
    (reply event HOME_RESPONSE (homeResponse (HomeRequest.fromEvent event) answer))
  rw [max_eq_right hnow.le] at hle
  split
  · next ended sent hsent =>
    obtain ⟨delay, hreply, rfl, -⟩ := Clock.timeoutAt_some hsent
    rw [hsent] at hle
    exact .sent hreply hle
  · next ended hsent =>
    obtain ⟨rfl, hlate⟩ := Clock.timeoutAt_none hsent
    rw [max_eq_right hnow.le] at hlate ⊢
    exact .withdrawn hlate

/-- Nothing is replied once the bound has passed. -/
theorem answerHomeRequestWithin_of_le
    (h : far horizon hubTimeout ≤ (handle order handler (HomeRequest.fromEvent event)
      (far horizon (timeout.min hubTimeout))).1) :
    answerHomeRequestWithin horizon order reply event handler timeout hubTimeout =
      { calls := []
        returned := (handle order handler (HomeRequest.fromEvent event)
          (far horizon (timeout.min hubTimeout))).1
        result := .ok none } := by
  unfold answerHomeRequestWithin
  dsimp only
  rw [if_pos h]

/-- A reply that starts in time is sound. -/
theorem Replied.sound {answered : Answered}
    (h : Replied reply event now (far horizon hubTimeout)
      (homeResponse (HomeRequest.fromEvent event) answer) answered)
    (hnow : now < far horizon hubTimeout)
    (hgives : Gives (handler (HomeRequest.fromEvent event)) (timeout.min hubTimeout).nanos answer) :
    answered.calls.length ≤ 1 ∧ answered.returned ≤ hubTimeout.nanos ∧
    ∀ call ∈ answered.calls, ReplySound horizon reply event handler timeout hubTimeout call := by
  have hbound := far_le horizon hubTimeout
  have hcontract := homeResponse_contract (HomeRequest.fromEvent event) answer
  have hid : ∀ id, event.data.get "request_id" = some (.string id) →
      (homeResponse (HomeRequest.fromEvent event) answer).get "request_id" = some (.string id) :=
    fun id h => requestId_fromEvent h ▸ hcontract.requestId
  cases h with
  | @sent delay sent hreply hle =>
    refine ⟨le_rfl, hle.trans hbound, fun call hcall => ?_⟩
    obtain rfl := List.mem_singleton.mp hcall
    exact {
      toEvent := ⟨rfl, rfl⟩
      started := hnow.trans_le hbound
      ended := hle.trans hbound
      running := fun hlate => absurd hle (Nat.not_le.mpr (hlate delay sent hreply))
      withdrawn := fun hw => absurd hw (by simp)
      finished := fun _ => ⟨delay, sent, hreply, rfl⟩
      payload := ⟨answer, hgives, rfl, hcontract⟩
      requestId := hid }
  | withdrawn _ =>
    refine ⟨le_rfl, hbound, fun call hcall => ?_⟩
    obtain rfl := List.mem_singleton.mp hcall
    exact {
      toEvent := ⟨rfl, rfl⟩
      started := hnow.trans_le hbound
      ended := hbound
      running := fun _ => rfl
      withdrawn := fun _ => rfl
      finished := fun hw => absurd hw (by simp)
      payload := ⟨answer, hgives, rfl, hcontract⟩
      requestId := hid }

variable (horizon order reply event handler timeout hubTimeout) in
/-- A request gets what it is owed. -/
theorem answerHomeRequestWithin_owed :
    Owed reply event handler (far horizon (timeout.min hubTimeout)) (far horizon hubTimeout)
      (answerHomeRequestWithin horizon order reply event handler timeout hubTimeout) where
  handled _ _ hanswer hdelay hbound := replied_of_lt (handle_of_lt hanswer hdelay) hbound
  timedOut hlate hbound := replied_of_lt (handle_of_late hlate) hbound
  tied answer hanswer hbound := by
    rcases handle_of_eq order hanswer with h | h
    · exact .inl (replied_of_lt h hbound)
    · exact .inr (replied_of_lt h hbound)
  late hlate hdeadline := by
    have hpassed : far horizon hubTimeout ≤ (handle order handler (HomeRequest.fromEvent event)
        (far horizon (timeout.min hubTimeout))).1 := by
      obtain ⟨-, hown | ⟨htimeout, -⟩⟩ := handle_spec order handler (HomeRequest.fromEvent event)
        (far horizon (timeout.min hubTimeout))
      · exact hlate _ _ hown
      · rw [htimeout]
        exact hdeadline
    rw [answerHomeRequestWithin_of_le hpassed]
    exact ⟨rfl, rfl⟩

end

end Thalovant.Home
