import Thalovant.Stream.EventStream

/-!
# The steps of an event stream

What a step of a stream answers, takes and ends is told by what is due at it: the events that wait in
the channel, what the channel missed, the deadline, and what the transport says of itself.

* `responds`: a call answers with an event that the stream wants, with the error of what ended the
  stream, or with the end, each when it is due and never else; and it waits otherwise
-/

namespace Thalovant.Stream

/-! ## The channel -/

namespace Receiver

/-- The channel has something to say. -/
def Ready (r : Receiver) : Prop := 0 < r.missed ∨ r.waiting ≠ [] ∨ r.closed = true

theorem recv_lagged {r : Receiver} (h : 0 < r.missed) :
    r.recv = some (.lagged r.missed, { r with missed := 0 }) := by
  rw [recv, if_pos h]

theorem recv_item {r : Receiver} {event : Event} {waiting : List Event} (hmissed : r.missed = 0)
    (hwaiting : r.waiting = event :: waiting) :
    r.recv = some (.item event, { r with waiting := waiting }) := by
  rw [recv, if_neg (by omega), hwaiting]

theorem recv_closed {r : Receiver} (hmissed : r.missed = 0) (hwaiting : r.waiting = [])
    (hclosed : r.closed = true) : r.recv = some (.closed, r) := by
  rw [recv, if_neg (by omega), hwaiting]
  exact if_pos hclosed

/-- What a ready channel gives: it says that it lagged, the oldest event, or that it is closed. -/
theorem recv_cases {r r' : Receiver} {result : Received} (h : r.recv = some (result, r')) :
    (0 < r.missed ∧ result = .lagged r.missed) ∨
    (r.missed = 0 ∧ ∃ event, result = .item event ∧ r.waiting = event :: r'.waiting ∧ r'.missed = 0) ∨
    (r.missed = 0 ∧ r.waiting = [] ∧ r.closed = true ∧ result = .closed) := by
  unfold Receiver.recv at h
  split at h
  · next hmissed =>
    simp only [Option.some.injEq, Prod.mk.injEq] at h
    exact .inl ⟨hmissed, h.1.symm⟩
  · next hmissed =>
    have hzero : r.missed = 0 := Nat.eq_zero_of_not_pos hmissed
    split at h
    · next event waiting hw =>
      simp only [Option.some.injEq, Prod.mk.injEq] at h
      obtain ⟨rfl, rfl⟩ := h
      exact .inr (.inl ⟨hzero, event, rfl, hw, hzero⟩)
    · next hw =>
      split at h
      · next hclosed =>
        simp only [Option.some.injEq, Prod.mk.injEq] at h
        exact .inr (.inr ⟨hzero, hw, hclosed, h.1.symm⟩)
      · cases h

theorem Ready.recv {r : Receiver} (h : r.Ready) : ∃ next, r.recv = some next := by
  by_cases hmissed : 0 < r.missed
  · exact ⟨_, recv_lagged hmissed⟩
  · have hzero : r.missed = 0 := Nat.eq_zero_of_not_pos hmissed
    cases hw : r.waiting with
    | cons event waiting => exact ⟨_, recv_item hzero hw⟩
    | nil =>
      rcases h with hlag | hne | hclosed
      · exact absurd hlag hmissed
      · exact absurd hw hne
      · exact ⟨_, recv_closed hzero hw hclosed⟩

theorem ready_of_recv {r : Receiver} {next : Received × Receiver} (h : r.recv = some next) : r.Ready := by
  rcases recv_cases h with ⟨hlag, -⟩ | ⟨-, event, -, hw, -⟩ | ⟨-, -, hclosed, -⟩
  · exact .inl hlag
  · exact .inr (.inl (by simp [hw]))
  · exact .inr (.inr hclosed)

end Receiver

namespace EventStream

@[simp] theorem receiver_close (s : EventStream) : s.close.receiver = none := rfl

theorem head_closed {s : EventStream} (h : s.receiver = none) (now : Nat) :
    s.head now = (s, .returned (.ok none)) := by
  simp [head, h]

theorem head_expired {s : EventStream} {r : Receiver} {now : Nat} (h : s.receiver = some r)
    (hexp : s.expired now = true) : s.head now = (s.close, .returned (.error EXPIRED)) := by
  simp [head, h, hexp]

theorem head_open {s : EventStream} {r : Receiver} {now : Nat} (h : s.receiver = some r)
    (hexp : s.expired now = false) : s.head now = (s, .waits (.select (s.wake now))) := by
  simp [head, h, hexp]

end EventStream

namespace Listening

/-! ## What is due -/

/-- A step notices a terminal condition, and the error it returns for it. -/
inductive Notices (s : Listening) : Input → ThalovantError → Prop
  | asked {r : Receiver} : s.call = none → s.stream.receiver = some r → s.stream.expired s.now = true →
      Notices s .recv EventStream.EXPIRED
  | received {wake : Nat} {r : Receiver} : s.call = some (.select wake) →
      s.stream.receiver = some r → r.Ready → s.stream.expired s.now = true →
      Notices s .receive EventStream.EXPIRED
  | lagged {wake : Nat} {r : Receiver} : s.call = some (.select wake) →
      s.stream.receiver = some r → 0 < r.missed → s.stream.expired s.now = false →
      Notices s .receive (EventStream.overflow r.missed)
  | closed {wake : Nat} {r : Receiver} : s.call = some (.select wake) →
      s.stream.receiver = some r → r.missed = 0 → r.waiting = [] → r.closed = true →
      s.stream.expired s.now = false → Notices s .receive EventStream.CLOSED
  | woken {wake : Nat} : s.call = some (.select wake) → wake ≤ s.now → s.stream.expired s.now = true →
      Notices s .wake EventStream.EXPIRED
  | unauthenticated {deadline : Nat} : s.call = some (.probe deadline) →
      Notices s (.health false) EventStream.UNAUTHENTICATED
  | probed {deadline : Nat} : s.call = some (.probe deadline) → s.stream.expired s.now = true →
      Notices s (.health true) EventStream.EXPIRED
  | probeTimedOut {deadline : Nat} : s.call = some (.probe deadline) → deadline ≤ s.now →
      s.stream.expired s.now = true → Notices s .healthTimeout EventStream.EXPIRED

/-- The oldest event of the channel is there for the call. -/
def Offers (s : Listening) (event : Event) : Prop :=
  ∃ wake r waiting, s.call = some (.select wake) ∧ s.stream.receiver = some r ∧ r.missed = 0 ∧
    r.waiting = event :: waiting ∧ s.stream.expired s.now = false

/-- What a step should answer. -/
inductive Answers (s : Listening) : Input → Result (Option Event) → Prop
  | yields {event : Event} : s.Offers event → s.stream.wants event = true →
      Answers s .receive (.ok (some event))
  | fails {input : Input} {err : ThalovantError} : s.Notices input err → Answers s input (.error err)
  | ends : s.call = none → s.stream.receiver = none → Answers s .recv (.ok none)

/-- A step after which a call should wait for the channel, if there is time left. -/
inductive GoesOn (s : Listening) : Input → Prop
  | asked : s.call = none → s.stream.receiver ≠ none → GoesOn s .recv
  | passed {event : Event} : s.Offers event → ¬s.stream.wants event = true → GoesOn s .receive
  | woken {wake : Nat} : s.call = some (.select wake) → wake ≤ s.now → s.stream.transport = false →
      GoesOn s .wake
  | healthy {deadline : Nat} : s.call = some (.probe deadline) → GoesOn s (.health true)
  | probeTimedOut {deadline : Nat} : s.call = some (.probe deadline) → deadline ≤ s.now →
      GoesOn s .healthTimeout

/-- A call waits for the channel. -/
def Selects (s : Listening) : Prop := ∃ wake, s.call = some (.select wake)

/-- A call waits for the health of the transport. -/
def Probes (s : Listening) : Prop := ∃ deadline, s.call = some (.probe deadline)

/-- What a step does is what is due at it, and no more. -/
structure Responds (s : Listening) : Prop where
  answers : ∀ input result, s.Answers input result →
    (s.step input).answers = s.answers ++ [result] ∧ (s.step input).call = none
  silent : ∀ input, (∀ result, ¬s.Answers input result) → (s.step input).answers = s.answers ∧
    (s.call ≠ none → input ≠ .withdraw → (s.step input).call ≠ none)
  waits : ∀ input, s.GoesOn input → s.stream.expired s.now = false → (s.step input).Selects
  probes : ∀ wake, s.call = some (.select wake) → wake ≤ s.now → s.stream.expired s.now = false →
    s.stream.transport = true → (s.step .wake).Probes
  takes : ∀ event, s.Offers event → (s.step .receive).taken = s.taken ++ [event]
  keeps : ∀ input, (input = .receive → ∀ event, ¬s.Offers event) → (s.step input).taken = s.taken
  hears : ∀ event, s.stream.receiver ≠ none → (s.step (.arrive event)).arrived = s.arrived ++ [event]
  released : ∀ input, s.stream.receiver ≠ none → (s.step input).stream.receiver = none →
    (∃ err, s.Notices input err) ∨ (input = .close ∧ s.call = none) ∨
    ∃ max, s.stream.options.maxEvents = some max ∧ max ≤ (s.step input).stream.received

/-! ## Terminal conditions -/

variable {s : Listening}

/-- The stream after the channel gave something. -/
def afterRecv (s : Listening) (result : Received) (receiver : Receiver) : Listening :=
  { s.setReceiver receiver with taken := s.taken ++ s.counted result }

theorem stream_settle (s : Listening) (outcome : EventStream × Progress) :
    (s.settle outcome).stream = outcome.1 := by
  rcases outcome with ⟨stream, _ | _⟩ <;> rfl

theorem step_receive {wake : Nat} {r r' : Receiver} {result : Received}
    (hcall : s.call = some (.select wake)) (hr : s.stream.receiver = some r)
    (hrecv : r.recv = some (result, r')) :
    s.step .receive = (s.afterRecv result r').settle ((s.afterRecv result r').stream.receive s.now result) := by
  simp only [Listening.step, hcall, hr, Option.bind_some, hrecv]
  rfl

/-- What is read after the deadline ends the stream. -/
theorem receive_expired (result : Received) (r : Receiver) (h : s.stream.expired s.now = true) :
    (s.afterRecv result r).stream.receive s.now result
      = ((s.afterRecv result r).stream.close, .returned (.error EventStream.EXPIRED)) := by
  have hexp : (s.afterRecv result r).stream.expired s.now = true := h
  unfold EventStream.receive
  rw [if_pos hexp]

/-- What is read after the deadline does not count as taken. -/
theorem counted_expired (result : Received) (h : s.stream.expired s.now = true) :
    s.counted result = [] := by
  cases result <;> simp [counted, h]

/-- A terminal condition gives its error and releases the subscription. -/
theorem step_notices (hopen : s.call ≠ none → s.stream.receiver ≠ none) {input : Input}
    {err : ThalovantError} (hn : s.Notices input err) :
    (s.step input).answers = s.answers ++ [.error err] ∧ (s.step input).call = none ∧
    (s.step input).stream.receiver = none ∧ (s.step input).taken = s.taken := by
  -- a probe looks at the time before it waits again
  have hhead : s.stream.receiver ≠ none → s.stream.expired s.now = true →
      s.stream.head s.now = (s.stream.close, .returned (.error EventStream.EXPIRED)) := by
    intro hopen hexp
    obtain ⟨r, hr⟩ := Option.ne_none_iff_exists'.mp hopen
    exact EventStream.head_expired hr hexp
  cases hn with
  | asked hcall hr hexp =>
    simp only [Listening.step, hcall, EventStream.head_expired hr hexp]
    exact ⟨rfl, rfl, rfl, rfl⟩
  | received hcall hr hready hexp =>
    obtain ⟨⟨result, r'⟩, hrecv⟩ := hready.recv
    rw [step_receive hcall hr hrecv, receive_expired result r' hexp]
    refine ⟨rfl, rfl, rfl, ?_⟩
    show s.taken ++ s.counted result = s.taken
    rw [counted_expired result hexp, List.append_nil]
  | @lagged wake r hcall hr hmissed hexp =>
    have hexp' : (s.afterRecv (.lagged r.missed) { r with missed := 0 }).stream.expired s.now = false := hexp
    rw [step_receive hcall hr (Receiver.recv_lagged hmissed), EventStream.receive, hexp']
    exact ⟨rfl, rfl, rfl, List.append_nil _⟩
  | @closed wake r hcall hr hmissed hwaiting hclosed hexp =>
    have hexp' : (s.afterRecv .closed r).stream.expired s.now = false := hexp
    rw [step_receive hcall hr (Receiver.recv_closed hmissed hwaiting hclosed), EventStream.receive, hexp']
    exact ⟨rfl, rfl, rfl, List.append_nil _⟩
  | woken hcall hdue hexp =>
    simp only [Listening.step, hcall, hdue, if_true, EventStream.woken, hexp]
    exact ⟨rfl, rfl, rfl, rfl⟩
  | unauthenticated hcall =>
    simp only [Listening.step, hcall, EventStream.probed]
    exact ⟨rfl, rfl, rfl, rfl⟩
  | probed hcall hexp =>
    simp only [Listening.step, hcall, EventStream.probed, hhead (hopen (by simp [hcall])) hexp]
    exact ⟨rfl, rfl, rfl, rfl⟩
  | probeTimedOut hcall hdue hexp =>
    simp only [Listening.step, hcall, hdue, if_true, EventStream.probed,
      hhead (hopen (by simp [hcall])) hexp]
    exact ⟨rfl, rfl, rfl, rfl⟩

/-! ## Events -/

/-- The stream after it took an event. -/
def take (s : Listening) (event : Event) (receiver : Receiver) : Listening :=
  { s.setReceiver receiver with taken := s.taken ++ [event] }

/-- The event that is offered is read. -/
theorem Offers.step {event : Event} (h : s.Offers event) : ∃ r, s.step .receive =
    (s.take event r).settle ((s.take event r).stream.receive s.now (.item event)) := by
  obtain ⟨wake, r, waiting, hcall, hr, hmissed, hwaiting, hexp⟩ := h
  refine ⟨{ r with waiting := waiting }, ?_⟩
  rw [step_receive hcall hr (Receiver.recv_item hmissed hwaiting)]
  simp [afterRecv, take, counted, hexp]

theorem Offers.open {event : Event} (h : s.Offers event) : s.stream.receiver ≠ none := by
  obtain ⟨_, r, _, _, hr, _⟩ := h
  simp [hr]

theorem Offers.expired {event : Event} (h : s.Offers event) : s.stream.expired s.now = false := by
  obtain ⟨_, _, _, _, _, _, _, hexp⟩ := h
  exact hexp

/-- An event that the stream wants is returned. -/
theorem Offers.yields {event : Event} (h : s.Offers event) (hwants : s.stream.wants event = true) :
    (s.step .receive).answers = s.answers ++ [.ok (some event)] ∧ (s.step .receive).call = none ∧
    (s.step .receive).taken = s.taken ++ [event] ∧
    ((s.step .receive).stream.receiver = none →
      ∃ max, s.stream.options.maxEvents = some max ∧ max ≤ (s.step .receive).stream.received) := by
  obtain ⟨r, hstep⟩ := h.step
  have hexp : (s.take event r).stream.expired s.now = false := h.expired
  have hwants' : (s.take event r).stream.wants event = true := hwants
  rw [hstep, EventStream.receive, hexp]
  simp only [hwants', Bool.false_eq_true, if_false, Bool.not_true]
  refine ⟨rfl, rfl, rfl, fun hnone => ?_⟩
  rw [stream_settle] at hnone ⊢
  dsimp only at hnone ⊢
  split at hnone
  · next hany =>
    rw [if_pos hany]
    obtain ⟨max, hmax, hle⟩ := (Option.any_eq_true _ _).mp hany
    exact ⟨max, hmax, of_decide_eq_true hle⟩
  · cases hnone

/-- An event that the stream does not want is passed over, and the call waits again. -/
theorem Offers.passes {event : Event} (h : s.Offers event) (hwants : ¬s.stream.wants event = true) :
    (s.step .receive).answers = s.answers ∧ (s.step .receive).Selects ∧
    (s.step .receive).taken = s.taken ++ [event] ∧ (s.step .receive).stream.receiver ≠ none := by
  obtain ⟨r, hstep⟩ := h.step
  have hexp : (s.take event r).stream.expired s.now = false := h.expired
  have hwants' : (s.take event r).stream.wants event = false := Bool.eq_false_iff.mpr hwants
  have hhead : (s.take event r).stream.head s.now = _ := EventStream.head_open rfl hexp
  rw [hstep, EventStream.receive, hexp]
  simp only [hwants', Bool.false_eq_true, if_false, Bool.not_false, if_true, hhead]
  exact ⟨rfl, ⟨_, rfl⟩, rfl, nofun⟩

/-! ## Waiting -/

theorem settle_head_open (hopen : s.stream.receiver ≠ none) (hexp : s.stream.expired s.now = false) :
    s.settle (s.stream.head s.now) = { s with call := some (.select (s.stream.wake s.now)) } := by
  obtain ⟨r, hr⟩ := Option.ne_none_iff_exists'.mp hopen
  rw [EventStream.head_open hr hexp]
  rfl

/-- A call that goes on waits, if there is time left. -/
theorem GoesOn.step (hopen : s.call ≠ none → s.stream.receiver ≠ none) {input : Input}
    (h : s.GoesOn input) (hexp : s.stream.expired s.now = false) :
    (s.step input).Selects ∧ (s.step input).answers = s.answers ∧
    (s.step input).stream.receiver ≠ none := by
  cases h with
  | asked hcall hr =>
    have hstep : s.step .recv = { s with call := some (.select (s.stream.wake s.now)) } := by
      simp only [Listening.step, hcall, settle_head_open hr hexp]
    rw [hstep]
    exact ⟨⟨_, rfl⟩, rfl, hr⟩
  | passed hoffers hwants =>
    obtain ⟨hans, hselects, -, hr⟩ := hoffers.passes hwants
    exact ⟨hselects, hans, hr⟩
  | woken hcall hdue htransport =>
    have hr := hopen (by simp [hcall])
    have hstep : s.step .wake = { s with call := some (.select (s.stream.wake s.now)) } := by
      simp only [Listening.step, hcall, hdue, if_true, EventStream.woken, hexp, htransport,
        Bool.false_eq_true, if_false, settle_head_open hr hexp]
    rw [hstep]
    exact ⟨⟨_, rfl⟩, rfl, hr⟩
  | healthy hcall =>
    have hr := hopen (by simp [hcall])
    have hstep : s.step (.health true) = { s with call := some (.select (s.stream.wake s.now)) } := by
      simp only [Listening.step, hcall, EventStream.probed, settle_head_open hr hexp]
    rw [hstep]
    exact ⟨⟨_, rfl⟩, rfl, hr⟩
  | probeTimedOut hcall hdue =>
    have hr := hopen (by simp [hcall])
    have hstep : s.step .healthTimeout = { s with call := some (.select (s.stream.wake s.now)) } := by
      simp only [Listening.step, hcall, hdue, if_true, EventStream.probed, settle_head_open hr hexp]
    rw [hstep]
    exact ⟨⟨_, rfl⟩, rfl, hr⟩

/-- A wake-up asks the transport for its health, if there is one. -/
theorem step_wake {wake : Nat} (hcall : s.call = some (.select wake)) (hdue : wake ≤ s.now)
    (hexp : s.stream.expired s.now = false) (htransport : s.stream.transport = true) :
    s.step .wake = { s with call := some (.probe (s.stream.wake s.now)) } := by
  simp only [Listening.step, hcall, hdue, if_true, EventStream.woken, hexp, htransport,
    Bool.false_eq_true, if_false]
  rfl

/-! ## What is not due -/

/-- The step leaves what was answered and taken, and releases nothing. -/
structure Quiet (s : Listening) (input : Input) : Prop where
  answers : (s.step input).answers = s.answers
  taken : (s.step input).taken = s.taken
  call : s.call ≠ none → input ≠ .withdraw → (s.step input).call ≠ none
  stream : s.stream.receiver ≠ none → (s.step input).stream.receiver = none →
    input = .close ∧ s.call = none

theorem Quiet.of_eq {input : Input} (h : s.step input = s) : s.Quiet input :=
  ⟨by rw [h], by rw [h], fun hcall _ => by rw [h]; exact hcall, fun hr hnone => by
    rw [h] at hnone
    exact absurd hnone hr⟩

/-- A step that goes on and reads nothing is quiet. -/
theorem GoesOn.quiet (hopen : s.call ≠ none → s.stream.receiver ≠ none) {input : Input}
    (h : s.GoesOn input) (hexp : s.stream.expired s.now = false)
    (htaken : (s.step input).taken = s.taken) : s.Quiet input := by
  obtain ⟨⟨wake, hcall⟩, hans, hr⟩ := h.step hopen hexp
  exact ⟨hans, htaken, fun _ _ => by simp [hcall], fun _ hnone => absurd hnone hr⟩

theorem taken_settle (s : Listening) (outcome : EventStream × Progress) :
    (s.settle outcome).taken = s.taken := by
  rcases outcome with ⟨stream, _ | _⟩ <;> rfl

/-- A step at which nothing is due to be answered or read is quiet. -/
theorem quiet_step (hopen : s.call ≠ none → s.stream.receiver ≠ none) (input : Input)
    (hans : ∀ result, ¬s.Answers input result) (hoffers : input = .receive → ∀ event, ¬s.Offers event) :
    s.Quiet input := by
  have hquiet : ∀ err, ¬s.Notices input err := fun err hn => hans _ (.fails hn)
  cases input with
  | pass nanos => exact ⟨rfl, rfl, fun hcall _ => hcall, fun hr hnone => absurd hnone hr⟩
  | withdraw => exact ⟨rfl, rfl, fun _ hne => absurd rfl hne, fun hr hnone => absurd hnone hr⟩
  | arrive event =>
    cases hr : s.stream.receiver with
    | none => exact .of_eq (by simp [Listening.step, hr])
    | some r =>
      have hstep : s.step (.arrive event)
          = { s.setReceiver (r.send event) with arrived := s.arrived ++ [event] } := by
        simp only [Listening.step, hr]
      constructor <;> rw [hstep]
      · rfl
      · rfl
      · exact fun hcall _ => hcall
      · exact fun _ hnone => nomatch hnone
  | hangUp =>
    cases hr : s.stream.receiver with
    | none => exact .of_eq (by simp [Listening.step, hr])
    | some r =>
      have hstep : s.step .hangUp = s.setReceiver { r with closed := true } := by
        simp only [Listening.step, hr]
      constructor <;> rw [hstep]
      · rfl
      · rfl
      · exact fun hcall _ => hcall
      · exact fun _ hnone => nomatch hnone
  | recv =>
    cases hcall : s.call with
    | some await => exact .of_eq (by simp [Listening.step, hcall])
    | none =>
      cases hr : s.stream.receiver with
      | none => exact absurd (.ends hcall hr) (hans _)
      | some r =>
        have hexp : s.stream.expired s.now = false :=
          Bool.eq_false_iff.mpr fun hexp => hquiet _ (.asked hcall hr hexp)
        refine GoesOn.quiet hopen (.asked hcall (by simp [hr])) hexp ?_
        simp only [Listening.step, hcall, taken_settle]
  | receive =>
    rcases hcall : s.call with _ | wake | deadline
    · exact .of_eq (by simp [Listening.step, hcall])
    · cases hrecv : s.stream.receiver.bind Receiver.recv with
      | none => exact .of_eq (by simp [Listening.step, hcall, hrecv])
      | some next =>
        obtain ⟨result, r'⟩ := next
        obtain ⟨r, hr, hready⟩ := Option.bind_eq_some_iff.mp hrecv
        have hexp : s.stream.expired s.now = false := Bool.eq_false_iff.mpr fun hexp =>
          hquiet _ (.received hcall hr (Receiver.ready_of_recv hready) hexp)
        rcases Receiver.recv_cases hready with
          ⟨hlag, -⟩ | ⟨hmissed, event, -, hw, -⟩ | ⟨hmissed, hw, hclosed, -⟩
        · exact absurd (.lagged hcall hr hlag hexp) (hquiet _)
        · exact absurd ⟨wake, r, _, hcall, hr, hmissed, hw, hexp⟩ (hoffers rfl event)
        · exact absurd (.closed hcall hr hmissed hw hclosed hexp) (hquiet _)
    · exact .of_eq (by simp [Listening.step, hcall])
  | wake =>
    rcases hcall : s.call with _ | wake | deadline
    · exact .of_eq (by simp [Listening.step, hcall])
    · by_cases hdue : wake ≤ s.now
      · have hexp : s.stream.expired s.now = false :=
          Bool.eq_false_iff.mpr fun hexp => hquiet _ (.woken hcall hdue hexp)
        cases htransport : s.stream.transport with
        | false =>
          refine GoesOn.quiet hopen (.woken hcall hdue htransport) hexp ?_
          simp only [Listening.step, hcall, hdue, if_true, taken_settle]
        | true =>
          have hstep := step_wake hcall hdue hexp htransport
          constructor <;> rw [hstep]
          · exact fun _ _ => nofun
          · exact fun hr hnone => absurd hnone hr
      · exact .of_eq (by simp [Listening.step, hcall, hdue])
    · exact .of_eq (by simp [Listening.step, hcall])
  | health handshakeComplete =>
    rcases hcall : s.call with _ | wake | deadline
    · exact .of_eq (by simp [Listening.step, hcall])
    · exact .of_eq (by simp [Listening.step, hcall])
    · cases handshakeComplete with
      | false => exact absurd (.unauthenticated hcall) (hquiet _)
      | true =>
        have hexp : s.stream.expired s.now = false :=
          Bool.eq_false_iff.mpr fun hexp => hquiet _ (.probed hcall hexp)
        refine GoesOn.quiet hopen (.healthy hcall) hexp ?_
        simp only [Listening.step, hcall, taken_settle]
  | healthTimeout =>
    rcases hcall : s.call with _ | wake | deadline
    · exact .of_eq (by simp [Listening.step, hcall])
    · exact .of_eq (by simp [Listening.step, hcall])
    · by_cases hdue : deadline ≤ s.now
      · have hexp : s.stream.expired s.now = false :=
          Bool.eq_false_iff.mpr fun hexp => hquiet _ (.probeTimedOut hcall hdue hexp)
        refine GoesOn.quiet hopen (.probeTimedOut hcall hdue) hexp ?_
        simp only [Listening.step, hcall, hdue, if_true, taken_settle]
      · exact .of_eq (by simp [Listening.step, hcall, hdue])
  | close =>
    cases hcall : s.call with
    | some await => exact .of_eq (by simp [Listening.step, hcall])
    | none =>
      have hstep : s.step .close = { s with stream := s.stream.close } := by
        simp only [Listening.step, hcall]
      constructor <;> rw [hstep]
      · exact fun hne => absurd hcall hne
      · exact fun _ _ => ⟨rfl, hcall⟩

/-- **A step does what is due at it, and no more.** -/
theorem responds (hopen : s.call ≠ none → s.stream.receiver ≠ none) : s.Responds where
  answers input result h := by
    cases h with
    | yields hoffers hwants =>
      obtain ⟨hans, hcall, -⟩ := hoffers.yields hwants
      exact ⟨hans, hcall⟩
    | fails hn =>
      obtain ⟨hans, hcall, -⟩ := step_notices hopen hn
      exact ⟨hans, hcall⟩
    | ends hcall hr =>
      simp only [Listening.step, hcall, EventStream.head_closed hr]
      exact ⟨rfl, rfl⟩
  silent input hans := by
    by_cases hoffered : input = .receive ∧ ∃ event, s.Offers event
    · obtain ⟨rfl, event, hoffers⟩ := hoffered
      have hwants : ¬s.stream.wants event = true := fun hwants => hans _ (.yields hoffers hwants)
      obtain ⟨hsame, ⟨wake, hcall⟩, -⟩ := hoffers.passes hwants
      exact ⟨hsame, fun _ _ => by simp [hcall]⟩
    · have hquiet := quiet_step hopen input hans fun h event hoffers => hoffered ⟨h, event, hoffers⟩
      exact ⟨hquiet.answers, hquiet.call⟩
  waits input h hexp := (h.step hopen hexp).1
  probes wake hcall hdue hexp htransport := by
    rw [step_wake hcall hdue hexp htransport]
    exact ⟨_, rfl⟩
  takes event hoffers := by
    by_cases hwants : s.stream.wants event = true
    · exact (hoffers.yields hwants).2.2.1
    · exact (hoffers.passes hwants).2.2.1
  keeps input hoffers := by
    by_cases hanswers : ∃ result, s.Answers input result
    · obtain ⟨result, hanswer⟩ := hanswers
      cases hanswer with
      | yields hoffered _ => exact absurd hoffered (hoffers rfl _)
      | fails hn => exact (step_notices hopen hn).2.2.2
      | ends hcall _ => simp only [Listening.step, hcall, taken_settle]
    · exact (quiet_step hopen input (fun result h => hanswers ⟨result, h⟩) hoffers).taken
  hears event hr := by
    obtain ⟨r, hr⟩ := Option.ne_none_iff_exists'.mp hr
    simp only [Listening.step, hr]
  released input hr hnone := by
    by_cases hanswers : ∃ result, s.Answers input result
    · obtain ⟨result, hanswer⟩ := hanswers
      cases hanswer with
      | yields hoffers hwants => exact .inr (.inr ((hoffers.yields hwants).2.2.2 hnone))
      | fails hn => exact .inl ⟨_, hn⟩
      | ends _ hended => exact absurd hended hr
    · by_cases hoffered : input = .receive ∧ ∃ event, s.Offers event
      · obtain ⟨rfl, event, hoffers⟩ := hoffered
        have hwants : ¬s.stream.wants event = true := fun hwants => hanswers ⟨_, .yields hoffers hwants⟩
        exact absurd hnone (hoffers.passes hwants).2.2.2
      · have hquiet := quiet_step hopen input (fun result h => hanswers ⟨result, h⟩)
          fun h event hoffers => hoffered ⟨h, event, hoffers⟩
        exact .inr (.inl (hquiet.stream hr hnone))

end Listening

end Thalovant.Stream
