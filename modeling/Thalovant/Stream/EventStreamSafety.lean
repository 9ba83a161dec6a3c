import Thalovant.Stream.EventStreamSteps

/-!
# What an event stream yields

* `listens`: in every run a stream yields the first events, up to its limit, that it wants among those
  it takes, in the order they arrived; then at most one error; and then it has ended and takes nothing
-/

namespace Thalovant.Stream

namespace EventStream

/-! ## What the stream keeps -/

@[simp] theorem wants_close (s : EventStream) : s.close.wants = s.wants := rfl
@[simp] theorem options_close (s : EventStream) : s.close.options = s.options := rfl
@[simp] theorem received_close (s : EventStream) : s.close.received = s.received := rfl

end EventStream

/-- What is returned after the events: nothing, the end, or one error and then the end. -/
def Ended (ended : List (Result (Option Event))) : Prop :=
  ∃ ends, ended = List.replicate ends (.ok none) ∨
    ∃ err, ended = .error err :: List.replicate ends (.ok none)

theorem Ended.concat {ended : List (Result (Option Event))} (h : Ended ended) :
    Ended (ended ++ [.ok none]) := by
  obtain ⟨ends, rfl | ⟨err, rfl⟩⟩ := h
  · exact ⟨ends + 1, .inl List.replicate_succ'.symm⟩
  · exact ⟨ends + 1, .inr ⟨err, by rw [List.replicate_succ', List.cons_append]⟩⟩

namespace Listening

/-- The events that the stream wants among those it took. -/
def chosen (s : Listening) : List Event := s.taken.filter s.stream.wants

/-- What holds of a stream after every step. -/
structure Sound (s : Listening) : Prop where
  channel : ∀ r, s.stream.receiver = some r →
    ∃ dropped, s.arrived = s.taken ++ dropped ++ r.waiting ∧ dropped.length = r.missed
  inOrder : s.taken <+: s.arrived
  count : s.stream.received = s.chosen.length
  limit : ∀ max, s.stream.options.maxEvents = some max →
    s.stream.received ≤ max ∧ (s.stream.received = max → s.stream.receiver = none)
  answers : ∃ ended, s.answers = s.chosen.map (fun event => .ok (some event)) ++ ended ∧
    (ended ≠ [] → s.stream.receiver = none) ∧ Ended ended
  call : s.call ≠ none → s.stream.receiver ≠ none

/-! ## What a call may come to -/

variable {s : Listening}

/-- The stream ends with an error. -/
theorem Sound.failed (h : s.Sound) (hopen : s.stream.receiver ≠ none) (err : ThalovantError) :
    (s.settle (s.stream.close, .returned (.error err))).Sound where
  channel r hr := by cases hr
  inOrder := h.inOrder
  count := h.count
  limit max hmax := ⟨(h.limit max hmax).1, fun _ => rfl⟩
  answers := by
    obtain ⟨ended, hans, hended, -⟩ := h.answers
    have hnil : ended = [] := by_contra fun hne => hopen (hended hne)
    subst hnil
    refine ⟨[.error err], ?_, fun _ => rfl, 0, .inr ⟨err, rfl⟩⟩
    show s.answers ++ [.error err] = _
    rw [hans, List.append_nil]
    rfl
  call hcall := absurd rfl hcall

/-- The stream has ended. -/
theorem Sound.of_closed (h : s.Sound) (hclosed : s.stream.receiver = none) :
    (s.settle (s.stream, .returned (.ok none))).Sound where
  channel := h.channel
  inOrder := h.inOrder
  count := h.count
  limit := h.limit
  answers := by
    obtain ⟨ended, hans, -, hend⟩ := h.answers
    refine ⟨ended ++ [.ok none], ?_, fun _ => hclosed, hend.concat⟩
    show s.answers ++ [.ok none] = _
    rw [hans, List.append_assoc]
    rfl
  call hcall := absurd rfl hcall

/-- The call waits. -/
theorem Sound.waits (h : s.Sound) (hopen : s.stream.receiver ≠ none) (await : Await) :
    (s.settle (s.stream, .waits await)).Sound :=
  ⟨h.channel, h.inOrder, h.count, h.limit, h.answers, fun _ => hopen⟩

theorem Sound.head (h : s.Sound) : (s.settle (s.stream.head s.now)).Sound := by
  cases hr : s.stream.receiver with
  | none =>
    rw [EventStream.head_closed hr]
    exact h.of_closed hr
  | some r =>
    have hopen : s.stream.receiver ≠ none := by simp [hr]
    cases hexp : s.stream.expired s.now with
    | true =>
      rw [EventStream.head_expired hr hexp]
      exact h.failed hopen _
    | false =>
      rw [EventStream.head_open hr hexp]
      exact h.waits hopen _

theorem Sound.woken (h : s.Sound) (hopen : s.stream.receiver ≠ none) :
    (s.settle (s.stream.woken s.now)).Sound := by
  unfold EventStream.woken
  split
  · exact h.failed hopen _
  · split
    · exact h.waits hopen _
    · exact h.head

theorem Sound.probed (h : s.Sound) (hopen : s.stream.receiver ≠ none)
    (handshakeComplete : Option Bool) :
    (s.settle (s.stream.probed s.now handshakeComplete)).Sound := by
  unfold EventStream.probed
  split
  · exact h.failed hopen _
  · exact h.head

/-! ## What the channel gives -/

/-- A stream whose receiver changed and that took nothing ends with an error. -/
theorem Sound.failedAfter (h : s.Sound) {r r' : Receiver} (hr : s.stream.receiver = some r)
    {result : Received} (htaken : s.counted result = []) (err : ThalovantError) :
    ((s.afterRecv result r').settle ((s.afterRecv result r').stream.close, .returned (.error err))).Sound := by
  have heq : (s.afterRecv result r').settle ((s.afterRecv result r').stream.close, .returned (.error err))
      = s.settle (s.stream.close, .returned (.error err)) := by
    simp [afterRecv, settle, setReceiver, htaken, EventStream.close]
  rw [heq]
  exact h.failed (by simp [hr]) err

theorem chosen_take_of_wants {event : Event} (hw : s.stream.wants event = true) (r : Receiver) :
    (s.take event r).chosen = s.chosen ++ [event] := by
  show (s.taken ++ [event]).filter s.stream.wants = _
  rw [List.filter_append, List.filter_cons_of_pos hw, List.filter_nil, chosen]

theorem chosen_take_of_not_wants {event : Event} (hw : ¬s.stream.wants event = true) (r : Receiver) :
    (s.take event r).chosen = s.chosen := by
  show (s.taken ++ [event]).filter s.stream.wants = _
  rw [List.filter_append, List.filter_cons_of_neg hw, List.filter_nil, List.append_nil, chosen]

/-- A channel that gives an event has dropped none before it. -/
theorem Sound.took (h : s.Sound) {r r' : Receiver} {event : Event} (hr : s.stream.receiver = some r)
    (hmissed : r.missed = 0) (hwaiting : r.waiting = event :: r'.waiting) :
    s.arrived = s.taken ++ [event] ++ r'.waiting := by
  obtain ⟨dropped, harr, hlen⟩ := h.channel r hr
  have hnil : dropped = [] := List.length_eq_zero_iff.mp (hlen.trans hmissed)
  rw [harr, hnil, hwaiting]
  simp

/-- An event that the stream does not want is passed over. -/
theorem Sound.passed (h : s.Sound) {r r' : Receiver} {event : Event} (hr : s.stream.receiver = some r)
    (hw : ¬s.stream.wants event = true) (harr : s.arrived = s.taken ++ [event] ++ r'.waiting)
    (hmissed : r'.missed = 0) : (s.take event r').Sound where
  channel r₁ h₁ := by
    obtain rfl := Option.some.inj h₁
    exact ⟨[], by rw [List.append_nil]; exact harr, hmissed.symm⟩
  inOrder := ⟨r'.waiting, harr.symm⟩
  count := by
    rw [chosen_take_of_not_wants hw]
    exact h.count
  limit max hmax := by
    obtain ⟨hle, hlimit⟩ := h.limit max hmax
    exact ⟨hle, fun heq => absurd (hlimit heq) (by simp [hr])⟩
  answers := by
    obtain ⟨ended, hans, hended, hend⟩ := h.answers
    rw [chosen_take_of_not_wants hw]
    exact ⟨ended, hans, fun hne => absurd (hended hne) (by simp [hr]), hend⟩
  call _ hnone := by cases hnone

/-- An event that the stream wants is returned, and the stream is closed at its limit. -/
theorem Sound.yielded (h : s.Sound) {r r' : Receiver} {event : Event} (hr : s.stream.receiver = some r)
    (hw : s.stream.wants event = true) (harr : s.arrived = s.taken ++ [event] ++ r'.waiting)
    (hmissed : r'.missed = 0) {stream : EventStream} (hkept : stream.wants = s.stream.wants)
    (hoptions : stream.options = s.stream.options) (hreceived : stream.received = s.stream.received + 1)
    (hreceiver : (stream.receiver = none ∧ s.stream.options.maxEvents.any (· ≤ stream.received) = true) ∨
      (stream.receiver = some r' ∧ s.stream.options.maxEvents.any (· ≤ stream.received) = false)) :
    ((s.take event r').settle (stream, .returned (.ok (some event)))).Sound := by
  have hchosen : ((s.take event r').settle (stream, .returned (.ok (some event)))).chosen
      = s.chosen ++ [event] := by
    rw [← chosen_take_of_wants hw r']
    show List.filter stream.wants (s.take event r').taken = List.filter s.stream.wants _
    rw [hkept]
  refine ⟨fun r₁ h₁ => ?_, ⟨r'.waiting, harr.symm⟩, ?_, fun max hmax => ?_, ?_,
    fun hcall => absurd rfl hcall⟩
  · rcases hreceiver with ⟨hnone, -⟩ | ⟨hsome, -⟩
    · cases hnone.symm.trans h₁
    · obtain rfl := Option.some.inj (hsome.symm.trans h₁)
      exact ⟨[], by rw [List.append_nil]; exact harr, hmissed.symm⟩
  · rw [hchosen, List.length_append, ← h.count]
    exact hreceived
  · have hmax' : s.stream.options.maxEvents = some max := hoptions ▸ hmax
    obtain ⟨hle, hlimit⟩ := h.limit max hmax'
    have hne : s.stream.received ≠ max := fun heq => by simp [hlimit heq] at hr
    show stream.received ≤ max ∧ (stream.received = max → stream.receiver = none)
    refine ⟨by omega, fun heq => ?_⟩
    rcases hreceiver with ⟨hnone, -⟩ | ⟨-, hmore⟩
    · exact hnone
    · simp [hmax', heq] at hmore
  · obtain ⟨ended, hans, hended, -⟩ := h.answers
    have hnil : ended = [] := by_contra fun hne => by simp [hended hne] at hr
    refine ⟨[], ?_, fun hne => absurd rfl hne, 0, .inl rfl⟩
    show s.answers ++ [.ok (some event)] = _
    rw [hchosen, hans, hnil]
    simp

theorem Sound.receive (h : s.Sound) {r r' : Receiver} {result : Received}
    (hr : s.stream.receiver = some r) (hrecv : r.recv = some (result, r')) :
    ((s.afterRecv result r').settle ((s.afterRecv result r').stream.receive s.now result)).Sound := by
  unfold EventStream.receive
  have hexpired : (s.afterRecv result r').stream.expired s.now = s.stream.expired s.now := rfl
  rw [hexpired]
  split
  · next hexp =>
    refine h.failedAfter hr ?_ _
    cases result <;> simp [counted, hexp]
  · next hexp =>
    rcases Receiver.recv_cases hrecv with ⟨-, rfl⟩ | ⟨hmissed, event, rfl, hw, hmissed'⟩ | ⟨-, -, -, rfl⟩
    · exact h.failedAfter hr rfl _
    · have hafter : s.afterRecv (.item event) r' = s.take event r' := by
        simp [afterRecv, take, counted, hexp]
      have harr := h.took hr hmissed hw
      rw [hafter]
      dsimp only
      have hwants : (s.take event r').stream.wants = s.stream.wants := rfl
      rw [hwants]
      by_cases hw : s.stream.wants event = true
      · rw [if_neg (by simp [hw])]
        refine h.yielded hr hw harr hmissed' ?_ ?_ ?_ ?_
        · split <;> rfl
        · split <;> rfl
        · split <;> rfl
        · split
          · next hany => exact .inl ⟨rfl, hany⟩
          · next hany => exact .inr ⟨rfl, Bool.eq_false_iff.mpr hany⟩
      · rw [if_pos (by simp [hw])]
        exact (h.passed hr hw harr hmissed').head
    · exact h.failedAfter hr rfl _

/-! ## Runs -/

theorem Sound.new (stream : EventStream) {r : Receiver} (hr : stream.receiver = some r)
    (hwaiting : r.waiting = []) (hmissed : r.missed = 0) (hreceived : stream.received = 0)
    (hmax : stream.options.maxEvents ≠ some 0) (now : Nat) : (Listening.new stream now).Sound where
  channel r₁ h₁ := by
    obtain rfl := Option.some.inj (hr.symm.trans h₁)
    exact ⟨[], by rw [hwaiting]; rfl, hmissed.symm⟩
  inOrder := List.prefix_rfl
  count := hreceived
  limit max h := by
    have hpos : max ≠ 0 := fun hzero => hmax (hzero ▸ h)
    show stream.received ≤ max ∧ (stream.received = max → _)
    rw [hreceived]
    exact ⟨Nat.zero_le _, fun heq => absurd heq.symm hpos⟩
  answers := ⟨[], rfl, fun hne => absurd rfl hne, 0, .inl rfl⟩
  call h := absurd rfl h

/-- What is sent waits in the channel, behind what was dropped for it. -/
theorem send_waiting (event : Event) (r : Receiver) :
    ∃ dropped, r.waiting ++ [event] = dropped ++ (r.send event).waiting ∧
      (r.send event).missed = r.missed + dropped.length := by
  unfold Receiver.send
  split
  · exact ⟨[], rfl, rfl⟩
  · refine ⟨(r.waiting ++ [event]).take 1, (List.take_append_drop 1 _).symm, ?_⟩
    cases r.waiting <;> simp

theorem Sound.arrive (h : s.Sound) {r : Receiver} (hr : s.stream.receiver = some r) (event : Event) :
    ({ s.setReceiver (r.send event) with arrived := s.arrived ++ [event] } : Listening).Sound where
  channel r₁ h₁ := by
    obtain rfl := Option.some.inj h₁
    obtain ⟨dropped, harr, hlen⟩ := h.channel r hr
    obtain ⟨more, hmore, hmissed⟩ := send_waiting event r
    refine ⟨dropped ++ more, ?_, ?_⟩
    · show s.arrived ++ [event] = _
      rw [harr, List.append_assoc, hmore]
      simp [setReceiver]
    · rw [List.length_append, hmissed, hlen]
  inOrder := h.inOrder.trans (List.prefix_append _ _)
  count := h.count
  limit max hmax := ⟨(h.limit max hmax).1, fun heq => absurd ((h.limit max hmax).2 heq) (by simp [hr])⟩
  answers := by
    obtain ⟨ended, hans, hended, hend⟩ := h.answers
    exact ⟨ended, hans, fun hne => absurd (hended hne) (by simp [hr]), hend⟩
  call _ hnone := by cases hnone

theorem Sound.hangUp (h : s.Sound) {r : Receiver} (hr : s.stream.receiver = some r) :
    (s.setReceiver { r with closed := true }).Sound where
  channel r₁ h₁ := by
    obtain rfl := Option.some.inj h₁
    exact h.channel r hr
  inOrder := h.inOrder
  count := h.count
  limit max hmax := ⟨(h.limit max hmax).1, fun heq => absurd ((h.limit max hmax).2 heq) (by simp [hr])⟩
  answers := by
    obtain ⟨ended, hans, hended, hend⟩ := h.answers
    exact ⟨ended, hans, fun hne => absurd (hended hne) (by simp [hr]), hend⟩
  call _ hnone := by cases hnone

/-- Every step keeps it. -/
theorem Sound.step (h : s.Sound) (input : Input) : (s.step input).Sound := by
  cases input with
  | pass nanos => exact ⟨h.channel, h.inOrder, h.count, h.limit, h.answers, h.call⟩
  | arrive event =>
    unfold Listening.step
    dsimp only
    split
    · next r hr => exact h.arrive hr event
    · exact h
  | hangUp =>
    unfold Listening.step
    dsimp only
    split
    · next r hr => exact h.hangUp hr
    · exact h
  | recv =>
    unfold Listening.step
    dsimp only
    split
    · exact h.head
    · exact h
  | withdraw => exact ⟨h.channel, h.inOrder, h.count, h.limit, h.answers, fun hcall => absurd rfl hcall⟩
  | receive =>
    unfold Listening.step
    dsimp only
    split
    · next result r' _ hrecv =>
      obtain ⟨r, hr, hready⟩ := Option.bind_eq_some_iff.mp hrecv
      exact h.receive hr hready
    · exact h
  | wake =>
    unfold Listening.step
    dsimp only
    split
    · next hcall =>
      split
      · exact h.woken (h.call (by simp [hcall]))
      · exact h
    · exact h
  | health handshakeComplete =>
    unfold Listening.step
    dsimp only
    split
    · next hcall => exact h.probed (h.call (by simp [hcall])) _
    · exact h
  | healthTimeout =>
    unfold Listening.step
    dsimp only
    split
    · next hcall =>
      split
      · exact h.probed (h.call (by simp [hcall])) _
      · exact h
    · exact h
  | close =>
    unfold Listening.step
    dsimp only
    split
    · next hcall =>
      refine ⟨fun r hr => ?_, h.inOrder, h.count, fun max hmax => ⟨(h.limit max hmax).1, fun _ => rfl⟩,
        ?_, fun hne => absurd hcall hne⟩
      · cases hr
      · obtain ⟨ended, hans, -, hend⟩ := h.answers
        exact ⟨ended, hans, fun _ => rfl, hend⟩
    · exact h

theorem Sound.run (h : s.Sound) (inputs : List Input) : (s.run inputs).Sound := by
  induction inputs generalizing s with
  | nil => exact h
  | cons input inputs ih => exact ih (h.step input)

/-! ## What the caller asked stays -/

/-- The filter, the limit, the deadline and the transport are those of the other stream. -/
structure Kept (stream other : EventStream) : Prop where
  wants : other.wants = stream.wants
  options : other.options = stream.options
  deadline : other.deadline = stream.deadline
  transport : other.transport = stream.transport

theorem Kept.refl (stream : EventStream) : Kept stream stream := ⟨rfl, rfl, rfl, rfl⟩

theorem Kept.trans {stream other last : EventStream} (h : Kept stream other) (h' : Kept other last) :
    Kept stream last :=
  ⟨h'.wants.trans h.wants, h'.options.trans h.options, h'.deadline.trans h.deadline,
    h'.transport.trans h.transport⟩

theorem kept_head (stream : EventStream) (now : Nat) : Kept stream (stream.head now).1 := by
  unfold EventStream.head
  split
  · exact .refl stream
  · split <;> exact ⟨rfl, rfl, rfl, rfl⟩

theorem kept_receive (stream : EventStream) (now : Nat) (result : Received) :
    Kept stream (stream.receive now result).1 := by
  unfold EventStream.receive
  split
  · exact ⟨rfl, rfl, rfl, rfl⟩
  · cases result with
    | item event =>
      dsimp only
      split
      · exact kept_head stream now
      · dsimp only
        split <;> exact ⟨rfl, rfl, rfl, rfl⟩
    | lagged count => exact ⟨rfl, rfl, rfl, rfl⟩
    | closed => exact ⟨rfl, rfl, rfl, rfl⟩

theorem kept_woken (stream : EventStream) (now : Nat) : Kept stream (stream.woken now).1 := by
  unfold EventStream.woken
  split
  · exact ⟨rfl, rfl, rfl, rfl⟩
  · split
    · exact .refl stream
    · exact kept_head stream now

theorem kept_probed (stream : EventStream) (now : Nat) (handshakeComplete : Option Bool) :
    Kept stream (stream.probed now handshakeComplete).1 := by
  unfold EventStream.probed
  split
  · exact ⟨rfl, rfl, rfl, rfl⟩
  · exact kept_head stream now

theorem kept_step (s : Listening) (input : Input) : Kept s.stream (s.step input).stream := by
  cases input with
  | pass | withdraw => exact .refl s.stream
  | arrive | hangUp =>
    unfold Listening.step
    dsimp only
    split <;> exact ⟨rfl, rfl, rfl, rfl⟩
  | recv =>
    unfold Listening.step
    dsimp only
    split
    · exact stream_settle s _ ▸ kept_head s.stream s.now
    · exact .refl s.stream
  | receive =>
    unfold Listening.step
    dsimp only
    split
    · next result r' _ _ =>
      rw [stream_settle]
      have hsame : Kept s.stream { s.stream with receiver := some r' } := ⟨rfl, rfl, rfl, rfl⟩
      exact hsame.trans (kept_receive _ s.now result)
    · exact .refl s.stream
  | wake =>
    unfold Listening.step
    dsimp only
    split
    · split
      · exact stream_settle s _ ▸ kept_woken s.stream s.now
      · exact .refl s.stream
    · exact .refl s.stream
  | health handshakeComplete =>
    unfold Listening.step
    dsimp only
    split
    · exact stream_settle s _ ▸ kept_probed s.stream s.now _
    · exact .refl s.stream
  | healthTimeout =>
    unfold Listening.step
    dsimp only
    split
    · split
      · exact stream_settle s _ ▸ kept_probed s.stream s.now _
      · exact .refl s.stream
    · exact .refl s.stream
  | close =>
    unfold Listening.step
    dsimp only
    split <;> exact ⟨rfl, rfl, rfl, rfl⟩

theorem kept_run (s : Listening) (inputs : List Input) : Kept s.stream (s.run inputs).stream := by
  induction inputs generalizing s with
  | nil => exact .refl s.stream
  | cons input inputs ih => exact (kept_step s input).trans (ih (s.step input))

/-! ## A wait ends -/

/-- When a wait ends at the latest. -/
def wakes : Await → Nat
  | .select wake => wake
  | .probe deadline => deadline

/-- A call that waits does so for a tenth of a second at most, and not past the deadline. -/
def Timely (s : Listening) : Prop :=
  ∀ await, s.call = some await → wakes await ≤ s.now + 100000000
    ∧ ∀ deadline, s.stream.deadline = some deadline → wakes await ≤ deadline

/-- What a call comes to is an answer, or a wait from now on. -/
def FromNow (now : Nat) (outcome : EventStream × Progress) : Prop :=
  ∀ await, outcome.2 = .waits await → wakes await = outcome.1.wake now

theorem wake_le (stream : EventStream) (now : Nat) :
    stream.wake now ≤ now + 100000000 ∧ ∀ deadline, stream.deadline = some deadline →
      stream.wake now ≤ deadline := by
  unfold EventStream.wake
  cases hdeadline : stream.deadline with
  | none => exact ⟨Nat.le_refl _, fun _ h => nomatch h⟩
  | some deadline =>
    refine ⟨Nat.min_le_right _ _, ?_⟩
    rintro _ ⟨⟩
    exact Nat.min_le_left _ _

theorem fromNow_head (stream : EventStream) (now : Nat) : FromNow now (stream.head now) := by
  unfold EventStream.head
  split
  · exact fun _ h => nomatch h
  · split
    · exact fun _ h => nomatch h
    · rintro _ ⟨⟩
      rfl

theorem fromNow_receive (stream : EventStream) (now : Nat) (result : Received) :
    FromNow now (stream.receive now result) := by
  unfold EventStream.receive
  split
  · exact fun _ h => nomatch h
  · cases result with
    | item event =>
      dsimp only
      split
      · exact fromNow_head stream now
      · exact fun _ h => nomatch h
    | lagged count => exact fun _ h => nomatch h
    | closed => exact fun _ h => nomatch h

theorem fromNow_woken (stream : EventStream) (now : Nat) : FromNow now (stream.woken now) := by
  unfold EventStream.woken
  split
  · exact fun _ h => nomatch h
  · split
    · rintro _ ⟨⟩
      rfl
    · exact fromNow_head stream now

theorem fromNow_probed (stream : EventStream) (now : Nat) (handshakeComplete : Option Bool) :
    FromNow now (stream.probed now handshakeComplete) := by
  unfold EventStream.probed
  split
  · exact fun _ h => nomatch h
  · exact fromNow_head stream now

theorem Timely.settle (s : Listening) {outcome : EventStream × Progress} (h : FromNow s.now outcome) :
    (s.settle outcome).Timely := by
  obtain ⟨stream, result | await⟩ := outcome
  · exact fun _ h => nomatch h
  · rintro _ ⟨⟩
    rw [h await rfl]
    exact wake_le stream s.now

/-- What touches neither the call nor the deadline, and does not turn the clock back, keeps the waits. -/
theorem Timely.same {s' : Listening} (h : s.Timely) (hcall : s'.call = s.call) (hnow : s.now ≤ s'.now)
    (hdeadline : s'.stream.deadline = s.stream.deadline) : s'.Timely := by
  intro await hawait
  obtain ⟨hsoon, hend⟩ := h await (hcall ▸ hawait)
  exact ⟨hsoon.trans (Nat.add_le_add_right hnow _), fun deadline hd => hend deadline (hdeadline ▸ hd)⟩

theorem Timely.step (h : s.Timely) (input : Input) : (s.step input).Timely := by
  cases input with
  | pass nanos => exact h.same rfl (Nat.le_add_right _ _) rfl
  | withdraw => exact fun _ h => nomatch h
  | arrive | hangUp | close =>
    unfold Listening.step
    dsimp only
    split <;> exact h.same rfl (Nat.le_refl _) rfl
  | recv =>
    unfold Listening.step
    dsimp only
    split
    · exact .settle s (fromNow_head _ _)
    · exact h
  | receive =>
    unfold Listening.step
    dsimp only
    split
    · exact .settle _ (fromNow_receive _ _ _)
    · exact h
  | wake =>
    unfold Listening.step
    dsimp only
    split
    · split
      · exact .settle s (fromNow_woken _ _)
      · exact h
    · exact h
  | health handshakeComplete =>
    unfold Listening.step
    dsimp only
    split
    · exact .settle s (fromNow_probed _ _ _)
    · exact h
  | healthTimeout =>
    unfold Listening.step
    dsimp only
    split
    · split
      · exact .settle s (fromNow_probed _ _ _)
      · exact h
    · exact h

theorem Timely.run (h : s.Timely) (inputs : List Input) : (s.run inputs).Timely := by
  induction inputs generalizing s with
  | nil => exact h
  | cons input inputs ih => exact ih (h.step input)

/-! ## The end of a stream -/

/-- A stream that has ended takes nothing, and a call of it gives the end. -/
theorem step_closed (hclosed : s.stream.receiver = none) (hcall : s.call = none) (input : Input) :
    (s.step input).stream.receiver = none ∧ (s.step input).call = none ∧
    (s.step input).taken = s.taken ∧
    ((s.step input).answers = s.answers ∨ (s.step input).answers = s.answers ++ [.ok none]) := by
  cases input with
  | recv =>
    simp only [Listening.step, hcall, EventStream.head_closed hclosed]
    exact ⟨hclosed, rfl, rfl, .inr rfl⟩
  | _ => simp [Listening.step, hcall, hclosed]

theorem run_closed (hclosed : s.stream.receiver = none) (hcall : s.call = none) (inputs : List Input) :
    (s.run inputs).stream.receiver = none ∧ (s.run inputs).taken = s.taken ∧
    ∃ ends, (s.run inputs).answers = s.answers ++ List.replicate ends (.ok none) := by
  induction inputs generalizing s with
  | nil => exact ⟨hclosed, rfl, 0, (List.append_nil _).symm⟩
  | cons input inputs ih =>
    obtain ⟨hclosed', hcall', htaken, hans⟩ := step_closed hclosed hcall input
    obtain ⟨hnone, htaken', ends, hans'⟩ := ih hclosed' hcall'
    refine ⟨hnone, htaken'.trans htaken, ?_⟩
    rcases hans with hans | hans
    · exact ⟨ends, hans ▸ hans'⟩
    · refine ⟨ends + 1, ?_⟩
      show ((s.step input).run inputs).answers = _
      rw [hans', hans, List.append_assoc, List.singleton_append, List.replicate_succ]

/-! ## What a stream yields -/

/-- What a stream is for: `stream` as it was made, `s` as it is. -/
structure Listens (stream : EventStream) (s : Listening) : Prop where
  responds : s.Responds
  kept : Kept stream s.stream
  timely : s.Timely
  channel : ∀ r, s.stream.receiver = some r →
    ∃ dropped, s.arrived = s.taken ++ dropped ++ r.waiting ∧ dropped.length = r.missed
  yields : s.yields = stream.options.maxEvents.elim (s.taken.filter stream.wants)
    fun max => (s.taken.filter stream.wants).take max
  inOrder : s.taken <+: s.arrived
  ended : ∃ ended, s.answers = s.yields.map (fun event => .ok (some event)) ++ ended ∧ Ended ended ∧
    (ended ≠ [] → s.stream.receiver = none)
  limit : ∀ max, stream.options.maxEvents = some max → max ≤ s.yields.length →
    s.stream.receiver = none
  released : ∀ input, s.stream.receiver ≠ none → (s.step input).stream.receiver = none →
    (∃ err, s.Notices input err) ∨ (input = .close ∧ s.call = none) ∨
    ∃ max, stream.options.maxEvents = some max ∧ (s.step input).yields.length = max
  terminal : ∀ input err, s.Notices input err →
    (s.step input).answers = s.answers ++ [.error err] ∧ (s.step input).stream.receiver = none
  further : s.stream.receiver = none → (s.step .recv).answers = s.answers ++ [.ok none]
  closed : s.stream.receiver = none → ∀ inputs, (s.run inputs).stream.receiver = none ∧
    (s.run inputs).taken = s.taken ∧
    ∃ ends, (s.run inputs).answers = s.answers ++ List.replicate ends (.ok none)

theorem yields_eq {events : List Event} {ended : List (Result (Option Event))}
    (hans : s.answers = events.map (fun event => .ok (some event)) ++ ended) (hend : Ended ended) :
    s.yields = events := by
  have hevents : (events.map fun event => (.ok (some event) : Result (Option Event))).filterMap yielded
      = events := by
    rw [List.filterMap_map]
    exact List.filterMap_some
  have hrest : ended.filterMap yielded = [] := by
    obtain ⟨ends, rfl | ⟨err, rfl⟩⟩ := hend <;> simp [yielded]
  rw [Listening.yields, hans, List.filterMap_append, hevents, hrest, List.append_nil]

theorem Sound.listening (h : s.Sound) {stream : EventStream} (hkept : Kept stream s.stream)
    (htimely : s.Timely) : Listens stream s := by
  obtain ⟨ended, hans, hended, hend⟩ := h.answers
  have hyields : s.yields = s.chosen := yields_eq hans hend
  have hchosen : s.chosen = s.taken.filter stream.wants := by rw [chosen, hkept.wants]
  have hcall : s.stream.receiver = none → s.call = none := fun hnone =>
    by_contra fun hne => h.call hne hnone
  refine ⟨responds h.call, hkept, htimely, h.channel, ?_, h.inOrder, ⟨ended, hyields ▸ hans, hend, hended⟩,
    fun max hmax hle => ?_, fun input hopen hnone => ?_, fun input err hn => ?_, fun hnone => ?_,
    fun hnone => run_closed hnone (hcall hnone)⟩
  · cases hmax : stream.options.maxEvents with
    | none => exact hyields.trans hchosen
    | some max =>
      have hle : s.chosen.length ≤ max := h.count ▸ (h.limit max (hkept.options ▸ hmax)).1
      rw [Option.elim_some, ← hchosen, List.take_of_length_le hle, hyields]
  · have hlimit := h.limit max (hkept.options ▸ hmax)
    rw [hyields, ← h.count] at hle
    exact hlimit.2 (Nat.le_antisymm hlimit.1 hle)
  · refine ((responds h.call).released input hopen hnone).imp_right (Or.imp_right ?_)
    rintro ⟨max, hmax, hle⟩
    have hafter := h.step input
    obtain ⟨ended', hans', -, hend'⟩ := hafter.answers
    have hlimit := (hafter.limit max ((kept_step s input).options ▸ hmax)).1
    refine ⟨max, hkept.options ▸ hmax, ?_⟩
    rw [yields_eq hans' hend', ← hafter.count]
    exact Nat.le_antisymm hlimit hle
  · obtain ⟨hans', -, hreceiver, -⟩ := step_notices h.call hn
    exact ⟨hans', hreceiver⟩
  · simp only [Listening.step, hcall hnone, EventStream.head_closed hnone]
    rfl

/-- **In every run a stream yields the events it wants among those it takes, up to its limit**, then at
most one error, and then it has ended. A call answers when something is due and waits until then, no
longer than to the deadline; and only an error, the limit or the caller ends the stream. -/
theorem listens (capacity : Nat) (transport : Bool) (eventName : String) (options : ListenOptions)
    (deadline : Option Nat) (now : Nat) (inputs : List Input) (hmax : options.maxEvents ≠ some 0) :
    let stream := EventStream.new (.subscribe capacity) transport eventName options deadline
    Listens stream ((Listening.new stream now).run inputs) := by
  intro stream
  have hnew : (Listening.new stream now).Sound := Sound.new stream rfl rfl rfl rfl hmax now
  have htimely : (Listening.new stream now).Timely := fun _ h => nomatch h
  exact (hnew.run inputs).listening (kept_run (Listening.new stream now) inputs) (htimely.run inputs)

/-- A stream of one event yields it once, and then ends. -/
theorem listens_once :
    let options : ListenOptions := { maxEvents := some 1 }
    let stream := EventStream.new (.subscribe 8) false "speak" options none
    let spoken : Event := { name := "speak" }
    let inputs := [.recv, .arrive spoken, .arrive spoken, .receive, .recv]
    Listens stream ((Listening.new stream 0).run inputs) :=
  listens 8 false "speak" { maxEvents := some 1 } none 0 _ (by decide)

end Listening

end Thalovant.Stream
