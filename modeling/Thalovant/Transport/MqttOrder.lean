import Thalovant.Transport.MqttDelivery

/-!
# After a frame that was not published

Over every run of the MQTT transport: nothing follows a message that was not published to its end, and a
send that is given up in time does nothing. Both look at what a step can touch (`MqttStepped`).
-/

namespace Thalovant.Transport

open Thalovant.Noise

variable {σ : Type} {env : ChannelEnv σ}

namespace Mqtt

/-- Nothing that the tasks have done is touched, and the gate goes to no send but one that may have it. -/
structure Beside (m out : Mqtt env.snow) : Prop where
  log : out.log = m.log
  published : out.published = m.published
  spoilt : out.spoilt = m.spoilt
  holder : ∀ h, out.holder = some h → m.holder = some h ∨ m.jobs.length ≤ h.task
  jobs : ∃ more, out.jobs = m.jobs ++ more
  gate : ∀ i message stage, out.gate = .send i message stage →
    (∃ stage', m.gate = .send i message stage')
    ∨ ∃ t, m.waiting i = some t ∧ t.withdrawn = false
  waiting : ∀ i t', out.waiting i = some t' → m.jobs.length ≤ i
    ∨ ∃ t, m.waiting i = some t ∧ (t.withdrawn = true → t'.withdrawn = true)

/-- Who works with the channel: a send that takes its lock, the task that has it, or a reader that takes
it, which has its job from then on. -/
inductive Turn (m : Mqtt env.snow) : Mqtt env.snow → Holder → Prop where
  | send (task : Nat) (message : HiveMessage) (hgate : m.gate = .send task message .atNoise) :
    Turn m m (sending task message)
  | holds (h : Holder) (hholder : m.holder = some h) : Turn m m h
  | reader (link : Nat) (payload : Bytes) (c : NoiseChannel env.snow) :
    Turn m (setReader { m with jobs := m.jobs ++ [.receive payload c.ready] } link .working)
      (handling m link payload c)

/-- What a step delivers comes from a channel that has not failed, or from a task that has published. -/
def Delivers (m : Mqtt env.snow) (out : Option HiveMessage) : Prop :=
  out.isSome = true → (∃ c, m.channel = some c ∧ c.failed = false) ∨ ∃ rest, m.stage.bind Stage.rest = some rest

/-- **What a step does.** -/
inductive MqttStepped (m : Mqtt env.snow) (event : MqttEvent σ) :
    Option HiveMessage × Mqtt env.snow → Prop where
  | beside (out : Mqtt env.snow) (h : Beside m out) : MqttStepped m event (none, out)
  | works (m' : Mqtt env.snow) (h : Holder) (out : Option HiveMessage × Mqtt env.snow) (hturn : Turn m m' h)
    (hworks : Works m' out.2 h) (hdelivers : m.Delivers out.1) : MqttStepped m event out
  | publishes (h : Holder) (write : NoiseWrite) (rest : List NoiseWrite)
    (out : Option HiveMessage × Mqtt env.snow) (hholder : m.holder = some h)
    (hstage : h.stage = .queueing m.link write rest) (hworks : Works (m.pushed h m.link write) out.2 h)
    (hlog : out.2.log = m.log) (hdelivers : m.Delivers out.1) : MqttStepped m event out

variable {m : Mqtt env.snow}

theorem Beside.of_same {out : Mqtt env.snow} (hlog : out.log = m.log)
    (hpublished : out.published = m.published) (hspoilt : out.spoilt = m.spoilt)
    (hholder : ∀ h, out.holder = some h → m.holder = some h) (hjobs : out.jobs = m.jobs)
    (hgate : ∀ i message stage, out.gate = .send i message stage → ∃ stage', m.gate = .send i message stage')
    (hwaiting : out.waiting = m.waiting) : Beside m out :=
  ⟨hlog, hpublished, hspoilt, fun h hout => .inl (hholder h hout), ⟨[], by rw [hjobs, List.append_nil]⟩,
    fun i message stage h => .inl (hgate i message stage h),
    fun i t' ht' => .inr ⟨t', by rw [← hwaiting]; exact ht', id⟩⟩

theorem beside_submit (m : Mqtt env.snow) (message : HiveMessage) :
    Beside m (mqttStep env m (.submit message)).2 := by
  refine ⟨rfl, rfl, rfl, fun _ h => .inl h, ⟨_, rfl⟩, fun i _ stage h => .inl ⟨stage, h⟩, fun i t' ht' => ?_⟩
  by_cases hi : i = m.jobs.length
  · exact .inl (Nat.le_of_eq hi.symm)
  · replace ht' : Function.update m.waiting m.jobs.length _ i = some t' := ht'
    rw [Function.update_of_ne hi] at ht'
    exact .inr ⟨t', ht', id⟩

theorem beside_withdraw (m : Mqtt env.snow) (j : Nat) :
    Beside m (mqttStep env m (.withdraw j)).2 := by
  refine ⟨rfl, rfl, rfl, fun _ h => .inl h, ⟨[], (List.append_nil _).symm⟩,
    fun i _ stage h => .inl ⟨stage, h⟩, fun i t' ht' => .inr ?_⟩
  by_cases hi : i = j
  · subst hi
    replace ht' : Function.update m.waiting i _ i = some t' := ht'
    rw [Function.update_self] at ht'
    obtain ⟨t, hwaiting, rfl⟩ := Option.map_eq_some_iff.mp ht'
    exact ⟨t, hwaiting, fun _ => rfl⟩
  · replace ht' : Function.update m.waiting j _ i = some t' := ht'
    rw [Function.update_of_ne hi] at ht'
    exact ⟨t', ht', id⟩

/-- The gate goes to a send whose caller has not given up. -/
theorem beside_takeGate {i : Nat} {t : Waiting} (ht : m.waiting i = some t) :
    Beside m (m.takeGate i t) := by
  have hwaiting : ∀ j t', Function.update m.waiting i none j = some t' → m.jobs.length ≤ j
      ∨ ∃ t, m.waiting j = some t ∧ (t.withdrawn = true → t'.withdrawn = true) := by
    intro j t' ht'
    by_cases hj : j = i
    · subst hj
      rw [Function.update_self] at ht'
      cases ht'
    · rw [Function.update_of_ne hj] at ht'
      exact .inr ⟨t', ht', id⟩
  have hless : Beside m { m with waiting := Function.update m.waiting i none } :=
    ⟨rfl, rfl, rfl, fun _ h => .inl h, ⟨[], (List.append_nil _).symm⟩, fun i _ stage h => .inl ⟨stage, h⟩, hwaiting⟩
  unfold Mqtt.takeGate
  dsimp only
  split
  · split
    · exact hless
    · next hnot =>
      refine ⟨rfl, rfl, rfl, fun _ h => .inl h, ⟨[], (List.append_nil _).symm⟩, ?_, hwaiting⟩
      rintro _ _ _ ⟨⟩
      exact .inr ⟨t, ht, by simpa using hnot⟩
  · exact hless

/-! ## What is delivered -/

theorem goOn_send {h : Holder} (hworker : h.worker = .send) : ∀ rest, (m.goOn h rest).1 = none
  | [] => by
    unfold Mqtt.goOn Mqtt.complete
    rw [hworker]
  | _ :: _ => rfl

theorem sendEncrypted_none (task : Nat) (message : HiveMessage) (world : σ) :
    (m.sendEncrypted env task message world).1 = none := by
  unfold Mqtt.sendEncrypted
  split
  · rfl
  · split
    · rfl
    · exact goOn_send rfl _

theorem received_some {h : Holder} {c : NoiseChannel env.snow} {data : Bytes} {binary : Bool} {world : σ}
    (hsome : (m.received env h c (receive env data binary (c, world))).1.isSome = true) :
    c.failed = false := by
  rcases hr : receive env data binary (c, world) with ⟨err | r, c', world'⟩ <;> rw [hr] at hsome
  · cases hsome
  · exact not_failed_of_ok hr

theorem delivers_none : m.Delivers none := fun h => nomatch h

theorem handleRawMqttPayload_delivers (link : Nat) (payload : Bytes) (world : σ) :
    m.Delivers (m.handleRawMqttPayload env link payload world).1 := by
  intro hsome
  unfold Mqtt.handleRawMqttPayload at hsome
  split at hsome
  · cases hsome
  · next c hc =>
    dsimp only at hsome
    split at hsome
    · exact .inl ⟨c, hc, received_some hsome⟩
    · cases hsome

theorem finishReading_delivers (h : Holder) (world : σ) : m.Delivers (m.finishReading env h world).1 := by
  intro hsome
  unfold Mqtt.finishReading at hsome
  split at hsome
  · next c _ _ hc _ => exact .inl ⟨c, hc, received_some hsome⟩
  · cases hsome

theorem mqttStep_cases (hm : m.Employs) (hconnected : m.Connected) (event : MqttEvent σ) :
    MqttStepped m event (mqttStep env m event) := by
  have hsame : ∀ {event : MqttEvent σ} {out : Mqtt env.snow}, out.log = m.log → out.published = m.published →
      out.spoilt = m.spoilt → out.holder = m.holder → out.jobs = m.jobs → out.waiting = m.waiting →
      (∀ i message stage, out.gate = .send i message stage → ∃ stage', m.gate = .send i message stage') →
      MqttStepped m event (none, out) := fun hlog hp hs hh hj hw hg =>
    .beside _ (.of_same hlog hp hs (fun h hout => by rw [← hh]; exact hout) hj hg hw)
  have hidle : ∀ {event : MqttEvent σ}, MqttStepped m event (none, m) :=
    hsame rfl rfl rfl rfl rfl rfl fun _ _ stage h => ⟨stage, h⟩
  cases event with
  | submit message => exact .beside _ (beside_submit m message)
  | withdraw i => exact .beside _ (beside_withdraw m i)
  | takeGate i =>
    simp only [mqttStep]
    split
    · next t _ ht => exact .beside _ (beside_takeGate ht)
    · exact hidle
  | encode world =>
    simp only [mqttStep]
    split
    · next hgate _ =>
      refine .works m _ _ (.send _ _ hgate) (Works.sendEncrypted hgate world) ?_
      rw [sendEncrypted_none]
      exact delivers_none
    · exact hidle
  | retire =>
    simp only [mqttStep]
    unfold Mqtt.retire
    split
    · next i message _ hgate =>
      refine hsame rfl rfl rfl rfl rfl rfl fun i' message' stage h => ?_
      rw [hgate] at h
      cases h
      exact ⟨_, hgate⟩
    · next h _ hholder =>
      split
      · exact .works m h (none, m.stop h) (.holds h hholder) (Works.stop h) delivers_none
      · exact hidle
    · exact hidle
  | markError =>
    simp only [mqttStep]
    split
    · exact hsame rfl rfl rfl rfl rfl rfl fun _ _ _ h => by cases h
    · exact hidle
  | receive link world =>
    simp only [mqttStep]
    split
    · next payload _ hholder =>
      rcases handleRawMqttPayload_cases link payload world with heq | ⟨c, -, heq | hworks⟩
      · rw [heq]
        exact hsame rfl rfl rfl hholder.symm rfl rfl fun _ _ stage h => ⟨stage, h⟩
      · rw [heq]
        refine .beside _ ⟨rfl, rfl, rfl, ?_, ⟨_, rfl⟩, fun i _ stage h => .inl ⟨stage, h⟩,
          fun i t' ht' => .inr ⟨t', ht', id⟩⟩
        rintro _ ⟨⟩
        exact .inr (Nat.le_refl _)
      · exact .works _ _ _ (.reader link payload c) hworks
          (handleRawMqttPayload_delivers link payload world)
    · exact hidle
  | finishReading world =>
    simp only [mqttStep]
    split
    · next worker task job message hholder =>
      have hworker := hm.reading _ hholder rfl
      cases worker with
      | send => exact absurd rfl hworker
      | reader link =>
        rcases @Works.finishReading _ env m { worker := .reader link, task, job, stage := .reading, message }
            link rfl world with heq | hworks
        · rw [heq]
          exact hidle
        · exact .works m _ _ (.holds _ hholder) hworks (finishReading_delivers _ world)
    · exact hidle
  | abort link =>
    simp only [mqttStep]
    unfold Mqtt.abort
    dsimp only
    split
    · next h hholder =>
      split
      · have hworks := (Works.stop h : Works m (m.stop h) h)
        refine .works m h (none, (m.stop h).setReader link .ended) (.holds h hholder)
          ⟨hworks.waiting, hworks.jobs, hworks.link, hworks.client, hworks.gate, hworks.linkGate,
            hworks.holder, hworks.send, hworks.log, hworks.logged, hworks.spoilt, hworks.published, fun k => ?_⟩
          delivers_none
        obtain ⟨reader, heq⟩ := hworks.clients k
        obtain ⟨reader', heq'⟩ := setReader_clients (m.stop h) link .ended k
        exact ⟨reader', by rw [heq', heq]⟩
      · exact hsame rfl rfl rfl rfl rfl rfl fun _ _ stage h => ⟨stage, h⟩
    · exact hsame rfl rfl rfl rfl rfl rfl fun _ _ stage h => ⟨stage, h⟩
  | takeClient =>
    simp only [mqttStep]
    split
    · next hholder =>
      obtain ⟨-, -, hlogged⟩ := hm.holder _ hholder
      exact .works m _ (none, _) (.holds _ hholder)
        (Works.takeClient (hm.send _ hholder) (hlogged fun h => by cases h)) delivers_none
    · exact hidle
  | publish =>
    simp only [mqttStep]
    split
    · next worker task job client write rest message hholder =>
      obtain ⟨-, -, hlogged⟩ := hm.holder _ hholder
      obtain rfl := hconnected.queueing _ client write rest hholder rfl
      rcases publish_cases (hm.send _ hholder) (hlogged fun h => by cases h) with
        heq | heq | ⟨-, hworks, hlog⟩
      · rw [heq]
        exact hidle
      · rw [heq]
        let h : Holder := { worker, task, job, stage := .queueing m.link write rest, message }
        exact .works m h (none, m.stop h) (.holds h hholder) (Works.stop h) delivers_none
      · refine .publishes _ write rest _ hholder rfl hworks hlog fun _ => .inr ⟨write :: rest, ?_⟩
        unfold Mqtt.stage
        rw [hholder]
        rfl
    · exact hidle
  | request =>
    simp only [mqttStep]
    unfold Mqtt.request
    split
    · split
      · exact hsame rfl rfl rfl rfl rfl rfl fun _ _ _ h => by cases h
      · exact hidle
    · split
      · split
        · exact hsame rfl rfl rfl rfl rfl rfl fun _ _ _ h => by cases h
        · exact hidle
      · exact hidle
    · exact hidle
  | clear =>
    simp only [mqttStep]
    split
    · exact hsame rfl rfl rfl rfl rfl rfl fun _ _ stage h => ⟨stage, h⟩
    · exact hidle
  | lock | unlock | closeClient | makeChannel | openClient =>
    simp only [mqttStep]
    split
    · exact hsame rfl rfl rfl rfl rfl rfl fun _ _ _ h => by cases h
    · exact hidle
  | cancel | take | endReader | poll | arrive | endPolling =>
    exact hsame rfl rfl rfl rfl rfl rfl fun _ _ stage h => ⟨stage, h⟩

/-- The books and the channel are the same to whoever works with it. -/
theorem Turn.same {m' : Mqtt env.snow} {h : Holder} (hturn : Turn m m' h) : m'.log = m.log
    ∧ m'.published = m.published ∧ m'.spoilt = m.spoilt ∧ m'.link = m.link ∧ m'.channel = m.channel
    ∧ m'.gate = m.gate ∧ m'.waiting = m.waiting := by
  cases hturn <;> exact ⟨rfl, rfl, rfl, rfl, rfl, rfl, rfl⟩

/-! ## After a frame that was not published -/

/-- **A session with a message that was not published to its end is over**: nothing more is encrypted,
published or delivered. -/
theorem mqttStep_spoilt (hm : m.Sound) {link : Nat} (hlink : link ∈ m.spoilt) (event : MqttEvent σ) :
    link ∈ (mqttStep env m event).2.spoilt
    ∧ (mqttStep env m event).2.messages link = m.messages link
    ∧ (mqttStep env m event).2.publishedOn link = m.publishedOn link
    ∧ ∀ message, (mqttStep env m event).1 = some message → m.link ≠ link := by
  -- such a session has a failed channel, and no frames left to publish
  have hspoilt := (hm.booked.sound.spoilt link hlink).2
  have hfailed : (∃ c, m.channel = some c ∧ c.failed = false) → m.link ≠ link := by
    rintro ⟨c, hc, hnot⟩ heq
    rw [(hspoilt heq.symm).2 c hc] at hnot
    cases hnot
  have hrest : (∃ rest, m.stage.bind Stage.rest = some rest) → m.link ≠ link := by
    rintro ⟨rest, hsome⟩ heq
    cases hsome.symm.trans (hspoilt heq.symm).1
  have hdelivered : ∀ {out : Option HiveMessage}, m.Delivers out → ∀ message, out = some message →
      m.link ≠ link := by
    rintro _ hdelivers message rfl
    exact (hdelivers rfl).elim hfailed hrest
  have hstepped := mqttStep_cases hm.employs hm.connected event
  generalize mqttStep env m event = out at hstepped
  cases hstepped with
  | beside out hbeside =>
    unfold messages publishedOn
    rw [hbeside.log, hbeside.published, hbeside.spoilt]
    exact ⟨hlink, rfl, rfl, fun _ h => nomatch h⟩
  | works m' h out hturn hworks hdelivers =>
    obtain ⟨hlog, hpublished, hspoilt', hlink', hchannel, -⟩ := hturn.same
    refine ⟨hworks.spoilt link (by rw [hspoilt']; exact hlink), ?_, ?_, hdelivered hdelivers⟩
    · unfold messages
      rcases hworks.log with hsame | ⟨husable, s, -, hs, hsame⟩ <;> rw [hsame, hlog]
      rw [hchannel] at husable
      have hne : s.link ≠ link := by
        rw [hs, hlink']
        exact hfailed husable
      rw [List.filter_append, List.filter_singleton, decide_eq_false hne]
      exact List.append_nil _
    · unfold publishedOn
      rw [hworks.published, hpublished]
  | publishes h write rest out hholder hstage hworks hlog hdelivers =>
    have hne : m.link ≠ link := hrest ⟨write :: rest, by unfold Mqtt.stage; rw [hholder, Option.map_some, hstage]; rfl⟩
    refine ⟨hworks.spoilt link hlink, ?_, ?_, hdelivered hdelivers⟩
    · unfold messages
      rw [hlog]
    · unfold publishedOn
      rw [hworks.published]
      simp [pushed, List.filter_append, hne]

/-! ## A send whose caller gave up -/

/-- The caller of the send has given up, and it has not got the gate. -/
structure GaveUp (m : Mqtt env.snow) (i : Nat) : Prop where
  job : ∃ message, m.jobs[i]? = some (.send message)
  log : ∀ s ∈ m.log, s.task ≠ i
  gate : ∀ message stage, m.gate ≠ .send i message stage
  holder : ∀ h, m.holder = some h → h.task ≠ i
  waiting : ∀ t, m.waiting i = some t → t.withdrawn = true

/-- Whoever works with the channel is another task. -/
theorem Turn.other {m' : Mqtt env.snow} {h : Holder} (hturn : Turn m m' h) {i : Nat} (hi : m.GaveUp i) :
    h.task ≠ i := by
  cases hturn with
  | send task message hgate =>
    rintro rfl
    exact hi.gate _ _ hgate
  | holds h hholder => exact hi.holder h hholder
  | reader link payload c =>
    rintro rfl
    obtain ⟨message, hjob⟩ := hi.job
    exact Nat.lt_irrefl _ (List.getElem?_eq_some_iff.mp hjob).1

theorem mqttStep_gaveUp {i : Nat} (hm : m.Sound) (hi : m.GaveUp i) (event : MqttEvent σ) :
    (mqttStep env m event).2.GaveUp i := by
  obtain ⟨message, hjob⟩ := hi.job
  have hlt : i < m.jobs.length := (List.getElem?_eq_some_iff.mp hjob).1
  have hstepped := mqttStep_cases hm.employs hm.connected event
  generalize mqttStep env m event = out at hstepped
  cases hstepped with
  | beside out hbeside =>
    obtain ⟨more, hjobs⟩ := hbeside.jobs
    refine ⟨⟨message, by rw [hjobs]; exact jobs_append more i hjob⟩, by rw [hbeside.log]; exact hi.log,
      fun message' stage h => ?_, fun h hh => ?_, fun t' ht' => ?_⟩
    · rcases hbeside.gate i message' stage h with ⟨stage', hstage'⟩ | ⟨t, ht, hkept⟩
      · exact hi.gate _ _ hstage'
      · rw [hi.waiting t ht] at hkept
        cases hkept
    · rcases hbeside.holder h hh with hh | hle
      · exact hi.holder h hh
      · exact Nat.ne_of_gt (hlt.trans_le hle)
    · rcases hbeside.waiting i t' ht' with hle | ⟨t, ht, hkept⟩
      · exact absurd hle (Nat.not_le_of_lt hlt)
      · exact hkept (hi.waiting t ht)
  | works m' h out hturn hworks =>
    obtain ⟨hlog, -, -, -, -, hgate, hwaiting⟩ := hturn.same
    have hother := hturn.other hi
    have hjobs : m'.jobs[i]? = some (.send message) := by
      cases hturn with
      | send => exact hjob
      | holds => exact hjob
      | reader => exact jobs_append _ i hjob
    refine ⟨⟨message, by rw [hworks.jobs]; exact hjobs⟩, fun s hs => ?_, fun message' stage h => ?_,
      fun h' hh' => ?_, by rw [hworks.waiting, hwaiting]; exact hi.waiting⟩
    · rcases hworks.log with hsame | ⟨-, s', hs', -, hsame⟩ <;> rw [hsame, hlog] at hs
      · exact hi.log s hs
      · rcases List.mem_append.mp hs with hs | hs
        · exact hi.log s hs
        · rw [List.mem_singleton.mp hs, hs']
          exact hother
    · obtain ⟨stage', hstage', -⟩ := hworks.gate i message' stage h
      rw [hgate] at hstage'
      exact hi.gate _ _ hstage'
    · rw [(hworks.holder h' hh').1]
      exact hother
  | publishes h write rest out hholder hstage hworks hlog =>
    refine ⟨⟨message, by rw [hworks.jobs]; exact hjob⟩, by rw [hlog]; exact hi.log,
      fun message' stage h' => ?_, fun h' hh' => ?_, by rw [hworks.waiting]; exact hi.waiting⟩
    · obtain ⟨stage', hstage', -⟩ := hworks.gate i message' stage h'
      exact hi.gate _ _ hstage'
    · rw [(hworks.holder h' hh').1]
      exact hi.holder h hholder

/-- A send that waits has done nothing. -/
theorem Employs.gaveUp (hm : m.Employs) {i : Nat} {t : Waiting} (ht : m.waiting i = some t)
    (hwithdrawn : t.withdrawn = true) : m.GaveUp i := by
  obtain ⟨hjob, ⟨message, hsend⟩, hfresh⟩ := hm.waiting i t ht
  rw [hsend] at hjob
  have hgate : ∀ message stage, m.gate ≠ .send i message stage := fun message stage h => by
    rw [(hm.gate i message stage h).2.1] at ht
    cases ht
  refine ⟨⟨message, hjob⟩, hfresh, hgate, fun h hh htask => ?_, fun t' ht' => ?_⟩
  · subst htask
    rcases hm.turn hh with ⟨-, hgone, -⟩ | ⟨-, data, binary, hreceive⟩
    · rw [hgone] at ht
      cases ht
    · have := (hm.holder h hh).1
      rw [hreceive] at this
      cases hjob.symm.trans this
  · cases ht.symm.trans ht'
    exact hwithdrawn

end Mqtt

/-! ## Every run -/

/--
**What the broker is handed is in the order of the cipher.**

For every interleaving of sends, callers that give up, payloads delivered, frames that wait for room or
are not published, event loops that end, connects and disconnects:

* What the broker has been handed of a session is a prefix of what its client has taken, and that of the
  messages it has encrypted, in order; every frame has gone to the client of its own link. The frame at
  each place of the messages is the one of that send counter.
* Once a message of a session has not been published to its end, nothing of the session is encrypted,
  published or delivered any more.
* A send whose caller gives up before it has the gate encrypts and publishes nothing.
-/
theorem broker_order_is_cipher_order (events : List (MqttEvent σ)) :
    let m := Machine.final (mqttStep env) (Mqtt.new env.snow) events
    (∀ link, m.onBroker link <+: m.publishedOn link
      ∧ m.publishedOn link <+: (m.messages link).flatMap Sealed.frames)
    ∧ (∀ e ∈ m.published, e.socket = e.link)
    ∧ (∀ counter, SendCounter env.snow counter → ∀ link,
      (m.messages link).flatMap (Sealed.numbered counter)
        = ((m.messages link).flatMap Sealed.frames).zipIdx)
    ∧ (∀ link ∈ m.spoilt, ∀ later, let m' := Machine.final (mqttStep env) m later
      m'.messages link = m.messages link ∧ m'.publishedOn link = m.publishedOn link
      ∧ ∀ event message, (mqttStep env m' event).1 = some message → m'.link ≠ link)
    ∧ (∀ i message, m.waiting i = some { job := .send message, withdrawn := true } → ∀ later,
      let m' := Machine.final (mqttStep env) m later
      (∀ s ∈ m'.log, s.task ≠ i) ∧ ∀ e ∈ m'.published, e.task ≠ i) := by
  intro m
  have hsound : m.Sound := mqtt_sound events
  have hbooks := hsound.booked.sound
  refine ⟨fun link => ⟨(hsound.connected.serves link).order, hbooks.order link⟩, hbooks.sockets,
    hbooks.numbered, ?_, ?_⟩
  · intro link hlink later m'
    have hrun : m'.Sound ∧ link ∈ m'.spoilt ∧ m'.messages link = m.messages link
        ∧ m'.publishedOn link = m.publishedOn link :=
      Machine.final_invariant
        (P := fun v : Mqtt env.snow => v.Sound ∧ link ∈ v.spoilt ∧ v.messages link = m.messages link
          ∧ v.publishedOn link = m.publishedOn link)
        (fun v event ⟨hv, hmem, hmessages, hpublished⟩ => by
          obtain ⟨hmem', hmessages', hpublished', -⟩ := Mqtt.mqttStep_spoilt hv hmem event
          exact ⟨mqttStep_sound hv event, hmem', hmessages'.trans hmessages, hpublished'.trans hpublished⟩)
        later ⟨hsound, hlink, rfl, rfl⟩
    obtain ⟨hv, hmem, hmessages, hpublished⟩ := hrun
    exact ⟨hmessages, hpublished, fun event message hm => (Mqtt.mqttStep_spoilt hv hmem event).2.2.2 message hm⟩
  · intro i message hwaiting later m'
    have hrun : m'.Sound ∧ m'.GaveUp i :=
      Machine.final_invariant (P := fun v : Mqtt env.snow => v.Sound ∧ v.GaveUp i)
        (fun v event ⟨hv, hi⟩ => ⟨mqttStep_sound hv event, Mqtt.mqttStep_gaveUp hv hi event⟩)
        later ⟨hsound, hsound.employs.gaveUp hwaiting rfl⟩
    refine ⟨hrun.2.log, fun e he => ?_⟩
    obtain ⟨s, hs, htask⟩ := hrun.1.employs.published e he
    rw [← htask]
    exact hrun.2.log s hs

end Thalovant.Transport
