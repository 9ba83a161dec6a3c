import Mathlib.Data.List.Infix
import Thalovant.Transport.MqttOrder
import Thalovant.Transport.WssReads

/-!
# What a hub reads over MQTT

From end to end: whatever runs over the transport, a hub that reads what the broker was handed on a link
reads the messages that were sent over it, each the message of its own send, in the order in which they
were encrypted, none twice and none left out between two (`mqtt_delivers`).

A link has one session at most (`Mqtt.begunWith_unique`), and a hub in step with it has read what a send
has published once the event loop has handed it over. What goes out over a link that is free is read next
(`Mqtt.Idle.sends`).
-/

namespace Thalovant.Transport

open Thalovant.Noise

variable {σ : Type} {env : ChannelEnv σ}

namespace Mqtt

variable {m : Mqtt env.snow}

/-! ## What has been handed over stays -/

/-- A send that publishes has its message among those of the link. -/
def Written (m : Mqtt env.snow) : Prop :=
  ∀ h, m.holder = some h → h.worker = .send →
    ∃ s ∈ m.log, s.link = m.link ∧ s.task = h.task ∧ s.frames ≠ []

/-- What the broker was handed stays, and the sends that publish have their messages. -/
structure Grows (m out : Mqtt env.snow) : Prop where
  sent : ∀ k, (m.clients k).sent <+: (out.clients k).sent
  written : m.Written → out.Written

namespace Grows

theorem refl (m : Mqtt env.snow) : m.Grows m := ⟨fun _ => List.prefix_rfl, id⟩

/-- The holder of the channel's lock takes a step. -/
theorem works {out : Mqtt env.snow} {h : Holder} (hworks : Works m out h)
    (hholder : h.worker = .send → m.holder = some h) : m.Grows out := by
  refine ⟨fun k => ?_, fun hwritten h' hh' hworker => ?_⟩
  · obtain ⟨reader, heq⟩ := hworks.clients k
    rw [heq]
  · obtain ⟨htask, -, hsame, -⟩ := hworks.holder h' hh'
    rw [hsame] at hworker
    obtain ⟨s, hs, hlink, hstask, hframes⟩ := hwritten h (hholder hworker) hworker
    refine ⟨s, ?_, hlink.trans hworks.link.symm, hstask.trans htask.symm, hframes⟩
    rcases hworks.log with hlog | ⟨-, s', -, -, hlog⟩ <;> rw [hlog]
    · exact hs
    · exact List.mem_append_left _ hs

/-- What one client does by itself. -/
theorem setClient (m : Mqtt env.snow) (link : Nat) {f : MqttClient → MqttClient}
    (hsent : (m.clients link).sent <+: (f (m.clients link)).sent) : m.Grows (m.setClient link f) := by
  refine ⟨fun k => ?_, id⟩
  unfold Mqtt.setClient
  by_cases hk : k = link
  · subst hk
    dsimp only
    rw [Function.update_self]
    exact hsent
  · dsimp only
    rw [Function.update_of_ne hk]

/-- Nothing of it is touched. -/
theorem same {out : Mqtt env.snow} (hclients : out.clients = m.clients) (hholder : out.holder = m.holder)
    (hlog : out.log = m.log) (hlink : out.link = m.link) : m.Grows out := by
  refine ⟨fun k => ?_, fun hwritten h hh hworker => ?_⟩
  · rw [hclients]
  · rw [hholder] at hh
    rw [hlog, hlink]
    exact hwritten h hh hworker

theorem trans {m' m'' : Mqtt env.snow} (h : m.Grows m') (h' : m'.Grows m'') : m.Grows m'' :=
  ⟨fun k => (h.sent k).trans (h'.sent k), fun hwritten => h'.written (h.written hwritten)⟩

/-- A send that has encrypted its message begins to publish it. -/
theorem sendEncrypted (task : Nat) (message : HiveMessage) (world : σ) :
    m.Grows (m.sendEncrypted env task message world).2 := by
  unfold Mqtt.sendEncrypted
  split
  · exact ⟨fun _ => List.prefix_rfl, fun _ _ h => nomatch h⟩
  · next c hc =>
    split
    · exact ⟨fun _ => List.prefix_rfl, fun _ _ h => nomatch h⟩
    · next writes c' _ hr =>
      obtain ⟨session, payload, frames, t', -, -, hwrite, rfl, -⟩ := encode_ok hr
      have hframes : sealedOf (asWrites frames) ≠ [] := by
        rw [sealedOf_asWrites]
        exact asWrites_ne_nil hwrite
      cases hwrites : asWrites frames with
      | nil => exact absurd hwrites (asWrites_ne_nil hwrite)
      | cons write writes =>
        rw [hwrites] at hframes
        refine ⟨fun _ => List.prefix_rfl, ?_⟩
        rintro - _ ⟨⟩ -
        exact ⟨_, List.mem_append_right _ (List.mem_singleton_self _), rfl, rfl, hframes⟩

theorem poll (c : MqttClient) : c.sent <+: c.poll.sent := by
  unfold MqttClient.poll
  split
  · exact List.prefix_append _ _
  · exact List.prefix_rfl

theorem arrive (c : MqttClient) (payload : Bytes) : c.sent <+: (c.arrive payload).sent := by
  unfold MqttClient.arrive
  split
  · split <;> exact List.prefix_rfl
  · exact List.prefix_rfl

theorem take (c : MqttClient) : c.sent <+: c.take.sent := by
  unfold MqttClient.take
  split <;> exact List.prefix_rfl

theorem endReader (c : MqttClient) : c.sent <+: c.endReader.sent := by
  unfold MqttClient.endReader
  split <;> exact List.prefix_rfl

theorem request : m.Grows m.request := by
  have hpush : ∀ gate link packet,
      m.Grows (Mqtt.setClient { m with gate := gate } link fun c => c.push packet) :=
    fun gate link packet => (same rfl rfl rfl rfl : m.Grows { m with gate := gate }).trans
      (setClient _ link List.prefix_rfl)
  unfold Mqtt.request
  split
  · split
    · exact hpush _ _ _
    · exact refl m
  · split
    · split
      · exact hpush _ _ _
      · exact refl m
    · exact refl m
  · exact refl m

end Grows

theorem mqttStep_grows (hm : m.Employs) (hconnected : m.Connected) (event : MqttEvent σ) :
    m.Grows (mqttStep env m event).2 := by
  have hstop : ∀ {h : Holder}, m.holder = some h → m.Grows (m.stop h) := fun hholder =>
    .works (Works.stop _) fun _ => hholder
  cases event with
  | takeGate i =>
    simp only [mqttStep]
    split
    · unfold Mqtt.takeGate
      dsimp only
      split
      · split <;> exact .same rfl rfl rfl rfl
      · exact .same rfl rfl rfl rfl
    · exact .refl m
  | encode world =>
    simp only [mqttStep]
    split
    · exact .sendEncrypted _ _ world
    · exact .refl m
  | retire =>
    simp only [mqttStep]
    unfold Mqtt.retire
    split
    · exact .same rfl rfl rfl rfl
    · next hholder =>
      split
      · exact hstop hholder
      · exact .refl m
    · exact .refl m
  | markError =>
    simp only [mqttStep]
    split
    · exact .same rfl rfl rfl rfl
    · exact .refl m
  | receive link world =>
    simp only [mqttStep]
    split
    · next payload _ hholder =>
      have hgrown : ∀ job reader, m.Grows (setReader { m with jobs := m.jobs ++ [job] } link reader) :=
        fun job reader => (Grows.same rfl rfl rfl rfl : m.Grows { m with jobs := m.jobs ++ [job] }).trans
          (.setClient _ link List.prefix_rfl)
      rcases handleRawMqttPayload_cases link payload world with heq | ⟨c, -, heq | hworks⟩
      · rw [heq]
        have hfailing : m.Grows (m.setReader link .failing) := .setClient m link List.prefix_rfl
        exact hfailing.trans (.same rfl hholder.symm rfl rfl)
      · rw [heq]
        refine ⟨(hgrown (.receive payload c.ready) .working).sent, fun _ => ?_⟩
        rintro _ ⟨⟩ hworker
        cases hworker
      · exact (hgrown _ _).trans (.works hworks fun hworker => by cases hworker)
    · exact .refl m
  | finishReading world =>
    simp only [mqttStep]
    split
    · next worker task job message hholder =>
      have hworker := hm.reading _ hholder rfl
      cases worker with
      | send => exact absurd rfl hworker
      | reader link =>
        rcases @Works.finishReading _ env m { worker := .reader link, task, job, stage := .reading, message }
            link rfl world with heq | hworks
        · rw [heq]
          exact .refl m
        · exact .works hworks fun _ => hholder
    · exact .refl m
  | abort link =>
    have hended : ∀ {out : Mqtt env.snow}, m.Grows out → m.Grows (out.setReader link .ended) :=
      fun h => h.trans (.setClient _ link List.prefix_rfl)
    simp only [mqttStep]
    unfold Mqtt.abort
    dsimp only
    split
    · next hholder =>
      split
      · exact hended (hstop hholder)
      · exact hended (.refl m)
    · exact hended (.refl m)
  | takeClient =>
    simp only [mqttStep]
    split
    · next hholder =>
      obtain ⟨-, -, hlogged⟩ := hm.holder _ hholder
      exact .works (Works.takeClient (hm.send _ hholder) (hlogged fun h => by cases h)) fun _ => hholder
    · exact .refl m
  | publish =>
    simp only [mqttStep]
    split
    · next worker task job client write rest message hholder =>
      obtain ⟨-, -, hlogged⟩ := hm.holder _ hholder
      rcases publish_cases (hm.send _ hholder) (hlogged fun h => by cases h) with
        heq | heq | ⟨-, hworks, -⟩
      · rw [heq]
        exact .refl m
      · rw [heq]
        exact hstop hholder
      · have hpushed : m.Grows (m.pushed { worker, task, job, stage := .queueing client write rest, message }
            client write) := by
          have hpush : m.Grows (m.setClient client fun c => c.push (.frame write)) :=
            .setClient m client List.prefix_rfl
          exact hpush.trans (.same rfl rfl rfl rfl)
        exact hpushed.trans (.works hworks fun _ => hholder)
    · exact .refl m
  | makeChannel identity stateDir forceXx adoptFrom =>
    simp only [mqttStep]
    split
    · next hholder =>
      refine ⟨fun _ => List.prefix_rfl, fun _ h hh => ?_⟩
      rw [show m.holder = some h from hh] at hholder
      cases hholder
    · exact .refl m
  | openClient identity uuid =>
    simp only [mqttStep]
    split
    · next hgate =>
      obtain ⟨-, ⟨-, hunused, -⟩, -⟩ := hconnected.made hgate
      refine ⟨fun k => ?_, id⟩
      show _ <+: (Function.update m.clients m.link MqttClient.opened k).sent
      by_cases hk : k = m.link
      · subst hk
        rw [hunused]
        exact List.nil_prefix
      · rw [Function.update_of_ne hk]
    · exact .refl m
  | request => exact .request
  | clear | lock | closeClient | unlock =>
    simp only [mqttStep]
    split
    · exact .same rfl rfl rfl rfl
    · exact .refl m
  | take link => exact .setClient m link (Grows.take _)
  | endReader link => exact .setClient m link (Grows.endReader _)
  | poll link => exact .setClient m link (Grows.poll _)
  | arrive link payload => exact .setClient m link (Grows.arrive _ payload)
  | endPolling link => exact .setClient m link List.prefix_rfl
  | submit | withdraw | cancel => exact .same rfl rfl rfl rfl

/-- The log and what is published only grow. -/
theorem mqttStep_published (hm : m.Employs) (hconnected : m.Connected) (event : MqttEvent σ) :
    m.log <+: (mqttStep env m event).2.log ∧ m.published <+: (mqttStep env m event).2.published := by
  have hstepped := mqttStep_cases hm hconnected event
  generalize mqttStep env m event = out at hstepped
  cases hstepped with
  | beside out hbeside => exact ⟨hbeside.log ▸ List.prefix_rfl, hbeside.published ▸ List.prefix_rfl⟩
  | works m' h out hturn hworks =>
    obtain ⟨hlog, hpublished, -⟩ := hturn.same
    rw [← hlog, ← hpublished]
    refine ⟨?_, hworks.published ▸ List.prefix_rfl⟩
    rcases hworks.log with hsame | ⟨-, s, -, -, hsame⟩
    · rw [hsame]
    · rw [hsame]
      exact List.prefix_append _ _
  | publishes h write rest out _ _ hworks hlog =>
    rw [hlog, hworks.published]
    exact ⟨List.prefix_rfl, List.prefix_append _ _⟩

theorem mqtt_grows (hm : m.Sound) (later : List (MqttEvent σ)) (link : Nat) :
    let m' := Machine.final (mqttStep env) m later
    m.messages link <+: m'.messages link ∧ m.publishedOn link <+: m'.publishedOn link
    ∧ m.onBroker link <+: m'.onBroker link := by
  intro m'
  obtain ⟨-, hlog, hpublished, hsent⟩ : m'.Sound ∧ m.log <+: m'.log ∧ m.published <+: m'.published
      ∧ (m.clients link).sent <+: (m'.clients link).sent :=
    Machine.final_invariant
      (P := fun v : Mqtt env.snow => v.Sound ∧ m.log <+: v.log ∧ m.published <+: v.published
        ∧ (m.clients link).sent <+: (v.clients link).sent)
      (fun v event ⟨hv, hlog, hpublished, hsent⟩ => by
        obtain ⟨hlog', hpublished'⟩ := mqttStep_published hv.employs hv.connected event
        exact ⟨mqttStep_sound hv event, hlog.trans hlog', hpublished.trans hpublished',
          hsent.trans ((mqttStep_grows hv.employs hv.connected event).sent link)⟩)
      later ⟨hm, List.prefix_rfl, List.prefix_rfl, List.prefix_rfl⟩
  exact ⟨hlog.filter _, ((hpublished.filter _).map _).filter _, (hsent.filterMap _).filter _⟩

theorem written_final (events : List (MqttEvent σ)) :
    (Machine.final (mqttStep env) (Mqtt.new env.snow) events).Written := by
  have hrun : (Machine.final (mqttStep env) (Mqtt.new env.snow) events).Sound
      ∧ (Machine.final (mqttStep env) (Mqtt.new env.snow) events).Written :=
    Machine.final_invariant (P := fun v : Mqtt env.snow => v.Sound ∧ v.Written)
      (fun v event ⟨hv, hwritten⟩ => ⟨mqttStep_sound hv event,
        (mqttStep_grows hv.employs hv.connected event).written hwritten⟩)
      events ⟨Mqtt.Sound.new, fun _ h => nomatch h⟩
  exact hrun.2

/-! ## The session of a link -/

/-- The step opens the session of a link. -/
def OpensAt (link : Nat) (start : env.snow.cipher.State) (m : Mqtt env.snow) (event : MqttEvent σ) : Prop :=
  ∃ world, event = .finishReading world ∧ m.link = link ∧ m.Opens world start

/-- The session of a link has begun with the cipher `start`. -/
def BegunWith (env : ChannelEnv σ) (events : List (MqttEvent σ)) (link : Nat)
    (start : env.snow.cipher.State) : Prop :=
  Machine.Occurs (mqttStep env) (OpensAt link start) (Mqtt.new env.snow) events

theorem booked_final (events : List (MqttEvent σ)) :
    (Machine.final (mqttStep env) (Mqtt.new env.snow) events).Booked (BegunWith env events)
      (Machine.final (mqttStep env) (Mqtt.new env.snow) events).stage := by
  induction events using List.reverseRecOn with
  | nil =>
    have hnew := (@Mqtt.Sound.new _ env).booked
    exact ⟨hnew.sound, (fun _ h => nomatch h), (fun _ h => nomatch h), fun _ => .inl fun _ h => nomatch h⟩
  | append_singleton events event ih =>
    have hsound := @mqtt_sound _ env events
    have hbegun : ∀ link start, BegunWith env events link start →
        BegunWith env (events ++ [event]) link start := fun _ _ h => Machine.occurs_concat.mpr (.inl h)
    have hgrown := Wss.Kept.mono ih (fun _ _ h => h) hbegun
    rw [Machine.final_concat]
    exact mqttStep_booked hgrown hsound.employs hsound.connected event fun world start hevent hopens =>
      Machine.occurs_concat.mpr (.inr ⟨world, hevent, rfl, hopens⟩)

/-- A session is opened with a message, the client's HELLO. -/
theorem Opens.recorded {world : σ} {start : env.snow.cipher.State} (h : m.Opens world start) :
    ∃ s, (mqttStep env m (.finishReading world)).2.log = m.log ++ [s] ∧ s.link = m.link
      ∧ s.frames ≠ [] := by
  obtain ⟨⟨worker, task, job, stage, message⟩, c, data, hholder, rfl, rfl, hc, hopens⟩ := h
  obtain ⟨writes, ⟨c', world'⟩, hr, hsealed⟩ := hopens.first
  have hstep : mqttStep env m (.finishReading world)
      = Mqtt.goOn (m.record task c c' writes)
        { worker, task, job := .receive data false, stage := .reading, message := none } writes := by
    simp only [mqttStep, hholder, finishReading, hc, hr, received]
  exact ⟨_, by rw [hstep, Works.goOn_log]; rfl, rfl, hsealed⟩

/-- Where a session is opened, nothing has been encrypted yet. -/
theorem Opens.silent {world : σ} {start : env.snow.cipher.State} (h : m.Opens world start)
    {begun : Nat → env.snow.cipher.State → Prop} {stage : Option Stage} (hbooked : m.Booked begun stage) :
    ∀ s ∈ m.messages m.link, s.frames = [] := by
  obtain ⟨a, c, data, -, -, -, hc, hopens⟩ := h
  obtain ⟨writes, s', hr, -⟩ := hopens.taken
  refine Transport.Opens.silent hopens
    (hbooked.accounts.usable c hc (not_failed_of_ok hr) fun hsome => ?_)
  rw [show c.session = none from hopens.fresh] at hsome
  cases hsome

theorem begunWith_recorded {events : List (MqttEvent σ)} {link : Nat} {start : env.snow.cipher.State}
    (h : BegunWith env events link start) :
    ∃ s ∈ (Machine.final (mqttStep env) (Mqtt.new env.snow) events).messages link, s.frames ≠ [] := by
  obtain ⟨before, _, after, rfl, world, rfl, rfl, hopens⟩ := h
  obtain ⟨s, hlog, hlink, hframes⟩ := hopens.recorded
  have hsound := mqttStep_sound (@mqtt_sound _ env before) (.finishReading world)
  rw [Machine.final_append, Machine.final_cons]
  refine ⟨s, (mqtt_grows hsound after _).1.subset (List.mem_filter.mpr ⟨?_, by simpa using hlink⟩), hframes⟩
  rw [hlog]
  exact List.mem_append_right _ (List.mem_singleton_self s)

/-- **A link has one session.** -/
theorem begunWith_unique {events : List (MqttEvent σ)} {link : Nat} {start start' : env.snow.cipher.State}
    (h : BegunWith env events link start) (h' : BegunWith env events link start') : start = start' := by
  refine Machine.Occurs.unique (P := OpensAt link) ?_ ?_ h h'
  · -- a session that has begun has a message, and another cannot begin then
    rintro events event start start' ⟨world, -, hlink, hopens⟩ hbegun
    obtain ⟨s, hs, hframes⟩ := begunWith_recorded hbegun
    exact hframes (hopens.silent (@booked_final _ env events) s (hlink.symm ▸ hs))
  · rintro events event start start' ⟨world, rfl, -, hopens⟩ ⟨world', hevent, -, hopens'⟩
    cases hevent
    obtain ⟨a, c, data, hholder, -, hjob, hc, hopen⟩ := hopens
    obtain ⟨a', c', data', hholder', -, hjob', hc', hopen'⟩ := hopens'
    cases hholder.symm.trans hholder'
    cases hjob.symm.trans hjob'
    cases hc.symm.trans hc'
    exact hopen.unique hopen'

/-! ## A send that has been handed over -/

/-- A send over the link has returned: the last of its frames is requested. -/
def Returned (env : ChannelEnv σ) (events : List (MqttEvent σ)) (link task : Nat) : Prop :=
  Machine.Occurs (mqttStep env)
    (fun m event => event = .publish ∧ m.link = link ∧ ∃ h client write, m.holder = some h ∧ h.worker = .send
      ∧ h.task = task ∧ h.stage = .queueing client write [] ∧ (m.clients client).hasRoom = true)
    (Mqtt.new env.snow) events

/-- The event loop of a link runs, and has made every request. -/
def HandedOver (m : Mqtt env.snow) (link : Nat) : Prop :=
  (m.clients link).polling = true ∧ (m.clients link).requests = []

/-- A send over the link has returned, and at some time since then the event loop had made every
request. -/
def Settled (env : ChannelEnv σ) (events : List (MqttEvent σ)) (link task : Nat) : Prop :=
  ∃ before after, events = before ++ after ∧ Returned env before link task
    ∧ (Machine.final (mqttStep env) (Mqtt.new env.snow) before).HandedOver link

/-- A frame for which there is room is requested. -/
theorem publish_of_hasRoom {h : Holder} {client : Nat} (hroom : (m.clients client).hasRoom = true)
    (write : NoiseWrite) (rest : List NoiseWrite) :
    m.publish h client write rest = (m.pushed h client write).goOn h rest := by
  unfold Mqtt.publish
  rw [(MqttClient.hasRoom_iff.mp hroom).1, hroom]
  rfl

/-- What a task publishes last completes what the link has encrypted. -/
theorem Sound.published_last (hm : m.Sound) {h : Holder} {client : Nat} {write : NoiseWrite}
    (hholder : m.holder = some h) (hstage : h.stage = .queueing client write [])
    (hroom : (m.clients client).hasRoom = true) :
    (mqttStep env m .publish).2.publishedOn m.link = (m.messages m.link).flatMap Sealed.frames := by
  have hstageOf : m.stage = some (.writing [write]) := by
    unfold Mqtt.stage
    rw [hholder, Option.map_some, hstage]
    rfl
  obtain ⟨hwhole, -⟩ := hm.booked.sound.writing [write] (by rw [hstageOf]; rfl)
  have hpublished : (mqttStep env m .publish).2.published = (m.pushed h client write).published := by
    obtain ⟨worker, task, job, stage, message⟩ := h
    obtain rfl : stage = .queueing client write [] := hstage
    simp only [mqttStep, hholder]
    rw [publish_of_hasRoom hroom]
    cases worker <;> rfl
  have hwire : m.books.onWire m.link ++ sealedOf [write] = (m.messages m.link).flatMap Sealed.frames := hwhole
  unfold publishedOn
  rw [hpublished, ← hwire]
  show sealedOf (((m.published ++ _).filter _).map Written.write) = _
  rw [List.filter_append, List.map_append, sealedOf_append]
  simp [Wss.onWire, books]

/-- The message of a send that is settled is encrypted, and the broker has all that was until then. -/
theorem Settled.whole {events : List (MqttEvent σ)} {link task : Nat} (h : Settled env events link task) :
    let m := Machine.final (mqttStep env) (Mqtt.new env.snow) events
    ∃ messages rest, m.messages link = messages ++ rest
      ∧ messages.flatMap Sealed.frames <+: m.onBroker link
      ∧ ∃ s ∈ messages, s.task = task ∧ s.frames ≠ [] := by
  obtain ⟨_, after, rfl, ⟨first, _, between, rfl, rfl, hlinked, h, client, write, hholder, hworker, rfl,
    hstage, hroom⟩, hpolling, hrequests⟩ := h
  have hsound := @mqtt_sound _ env first
  have hbefore := @mqtt_sound _ env (first ++ .publish :: between)
  obtain ⟨s, hs, hlink, htask, hframes⟩ := written_final first h hholder hworker
  -- what is published by then is what has been encrypted, and the event loop hands it over
  have hlast := hsound.published_last hholder hstage hroom
  rw [hlinked] at hlast hlink
  have hpublished := (mqtt_grows (mqttStep_sound hsound .publish) between link).2.1
  rw [hlast, ← Machine.final_cons, ← Machine.final_append] at hpublished
  have hserves := (hbefore.connected.serves link).whole hpolling
  rw [hrequests, List.append_nil] at hserves
  have hbroker := (mqtt_grows hbefore after link).2.2
  rw [← Machine.final_append] at hbroker
  obtain ⟨⟨rest, hgrown⟩, -⟩ := mqtt_grows hsound (.publish :: between ++ after) link
  rw [← Machine.final_append, ← List.append_assoc] at hgrown
  have hall : (Machine.final (mqttStep env) (Mqtt.new env.snow) (first ++ .publish :: between)).onBroker link
      = (Machine.final (mqttStep env) (Mqtt.new env.snow) (first ++ .publish :: between)).publishedOn link :=
    hserves
  rw [← hall] at hpublished
  exact ⟨_, rest, hgrown.symm, hpublished.trans hbroker, s,
    List.mem_filter.mpr ⟨hs, by simpa using hlink⟩, htask, hframes⟩

/-! ## A send with nothing in its way -/

/-- A send over the link can go out at once, under this session. -/
structure Idle (m : Mqtt env.snow) (link : Nat) (session : NoiseSession env.snow.cipher) : Prop where
  current : m.link = link
  gate : m.gate = .free
  holder : m.holder = none
  cancelled : m.cancelled = false
  client : m.client = some link
  handedOver : m.HandedOver link
  channel : ∃ c, m.channel = some c ∧ c.failed = false ∧ c.session = some session

/-- The frames of a message are requested and handed over, one after the other. -/
def publishEvents (link frames : Nat) : List (MqttEvent σ) :=
  (List.replicate frames [.takeClient, .publish, .poll link]).flatten

/-- A send that nothing interrupts. -/
def sendEvents (link task : Nat) (message : HiveMessage) (world : σ) (frames : Nat) :
    List (MqttEvent σ) :=
  [.submit message, .takeGate task, .encode world] ++ publishEvents link frames

/-- A send that goes on leaves the clients alone. -/
theorem goOn_clients {h : Holder} (hworker : h.worker = .send) :
    ∀ writes, (m.goOn h writes).2.clients = m.clients
  | [] => by
    unfold Mqtt.goOn Mqtt.complete
    rw [hworker]
  | _ :: _ => rfl

theorem goOn_setClient {h : Holder} (hworker : h.worker = .send) (link : Nat)
    (f : MqttClient → MqttClient) :
    ∀ writes, (m.goOn h writes).2.setClient link f = ((m.setClient link f).goOn h writes).2
  | [] => by
    unfold Mqtt.goOn Mqtt.complete
    rw [hworker]
    rfl
  | _ :: _ => rfl

/-- A request that is made while there is no other is handed over next. -/
theorem poll_push {c : MqttClient} (hpolling : c.polling = true) (hrequests : c.requests = [])
    (packet : Packet) : (c.push packet).poll = { c with sent := c.sent ++ [packet] } := by
  obtain ⟨polling, requests, inbox, reader, sent, arrived, taken⟩ := c
  obtain rfl : polling = true := hpolling
  obtain rfl : requests = [] := hrequests
  rfl

/-- A holder that waits for room. -/
def queueing (m : Mqtt env.snow) (h : Holder) (client : Nat) (write : NoiseWrite)
    (rest : List NoiseWrite) : Mqtt env.snow :=
  { m with holder := some { h with stage := .queueing client write rest } }

theorem takeClient_of_client {h : Holder} {client : Nat} (hclient : m.client = some client)
    (write : NoiseWrite) (rest : List NoiseWrite) :
    m.takeClient h write rest = m.queueing h client write rest := by
  unfold Mqtt.takeClient
  split
  · next hnone => cases hclient.symm.trans hnone
  · next hsome =>
    cases hclient.symm.trans hsome
    rfl

/-- A frame of a send is requested of a client that has made every request, and handed over. -/
theorem final_publishEvent {link : Nat} {h : Holder} (hworker : h.worker = .send)
    (hclient : m.client = some link) (hover : m.HandedOver link) (write : NoiseWrite)
    (rest : List NoiseWrite) :
    Machine.final (mqttStep env) (m.goOn h (write :: rest)).2 [.takeClient, .publish, .poll link]
      = ((((m.queueing h link write rest).pushed { h with stage := .queueing link write rest } link write).setClient
          link .poll).goOn { h with stage := .queueing link write rest } rest).2 := by
  have hroom : ((m.queueing h link write rest).clients link).hasRoom = true := by
    show (m.clients link).hasRoom = true
    rw [MqttClient.hasRoom_iff, hover.2]
    exact ⟨hover.1, by decide⟩
  have htake : (mqttStep env (m.goOn h (write :: rest)).2 .takeClient).2 = m.queueing h link write rest :=
    @takeClient_of_client _ env { m with holder := some { h with stage := .publishing (write :: rest) } }
      { h with stage := .publishing (write :: rest) } link hclient write rest
  have hpublish : (mqttStep env (m.queueing h link write rest) .publish).2
      = (((m.queueing h link write rest).pushed { h with stage := .queueing link write rest } link write).goOn
        { h with stage := .queueing link write rest } rest).2 :=
    congrArg Prod.snd (publish_of_hasRoom hroom write rest)
  rw [Machine.final_cons, htake, Machine.final_cons, hpublish]
  exact goOn_setClient hworker link .poll rest

/-- What a send has to publish is with the broker once it is all handed over. -/
theorem final_publishEvents {link : Nat} : ∀ (writes : List NoiseWrite) (m : Mqtt env.snow) (h : Holder),
    h.worker = .send → m.client = some link → m.HandedOver link →
    ((Machine.final (mqttStep env) (m.goOn h writes).2 (publishEvents link writes.length)).clients link).sent
      = (m.clients link).sent ++ writes.map Packet.frame := by
  intro writes
  induction writes with
  | nil =>
    intro m h hworker _ _
    rw [List.map_nil, List.append_nil]
    show ((m.goOn h []).2.clients link).sent = _
    rw [goOn_clients hworker]
  | cons write writes ih =>
    intro m h hworker hclient hover
    have hevents : (publishEvents link (write :: writes).length : List (MqttEvent σ))
        = [.takeClient, .publish, .poll link] ++ publishEvents link writes.length := by
      unfold publishEvents
      rw [List.length_cons, List.replicate_succ]
      rfl
    let h' : Holder := { h with stage := .queueing link write writes }
    let next := ((m.queueing h link write writes).pushed h' link write).setClient link .poll
    have hnext : next.clients link
        = { m.clients link with sent := (m.clients link).sent ++ [.frame write] } := by
      show Function.update (Function.update m.clients link ((m.clients link).push (.frame write))) link
        (MqttClient.poll (Function.update m.clients link ((m.clients link).push (.frame write)) link)) link = _
      rw [Function.update_self, Function.update_self, poll_push hover.1 hover.2]
    have hover' : next.HandedOver link := by
      unfold HandedOver
      rw [hnext]
      exact hover
    rw [hevents, Machine.final_append, final_publishEvent hworker hclient hover write writes,
      ih next h' hworker hclient hover', hnext]
    exact List.append_assoc _ [Packet.frame write] _

/-- A send that takes the channel's lock over a session starts to publish. -/
theorem encode_send {task : Nat} {message : HiveMessage} {c c' : NoiseChannel env.snow}
    {writes : List NoiseWrite} {world world' : σ} (hgate : m.gate = .send task message .atNoise)
    (hholder : m.holder = none) (hc : m.channel = some c)
    (hencode : encode env message (c, world) = (.ok writes, (c', world'))) :
    mqttStep env m (.encode world)
      = Mqtt.goOn { m.record task c c' writes with gate := m.gate.goTo .working } (sending task message)
        writes := by
  simp only [mqttStep]
  split
  · next task' message' hgate' _ =>
    cases hgate.symm.trans hgate'
    unfold Mqtt.sendEncrypted
    rw [hc]
    dsimp only
    rw [hencode]
    rfl
  · next hnot => exact absurd hholder (hnot task message hgate)

/-- The frames of a send that nothing interrupts are the next that the broker is handed. -/
theorem Idle.sends {link : Nat} {session : NoiseSession env.snow.cipher} (hidle : m.Idle link session)
    {message : HiveMessage} {payload : Bytes} {frames : List Bytes} {t' : env.snow.cipher.State}
    (hpayload : env.toVec message = .ok payload)
    (hwrite : writeAll session.transport (plaintextFrames payload true) = (.ok frames, t')) (world : σ) :
    (Machine.final (mqttStep env) m
        (sendEvents link m.jobs.length message world frames.length)).onBroker link
      = m.onBroker link ++ asWrites frames := by
  obtain ⟨c, hc, hfailed, hsession⟩ := hidle.channel
  obtain ⟨c', hencode⟩ := encode_of_writeAll hfailed hsession hpayload hwrite world
  -- the send takes the gate, and then the channel's lock
  obtain ⟨waiting, htaken⟩ : ∃ waiting,
      Machine.final (mqttStep env) m [.submit message, .takeGate m.jobs.length]
        = { m with
            waiting := waiting
            jobs := m.jobs ++ [.send message]
            gate := .send m.jobs.length message .atNoise } :=
    ⟨_, by simp [Machine.final_cons, mqttStep, hidle.gate, Mqtt.takeGate, hidle.cancelled]; rfl⟩
  obtain ⟨v, h, hworker, hclient, hclients, hbegun⟩ : ∃ (v : Mqtt env.snow) (h : Holder), h.worker = .send
      ∧ v.client = some link ∧ v.clients = m.clients
      ∧ Machine.final (mqttStep env) m [.submit message, .takeGate m.jobs.length, .encode world]
        = (v.goOn h (asWrites frames)).2 := by
    let taken : Mqtt env.snow := { m with
      waiting := waiting
      jobs := m.jobs ++ [.send message]
      gate := .send m.jobs.length message .atNoise }
    refine ⟨{ taken.record m.jobs.length c c' (asWrites frames) with gate := taken.gate.goTo .working },
      sending m.jobs.length message, rfl, hidle.client, rfl, ?_⟩
    rw [show ([.submit message, .takeGate m.jobs.length, .encode world] : List (MqttEvent σ))
      = [.submit message, .takeGate m.jobs.length] ++ [.encode world] from rfl, Machine.final_append, htaken]
    exact congrArg Prod.snd (@encode_send _ env taken m.jobs.length message c c' (asWrites frames) world world
      rfl hidle.holder hc hencode)
  have hover : v.HandedOver link := by
    unfold HandedOver
    rw [hclients]
    exact hidle.handedOver
  have hframes : frames.length = (asWrites frames).length := (List.length_map _).symm
  unfold sendEvents onBroker
  rw [Machine.final_append, hbegun, hframes, final_publishEvents _ v h hworker hclient hover, hclients,
    List.filterMap_append, sealedOf_append, List.filterMap_map]
  congr 1
  exact (congrArg sealedOf (List.filterMap_some)).trans (sealedOf_asWrites frames)

/-! ## Reading -/

/-- What a hub has made of what the broker was handed on a link. -/
def readBy (m : Mqtt env.snow) (link : Nat) (hub : NoiseSession env.snow.cipher) :
    List (Result NoiseFrame) :=
  Machine.outputs decryptFrame hub ((m.onBroker link).map NoiseWrite.payload)

/-- What a hub has read of a link after a run. `payloads`: the messages of the link, with their tasks. -/
structure HubReads (env : ChannelEnv σ) (events : List (MqttEvent σ)) (link : Nat)
    (payloads : List (Nat × Bytes)) (hub : NoiseSession env.snow.cipher) (m : Mqtt env.snow) : Prop where
  accepted : ∀ r ∈ m.readBy link hub, ∃ frame, r = .ok frame
  first : delivered (m.readBy link hub) <+: payloads.map fun p => (p.2, true)
  /-- What a send has published is read once it is handed over. -/
  settled : ∀ task, Settled env events link task →
    ∃ payload, (task, payload) ∈ payloads.take (delivered (m.readBy link hub)).length
  all : m.link = link → m.gate.failing = false → (∃ c, m.channel = some c ∧ c.failed = false) →
    m.HandedOver link → delivered (m.readBy link hub) = payloads.map fun p => (p.2, true)
  /-- What is sent over a link with nothing in the way is read next. -/
  next : ∀ session, m.Idle link session → ∀ message payload frames t', env.toVec message = .ok payload →
    payload.length ≤ NOISE_MAX_REASSEMBLY →
    writeAll session.transport (plaintextFrames payload true) = (.ok frames, t') → ∀ world,
    delivered ((Machine.final (mqttStep env) m
        (sendEvents link m.jobs.length message world frames.length)).readBy link hub)
      = delivered (m.readBy link hub) ++ [(payload, true)]

/-- The messages of a link, and the cipher of its session if it can be used. -/
theorem sealed_final (events : List (MqttEvent σ)) (link : Nat) :
    let m := Machine.final (mqttStep env) (Mqtt.new env.snow) events
    (∀ s ∈ m.messages link, s.frames = [])
    ∨ ∃ start payloads t, BegunWith env events link start ∧ Begins env.snow start
      ∧ Sealing env (fun i => m.jobs[i]?) start (m.messages link) payloads t
      ∧ ∀ session, m.Idle link session → session.transport = t := by
  intro m
  have hbooked := @booked_final _ env events
  by_cases hidle : ∃ session, m.Idle link session
  · obtain ⟨session, hsession⟩ := hidle
    obtain rfl := hsession.current
    obtain ⟨c, hc, hfailed, hsome⟩ := hsession.channel
    have hvalid : m.books.sessionValid = true := by
      show (!m.gate.failing) = true
      rw [hsession.gate]
      rfl
    have hseals := hbooked.accounts.usable c hc hfailed fun _ => hvalid
    unfold NoiseChannel.Seals at hseals
    rw [hsome] at hseals
    obtain ⟨start, payloads, hbegun, hbegins, hsealing⟩ := hseals
    refine .inr ⟨start, payloads, _, hbegun, hbegins, hsealing, fun session' h => ?_⟩
    obtain ⟨c', hc', -, hsome'⟩ := h.channel
    cases hc.symm.trans hc'
    cases hsome.symm.trans hsome'
    rfl
  · rcases hbooked.accounts.all link with hsilent | ⟨start, payloads, t, hbegun, hbegins, hsealing⟩
    · exact .inl hsilent
    · exact .inr ⟨start, payloads, t, hbegun, hbegins, hsealing, fun session h =>
        absurd ⟨session, h⟩ hidle⟩

end Mqtt

/--
**A hub reads over MQTT what was sent, in the order in which it was encrypted.**

For every interleaving of sends, callers that give up, payloads delivered, frames that wait for room or
are not published, event loops that end, connects and disconnects, and for every link: there are
messages, each that of its own task, a send's or the HELLO that ends the handshake, no task having two
in any link. The link has had one session, or none, and then the broker was handed nothing of one and no
send over it has been handed over.

A hub that begins in step with this session and reads what the broker was handed, while no message is
longer than the 32 MiB of a reassembly,

* refuses none of the frames;
* has read the first of these messages, whole and in order;
* has read the message of every send that had returned when the event loop had made every request;
* has read all of them while the channel can be used, no send has failed, and the event loop runs and
  has made every request;
* reads next what is sent with nothing in the way.
-/
theorem mqtt_delivers
    {Linked : env.snow.cipher.State → List (Bytes × Bytes) → Nat → env.snow.cipher.State → Prop}
    (hC : InOrder env.snow.cipher Linked) (events : List (MqttEvent σ)) (link : Nat) :
    let m := Machine.final (mqttStep env) (Mqtt.new env.snow) events
    m.jobs.filterMap Job.message = events.filterMap MqttEvent.message
    ∧ (m.log.map Sealed.task).Nodup
    ∧ ∃ payloads : List (Nat × Bytes),
      (∀ p ∈ payloads, Origin env (fun i => m.jobs[i]?) p.1 p.2)
      ∧ payloads.map Prod.fst
        = ((m.messages link).filter fun s => !s.frames.isEmpty).map Sealed.task
      ∧ ((∀ start, ¬ Mqtt.BegunWith env events link start) ∧ payloads = [] ∧ m.onBroker link = []
          ∧ (∀ task, ¬ Mqtt.Settled env events link task)
        ∨ ∃ start, Mqtt.BegunWith env events link start
          ∧ (∀ start', Mqtt.BegunWith env events link start' → start' = start) ∧ Begins env.snow start
          ∧ ∀ hub : NoiseSession env.snow.cipher, Linked start [] 0 hub.transport →
            hub.reassembly = none → (∀ p ∈ payloads, p.2.length ≤ NOISE_MAX_REASSEMBLY) →
            Mqtt.HubReads env events link payloads hub m) := by
  intro m
  obtain ⟨hbooked, hemploys, hconnected⟩ := @mqtt_sound _ env events
  refine ⟨mqtt_jobs events, hemploys.once, ?_⟩
  have hserves := hconnected.serves link
  have horder := hserves.order.trans (hbooked.sound.order link)
  rcases @Mqtt.sealed_final _ env events link with
    hsilent | ⟨start, payloads, t, hbegun, hbegins, hsealing, hidle⟩
  · -- before there is a session nothing is encrypted
    have hnothing : m.books.encrypted link = [] := List.flatMap_eq_nil_iff.mpr hsilent
    refine ⟨[], (fun _ h => nomatch h), ?_, .inl ⟨fun start hbegun => ?_, rfl, ?_, fun task hsettled => ?_⟩⟩
    · rw [List.filter_eq_nil_iff.mpr fun s hs => by simp [hsilent s hs]]
      rfl
    · obtain ⟨s, hs, hframes⟩ := Mqtt.begunWith_recorded hbegun
      exact hframes (hsilent s hs)
    · rwa [show Wss.encrypted _ link = [] from hnothing, List.prefix_nil] at horder
    · obtain ⟨messages, rest, hmessages, -, s, hs, -, hframes⟩ := hsettled.whole
      exact hframes (hsilent s (hmessages ▸ List.mem_append_left rest hs))
  · refine ⟨payloads, hsealing.origin, hsealing.tasks, .inr ⟨start, hbegun,
      fun start' hbegun' => Mqtt.begunWith_unique hbegun' hbegun, hbegins, ?_⟩⟩
    intro hub hlinked hopen hfit
    obtain ⟨hfirst, hok, hwhole⟩ := hsealing.delivers hC horder hlinked hopen hfit
    have husable : m.link = link → m.gate.failing = false → (∃ c, m.channel = some c ∧ c.failed = false) →
        m.HandedOver link → m.onBroker link = (m.messages link).flatMap Sealed.frames := by
      rintro rfl hfailing ⟨c, hc, hfailed⟩ ⟨hpolling, hrequests⟩
      have hvalid : m.books.sessionValid = true := by
        show (!m.gate.failing) = true
        rw [hfailing]
        rfl
      have hall := hserves.whole hpolling
      rw [hrequests, List.append_nil] at hall
      exact hall.trans (hbooked.sound.usable c hc hfailed fun _ => hvalid).1
    refine ⟨hok, hfirst, fun task hsettled => ?_, fun hlink hfailing hc hover =>
      hwhole (husable hlink hfailing hc hover), ?_⟩
    · obtain ⟨messages, rest, hmessages, hwire, s, hs, rfl, hframes⟩ := hsettled.whole
      rw [show (Machine.final (mqttStep env) (Mqtt.new env.snow) events).messages link = messages ++ rest
        from hmessages] at hsealing
      exact hsealing.delivers_of_whole hC hwire hlinked hopen hfit hs hframes
    · intro session hsession message payload frames t' hpayload hlength hwrite world
      obtain ⟨c, hc, hfailed, -⟩ := hsession.channel
      have hwire := husable hsession.current (by rw [hsession.gate]; rfl) ⟨c, hc, hfailed⟩ hsession.handedOver
      have hjobs : ∀ i job, m.jobs[i]? = some job → (m.jobs ++ [.send message])[i]? = some job :=
        fun i _ hi => Mqtt.jobs_append _ i hi
      have hjob : (m.jobs ++ [Job.send message])[m.jobs.length]? = some (.send message) := by
        rw [List.getElem?_append_right (Nat.le_refl _), Nat.sub_self]
        rfl
      unfold Mqtt.readBy
      rw [hsession.sends hpayload hwrite world, hwire]
      rw [hidle session hsession] at hwrite
      let entry : Sealed env.snow :=
        { link := link, task := m.jobs.length, cipher := none, frames := asWrites frames }
      exact (hsealing.mono hjobs).delivers_next hC hlinked hopen hfit (s := entry) hlength
        (.inl ⟨message, hjob, hpayload⟩) hwrite rfl

/-! ## A run -/

/-- A connect, the hub's HELLO, offer and answer, and a send. -/
def brokerConversation : List (MqttEvent Unit) :=
  [.lock, .closeClient, .makeChannel sampleIdentity none false none, .openClient sampleIdentity "0",
    .request, .request, .request, .poll 1, .poll 1, .poll 1,
    .arrive 1 [0], .take 1, .receive 1 (), .finishReading (),
    .arrive 1 [1], .arrive 1 [2], .take 1, .receive 1 (), .finishReading (), .takeClient, .publish,
    .take 1, .receive 1 (), .finishReading (), .takeClient, .poll 1, .publish, .takeClient, .publish,
    .unlock, .submit { msgType := "bus", payload := [] }, .takeGate 3, .encode (), .takeClient, .publish,
    .poll 1, .poll 1, .poll 1]

/-- The hub reads the HELLO and the send. -/
theorem mqtt_delivers_of_conversation :
    let m := Machine.final (mqttStep numberingEnv) (Mqtt.new numberingEnv.snow) brokerConversation
    delivered (m.readBy 1 numberingSession) = [([9], true), ([9], true)] := by
  intro m
  obtain ⟨-, -, payloads, horigin, htasks, hread⟩ :=
    @mqtt_delivers Unit numberingEnv Numbered inOrder_numberingCipher brokerConversation 1
  have htwo : payloads.map Prod.fst = [2, 3] := htasks.trans (by decide +kernel)
  have hboth : payloads.map (fun p => (p.2, true)) = [([9], true), ([9], true)] := by
    rw [messages_of_origin horigin, htwo]
    rfl
  have hwritten : m.onBroker 1 ≠ [] := by decide +kernel
  rcases hread with ⟨-, -, hnone, -⟩ | ⟨start, -, -, hbegins, hread⟩
  · exact absurd hnone hwritten
  · have husable : m.channel.any (fun c => !c.failed) = true := by decide +kernel
    obtain ⟨c, hc, hfailed⟩ := (Option.any_eq_true _ _).mp husable
    rw [← hboth]
    exact (hread numberingSession (numbered_of_begins hbegins) rfl (fit_of_origin horigin)).all
      (by decide +kernel) (by decide +kernel) ⟨c, hc, by simpa using hfailed⟩
      ⟨by decide +kernel, by decide +kernel⟩

end Thalovant.Transport
