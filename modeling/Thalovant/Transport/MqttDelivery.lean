import Thalovant.Transport.MqttInvariant

/-!
# What the broker is handed

Each client hands the broker what was published on its link, in order, and all of it while its event loop
runs (`MqttClient.Serves`). With the books and the tasks this is what holds after every run
(`Mqtt.Sound`).
-/

namespace Thalovant.Transport

open Thalovant.Noise

variable {σ : Type} {env : ChannelEnv σ}

/-! ## A client -/

namespace MqttClient

/-- Nothing has been requested of the client. -/
def Unused (c : MqttClient) : Prop := c.polling = false ∧ c.sent = [] ∧ c.requests = []

/-- The client hands the broker these frames, in order, and all of them while its event loop runs. -/
structure Serves (c : MqttClient) (frames : List NoiseWrite) : Prop where
  order : sealedOf (c.sent.filterMap Packet.write) <+: frames
  whole : c.polling = true → sealedOf ((c.sent ++ c.requests).filterMap Packet.write) = frames

variable {c : MqttClient} {frames : List NoiseWrite}

theorem hasRoom_iff : c.hasRoom = true ↔ c.polling = true ∧ c.requests.length < REQUEST_CAPACITY := by
  rw [hasRoom, Bool.and_eq_true, decide_eq_true_eq]

theorem Unused.poll (h : c.Unused) : c.poll.Unused := by
  unfold MqttClient.poll
  rw [h.1]
  exact h

theorem Serves.poll (h : c.Serves frames) : c.poll.Serves frames := by
  unfold MqttClient.poll
  split
  · next packet requests hpolling hrequests =>
    have hwhole := h.whole hpolling
    rw [hrequests, List.append_cons] at hwhole
    have hsplit := hwhole
    rw [List.filterMap_append, sealedOf_append] at hsplit
    exact ⟨⟨_, hsplit⟩, fun _ => hwhole⟩
  · exact h

theorem Unused.endPolling (h : c.Unused) : c.endPolling.Unused := ⟨rfl, h.2.1, rfl⟩

theorem Serves.endPolling (h : c.Serves frames) : c.endPolling.Serves frames :=
  ⟨h.order, fun h => nomatch h⟩

theorem Unused.arrive (h : c.Unused) (payload : Bytes) : (c.arrive payload).Unused := by
  unfold MqttClient.arrive
  rw [h.1]
  exact h

theorem Serves.arrive (h : c.Serves frames) (payload : Bytes) : (c.arrive payload).Serves frames := by
  unfold MqttClient.arrive
  split
  · split
    · exact ⟨h.order, h.whole⟩
    · exact ⟨h.order, fun h => nomatch h⟩
  · exact h

theorem Unused.take (h : c.Unused) : c.take.Unused := by
  unfold MqttClient.take
  split <;> exact h

theorem Serves.take (h : c.Serves frames) : c.take.Serves frames := by
  unfold MqttClient.take
  split
  · exact ⟨h.order, h.whole⟩
  · exact h

theorem Unused.endReader (h : c.Unused) : c.endReader.Unused := by
  unfold MqttClient.endReader
  split <;> exact h

theorem Serves.endReader (h : c.Serves frames) : c.endReader.Serves frames := by
  unfold MqttClient.endReader
  split
  · exact ⟨h.order, h.whole⟩
  · exact h

theorem Serves.setReader (h : c.Serves frames) (reader : Reader) :
    ({ c with reader := reader } : MqttClient).Serves frames := ⟨h.order, h.whole⟩

/-- A request of an event loop that runs. -/
theorem Serves.push (h : c.Serves frames) (hpolling : c.polling = true) (packet : Packet) :
    (c.push packet).Serves (frames ++ sealedOf packet.write.toList) := by
  refine ⟨h.order.trans (List.prefix_append _ _), fun _ => ?_⟩
  show sealedOf ((c.sent ++ (c.requests ++ [packet])).filterMap Packet.write) = _
  rw [← List.append_assoc, List.filterMap_append, sealedOf_append, h.whole hpolling]
  rcases hwrite : packet.write with _ | write <;>
    simp [hwrite]

theorem opened_serves : opened.Serves [] := ⟨List.prefix_rfl, fun _ => rfl⟩

end MqttClient

/-! ## The clients -/

/-- The requests that a connect or a disconnect has still to make. -/
def LinkStage.pending : LinkStage → List Packet
  | closed _ farewell => farewell
  | opened greeting => greeting
  | _ => []

namespace Mqtt

/-- Each client hands the broker the frames published on its link. -/
structure Connected (m : Mqtt env.snow) : Prop where
  client : ∀ k, m.client = some k → k = m.link
  queueing : ∀ h client write rest, m.holder = some h → h.stage = .queueing client write rest →
    client = m.link
  unused : ∀ k, m.link < k → (m.clients k).Unused
  made : m.gate = .link .made → m.client = none ∧ (m.clients m.link).Unused
    ∧ m.books.onWire m.link = []
    ∧ ∀ h client write rest, m.holder = some h → h.stage ≠ .queueing client write rest
  closed : ∀ old farewell, m.gate = .link (.closed old farewell) → m.client = none
  clear : ∀ stage, m.gate = .link stage → ∀ packet ∈ stage.pending, sealedOf packet.write.toList = []
  serves : ∀ k, (m.clients k).Serves (m.books.onWire k)

namespace Connected

variable {m : Mqtt env.snow}

theorem new : (Mqtt.new env.snow).Connected where
  client _ h := nomatch h
  queueing _ _ _ _ h := nomatch h
  unused _ _ := ⟨rfl, rfl, rfl⟩
  made h := nomatch h
  closed _ _ h := nomatch h
  clear _ h := nomatch h
  serves _ := ⟨List.prefix_rfl, fun h => nomatch h⟩

theorem works {out : Mqtt env.snow} {h : Holder} (hm : m.Connected) (hworks : Works m out h) :
    out.Connected := by
  have honWire : ∀ k, out.books.onWire k = m.books.onWire k := fun k => by
    unfold Wss.onWire
    rw [show out.books.wire = m.books.wire from hworks.published]
  have hunused : ∀ k, (m.clients k).Unused → (out.clients k).Unused := fun k hk => by
    obtain ⟨reader, heq⟩ := hworks.clients k
    rw [heq]
    exact hk
  have hqueueing : ∀ h' client write rest, out.holder = some h' →
      h'.stage = .queueing client write rest → m.client = some client := fun h' client write rest hh' =>
    (hworks.holder h' hh').2.2.2.2 client write rest
  refine ⟨fun k hk => ?_, fun h' client write rest hh' hstage => ?_, fun k hk => ?_, fun hmade => ?_,
    fun old farewell hclosed => ?_, fun stage hlink => hm.clear stage (hworks.linkGate _ hlink), fun k => ?_⟩
  · rw [hworks.client] at hk
    rw [hworks.link]
    exact hm.client k hk
  · rw [hworks.link]
    exact hm.client client (hqueueing h' client write rest hh' hstage)
  · rw [hworks.link] at hk
    exact hunused k (hm.unused k hk)
  · obtain ⟨hclient, hlink, hwire, -⟩ := hm.made (hworks.linkGate _ hmade)
    rw [hworks.client, hworks.link, honWire]
    refine ⟨hclient, hunused _ hlink, hwire, fun h' client write rest hh' hstage => ?_⟩
    rw [hqueueing h' client write rest hh' hstage] at hclient
    cases hclient
  · rw [hworks.client]
    exact hm.closed old farewell (hworks.linkGate _ hclosed)
  · rw [honWire]
    obtain ⟨reader, heq⟩ := hworks.clients k
    rw [heq]
    exact (hm.serves k).setReader reader

/-- What one client does by itself. -/
theorem setClient (hm : m.Connected) (link : Nat) {f : MqttClient → MqttClient}
    (hunused : (m.clients link).Unused → (f (m.clients link)).Unused)
    (hserves : ∀ frames, (m.clients link).Serves frames → (f (m.clients link)).Serves frames) :
    (m.setClient link f).Connected := by
  have hall : ∀ k, ((m.clients k).Unused → ((m.setClient link f).clients k).Unused)
      ∧ ((m.setClient link f).clients k).Serves (m.books.onWire k) := by
    intro k
    unfold Mqtt.setClient
    by_cases hk : k = link
    · subst hk
      dsimp only
      rw [Function.update_self]
      exact ⟨hunused, hserves _ (hm.serves k)⟩
    · dsimp only
      rw [Function.update_of_ne hk]
      exact ⟨id, hm.serves k⟩
  exact ⟨hm.client, hm.queueing, fun k hk => (hall k).1 (hm.unused k hk), fun hmade =>
    ⟨(hm.made hmade).1, (hall _).1 (hm.made hmade).2.1, (hm.made hmade).2.2⟩, hm.closed, hm.clear,
    fun k => (hall k).2⟩

/-- The gate, where it is not one of a link, and what the clients do not depend on. -/
theorem same {out : Mqtt env.snow} (hm : m.Connected) (hclient : out.client = m.client)
    (hlink : out.link = m.link) (hholder : out.holder = m.holder) (hclients : out.clients = m.clients)
    (hpublished : out.published = m.published) (hgate : ∀ stage, out.gate = .link stage → m.gate = .link stage) :
    out.Connected := by
  have honWire : ∀ k, out.books.onWire k = m.books.onWire k := fun k => by
    unfold Wss.onWire
    rw [show out.books.wire = m.books.wire from hpublished]
  refine ⟨?_, ?_, ?_, fun hmade => ?_, fun old farewell hclosed => ?_,
    fun stage hstage => hm.clear stage (hgate stage hstage), fun k => ?_⟩
  · rw [hclient, hlink]
    exact hm.client
  · rw [hholder, hlink]
    exact hm.queueing
  · rw [hlink, hclients]
    exact hm.unused
  · rw [hclient, hlink, hholder, hclients, honWire]
    exact hm.made (hgate _ hmade)
  · rw [hclient]
    exact hm.closed old farewell (hgate _ hclosed)
  · rw [honWire, hclients]
    exact hm.serves k

/-- A frame that is published is requested of the client of its link. -/
theorem pushed (hm : m.Connected) {h : Holder} {client : Nat} {write : NoiseWrite} {rest : List NoiseWrite}
    (hholder : m.holder = some h) (hstage : h.stage = .queueing client write rest)
    (hpolling : (m.clients client).polling = true) : (m.pushed h client write).Connected := by
  obtain rfl := hm.queueing h client write rest hholder hstage
  have honWire : ∀ k, (m.pushed h m.link write).books.onWire k
      = m.books.onWire k ++ if m.link = k then sealedOf [write] else [] := by
    intro k
    show sealedOf (((m.published ++ _).filter _).map Written.write) = _
    rw [List.filter_append, List.map_append, sealedOf_append]
    congr 1
    split <;> next hk => simp [hk, sealedOf]
  have hunused : ¬ (m.clients m.link).Unused := fun h => by
    rw [h.1] at hpolling
    cases hpolling
  refine ⟨hm.client, hm.queueing, fun k hk => ?_, fun hmade => ?_, hm.closed, hm.clear, fun k => ?_⟩
  · have hne : k ≠ m.link := Nat.ne_of_gt hk
    show (Function.update m.clients m.link _ k).Unused
    rw [Function.update_of_ne hne]
    exact hm.unused k hk
  · exact absurd (hm.made hmade).2.1 hunused
  · rw [honWire]
    show (Function.update m.clients m.link _ k).Serves _
    by_cases hk : m.link = k
    · subst hk
      rw [Function.update_self, if_pos rfl]
      exact (hm.serves _).push hpolling (.frame write)
    · rw [Function.update_of_ne (Ne.symm hk), if_neg hk, List.append_nil]
      exact hm.serves k

/-- A request of a connect or a disconnect is not a frame of the session. -/
theorem requested (hm : m.Connected) {stage : LinkStage} {link : Nat} {packet : Packet}
    (hroom : (m.clients link).hasRoom = true) (hclear : sealedOf packet.write.toList = [])
    (hmade : stage ≠ .made) (hclosed : ∀ old farewell, stage = .closed old farewell → m.client = none)
    (hpending : ∀ p ∈ stage.pending, sealedOf p.write.toList = []) :
    (Mqtt.setClient { m with gate := .link stage } link fun c => c.push packet).Connected := by
  have hpolling := (MqttClient.hasRoom_iff.mp hroom).1
  have hgated : Connected { m with gate := .link stage } := by
    refine ⟨hm.client, hm.queueing, hm.unused, ?_, ?_, ?_, hm.serves⟩
    · rintro ⟨⟩
      exact absurd rfl hmade
    · rintro old farewell ⟨⟩
      exact hclosed old farewell rfl
    · rintro _ ⟨⟩
      exact hpending
  refine hgated.setClient link (fun h => ?_) fun frames h => ?_
  · rw [show (m.clients link).polling = false from h.1] at hpolling
    cases hpolling
  · have := h.push hpolling packet
    rwa [hclear, List.append_nil] at this

theorem request (hm : m.Connected) : m.request.Connected := by
  unfold Mqtt.request
  split
  · next old packet farewell hgate =>
    have hclear := hm.clear _ hgate
    split
    · next hroom =>
      exact hm.requested hroom (hclear packet List.mem_cons_self) (fun h => nomatch h)
        (fun _ _ _ => hm.closed _ _ hgate) fun p hp => hclear p (List.mem_cons_of_mem _ hp)
    · exact hm
  · next packet greeting hgate =>
    have hclear := hm.clear _ hgate
    split
    · next client hclient =>
      split
      · next hroom =>
        exact hm.requested hroom (hclear packet List.mem_cons_self) (fun h => nomatch h)
          (fun _ _ h => nomatch h) fun p hp => hclear p (List.mem_cons_of_mem _ hp)
      · exact hm
    · exact hm
  · exact hm

theorem closeClient (hm : m.Connected) : m.closeClient.Connected := by
  refine ⟨(fun _ h => nomatch h), hm.queueing, hm.unused, (fun h => nomatch h), fun _ _ _ => rfl, ?_,
    hm.serves⟩
  rintro _ ⟨⟩ packet hpacket
  rcases List.mem_cons.mp hpacket with rfl | hpacket
  · rfl
  · obtain rfl := List.mem_singleton.mp hpacket
    rfl

theorem greeting_clear (identity : Identity) (uuid : String) :
    ∀ packet ∈ greeting env identity uuid, sealedOf packet.write.toList = [] := by
  intro packet hpacket
  unfold greeting at hpacket
  rcases List.mem_append.mp hpacket with hpacket | hpacket
  · rcases List.mem_cons.mp hpacket with rfl | hpacket
    · rfl
    · obtain rfl := List.mem_singleton.mp hpacket
      rfl
  · split at hpacket
    · obtain rfl := List.mem_singleton.mp hpacket
      rfl
    · cases hpacket

theorem openClient (hm : m.Connected) (hgate : m.gate = .link .made) (identity : Identity)
    (uuid : String) :
    Connected { m with
      client := some m.link
      clients := Function.update m.clients m.link .opened
      gate := .link (.opened (greeting env identity uuid)) } := by
  obtain ⟨-, -, hwire, -⟩ := hm.made hgate
  refine ⟨fun k hk => (Option.some.inj hk).symm, hm.queueing, fun k hk => ?_, (fun h => nomatch h),
    (fun _ _ h => nomatch h), ?_, fun k => ?_⟩
  · have hne : k ≠ m.link := Nat.ne_of_gt hk
    show (Function.update m.clients m.link _ k).Unused
    rw [Function.update_of_ne hne]
    exact hm.unused k hk
  · rintro _ ⟨⟩
    exact greeting_clear identity uuid
  · show (Function.update m.clients m.link _ k).Serves (m.books.onWire k)
    by_cases hk : k = m.link
    · subst hk
      rw [Function.update_self, hwire]
      exact MqttClient.opened_serves
    · rw [Function.update_of_ne hk]
      exact hm.serves k

/-- A new link has no client, and nothing is published on it. -/
theorem makeChannel {begun : Nat → env.snow.cipher.State → Prop} (hm : m.Connected)
    (hbooked : m.Booked begun m.stage) (hholder : m.holder = none)
    {old : Option Nat} {farewell : List Packet} (hgate : m.gate = .link (.closed old farewell))
    (channel : NoiseChannel env.snow) :
    Connected { m with link := m.link + 1, channel := some channel, gate := .link .made } := by
  have hclient := hm.closed old farewell hgate
  have hnothing : m.books.onWire (m.link + 1) = [] := by
    have horder := hbooked.sound.order (m.link + 1)
    have hlater := hbooked.sound.later (m.link + 1) (Nat.lt_succ_self _)
    rwa [Wss.encrypted, hlater, List.flatMap_nil, List.prefix_nil] at horder
  refine ⟨fun k hk => ?_, fun h _ _ _ hh => ?_, fun k hk => hm.unused k (Nat.lt_of_succ_lt hk), fun _ => ?_,
    (fun _ _ h => by cases h), ?_, hm.serves⟩
  · rw [show m.client = some k from hk] at hclient
    cases hclient
  · rw [show m.holder = some h from hh] at hholder
    cases hholder
  · refine ⟨hclient, hm.unused _ (Nat.lt_succ_self _), hnothing, fun h _ _ _ hh => ?_⟩
    rw [show m.holder = some h from hh] at hholder
    cases hholder
  · rintro _ ⟨⟩ _ h
    cases h

end Connected

/-! ## Every step -/

variable {m : Mqtt env.snow} {begun : Nat → env.snow.cipher.State → Prop}

theorem mqttStep_connected (hm : m.Connected) (hemploys : m.Employs) (hbooked : m.Booked begun m.stage)
    (event : MqttEvent σ) : (mqttStep env m event).2.Connected := by
  have hsame : ∀ {gate : Gate}, (∀ stage, gate ≠ .link stage) → Connected { m with gate := gate } :=
    fun hgate => hm.same rfl rfl rfl rfl rfl fun stage h => absurd h (hgate stage)
  cases event with
  | takeGate i =>
    simp only [mqttStep]
    split
    · next t hgate _ =>
      unfold Mqtt.takeGate
      dsimp only
      split
      · split
        · exact hm.same rfl rfl rfl rfl rfl fun _ h => h
        · exact hm.same rfl rfl rfl rfl rfl fun _ h => by cases h
      · exact hm.same rfl rfl rfl rfl rfl fun _ h => h
    · exact hm
  | encode world =>
    simp only [mqttStep]
    split
    · next hgate _ => exact hm.works (Works.sendEncrypted hgate world)
    · exact hm
  | retire =>
    simp only [mqttStep]
    unfold Mqtt.retire
    split
    · next hgate =>
      refine hsame fun stage h => ?_
      rw [hgate] at h
      cases h
    · split
      · exact hm.works (Works.stop _)
      · exact hm
    · exact hm
  | markError =>
    simp only [mqttStep]
    split
    · exact hm.same rfl rfl rfl rfl rfl fun _ h => by cases h
    · exact hm
  | receive link world =>
    simp only [mqttStep]
    split
    · next payload _ hholder =>
      have hgrown : ∀ job reader, Connected (setReader { m with jobs := m.jobs ++ [job] } link reader) := by
        intro job reader
        have hjobs : Connected { m with jobs := m.jobs ++ [job] } :=
          hm.same rfl rfl rfl rfl rfl fun _ h => h
        exact hjobs.setClient link (fun h => h) fun frames h => h.setReader reader
      rcases handleRawMqttPayload_cases link payload world with heq | ⟨c, -, heq | hworks⟩
      · rw [heq]
        have hfailing : (m.setReader link .failing).Connected :=
          hm.setClient link (fun h => h) fun frames h => h.setReader .failing
        exact hfailing.same rfl rfl hholder.symm rfl rfl fun _ h => h
      · rw [heq]
        have hg := hgrown (.receive payload c.ready) .working
        refine ⟨hg.client, ?_, hg.unused, fun h => ?_, hg.closed, hg.clear, hg.serves⟩
        · rintro _ client write rest ⟨⟩ h
          cases h
        · obtain ⟨hclient, hlink, hwire, -⟩ := hg.made h
          refine ⟨hclient, hlink, hwire, ?_⟩
          rintro _ client write rest ⟨⟩ h
          cases h
      · exact (hgrown _ _).works hworks
    · exact hm
  | finishReading world =>
    simp only [mqttStep]
    split
    · next worker task job message hholder =>
      have hworker := hemploys.reading _ hholder rfl
      cases worker with
      | send => exact absurd rfl hworker
      | reader link =>
        rcases @Works.finishReading _ env m { worker := .reader link, task, job, stage := .reading, message }
            link rfl world with heq | hworks
        · rw [heq]
          exact hm
        · exact hm.works hworks
    · exact hm
  | abort link =>
    have hended : ∀ {out : Mqtt env.snow}, out.Connected → (out.setReader link .ended).Connected :=
      fun h => h.setClient link (fun h => h) fun frames h => h.setReader .ended
    simp only [mqttStep]
    unfold Mqtt.abort
    dsimp only
    split
    · split
      · exact hended (hm.works (Works.stop _))
      · exact hended hm
    · exact hended hm
  | takeClient =>
    simp only [mqttStep]
    split
    · next hholder =>
      obtain ⟨-, -, hlogged⟩ := hemploys.holder _ hholder
      exact hm.works (Works.takeClient (hemploys.send _ hholder) (hlogged fun h => by cases h))
    · exact hm
  | publish =>
    simp only [mqttStep]
    split
    · next worker task job client write rest message hholder =>
      obtain ⟨-, -, hlogged⟩ := hemploys.holder _ hholder
      rcases publish_cases (hemploys.send _ hholder) (hlogged fun h => by cases h) with
        heq | heq | ⟨hroom, hworks, -⟩
      · rw [heq]
        exact hm
      · rw [heq]
        exact hm.works (Works.stop { worker, task, job, stage := .queueing client write rest, message })
      · exact (hm.pushed hholder rfl (MqttClient.hasRoom_iff.mp hroom).1).works hworks
    · exact hm
  | clear =>
    simp only [mqttStep]
    split
    · exact hm.same rfl rfl rfl rfl rfl fun _ h => h
    · exact hm
  | lock =>
    simp only [mqttStep]
    split
    · refine ⟨hm.client, hm.queueing, hm.unused, (fun h => by cases h), (fun _ _ h => by cases h), ?_, hm.serves⟩
      rintro _ ⟨⟩ _ h
      cases h
    · exact hm
  | closeClient =>
    simp only [mqttStep]
    split
    · exact hm.closeClient
    · exact hm
  | makeChannel identity stateDir forceXx adoptFrom =>
    simp only [mqttStep]
    split
    · next hgate hholder => exact hm.makeChannel hbooked hholder hgate _
    · exact hm
  | openClient identity uuid =>
    simp only [mqttStep]
    split
    · next hgate => exact hm.openClient hgate identity uuid
    · exact hm
  | request => exact hm.request
  | unlock =>
    simp only [mqttStep]
    split
    · exact hsame fun _ h => by cases h
    · exact hm
  | take link => exact hm.setClient link MqttClient.Unused.take fun _ => MqttClient.Serves.take
  | endReader link => exact hm.setClient link MqttClient.Unused.endReader fun _ => MqttClient.Serves.endReader
  | poll link => exact hm.setClient link MqttClient.Unused.poll fun _ => MqttClient.Serves.poll
  | arrive link payload =>
    exact hm.setClient link (fun h => h.arrive payload) fun _ h => h.arrive payload
  | endPolling link => exact hm.setClient link MqttClient.Unused.endPolling fun _ => MqttClient.Serves.endPolling
  | submit | withdraw | cancel => exact hm.same rfl rfl rfl rfl rfl fun _ h => h

/-- What does not touch the books. -/
theorem Booked.same {out : Mqtt env.snow} (h : m.Booked begun m.stage) (hchannel : out.channel = m.channel)
    (hlink : out.link = m.link) (hgate : out.gate.failing = m.gate.failing) (hlog : out.log = m.log)
    (hpublished : out.published = m.published) (hspoilt : out.spoilt = m.spoilt)
    (hjobs : ∃ more, out.jobs = m.jobs ++ more) (hholder : out.holder = m.holder) :
    out.Booked begun out.stage := by
  have hbooks : out.books = m.books := by
    simp only [books, hchannel, hlink, hgate, hlog, hpublished, hspoilt]
  obtain ⟨more, hjobs⟩ := hjobs
  unfold Booked Mqtt.stage
  rw [hbooks, hjobs, hholder]
  exact Wss.Kept.mono h (fun i job hi => jobs_append _ i hi) fun _ _ h => h

/-- **Every step keeps the books.** -/
theorem mqttStep_booked (h : m.Booked begun m.stage) (hemploys : m.Employs) (hconnected : m.Connected)
    (event : MqttEvent σ)
    (hopens : ∀ world start, event = .finishReading world → m.Opens world start → begun m.link start) :
    (mqttStep env m event).2.Booked begun (mqttStep env m event).2.stage := by
  have hsame : ∀ {out : Mqtt env.snow}, out.channel = m.channel → out.link = m.link →
      out.gate.failing = m.gate.failing → out.log = m.log → out.published = m.published →
      out.spoilt = m.spoilt → out.jobs = m.jobs → out.holder = m.holder → out.Booked begun out.stage :=
    fun hc hl hg hlog hp hs hj hh => h.same hc hl hg hlog hp hs ⟨[], by rw [hj, List.append_nil]⟩ hh
  cases event with
  | submit message => exact h.same rfl rfl rfl rfl rfl rfl ⟨_, rfl⟩ rfl
  | takeGate i =>
    simp only [mqttStep]
    split
    · next t hgate _ =>
      unfold Mqtt.takeGate
      dsimp only
      split
      · split
        · exact hsame rfl rfl rfl rfl rfl rfl rfl rfl
        · split
          · exact Wss.Kept.invalidate h
          · exact hsame rfl rfl (by rw [hgate]; rfl) rfl rfl rfl rfl rfl
      · exact hsame rfl rfl rfl rfl rfl rfl rfl rfl
    · exact h
  | encode world =>
    simp only [mqttStep]
    split
    · next hgate hholder =>
      unfold Mqtt.stage at h
      rw [hholder] at h
      exact Booked.sendEncrypted h hgate (hemploys.gate _ _ _ hgate).1 world
    · exact h
  | retire =>
    simp only [mqttStep]
    unfold Mqtt.retire
    split
    · next hgate =>
      have hinvalid := Wss.Kept.invalidate h
      show Wss.Kept _ _ { m.books with sessionValid := !(m.gate.goTo .failing).failing } m.stage
      rw [hgate]
      exact hinvalid
    · next holder _ hholder =>
      split
      · unfold Mqtt.stage at h
        rw [hholder] at h
        exact Booked.stop h
      · exact h
    · exact h
  | markError =>
    simp only [mqttStep]
    split
    · next hfailing =>
      rw [Bool.and_eq_true, Option.isNone_iff_eq_none] at hfailing
      have hstage : m.stage.bind Stage.rest = none := by
        unfold Mqtt.stage
        rw [hfailing.2]
        rfl
      exact (Wss.Kept.drop h hstage).revalidate (fun _ hc => by cases hc) true
    · exact h
  | receive link world =>
    simp only [mqttStep]
    split
    · next payload _ hholder =>
      unfold Mqtt.stage at h
      rw [hholder] at h
      exact Booked.handleRawMqttPayload h link payload world
    · exact h
  | finishReading world =>
    simp only [mqttStep]
    split
    · next worker task job message hholder =>
      have hworker := hemploys.reading _ hholder rfl
      have hjob := (hemploys.holder _ hholder).1
      cases worker with
      | send => exact absurd rfl hworker
      | reader link =>
        unfold Mqtt.stage at h
        rw [hholder] at h
        exact @Booked.finishReading _ _ _ _ { worker := .reader link, task, job, stage := .reading, message }
          h hholder rfl link rfl hjob world fun start => hopens world start rfl
    · exact h
  | abort link =>
    simp only [mqttStep]
    unfold Mqtt.abort
    dsimp only
    split
    · next holder hholder =>
      split
      · unfold Mqtt.stage at h
        rw [hholder] at h
        exact Booked.stop h
      · exact h
    · exact h
  | takeClient =>
    simp only [mqttStep]
    split
    · next worker task job write rest message hholder =>
      unfold Mqtt.stage at h
      rw [hholder] at h
      exact @Booked.takeClient _ _ _ _ { worker, task, job, stage := .publishing (write :: rest), message }
        write rest h rfl
    · exact h
  | publish =>
    simp only [mqttStep]
    split
    · next worker task job client write rest message hholder =>
      have hclient := hconnected.queueing _ client write rest hholder rfl
      have hgate : worker = .send → m.gate.failing = false := fun hworker => by
        obtain ⟨_, hworking⟩ := hemploys.send _ hholder hworker
        rw [hworking]
        rfl
      unfold Mqtt.stage at h
      rw [hholder] at h
      exact @Booked.publish _ _ _ _ { worker, task, job, stage := .queueing client write rest, message }
        client write rest h hholder rfl hclient hgate
    · exact h
  | clear =>
    simp only [mqttStep]
    split
    · next hfree =>
      have hstage : m.stage.bind Stage.rest = none := by
        unfold Mqtt.stage
        rw [Option.isNone_iff_eq_none.mp hfree]
        rfl
      exact Wss.Kept.drop h hstage
    · exact h
  | lock | unlock | closeClient | openClient =>
    simp only [mqttStep]
    split
    · next hgate => exact hsame rfl rfl (by rw [hgate]; rfl) rfl rfl rfl rfl rfl
    · exact h
  | makeChannel identity stateDir forceXx adoptFrom =>
    simp only [mqttStep]
    split
    · next hgate hholder =>
      unfold Mqtt.stage at h
      rw [hholder] at h
      have hreplaced := Wss.Kept.replace h rfl (fun h => by cases h) identity stateDir forceXx adoptFrom
      have hvalid : m.books.sessionValid = true := by
        show (!m.gate.failing) = true
        rw [hgate]
        rfl
      show Wss.Kept _ _ _ (m.holder.map fun h => h.stage.asStage)
      rw [hholder]
      exact hreplaced.validate hvalid true rfl
    · exact h
  | request =>
    simp only [mqttStep]
    unfold Mqtt.request
    split
    · next hgate =>
      split
      · exact hsame rfl rfl (by rw [hgate]; rfl) rfl rfl rfl rfl rfl
      · exact h
    · next hgate =>
      split
      · split
        · exact hsame rfl rfl (by rw [hgate]; rfl) rfl rfl rfl rfl rfl
        · exact h
      · exact h
    · exact h
  | withdraw | cancel | take | endReader | poll | arrive | endPolling =>
    exact hsame rfl rfl rfl rfl rfl rfl rfl rfl

end Mqtt

/-! ## The jobs -/

/-- What an event submits. -/
def MqttEvent.message : MqttEvent σ → Option HiveMessage
  | submit message => some message
  | _ => none

/-- The message of a send. -/
def Job.message : Job → Option HiveMessage
  | send message => some message
  | receive _ _ => none

namespace Mqtt

variable {m : Mqtt env.snow}

/-- The sends among the jobs are those submitted. -/
theorem mqttStep_jobs (hm : m.Employs) (event : MqttEvent σ) :
    (mqttStep env m event).2.jobs.filterMap Job.message
      = m.jobs.filterMap Job.message ++ event.message.toList := by
  have hsame : ∀ {out : Mqtt env.snow}, out.jobs = m.jobs →
      out.jobs.filterMap Job.message = m.jobs.filterMap Job.message ++ [] := fun h => by
    rw [h, List.append_nil]
  have hstop : ∀ h : Holder, (m.stop h).jobs = m.jobs := fun h => (Works.stop h).jobs
  cases event with
  | submit message => exact List.filterMap_append
  | takeGate i =>
    simp only [mqttStep]
    split
    · unfold Mqtt.takeGate
      dsimp only
      split
      · split <;> exact hsame rfl
      · exact hsame rfl
    · exact hsame rfl
  | encode world =>
    simp only [mqttStep]
    split
    · next hgate _ => exact hsame (Works.sendEncrypted hgate world).jobs
    · exact hsame rfl
  | retire =>
    simp only [mqttStep]
    unfold Mqtt.retire
    split
    · exact hsame rfl
    · split
      · exact hsame (hstop _)
      · exact hsame rfl
    · exact hsame rfl
  | receive link world =>
    simp only [mqttStep]
    split
    · next payload _ _ =>
      have hgrown : ∀ binary, (m.jobs ++ [Job.receive payload binary]).filterMap Job.message
          = m.jobs.filterMap Job.message ++ [] := fun _ => List.filterMap_append
      rcases handleRawMqttPayload_cases link payload world with heq | ⟨c, -, heq | hworks⟩
      · rw [heq]
        exact hsame rfl
      · rw [heq]
        exact hgrown _
      · rw [hworks.jobs]
        exact hgrown _
    · exact hsame rfl
  | finishReading world =>
    simp only [mqttStep]
    split
    · next worker task job message hholder =>
      have hworker := hm.reading _ hholder rfl
      cases worker with
      | send => exact absurd rfl hworker
      | reader link =>
        rcases @Works.finishReading _ env m { worker := .reader link, task, job, stage := .reading, message }
            link rfl world with heq | hworks
        · rw [heq]
          exact hsame rfl
        · exact hsame hworks.jobs
    · exact hsame rfl
  | abort link =>
    simp only [mqttStep]
    unfold Mqtt.abort
    dsimp only
    split
    · split
      · exact hsame (hstop _)
      · exact hsame rfl
    · exact hsame rfl
  | takeClient =>
    simp only [mqttStep]
    split
    · next hholder =>
      obtain ⟨-, -, hlogged⟩ := hm.holder _ hholder
      exact hsame (Works.takeClient (hm.send _ hholder) (hlogged fun h => by cases h)).jobs
    · exact hsame rfl
  | publish =>
    simp only [mqttStep]
    split
    · next hholder =>
      obtain ⟨-, -, hlogged⟩ := hm.holder _ hholder
      rcases publish_cases (hm.send _ hholder) (hlogged fun h => by cases h) with
        heq | heq | ⟨-, hworks, -⟩
      · rw [heq]
        exact hsame rfl
      · rw [heq]
        exact hsame (hstop _)
      · exact hsame hworks.jobs
    · exact hsame rfl
  | request =>
    simp only [mqttStep]
    unfold Mqtt.request
    split
    · split <;> exact hsame rfl
    · split
      · split <;> exact hsame rfl
      · exact hsame rfl
    · exact hsame rfl
  | markError | clear | lock | unlock | closeClient | makeChannel | openClient =>
    simp only [mqttStep]
    split <;> exact hsame rfl
  | withdraw | cancel | take | endReader | poll | arrive | endPolling => exact hsame rfl

end Mqtt

/-! ## Every run -/

/-- What holds after every run. -/
structure Mqtt.Sound (m : Mqtt env.snow) : Prop where
  booked : m.Booked (fun _ _ => True) m.stage
  employs : m.Employs
  connected : m.Connected

theorem mqttStep_sound {m : Mqtt env.snow} (h : m.Sound) (event : MqttEvent σ) :
    (mqttStep env m event).2.Sound :=
  ⟨Mqtt.mqttStep_booked h.booked h.employs h.connected event fun _ _ _ _ => trivial,
    Mqtt.mqttStep_employs h.employs event, Mqtt.mqttStep_connected h.connected h.employs h.booked event⟩

theorem Mqtt.Sound.new : (Mqtt.new env.snow).Sound where
  booked := ⟨⟨(fun _ h => nomatch h), (fun _ h => nomatch h), (fun _ h => nomatch h),
      fun _ => List.nil_prefix, fun _ _ _ => rfl, fun _ _ => rfl, (fun _ h => nomatch h),
      fun _ h => (Option.some.inj h).symm, fun h => absurd rfl h, (fun _ h => nomatch h)⟩,
    ⟨(fun _ h => nomatch h), (fun _ h => nomatch h), fun _ => .inl fun _ h => nomatch h⟩⟩
  employs := .new
  connected := .new

theorem mqtt_sound (events : List (MqttEvent σ)) :
    (Machine.final (mqttStep env) (Mqtt.new env.snow) events).Sound :=
  Machine.final_invariant (P := fun m : Mqtt env.snow => m.Sound) (fun _ event h => mqttStep_sound h event)
    events Mqtt.Sound.new

theorem mqtt_jobs (events : List (MqttEvent σ)) :
    (Machine.final (mqttStep env) (Mqtt.new env.snow) events).jobs.filterMap Job.message
      = events.filterMap MqttEvent.message := by
  induction events using List.reverseRecOn with
  | nil => rfl
  | append_singleton events event ih =>
    rw [Machine.final_concat, Mqtt.mqttStep_jobs (mqtt_sound events).employs event, ih,
      List.filterMap_append]
    cases event <;> rfl

end Thalovant.Transport
