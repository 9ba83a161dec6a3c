import Thalovant.Transport.MqttBooks

/-!
# The invariant of the MQTT transport

Beside the books: the tasks with their jobs, none of which has two messages (`Mqtt.Employs`), and the
clients, each of which hands the broker what was published on its link, in order (`Mqtt.Connected`).
-/

namespace Thalovant.Transport

open Thalovant.Noise

variable {σ : Type} {env : ChannelEnv σ}

namespace Mqtt

/-! ## What a task does -/

section

variable {snow : Snow} {m out : Mqtt snow}

/-- What a step of the holder of the channel's lock touches. -/
structure Works (m out : Mqtt snow) (h : Holder) : Prop where
  waiting : out.waiting = m.waiting
  jobs : out.jobs = m.jobs
  link : out.link = m.link
  client : out.client = m.client
  gate : ∀ i message stage, out.gate = .send i message stage →
    ∃ stage', m.gate = .send i message stage' ∧ (stage = .atNoise → stage' = .atNoise ∧ h.worker ≠ .send)
  linkGate : ∀ stage, out.gate = .link stage → m.gate = .link stage
  holder : ∀ h', out.holder = some h' → h'.task = h.task ∧ h'.job = h.job ∧ h'.worker = h.worker
    ∧ h'.stage ≠ .reading ∧ ∀ client write rest, h'.stage = .queueing client write rest →
      m.client = some client
  send : ∀ h', out.holder = some h' → h'.worker = .send →
    ∃ message, out.gate = .send h'.task message .working
  log : out.log = m.log ∨ (∃ c, m.channel = some c ∧ c.failed = false)
    ∧ ∃ s, s.task = h.task ∧ s.link = m.link ∧ out.log = m.log ++ [s]
  logged : ∀ h', out.holder = some h' → ∃ s ∈ out.log, s.task = h.task
  spoilt : ∀ link ∈ m.spoilt, link ∈ out.spoilt
  published : out.published = m.published
  clients : ∀ k, ∃ reader, out.clients k = { m.clients k with reader := reader }

theorem setReader_clients (m : Mqtt snow) (link : Nat) (reader : Reader) (k : Nat) :
    ∃ reader', (m.setReader link reader).clients k = { m.clients k with reader := reader' } := by
  by_cases hk : k = link
  · subst hk
    exact ⟨reader, Function.update_self _ _ _⟩
  · exact ⟨(m.clients k).reader, Function.update_of_ne hk _ _⟩

theorem same_clients (m : Mqtt snow) (k : Nat) :
    ∃ reader, m.clients k = { m.clients k with reader := reader } := ⟨(m.clients k).reader, rfl⟩

namespace Works

theorem fail (h : Holder) (channel : Option (NoiseChannel snow)) {spoilt : List Nat}
    (hspoilt : ∀ link ∈ m.spoilt, link ∈ spoilt) :
    Works m (Mqtt.fail { m with channel := channel, spoilt := spoilt } h.worker) h := by
  cases hworker : h.worker with
  | send =>
    refine ⟨rfl, rfl, rfl, rfl, fun i message stage hgate => ?_, fun stage hgate => ?_,
      (fun _ h => nomatch h), (fun _ h => nomatch h), .inl rfl,
      (fun _ h => nomatch h), hspoilt, rfl, same_clients m⟩
    · replace hgate : m.gate.goTo .failing = .send i message stage := hgate
      rcases hm : m.gate with _ | ⟨i', message', stage'⟩ | stage' <;> rw [hm] at hgate <;> cases hgate
      exact ⟨stage', rfl, fun h => nomatch h⟩
    · replace hgate : m.gate.goTo .failing = .link stage := hgate
      rcases hm : m.gate with _ | ⟨i', message', stage'⟩ | stage' <;> rw [hm] at hgate <;> cases hgate
      rfl
  | reader link =>
    exact ⟨rfl, rfl, rfl, rfl, fun i message stage hgate => ⟨stage, hgate, fun h =>
      ⟨h, by rw [hworker]; exact fun h => nomatch h⟩⟩, fun _ h => h, (fun _ h => nomatch h),
      (fun _ h => nomatch h), .inl rfl,
      (fun _ h => nomatch h), hspoilt, rfl, setReader_clients _ link .failing⟩

theorem stop (h : Holder) : Works m (m.stop h) h := by
  unfold Mqtt.stop
  split
  · exact fail h none fun _ h => h
  · exact fail h m.channel fun _ h => List.mem_append_left _ h

/-- After a frame, or after none. -/
theorem goOn (h : Holder) (hgate : h.worker = .send → ∃ message, m.gate = .send h.task message .working)
    (hlogged : ∃ s ∈ m.log, s.task = h.task) : ∀ rest, Works m (m.goOn h rest).2 h
  | [] => by
    unfold Mqtt.goOn Mqtt.complete
    cases hworker : h.worker with
    | send => exact ⟨rfl, rfl, rfl, rfl, (fun _ _ _ h => nomatch h), (fun _ h => nomatch h),
        (fun _ h => nomatch h), (fun _ h => nomatch h), .inl rfl,
        (fun _ h => nomatch h), fun _ h => h, rfl, same_clients m⟩
    | reader link => exact ⟨rfl, rfl, rfl, rfl, fun i message stage hsend => ⟨stage, hsend, fun h =>
        ⟨h, by rw [hworker]; exact fun h => nomatch h⟩⟩, fun _ h => h, (fun _ h => nomatch h),
        (fun _ h => nomatch h), .inl rfl,
        (fun _ h => nomatch h), fun _ h => h, rfl, setReader_clients _ link .idle⟩
  | write :: rest => by
    refine ⟨rfl, rfl, rfl, rfl, fun i message stage hsend => ⟨stage, hsend, fun hstage => ?_⟩,
      fun _ h => h, ?_, ?_, .inl rfl, fun _ _ => hlogged, fun _ h => h, rfl, same_clients m⟩
    · refine ⟨hstage, fun hworker => ?_⟩
      obtain ⟨message', hworking⟩ := hgate hworker
      cases hworking.symm.trans hsend
      cases hstage
    · rintro _ ⟨⟩
      exact ⟨rfl, rfl, rfl, (fun h => nomatch h), (fun _ _ _ h => nomatch h)⟩
    · rintro _ ⟨⟩ hworker
      exact hgate hworker

/-- A message that is recorded on the way. -/
theorem recorded {h h' : Holder} {c c' : NoiseChannel snow} {writes : List NoiseWrite}
    (hc : m.channel = some c) (hfailed : c.failed = false)
    (hworks : Works (m.record h.task c c' writes) out h') (htask : h'.task = h.task)
    (hjob : h'.job = h.job) (hworker : h'.worker = h.worker)
    (hlog : out.log = (m.record h.task c c' writes).log) : Works m out h := by
  refine ⟨hworks.waiting, hworks.jobs, hworks.link, hworks.client, ?_, hworks.linkGate, ?_, hworks.send,
    .inr ⟨⟨c, hc, hfailed⟩, _, ?_, rfl, hlog⟩, ?_, hworks.spoilt, hworks.published, hworks.clients⟩
  · rw [← hworker]
    exact hworks.gate
  · rw [← htask, ← hjob, ← hworker]
    exact hworks.holder
  · rfl
  · rw [← htask]
    exact hworks.logged

theorem recorded_logged (task : Nat) (c c' : NoiseChannel snow) (writes : List NoiseWrite) :
    ∃ s ∈ (m.record task c c' writes).log, s.task = task :=
  ⟨_, List.mem_append_right _ (List.mem_singleton_self _), rfl⟩

theorem goOn_log (h : Holder) : ∀ rest, (m.goOn h rest).2.log = m.log
  | [] => by
    unfold Mqtt.goOn Mqtt.complete
    cases h.worker <;> rfl
  | _ :: _ => rfl

theorem takeClient {h : Holder} {write : NoiseWrite} {rest : List NoiseWrite}
    (hgate : h.worker = .send → ∃ message, m.gate = .send h.task message .working)
    (hlogged : ∃ s ∈ m.log, s.task = h.task) :
    Works m (m.takeClient h write rest) h := by
  unfold Mqtt.takeClient
  split
  · exact stop h
  · next client hclient =>
    refine ⟨rfl, rfl, rfl, rfl, fun i message stage hsend => ⟨stage, hsend, fun hstage => ?_⟩,
      fun _ h => h, ?_, ?_, .inl rfl, fun _ _ => hlogged, fun _ h => h, rfl, same_clients m⟩
    · refine ⟨hstage, fun hworker => ?_⟩
      obtain ⟨message', hworking⟩ := hgate hworker
      cases hworking.symm.trans hsend
      cases hstage
    · rintro _ ⟨⟩
      refine ⟨rfl, rfl, rfl, (fun h => nomatch h), ?_⟩
      rintro _ _ _ ⟨⟩
      exact hclient
    · rintro _ ⟨⟩ hworker
      exact hgate hworker

end Works

/-- A frame of the holder is published. -/
def pushed (m : Mqtt snow) (h : Holder) (client : Nat) (write : NoiseWrite) : Mqtt snow :=
  { m.setClient client fun c => c.push (.frame write) with
    published := m.published ++ [{ socket := client, link := m.link, task := h.task, write := write }] }

theorem stop_log (m : Mqtt snow) (h : Holder) : (m.stop h).log = m.log := by
  unfold Mqtt.stop
  split <;> cases h.worker <;> rfl

/-- A frame that waits for room, cannot be published, or is. -/
theorem publish_cases {h : Holder} {client : Nat} {write : NoiseWrite} {rest : List NoiseWrite}
    (hgate : h.worker = .send → ∃ message, m.gate = .send h.task message .working)
    (hlogged : ∃ s ∈ m.log, s.task = h.task) :
    m.publish h client write rest = (none, m) ∨ m.publish h client write rest = (none, m.stop h)
    ∨ (m.clients client).hasRoom = true
      ∧ Works (m.pushed h client write) (m.publish h client write rest).2 h
      ∧ (m.publish h client write rest).2.log = m.log := by
  unfold Mqtt.publish
  split
  · exact .inr (.inl rfl)
  · split
    · next hroom =>
      exact .inr (.inr ⟨hroom, @Works.goOn _ (m.pushed h client write) h hgate hlogged rest,
        Works.goOn_log h rest⟩)
    · exact .inl rfl

end

variable {m : Mqtt env.snow}

/-- The send that has taken the channel's lock. -/
def sending (task : Nat) (message : HiveMessage) : Holder where
  worker := .send
  task := task
  job := .send message
  stage := .reading
  message := none

/-- The reader that has taken the channel's lock. -/
def handling (m : Mqtt env.snow) (link : Nat) (payload : Bytes) (c : NoiseChannel env.snow) : Holder where
  worker := .reader link
  task := m.jobs.length
  job := .receive payload c.ready
  stage := .reading
  message := none

namespace Works

theorem sendEncrypted {task : Nat} {message : HiveMessage}
    (hgate : m.gate = .send task message .atNoise) (world : σ) :
    Works m (m.sendEncrypted env task message world).2 (sending task message) := by
  unfold Mqtt.sendEncrypted
  split
  · exact fail (sending task message) m.channel fun _ h => h
  · next c hc =>
    split
    · next c' _ _ => exact fail (sending task message) (some c') fun _ h => h
    · next writes c' _ hr =>
      have hworking : (m.record task c c' writes).gate.goTo .working = .send task message .working := by
        show m.gate.goTo .working = _
        rw [hgate]
        rfl
      have hworks := @goOn _ { m.record task c c' writes with gate := m.gate.goTo .working }
        (sending task message) (fun _ => ⟨message, hworking⟩) (recorded_logged task c c' writes) writes
      refine ⟨hworks.waiting, hworks.jobs, hworks.link, hworks.client, fun i message' stage hsend => ?_,
        fun stage hlink => ?_, hworks.holder, hworks.send,
        .inr ⟨⟨c, hc, (session_of_encoded hr).1⟩, _, ?_, rfl, goOn_log _ writes⟩, hworks.logged,
        hworks.spoilt,
        hworks.published, hworks.clients⟩
      · obtain ⟨stage', hstage', hnoise⟩ := hworks.gate i message' stage hsend
        cases hworking.symm.trans hstage'
        exact ⟨.atNoise, hgate, fun hstage => nomatch (hnoise hstage).1⟩
      · cases hworking.symm.trans (hworks.linkGate stage hlink)
      · rfl

theorem received {h : Holder} {link : Nat} (hworker : h.worker = .reader link)
    {c : NoiseChannel env.snow} (hc : m.channel = some c) (data : Bytes) (binary : Bool) (world : σ) :
    Works m (m.received env h c (receive env data binary (c, world))).2 h := by
  have hreader : h.worker = .send → ∃ message, m.gate = .send h.task message .working := by
    rw [hworker]
    exact fun h => nomatch h
  rcases hr : receive env data binary (c, world) with ⟨err | ⟨message, writes⟩, c', world'⟩
  · exact fail h (some c') fun _ h => h
  · exact recorded hc (not_failed_of_ok hr) (@goOn _ (m.record h.task c c' writes) { h with message := message } hreader
      (recorded_logged h.task c c' writes) writes) rfl rfl rfl (goOn_log _ writes)

theorem finishReading {h : Holder} {link : Nat} (hworker : h.worker = .reader link) (world : σ) :
    m.finishReading env h world = (none, m) ∨ Works m (m.finishReading env h world).2 h := by
  unfold Mqtt.finishReading
  split
  · next hc _ => exact .inr (received hworker hc _ _ world)
  · exact .inl rfl

end Works

/-- The reader has no channel, or has given its job to the one there is. -/
theorem handleRawMqttPayload_cases (link : Nat) (payload : Bytes) (world : σ) :
    m.handleRawMqttPayload env link payload world = (none, m.fail (.reader link))
    ∨ ∃ c, m.channel = some c
      ∧ let m' := setReader { m with jobs := m.jobs ++ [.receive payload c.ready] } link .working
        m.handleRawMqttPayload env link payload world
            = (none, { m' with holder := some (handling m link payload c) })
        ∨ Works m' (m.handleRawMqttPayload env link payload world).2 (handling m link payload c) := by
  unfold Mqtt.handleRawMqttPayload
  split
  · exact .inl rfl
  · next c hc =>
    refine .inr ⟨c, hc, ?_⟩
    intro m'
    dsimp only
    split
    · exact .inr (@Works.received _ _ m' (handling m link payload c) link rfl c hc payload c.ready world)
    · exact .inl rfl

/-! ## The tasks and their messages -/

/-- The tasks have their jobs, and no task has more than one message. -/
structure Employs (m : Mqtt env.snow) : Prop where
  waiting : ∀ i t, m.waiting i = some t → m.jobs[i]? = some t.job ∧ (∃ message, t.job = .send message)
    ∧ ∀ s ∈ m.log, s.task ≠ i
  gate : ∀ i message stage, m.gate = .send i message stage → m.jobs[i]? = some (.send message)
    ∧ m.waiting i = none ∧ (stage = .atNoise → ∀ s ∈ m.log, s.task ≠ i)
  holder : ∀ h, m.holder = some h → m.jobs[h.task]? = some h.job
    ∧ (h.stage = .reading → ∀ s ∈ m.log, s.task ≠ h.task)
    ∧ (h.stage ≠ .reading → ∃ s ∈ m.log, s.task = h.task)
  send : ∀ h, m.holder = some h → h.worker = .send → ∃ message, m.gate = .send h.task message .working
  reader : ∀ h, m.holder = some h → h.worker ≠ .send → ∃ data binary, h.job = .receive data binary
  reading : ∀ h, m.holder = some h → h.stage = .reading → h.worker ≠ .send
  logged : ∀ s ∈ m.log, s.task < m.jobs.length
  once : (m.log.map Sealed.task).Nodup
  published : ∀ e ∈ m.published, ∃ s ∈ m.log, s.task = e.task

namespace Employs

theorem new : (Mqtt.new env.snow).Employs where
  waiting _ _ h := nomatch h
  gate _ _ _ h := nomatch h
  holder _ h := nomatch h
  send _ h := nomatch h
  reader _ h := nomatch h
  reading _ h := nomatch h
  logged _ h := nomatch h
  once := List.nodup_nil
  published _ h := nomatch h

/-- What a task does with its message, if it has none yet. -/
theorem works {out : Mqtt env.snow} {h : Holder} (hm : m.Employs) (hworks : Works m out h)
    (hjob : m.jobs[h.task]? = some h.job)
    (hturn : h.worker = .send ∧ m.waiting h.task = none ∧ (∃ message stage, m.gate = .send h.task message stage)
      ∨ h.worker ≠ .send ∧ ∃ data binary, h.job = .receive data binary)
    (hfresh : out.log = m.log ∨ ∀ s ∈ m.log, s.task ≠ h.task) : out.Employs := by
  have hlt : h.task < m.jobs.length := (List.getElem?_eq_some_iff.mp hjob).1
  -- a reader's task is not one that sends
  have hother : ∀ i message, m.jobs[i]? = some (.send message) → h.worker ≠ .send → h.task ≠ i := by
    rintro i message hi hworker rfl
    rcases hturn with ⟨hsend, -⟩ | ⟨-, data, binary, hreceive⟩
    · exact hworker hsend
    · rw [hreceive] at hjob
      cases hjob.symm.trans hi
  have hlog : ∀ i, (∀ s ∈ m.log, s.task ≠ i) → h.task ≠ i → ∀ s ∈ out.log, s.task ≠ i := by
    intro i hi hne s hs
    rcases hworks.log with hlog | ⟨-, s', htask, -, hlog⟩ <;> rw [hlog] at hs
    · exact hi s hs
    · rcases List.mem_append.mp hs with hs | hs
      · exact hi s hs
      · rw [List.mem_singleton.mp hs, htask]
        exact hne
  refine ⟨fun i t ht => ?_, fun i message stage hgate => ?_, fun h' hh' => ?_, hworks.send,
    fun h' hh' hworker => ?_, fun h' hh' hreading => absurd hreading (hworks.holder h' hh').2.2.2.1,
    fun s hs => ?_, ?_, fun e he => ?_⟩
  · rw [hworks.waiting] at ht
    obtain ⟨hi, ⟨message, hsend⟩, hnone⟩ := hm.waiting i t ht
    rw [hworks.jobs]
    refine ⟨hi, ⟨message, hsend⟩, hlog i hnone ?_⟩
    rcases hturn with ⟨-, hwaiting, -⟩ | ⟨hworker, -⟩
    · rintro rfl
      rw [hwaiting] at ht
      cases ht
    · exact hother i message (by rw [← hsend]; exact hi) hworker
  · obtain ⟨stage', hstage', hnoise⟩ := hworks.gate i message stage hgate
    obtain ⟨hi, hwaiting, hnone⟩ := hm.gate i message stage' hstage'
    rw [hworks.jobs, hworks.waiting]
    refine ⟨hi, hwaiting, fun hstage => ?_⟩
    obtain ⟨hatNoise, hworker⟩ := hnoise hstage
    exact hlog i (hnone hatNoise) (hother i message hi hworker)
  · obtain ⟨htask, hjob', -, hstage, -⟩ := hworks.holder h' hh'
    rw [hworks.jobs, htask, hjob']
    exact ⟨hjob, fun h => absurd h hstage, fun _ => hworks.logged h' hh'⟩
  · obtain ⟨-, hjob', hworker', -⟩ := hworks.holder h' hh'
    rw [hjob']
    rcases hturn with ⟨hsend, -⟩ | ⟨-, hreceive⟩
    · exact absurd (hworker'.trans hsend) hworker
    · exact hreceive
  · rw [hworks.jobs]
    rcases hworks.log with hlog | ⟨-, s', htask, -, hlog⟩ <;> rw [hlog] at hs
    · exact hm.logged s hs
    · rcases List.mem_append.mp hs with hs | hs
      · exact hm.logged s hs
      · rw [List.mem_singleton.mp hs, htask]
        exact hlt
  · rcases hfresh with hsame | hfresh
    · rw [hsame]
      exact hm.once
    rcases hworks.log with hlog | ⟨-, s', htask, -, hlog⟩ <;> rw [hlog]
    · exact hm.once
    · rw [List.map_append, List.map_singleton, htask]
      refine List.nodup_append.mpr ⟨hm.once, List.nodup_singleton _, fun x hx y hy => ?_⟩
      obtain ⟨s, hs, rfl⟩ := List.mem_map.mp hx
      rw [List.mem_singleton.mp hy]
      exact hfresh s hs
  · rw [hworks.published] at he
    obtain ⟨s, hs, htask⟩ := hm.published e he
    refine ⟨s, ?_, htask⟩
    rcases hworks.log with hlog | ⟨-, s', -, -, hlog⟩ <;> rw [hlog]
    · exact hs
    · exact List.mem_append_left _ hs

/-- What does not touch the tasks. -/
theorem same {out : Mqtt env.snow} (hm : m.Employs) (hwaiting : out.waiting = m.waiting)
    (hgate : out.gate = m.gate) (hholder : out.holder = m.holder) (hjobs : out.jobs = m.jobs)
    (hlog : out.log = m.log) (hpublished : out.published = m.published) : out.Employs := by
  obtain ⟨waiting, gate, holder, send, reader, reading, logged, once, published⟩ := hm
  constructor <;> simp only [hwaiting, hgate, hholder, hjobs, hlog, hpublished] <;> assumption

/-- The gate goes from a send to nobody, or does not come to one. -/
theorem gated (hm : m.Employs) {gate : Gate}
    (hgate : ∀ i message stage, gate = .send i message stage →
      ∃ stage', m.gate = .send i message stage' ∧ (stage = .atNoise → stage' = .atNoise))
    (hsend : ∀ h, m.holder = some h → h.worker ≠ .send) : Employs { m with gate := gate } where
  waiting := hm.waiting
  gate i message stage h := by
    obtain ⟨stage', hstage', hnoise⟩ := hgate i message stage h
    obtain ⟨hi, hwaiting, hnone⟩ := hm.gate i message stage' hstage'
    exact ⟨hi, hwaiting, fun hstage => hnone (hnoise hstage)⟩
  holder := hm.holder
  send h hh hworker := absurd hworker (hsend h hh)
  reader := hm.reader
  reading := hm.reading
  logged := hm.logged
  once := hm.once
  published := hm.published

/-- A connect or a disconnect has the gate, or takes it, or leaves it. -/
theorem linked {out : Mqtt env.snow} (hm : m.Employs)
    (hgate : ∀ i message stage, m.gate ≠ .send i message stage)
    (hout : ∀ i message stage, out.gate ≠ .send i message stage) (hwaiting : out.waiting = m.waiting)
    (hholder : out.holder = m.holder) (hjobs : out.jobs = m.jobs) (hlog : out.log = m.log)
    (hpublished : out.published = m.published) : out.Employs := by
  have hgated : Employs { m with gate := out.gate } :=
    hm.gated (fun i message stage h => absurd h (hout i message stage)) fun h hh hworker => by
      obtain ⟨message, hworking⟩ := hm.send h hh hworker
      exact hgate _ _ _ hworking
  exact hgated.same hwaiting rfl hholder hjobs hlog hpublished

/-- Another job. -/
theorem grow (hm : m.Employs) (job : Job) : Employs { m with jobs := m.jobs ++ [job] } where
  waiting i t ht := ⟨jobs_append _ i (hm.waiting i t ht).1, (hm.waiting i t ht).2⟩
  gate i message stage h := ⟨jobs_append _ i (hm.gate i message stage h).1, (hm.gate i message stage h).2⟩
  holder h hh := ⟨jobs_append _ _ (hm.holder h hh).1, (hm.holder h hh).2⟩
  send := hm.send
  reader := hm.reader
  reading := hm.reading
  logged s hs := by
    show s.task < (m.jobs ++ [job]).length
    rw [List.length_append]
    exact Nat.lt_add_right _ (hm.logged s hs)
  once := hm.once
  published := hm.published

/-- A task that waits, or no longer. -/
theorem waits (hm : m.Employs) (i : Nat) (t : Option Waiting)
    (hjob : ∀ t', t = some t' → m.jobs[i]? = some t'.job ∧ (∃ message, t'.job = .send message)
      ∧ (∀ s ∈ m.log, s.task ≠ i) ∧ ∀ message stage, m.gate ≠ .send i message stage) :
    Employs { m with waiting := Function.update m.waiting i t } where
  waiting j t' ht' := by
    by_cases hj : j = i
    · subst hj
      replace ht' : Function.update m.waiting j t j = some t' := ht'
      rw [Function.update_self] at ht'
      obtain ⟨hjob, hsend, hfresh, -⟩ := hjob t' ht'
      exact ⟨hjob, hsend, hfresh⟩
    · replace ht' : Function.update m.waiting i t j = some t' := ht'
      rw [Function.update_of_ne hj] at ht'
      exact hm.waiting j t' ht'
  gate j message stage h := by
    obtain ⟨hj, hwaiting, hnone⟩ := hm.gate j message stage h
    refine ⟨hj, ?_, hnone⟩
    by_cases hji : j = i
    · subst hji
      show Function.update m.waiting j t j = none
      rw [Function.update_self]
      cases t with
      | none => rfl
      | some t' => exact absurd h ((hjob t' rfl).2.2.2 message stage)
    · show Function.update m.waiting i t j = none
      rw [Function.update_of_ne hji]
      exact hwaiting
  holder := hm.holder
  send := hm.send
  reader := hm.reader
  reading := hm.reading
  logged := hm.logged
  once := hm.once
  published := hm.published

theorem submit (hm : m.Employs) (message : HiveMessage) :
    Employs { m with
      waiting := Function.update m.waiting m.jobs.length
        (some { job := .send message, withdrawn := false })
      jobs := m.jobs ++ [.send message] } := by
  refine (hm.grow (.send message)).waits m.jobs.length _ ?_
  rintro _ ⟨⟩
  have hnext : (m.jobs ++ [Job.send message])[m.jobs.length]? = some (.send message) := by
    rw [List.getElem?_append_right (Nat.le_refl _), Nat.sub_self]
    rfl
  refine ⟨hnext, ⟨message, rfl⟩, fun s hs => Nat.ne_of_lt (hm.logged s hs), fun message' stage h => ?_⟩
  have hlt := (List.getElem?_eq_some_iff.mp (hm.gate _ message' stage h).1).1
  exact Nat.lt_irrefl _ hlt

theorem takeGate (hm : m.Employs) (hfree : m.gate = .free) {i : Nat} {t : Waiting}
    (ht : m.waiting i = some t) : (m.takeGate i t).Employs := by
  obtain ⟨hjob, ⟨message, hsend⟩, hfresh⟩ := hm.waiting i t ht
  have hgone := hm.waits i none fun _ h => nomatch h
  unfold Mqtt.takeGate
  rw [hsend]
  dsimp only
  split
  · exact hgone
  · refine ⟨hgone.waiting, ?_, hgone.holder, fun h hh hworker => ?_, hgone.reader, hgone.reading,
      hgone.logged, hgone.once, hgone.published⟩
    · rintro _ _ _ ⟨⟩
      rw [hsend] at hjob
      exact ⟨hjob, Function.update_self .., fun _ => hfresh⟩
    · obtain ⟨message', hworking⟩ := hm.send h hh hworker
      rw [hfree] at hworking
      cases hworking

theorem stop (hm : m.Employs) {h : Holder} (hh : m.holder = some h) : (m.stop h).Employs := by
  refine hm.works (Works.stop h) (hm.holder h hh).1 ?_ (.inl ?_)
  · by_cases hworker : h.worker = .send
    · obtain ⟨message, hworking⟩ := hm.send h hh hworker
      exact .inl ⟨hworker, (hm.gate _ _ _ hworking).2.1, message, _, hworking⟩
    · exact .inr ⟨hworker, hm.reader h hh hworker⟩
  · exact stop_log m h

/-- Where the holder of the channel's lock stands. -/
theorem turn (hm : m.Employs) {h : Holder} (hh : m.holder = some h) :
    h.worker = .send ∧ m.waiting h.task = none ∧ (∃ message stage, m.gate = .send h.task message stage)
      ∨ h.worker ≠ .send ∧ ∃ data binary, h.job = .receive data binary := by
  by_cases hworker : h.worker = .send
  · obtain ⟨message, hworking⟩ := hm.send h hh hworker
    exact .inl ⟨hworker, (hm.gate _ _ _ hworking).2.1, message, _, hworking⟩
  · exact .inr ⟨hworker, hm.reader h hh hworker⟩

theorem retire (hm : m.Employs) : m.retire.Employs := by
  unfold Mqtt.retire
  split
  · next i message _ hgate =>
    refine hm.gated (fun i' message' stage h => ?_) fun h hh hworker => ?_
    · rw [hgate] at h
      cases h
      exact ⟨.atNoise, hgate, fun h => nomatch h⟩
    · obtain ⟨message', hworking⟩ := hm.send h hh hworker
      cases hgate.symm.trans hworking
  · next h _ hh =>
    split
    · exact hm.stop hh
    · exact hm
  · exact hm

theorem abort (hm : m.Employs) (link : Nat) : (m.abort link).Employs := by
  unfold Mqtt.abort
  dsimp only
  split
  · next h hh =>
    split
    · exact (hm.stop hh).same rfl rfl rfl rfl rfl rfl
    · exact hm.same rfl rfl rfl rfl rfl rfl
  · exact hm.same rfl rfl rfl rfl rfl rfl

theorem fail (hm : m.Employs) (hholder : m.holder = none) (link : Nat) :
    (m.fail (.reader link)).Employs :=
  hm.same rfl rfl hholder.symm rfl rfl rfl

theorem receive (hm : m.Employs) (hholder : m.holder = none) (link : Nat) (payload : Bytes) (world : σ) :
    (m.handleRawMqttPayload env link payload world).2.Employs := by
  have hnext : ∀ job : Job, (m.jobs ++ [job])[m.jobs.length]? = some job := fun job => by
    rw [List.getElem?_append_right (Nat.le_refl _), Nat.sub_self]
    rfl
  have hfresh : ∀ s ∈ m.log, s.task ≠ m.jobs.length := fun s hs => Nat.ne_of_lt (hm.logged s hs)
  rcases handleRawMqttPayload_cases link payload world with heq | ⟨c, -, heq | hworks⟩
  · rw [heq]
    exact hm.fail hholder link
  · rw [heq]
    have hgrown := hm.grow (.receive payload c.ready)
    refine ⟨hgrown.waiting, hgrown.gate, ?_, ?_, ?_, ?_, hgrown.logged, hgrown.once, hgrown.published⟩
    · rintro _ ⟨⟩
      exact ⟨hnext _, fun _ => hfresh, fun h => absurd rfl h⟩
    · rintro _ ⟨⟩ h
      cases h
    · rintro _ ⟨⟩ -
      exact ⟨payload, c.ready, rfl⟩
    · rintro _ ⟨⟩ -
      exact fun h => nomatch h
  · have hgrown : Employs (setReader { m with jobs := m.jobs ++ [.receive payload c.ready] } link .working) :=
      (hm.grow (.receive payload c.ready)).same rfl rfl rfl rfl rfl rfl
    exact hgrown.works hworks (hnext _) (.inr ⟨(fun h => nomatch h), payload, c.ready, rfl⟩) (.inr hfresh)

theorem request (hm : m.Employs) : m.request.Employs := by
  unfold Mqtt.request
  split
  · next hgate =>
    split
    · exact hm.linked (by rw [hgate]; exact fun _ _ _ h => nomatch h) (fun _ _ _ h => nomatch h)
        rfl rfl rfl rfl rfl
    · exact hm
  · next hgate =>
    split
    · split
      · exact hm.linked (by rw [hgate]; exact fun _ _ _ h => nomatch h) (fun _ _ _ h => nomatch h)
          rfl rfl rfl rfl rfl
      · exact hm
    · exact hm
  · exact hm

end Employs

/-- **Every step keeps the tasks and their messages.** -/
theorem mqttStep_employs (hm : m.Employs) (event : MqttEvent σ) : (mqttStep env m event).2.Employs := by
  cases event with
  | submit message => exact hm.submit message
  | withdraw i =>
    refine hm.waits i _ fun t' ht' => ?_
    obtain ⟨t, ht, rfl⟩ := Option.map_eq_some_iff.mp ht'
    obtain ⟨hjob, hsend, hfresh⟩ := hm.waiting i t ht
    refine ⟨hjob, hsend, hfresh, fun message stage hgate => ?_⟩
    rw [(hm.gate i message stage hgate).2.1] at ht
    cases ht
  | takeGate i =>
    simp only [mqttStep]
    split
    · next t hgate ht => exact hm.takeGate hgate ht
    · exact hm
  | encode world =>
    simp only [mqttStep]
    split
    · next i message hgate hholder =>
      obtain ⟨hjob, hwaiting, hfresh⟩ := hm.gate _ _ _ hgate
      exact hm.works (Works.sendEncrypted hgate world) hjob
        (.inl ⟨rfl, hwaiting, message, _, hgate⟩) (.inr (hfresh rfl))
    · exact hm
  | retire => exact hm.retire
  | markError =>
    simp only [mqttStep]
    split
    · next hfailing =>
      rw [Bool.and_eq_true] at hfailing
      have hfree : Employs { m with gate := .free } :=
        hm.gated (fun _ _ _ h => nomatch h) fun h hh => by
          rw [hh] at hfailing
          cases hfailing.2
      exact hfree.same rfl rfl rfl rfl rfl rfl
    · exact hm
  | receive link world =>
    simp only [mqttStep]
    split
    · next payload _ hholder => exact hm.receive hholder link payload world
    · exact hm
  | finishReading world =>
    simp only [mqttStep]
    split
    · next worker task job message hholder =>
      have hworker := hm.reading _ hholder rfl
      obtain ⟨link, rfl⟩ : ∃ link, worker = .reader link := by
        cases worker with
        | send => exact absurd rfl hworker
        | reader link => exact ⟨link, rfl⟩
      obtain ⟨hjob, hfresh, -⟩ := hm.holder _ hholder
      rcases @Works.finishReading _ env m { worker := .reader link, task, job, stage := .reading, message }
          link rfl world with heq | hworks
      · rw [heq]
        exact hm
      · exact hm.works hworks hjob (hm.turn hholder) (.inr (hfresh rfl))
    · exact hm
  | abort link => exact hm.abort link
  | takeClient =>
    simp only [mqttStep]
    split
    · next worker task job write rest message hholder =>
      obtain ⟨hjob, -, hlogged⟩ := hm.holder _ hholder
      refine hm.works (Works.takeClient (hm.send _ hholder) (hlogged fun h => nomatch h)) hjob
        (hm.turn hholder) (.inl ?_)
      unfold Mqtt.takeClient
      split
      · exact stop_log m _
      · rfl
    · exact hm
  | publish =>
    simp only [mqttStep]
    split
    · next worker task job client write rest message hholder =>
      obtain ⟨hjob, -, hlogged⟩ := hm.holder _ hholder
      have hentry := hlogged fun h => nomatch h
      rcases publish_cases (hm.send _ hholder) hentry with heq | heq | ⟨-, hworks, hlog⟩
      · rw [heq]
        exact hm
      · rw [heq]
        exact hm.stop hholder
      · have hpushed : (m.pushed { worker, task, job, stage := .queueing client write rest, message }
            client write).Employs :=
          ⟨hm.waiting, hm.gate, hm.holder, hm.send, hm.reader, hm.reading, hm.logged, hm.once, fun e he => by
            rcases List.mem_append.mp he with he | he
            · exact hm.published e he
            · rw [List.mem_singleton.mp he]
              exact hentry⟩
        exact hpushed.works hworks hjob (hm.turn hholder) (.inl hlog)
    · exact hm
  | clear =>
    simp only [mqttStep]
    split
    · exact hm.same rfl rfl rfl rfl rfl rfl
    · exact hm
  | lock | unlock | closeClient | openClient =>
    simp only [mqttStep]
    split
    · next hgate =>
      exact hm.linked (by rw [hgate]; exact fun _ _ _ h => nomatch h) (fun _ _ _ h => nomatch h)
        rfl rfl rfl rfl rfl
    · exact hm
  | makeChannel =>
    simp only [mqttStep]
    split
    · next hgate _ =>
      exact hm.linked (by rw [hgate]; exact fun _ _ _ h => nomatch h) (fun _ _ _ h => nomatch h)
        rfl rfl rfl rfl rfl
    · exact hm
  | request => exact hm.request
  | take | endReader | poll | arrive | endPolling | cancel => exact hm.same rfl rfl rfl rfl rfl rfl

end Mqtt

end Thalovant.Transport
