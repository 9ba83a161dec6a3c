import Thalovant.Transport.Mqtt
import Thalovant.Transport.WssDelivery

/-!
# The books of the MQTT transport

What an MQTT transport has encrypted and published is what a WebSocket transport has encrypted and
written, with the client of the link in the place of its socket and the failed send in the place of the
invalid session (`Mqtt.books`). The invariants of the WebSocket are kept by each function of a task
(`Mqtt.Booked`), though the tasks take turns in another way.
-/

namespace Thalovant.Transport

open Thalovant.Noise

variable {σ : Type} {env : ChannelEnv σ}

/-! ## Both invariants of a WebSocket -/

/-- What a transport keeps of its wire and its messages, with the stage of the task that writes. -/
structure Wss.Kept (jobs : Nat → Option Job) (begun : Nat → env.snow.cipher.State → Prop)
    (w : Wss env.snow) (stage : Option Stage) : Prop where
  sound : w.Sound stage
  accounts : w.Accounts jobs begun stage

namespace Wss.Kept

variable {jobs jobs' : Nat → Option Job} {begun begun' : Nat → env.snow.cipher.State → Prop}
  {w : Wss env.snow} {stage stage' : Option Stage}

theorem mono (h : w.Kept jobs begun stage) (hjobs : ∀ i job, jobs i = some job → jobs' i = some job)
    (hbegun : ∀ link start, begun link start → begun' link start) : w.Kept jobs' begun' stage :=
  ⟨h.sound, h.accounts.mono hjobs hbegun⟩

/-- A task that does not write. -/
theorem idle (h : w.Kept jobs begun stage) (hrest : stage'.bind Stage.rest = none)
    (hreading : stage' = some .reading → ∀ c, w.channel = some c → c.session = none) :
    w.Kept jobs begun stage' :=
  ⟨h.sound.idle hrest hreading, h.accounts.idle stage' hrest⟩

/-- While the channel has failed, it does not matter if the session is valid. -/
theorem revalidate (h : w.Kept jobs begun stage) (hfailed : ∀ c, w.channel = some c → c.failed = true)
    (valid : Bool) : Kept jobs begun { w with sessionValid := valid } stage := by
  have hunusable : ∀ c, w.channel = some c → c.failed ≠ false := fun c hc hnot => by
    rw [hfailed c hc] at hnot
    cases hnot
  exact ⟨⟨h.sound.writing, h.sound.reading, fun c hc hnot _ => absurd hnot (hunusable c hc),
      h.sound.order, h.sound.numbered, h.sound.later, h.sound.spoilt, h.sound.writer, h.sound.closed,
      h.sound.sockets⟩,
    ⟨h.accounts.writing, fun c hc hnot _ => absurd hnot (hunusable c hc), h.accounts.all⟩⟩

theorem invalidate (h : w.Kept jobs begun stage) : Kept jobs begun { w with sessionValid := false } stage :=
  ⟨h.sound.invalidate, h.accounts.invalidate⟩

/-- The session is not used until it is valid, or there is none. -/
theorem validate (h : w.Kept jobs begun stage) (hvalid : w.sessionValid = true) (valid : Bool)
    (hsame : valid = true) : Kept jobs begun { w with sessionValid := valid } stage := by
  subst hsame
  rw [← hvalid]
  exact h

/-- The channel's call has failed. -/
theorem fail (h : w.Kept jobs begun stage) {c c' : NoiseChannel env.snow} (hc : w.channel = some c)
    (hfailed : c'.failed = true) : Kept jobs begun (leave { w with channel := some c' }) none := by
  have hnot : ¬ c'.failed = false := by
    rw [hfailed]
    exact Bool.noConfusion
  have hrefused : Kept jobs begun (leave { w with channel := some c', sessionValid := false }) none :=
    ⟨h.sound.refuse hc (fun _ => hfailed) fun h => absurd h hnot,
      h.accounts.refuse hc fun h => absurd h hnot⟩
  refine hrefused.revalidate ?_ w.sessionValid
  rintro _ ⟨⟩
  exact hfailed

/-- The channel is gone. -/
theorem drop (h : w.Kept jobs begun stage) (hrest : stage.bind Stage.rest = none) :
    Kept jobs begun { w with channel := none } stage :=
  ⟨h.sound.clear hrest, h.accounts.close hrest rfl fun _ hc => nomatch hc⟩

/-- What is left of a message is not written. -/
theorem spoil {rest : List NoiseWrite} (h : w.Kept jobs begun stage)
    (hrest : stage.bind Stage.rest = some rest) :
    Kept jobs begun (leave { w with spoilt := w.spoilt ++ [w.link] }) none := by
  obtain ⟨-, c, hc, hfailed, -⟩ := h.sound.writing rest hrest
  have hall : ∀ c', w.channel = some c' → c'.failed = true := by
    intro c' hc'
    cases hc.symm.trans hc'
    exact hfailed
  have hspoilt : Kept jobs begun
      (leave { w with sessionValid := false, spoilt := w.spoilt ++ [w.link] }) none := by
    refine ⟨h.sound.spoil hrest, h.accounts.close rfl rfl fun c' hc' hnot => ?_⟩
    rw [hall c' hc'] at hnot
    cases hnot
  exact hspoilt.revalidate hall w.sessionValid

/-- Every frame is written. -/
theorem complete (h : w.Kept jobs begun (some (.writing []))) :
    Kept jobs begun (leave { w with channel := w.channel.map fun c => { c with failed := false } }) none := by
  let a : Active := { task := 0, job := .send { msgType := "", payload := [] }, stage := .atNoise, message := none }
  exact ⟨@Wss.Sound.complete _ w a h.sound, @Wss.Accounts.complete _ _ _ _ w a h.accounts⟩

/-- A message that a channel has encoded. -/
theorem encoded (h : w.Kept jobs begun stage) {c c' : NoiseChannel env.snow} (hc : w.channel = some c)
    (hvalid : w.sessionValid = true) {message : HiveMessage} {writes : List NoiseWrite}
    {world world' : σ} (hr : encode env message (c, world) = (.ok writes, (c', world'))) (a : Active)
    (hjob : jobs a.task = some (.send message)) :
    Kept jobs begun (w.record a c c' writes) (some (.writing writes)) := by
  have hfailed := (session_of_encoded hr).1
  refine ⟨h.sound.record a hc hfailed (fun _ => hvalid) fun n hn => encode_counts hr hn,
    h.accounts.record a fun entry htask hframes => ?_⟩
  exact encode_seals hr (h.accounts.usable c hc hfailed fun _ => hvalid) entry
    (by rw [htask]; exact hjob) hframes

/-- A message that was not encoded. -/
theorem refused (h : w.Kept jobs begun stage) {c c' : NoiseChannel env.snow} (hc : w.channel = some c)
    {message : HiveMessage} {err : ThalovantError} {world world' : σ}
    (hr : encode env message (c, world) = (.error err, (c', world'))) :
    Kept jobs begun (leave { w with channel := some c', sessionValid := false }) none := by
  have hnone : c'.failed = false → c'.session = none → c' = c := by
    -- without a session nothing has happened
    intro _ hnone
    have hsession := encode_session message (c, world)
    rw [hr, show c'.session = none from hnone] at hsession
    rcases encode_cases message (c, world) with ⟨he, -⟩ | ⟨session, hsome, -, -⟩
    · rw [hr] at he
      cases he
      rfl
    · rw [hsome] at hsession
      cases hsession
  refine ⟨h.sound.refuse hc ?_ hnone, h.accounts.refuse hc hnone⟩
  have hfixed := encode_frame message _ (c, world) rfl
  rw [hr] at hfixed
  intro hfailed
  rw [← hfailed]
  exact congrArg Prod.fst hfixed

/-- What a channel answers to what it has received before its session, or while it is valid. -/
theorem answered (h : w.Kept jobs begun stage) {c c' : NoiseChannel env.snow} (hc : w.channel = some c)
    (hvalid : c.session.isSome = true → w.sessionValid = true) {data : Bytes} {binary : Bool}
    {message : Option HiveMessage} {writes : List NoiseWrite} {world world' : σ}
    (hr : receive env data binary (c, world) = (.ok (message, writes), (c', world'))) (a : Active)
    (hjob : ∃ data binary, jobs a.task = some (.receive data binary))
    (hopens : ∀ start, binary = false → Transport.Opens env data (c, world) start → begun w.link start) :
    Kept jobs begun (w.record a c c' writes) (some (.writing writes)) := by
  have hfailed := not_failed_of_ok hr
  refine ⟨h.sound.record a hc hfailed hvalid fun n hn => receive_counts hr hn,
    h.accounts.record a fun entry htask hframes => ?_⟩
  exact receive_seals hr (h.accounts.usable c hc hfailed hvalid)
    (h.sound.usable c hc hfailed hvalid).2 entry (by rw [htask]; exact hjob) hopens hframes

/-- A frame that the session reads is not answered, so that it may even be read while the session is
invalid. -/
theorem readInvalid (h : w.Kept jobs begun stage) (hvalid : w.sessionValid = false) {c c' : NoiseChannel env.snow} (hc : w.channel = some c)
    (hfailed : c.failed = false) (hsession : c'.session.isSome = true) (a : Active) :
    Kept jobs begun (leave { w.record a c c' [] with channel := some { c' with failed := false } }) none := by
  have hmessages : ∀ link, (w.record a c c' []).messages link = w.messages link ++ if w.link = link then
      [{ link := w.link, task := a.task, cipher := c.session.map NoiseSession.transport, frames := [] }]
      else [] := Wss.Sound.messages_record w a c c' []
  have hencrypted : ∀ link, (w.record a c c' []).encrypted link = w.encrypted link := by
    intro link
    rw [Wss.Sound.encrypted_record]
    split <;> exact List.append_nil _
  have hunusable : ∀ c'' : NoiseChannel env.snow, some { c' with failed := false } = some c'' →
      (c''.session.isSome = true → w.sessionValid = true) → False := by
    rintro _ ⟨⟩ h
    rw [hvalid] at h
    exact Bool.noConfusion (h hsession)
  refine ⟨⟨(fun _ h => nomatch h), (fun _ h => nomatch h), fun c'' hc'' _ h => ?_, ?_, ?_, ?_, ?_,
    h.sound.writer, h.sound.closed, h.sound.sockets⟩, ⟨(fun _ h => nomatch h), fun c'' hc'' _ h => ?_, ?_⟩⟩
  · exact (hunusable c'' hc'' h).elim
  · intro link
    show w.onWire link <+: (w.record a c c' []).encrypted link
    rw [hencrypted]
    exact h.sound.order link
  · intro counter hcounter link
    show ((w.record a c c' []).messages link).flatMap _ = ((w.record a c c' []).encrypted link).zipIdx
    rw [hmessages, hencrypted, List.flatMap_append, h.sound.numbered counter hcounter link]
    split
    · exact List.append_nil _
    · exact List.append_nil _
  · intro link hlink
    show (w.record a c c' []).messages link = []
    have hne : ¬ w.link = link := Nat.ne_of_lt hlink
    rw [hmessages, if_neg hne, h.sound.later link hlink, List.nil_append]
  · intro link hlink
    refine ⟨(h.sound.spoilt link hlink).1, fun heq => ?_⟩
    have := ((h.sound.spoilt link hlink).2 heq).2 c hc
    rw [hfailed] at this
    cases this
  · exact (hunusable c'' hc'' h).elim
  · intro link
    show AllSealed env jobs (begun link) ((w.record a c c' []).messages link)
    rw [hmessages]
    split
    · exact (h.accounts.all link).silent rfl
    · rw [List.append_nil]
      exact h.accounts.all link

/-- A frame is written. -/
theorem handOver {write : NoiseWrite} {rest : List NoiseWrite}
    (h : w.Kept jobs begun (some (.writing (write :: rest)))) {socket task : Nat}
    (hsocket : w.writer = some socket) :
    Kept jobs begun { w with
      wire := w.wire ++ [{ socket := socket, link := w.link, task := task, write := write }] }
      (some (.writing rest)) := by
  have hflushing := @Wss.Sound.handOver _ env w write rest h.sound socket task hsocket w.active
  have hsame := h.accounts
  exact ⟨⟨hflushing.writing, (fun _ h => nomatch h), hflushing.usable, hflushing.order,
      hflushing.numbered, hflushing.later, hflushing.spoilt, hflushing.writer, hflushing.closed,
      hflushing.sockets⟩,
    ⟨fun _ _ => hsame.writing (write :: rest) rfl, hsame.usable, hsame.all⟩⟩

/-- A new channel, and a new socket. -/
theorem replace (h : w.Kept jobs begun stage) (hrest : stage.bind Stage.rest = none)
    (hreading : stage ≠ some .reading) (identity : Identity) (stateDir : Option String)
    (forceXx : Bool) (adoptFrom : Option String) :
    Kept jobs begun { w with
      link := w.link + 1
      channel := some (NoiseChannel.new env.snow identity stateDir forceXx adoptFrom)
      writer := some (w.link + 1)
      lifecycle := .idle } stage := by
  have hmade := h.sound.closeWriter.makeChannel hrest hreading rfl identity stateDir forceXx adoptFrom
  refine ⟨hmade.openSocket, ?_⟩
  exact (h.accounts.makeChannel h.sound hrest identity stateDir forceXx adoptFrom).same rfl rfl rfl rfl

end Wss.Kept

/-! ## The books -/

/-- What the task that has the channel's lock has still to write. -/
def HolderStage.asStage : HolderStage → Stage
  | reading => .reading
  | publishing rest => .writing rest
  | queueing _ write rest => .writing (write :: rest)

namespace Mqtt

section

variable {snow : Snow}

def stage (m : Mqtt snow) : Option Stage := m.holder.map fun h => h.stage.asStage

def books (m : Mqtt snow) : Wss snow where
  waiting _ := none
  next := 0
  active := none
  writer := some m.link
  channel := m.channel
  link := m.link
  sessionValid := !m.gate.failing
  cancelled := false
  lifecycle := .idle
  log := m.log
  wire := m.published
  spoilt := m.spoilt

end

/-- The books are kept, with what the holder of the channel's lock has to write. -/
def Booked (begun : Nat → env.snow.cipher.State → Prop) (m : Mqtt env.snow) (stage : Option Stage) :
    Prop :=
  m.books.Kept (fun i => m.jobs[i]?) begun stage

/-- The worker of a reader opens the session of the link, which begins with the cipher `start`. -/
def Opens (m : Mqtt env.snow) (world : σ) (start : env.snow.cipher.State) : Prop :=
  ∃ h c data, m.holder = some h ∧ h.stage = .reading ∧ h.job = .receive data false
    ∧ m.channel = some c ∧ Transport.Opens env data (c, world) start

variable {m : Mqtt env.snow} {begun : Nat → env.snow.cipher.State → Prop} {stage : Option Stage}

theorem jobs_append {job : Job} (more : List Job) (i : Nat) (h : m.jobs[i]? = some job) :
    (m.jobs ++ more)[i]? = some job := by
  rw [List.getElem?_append_left (List.getElem?_eq_some_iff.mp h).1]
  exact h

namespace Booked

theorem fail (h : m.Booked begun none) (hfailed : ∀ c, m.channel = some c → c.failed = true)
    (worker : Worker) : (m.fail worker).Booked begun (m.fail worker).stage := by
  cases worker with
  | send => exact h.revalidate hfailed _
  | reader link => exact h

theorem stop {holder : Holder} (h : m.Booked begun (some holder.stage.asStage)) :
    (m.stop holder).Booked begun (m.stop holder).stage := by
  have hspoil : ∀ rest, holder.stage.asStage.rest = some rest →
      Booked begun { m with spoilt := m.spoilt ++ [m.link] } none
      ∧ ∀ c, m.channel = some c → c.failed = true := by
    intro rest hrest
    refine ⟨Wss.Kept.spoil h hrest, fun c hc => ?_⟩
    obtain ⟨-, c', hc', hfailed, -⟩ := h.sound.writing rest hrest
    cases hc'.symm.trans hc
    exact hfailed
  unfold Mqtt.stop
  rcases hstage : holder.stage with _ | rest | ⟨client, write, rest⟩ <;> rw [hstage] at h hspoil
  · have hdropped : Booked begun { m with channel := none } none :=
      (Wss.Kept.drop h rfl).idle rfl fun h => nomatch h
    exact hdropped.fail (fun _ hc => nomatch hc) holder.worker
  · obtain ⟨hbooked, hfailed⟩ := hspoil rest rfl
    exact hbooked.fail hfailed holder.worker
  · obtain ⟨hbooked, hfailed⟩ := hspoil (write :: rest) rfl
    exact hbooked.fail hfailed holder.worker

theorem complete (h : m.Booked begun (some (.writing []))) (holder : Holder)
    (hgate : holder.worker = .send → m.gate.failing = false) :
    (m.complete holder).2.Booked begun (m.complete holder).2.stage := by
  unfold Mqtt.complete
  rcases hworker : holder.worker with _ | link
  · have hvalid : m.books.sessionValid = true := by
      show (!m.gate.failing) = true
      rw [hgate hworker]
      rfl
    exact Wss.Kept.validate (Wss.Kept.complete h) hvalid true rfl
  · exact Wss.Kept.complete h

theorem goOn (h : m.Booked begun (some (.writing rest))) (holder : Holder)
    (hgate : holder.worker = .send → m.gate.failing = false) :
    (m.goOn holder rest).2.Booked begun (m.goOn holder rest).2.stage := by
  cases rest with
  | nil => exact h.complete holder hgate
  | cons write rest => exact h

/-- The task of the books. -/
def entryOf (task : Nat) (job : Job) : Active :=
  { task, job, stage := .atNoise, message := none }

theorem sendEncrypted (h : m.Booked begun none) {task : Nat} {message : HiveMessage}
    (hgate : m.gate = .send task message .atNoise) (hjob : m.jobs[task]? = some (.send message))
    (world : σ) :
    let out := m.sendEncrypted env task message world
    out.2.Booked begun out.2.stage := by
  intro out
  have hvalid : m.books.sessionValid = true := by
    show (!m.gate.failing) = true
    rw [hgate]
    rfl
  unfold out Mqtt.sendEncrypted
  rcases hc : m.channel with _ | c
  · exact h.fail (fun c hc' => by rw [hc] at hc'; cases hc') .send
  dsimp only
  rcases hr : encode env message (c, world) with ⟨err | writes, c', world'⟩
  · have hrefused := Wss.Kept.refused h hc hr
    have hbooks : (Mqtt.fail { m with channel := some c' } .send).books
        = leave { m.books with channel := some c', sessionValid := false } := by
      simp [books, Mqtt.fail, leave, hgate, Gate.goTo, Gate.failing]
    show Wss.Kept _ _ (Mqtt.fail { m with channel := some c' } .send).books none
    rw [hbooks]
    exact hrefused
  · have hencoded := Wss.Kept.encoded h hc hvalid hr (entryOf task (.send message)) hjob
    have hworking : Booked begun { m.record task c c' writes with gate := m.gate.goTo .working }
        (some (.writing writes)) := by
      refine Wss.Kept.validate hencoded hvalid _ ?_
      rw [hgate]
      rfl
    refine hworking.goOn _ fun _ => ?_
    rw [hgate]
    rfl

theorem received {holder : Holder} {c : NoiseChannel env.snow} (h : m.Booked begun stage)
    (hc : m.channel = some c) {link : Nat}
    (hworker : holder.worker = .reader link) {data : Bytes} {binary : Bool}
    (hjob : m.jobs[holder.task]? = some (.receive data binary)) (world : σ)
    (hopens : ∀ start, binary = false → Transport.Opens env data (c, world) start → begun m.link start) :
    let out := m.received env holder c (receive env data binary (c, world))
    out.2.Booked begun out.2.stage := by
  intro out
  have hreader : holder.worker = .send → m.gate.failing = false := by
    rw [hworker]
    exact fun h => nomatch h
  rcases hr : receive env data binary (c, world) with ⟨err | ⟨message, writes⟩, c', world'⟩
  · have hfailed : c'.failed = true := failed_of_error hr
    rw [show out = (none, Mqtt.fail { m with channel := some c' } holder.worker) by
      simp only [out, hr, Mqtt.received]]
    have hbooked : Booked begun { m with channel := some c' } none := Wss.Kept.fail h hc hfailed
    refine hbooked.fail ?_ holder.worker
    rintro _ ⟨⟩
    exact hfailed
  · rw [show out = Mqtt.goOn (m.record holder.task c c' writes) { holder with message := message } writes
      by simp only [out, hr, Mqtt.received]]
    by_cases hvalid : c.session.isSome = true → m.books.sessionValid = true
    · have hanswered : (m.record holder.task c c' writes).Booked begun (some (.writing writes)) :=
        Wss.Kept.answered h hc hvalid hr (entryOf holder.task holder.job) ⟨data, binary, hjob⟩ hopens
      exact hanswered.goOn { holder with message := message } hreader
    · -- a send has failed, and its channel reads on until it is cleared
      obtain ⟨hsome, hinvalid⟩ := Classical.not_imp.mp hvalid
      obtain ⟨session, hsession⟩ := Option.isSome_iff_exists.mp hsome
      rcases receive_ok hr with ⟨_, -, rfl, hend⟩ | ⟨hnone, -⟩ | ⟨hnone, -⟩
      · have hread := Wss.Kept.readInvalid h (Bool.not_eq_true _ ▸ hinvalid) hc
          (not_failed_of_ok hr) (by rw [show c'.session = _ from hend]; rfl)
          (entryOf holder.task holder.job)
        show Booked begun (Mqtt.complete (m.record holder.task c c' []) { holder with message := message }).2 _
        unfold Mqtt.complete
        rw [show ({ holder with message := message } : Holder).worker = .reader link from hworker]
        exact hread
      all_goals
        rw [show c.session = none from hnone] at hsession
        cases hsession

theorem handleRawMqttPayload (h : m.Booked begun none) (link : Nat) (payload : Bytes) (world : σ) :
    let out := m.handleRawMqttPayload env link payload world
    out.2.Booked begun out.2.stage := by
  intro out
  unfold out Mqtt.handleRawMqttPayload
  rcases hc : m.channel with _ | c
  · exact h.fail (fun c hc' => by rw [hc] at hc'; cases hc') (.reader link)
  dsimp only
  have hworking : Booked begun (setReader { m with jobs := m.jobs ++ [.receive payload c.ready] } link .working)
      none := Wss.Kept.mono h (fun i job hi => jobs_append _ i hi) fun _ _ h => h
  have hnext : (m.jobs ++ [Job.receive payload c.ready])[m.jobs.length]?
      = some (.receive payload c.ready) := by
    rw [List.getElem?_append_right (Nat.le_refl _), Nat.sub_self]
    rfl
  split
  · next hsession =>
    rw [← hc]
    let holder : Holder := { worker := .reader link, task := m.jobs.length, job := .receive payload c.ready, stage := .reading, message := none }
    refine @Booked.received _ _ _ _ _ holder _ hworking hc link rfl _ _ hnext world fun start _ hopen => ?_
    rw [show c.session = none from hopen.fresh] at hsession
    cases hsession
  · next hsession =>
    rw [← hc]
    have hnone : c.session = none := by simpa using hsession
    have hreading : ∀ c', m.channel = some c' → c'.session = none := fun c' hc' => by
      cases hc.symm.trans hc'
      exact hnone
    exact Wss.Kept.idle hworking rfl fun _ => hreading

theorem finishReading {holder : Holder} (h : m.Booked begun (some .reading)) (hholder : m.holder = some holder)
    (hstage : holder.stage = .reading) {link : Nat} (hworker : holder.worker = .reader link)
    (hjob : m.jobs[holder.task]? = some holder.job) (world : σ)
    (hopens : ∀ start, m.Opens world start → begun m.link start) :
    let out := m.finishReading env holder world
    out.2.Booked begun out.2.stage := by
  intro out
  unfold out Mqtt.finishReading
  split
  · next c payload binary hc hreceive =>
    rw [hreceive] at hjob
    exact h.received hc hworker hjob world fun start hbinary hopen =>
      hopens start ⟨holder, c, payload, hholder, hstage, hbinary ▸ hreceive, hc, hopen⟩
  · show m.Booked begun (m.holder.map fun h => h.stage.asStage)
    rw [hholder, Option.map_some, hstage]
    exact h

theorem takeClient {holder : Holder} {write : NoiseWrite} {rest : List NoiseWrite}
    (h : m.Booked begun (some (.writing (write :: rest)))) (hstage : holder.stage = .publishing (write :: rest)) :
    (m.takeClient holder write rest).Booked begun (m.takeClient holder write rest).stage := by
  unfold Mqtt.takeClient
  split
  · have : m.Booked begun (some holder.stage.asStage) := by
      rw [hstage]
      exact h
    exact this.stop
  · exact h

theorem publish {holder : Holder} {client : Nat} {write : NoiseWrite} {rest : List NoiseWrite}
    (h : m.Booked begun (some (.writing (write :: rest)))) (hholder : m.holder = some holder)
    (hstage : holder.stage = .queueing client write rest) (hclient : client = m.link)
    (hgate : holder.worker = .send → m.gate.failing = false) :
    (m.publish holder client write rest).2.Booked begun (m.publish holder client write rest).2.stage := by
  have hsame : m.Booked begun (some holder.stage.asStage) := by
    rw [hstage]
    exact h
  unfold Mqtt.publish
  split
  · exact hsame.stop
  · split
    · subst hclient
      have hwritten : Booked begun { m.setClient m.link fun c => c.push (.frame write) with
          published := m.published ++ [{ socket := m.link, link := m.link, task := holder.task, write := write }] }
          (some (.writing rest)) := Wss.Kept.handOver h rfl
      exact hwritten.goOn holder hgate
    · show m.Booked begun (m.holder.map fun h => h.stage.asStage)
      rw [hholder]
      exact hsame

end Booked

end Mqtt

end Thalovant.Transport
