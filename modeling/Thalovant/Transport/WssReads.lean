import Thalovant.Transport.ChannelSafety
import Thalovant.Transport.WssDelivery

/-!
# What a hub reads over a WebSocket

From end to end: whatever runs over the transport, a hub that reads the socket of a link reads the
messages that were sent over it, each the message of its own send, in the order in which they were
encrypted, none twice and none left out between two (`wss_delivers`).

A link has one session at most (`begunWith_unique`), and a hub in step with it has read what a send has
written once that has returned. What goes out over a link that is free is read next
(`Wss.Idle.sends`).
-/

namespace Thalovant.Transport

open Thalovant.Noise Fallible

variable {σ : Type} {env : ChannelEnv σ}

/-! ## What has been written stays -/

/-- The log and the wire only grow. -/
theorem wssStep_grows (w : Wss env.snow) (event : WssEvent σ) :
    w.log <+: (wssStep env w event).2.log ∧ w.wire <+: (wssStep env w event).2.wire := by
  constructor
  · rcases wssStep_progress w event with ⟨a, -, -, hprogress⟩ | ⟨hlog, -⟩
    · cases hprogress with
      | kept hlog => exact hlog ▸ List.prefix_rfl
      | recorded s hlog => exact hlog ▸ List.prefix_append _ _
    · exact hlog ▸ List.prefix_rfl
  · have hstepped := wssStep_cases w event
    generalize wssStep env w event = out at hstepped
    cases hstepped with
    | beside out h => exact h.wire ▸ List.prefix_rfl
    | begins i t => rcases takeWriter_cases w i t with heq | ⟨heq, -⟩ <;> exact heq ▸ List.prefix_rfl
    | task a out _ h => exact h.wire ▸ List.prefix_rfl
    | handedOver => exact List.prefix_append _ _

theorem wss_grows (w : Wss env.snow) (later : List (WssEvent σ)) (link : Nat) :
    w.messages link <+: (Machine.final (wssStep env) w later).messages link
    ∧ w.onWire link <+: (Machine.final (wssStep env) w later).onWire link := by
  obtain ⟨hlog, hwire⟩ := Machine.final_invariant
    (P := fun v : Wss env.snow => w.log <+: v.log ∧ w.wire <+: v.wire)
    (fun v event ⟨hlog, hwire⟩ =>
      ⟨hlog.trans (wssStep_grows v event).1, hwire.trans (wssStep_grows v event).2⟩)
    later ⟨List.prefix_rfl, List.prefix_rfl⟩
  exact ⟨hlog.filter _, ((hwire.filter _).map _).filter _⟩

/-! ## The session of a link -/

/-- A task that goes on encrypts nothing and writes nothing by itself. -/
theorem goOn_kept {snow : Snow} (w : Wss snow) (a : Active) :
    ∀ writes, (goOn w a writes).2.log = w.log ∧ (goOn w a writes).2.wire = w.wire
  | [] => by
    unfold goOn complete
    cases a.job <;> exact ⟨rfl, rfl⟩
  | _ :: _ => ⟨rfl, rfl⟩

theorem startWriting_log {snow : Snow} (w : Wss snow) (a : Active) (writes : List NoiseWrite) :
    (startWriting w a writes).2.log = w.log := by
  unfold startWriting
  split
  · rfl
  · exact (goOn_kept w a writes).1

/-- A session is opened with a message, the client's HELLO. -/
theorem Wss.Opens.recorded {w : Wss env.snow} {world : σ} {start : env.snow.cipher.State}
    (h : w.Opens world start) :
    ∃ s, (wssStep env w (.finishReading world)).2.log = w.log ++ [s] ∧ s.link = w.link
      ∧ s.frames ≠ [] := by
  obtain ⟨⟨task, job, stage, message⟩, c, data, hactive, rfl, rfl, hc, hopens⟩ := h
  obtain ⟨writes, ⟨c', world'⟩, hr, hsealed⟩ := hopens.first
  have hstep : wssStep env w (.finishReading world)
      = startWriting (w.record { task, job := .receive data false, stage := .reading, message } c c' writes)
        { task, job := .receive data false, stage := .reading, message := none } writes := by
    simp only [wssStep, hactive, finishReading, hc, hr, received]
  exact ⟨_, by rw [hstep, startWriting_log]; rfl, rfl, hsealed⟩

/-- Where a session is opened, nothing has been encrypted yet. -/
theorem Wss.Opens.silent {w : Wss env.snow} {world : σ} {start : env.snow.cipher.State}
    (h : w.Opens world start) {jobs : Nat → Option Job} {begun : Nat → env.snow.cipher.State → Prop}
    {stage : Option Stage} (haccounts : w.Accounts jobs begun stage) :
    ∀ s ∈ w.messages w.link, s.frames = [] := by
  obtain ⟨a, c, data, -, -, -, hc, hopens⟩ := h
  obtain ⟨writes, s', hr, -⟩ := hopens.taken
  refine hopens.silent (haccounts.usable c hc (not_failed_of_ok hr) fun hsome => ?_)
  rw [show c.session = none from hopens.fresh] at hsome
  cases hsome

theorem begunWith_recorded {events : List (WssEvent σ)} {link : Nat} {start : env.snow.cipher.State}
    (h : BegunWith env events link start) :
    ∃ s ∈ (Machine.final (wssStep env) (Wss.new env.snow) events).messages link, s.frames ≠ [] := by
  obtain ⟨before, _, after, rfl, world, rfl, rfl, hopens⟩ := h
  obtain ⟨s, hlog, hlink, hframes⟩ := hopens.recorded
  rw [Machine.final_append, Machine.final_cons]
  refine ⟨s, (wss_grows _ after _).1.subset (List.mem_filter.mpr ⟨?_, by simpa using hlink⟩), hframes⟩
  rw [hlog]
  exact List.mem_append_right _ (List.mem_singleton_self s)

/-- **A link has one session.** -/
theorem begunWith_unique {events : List (WssEvent σ)} {link : Nat} {start start' : env.snow.cipher.State}
    (h : BegunWith env events link start) (h' : BegunWith env events link start') : start = start' := by
  refine Machine.Occurs.unique (P := OpensAt link) ?_ ?_ h h'
  · -- a session that has begun has a message, and another cannot begin then
    rintro events event start start' ⟨world, -, hlink, hopens⟩ hbegun
    obtain ⟨s, hs, hframes⟩ := begunWith_recorded hbegun
    exact hframes (hopens.silent (@wss_accounts _ env events).2.2 s (hlink.symm ▸ hs))
  · rintro events event start start' ⟨world, rfl, -, hopens⟩ ⟨world', hevent, -, hopens'⟩
    cases hevent
    obtain ⟨a, c, data, hactive, -, hjob, hc, hopen⟩ := hopens
    obtain ⟨a', c', data', hactive', -, hjob', hc', hopen'⟩ := hopens'
    cases hactive.symm.trans hactive'
    cases hjob.symm.trans hjob'
    cases hc.symm.trans hc'
    exact hopen.unique hopen'

/-! ## A send that has returned -/

/-- A send over the link has returned: the last of its frames is flushed. -/
def Returned (env : ChannelEnv σ) (events : List (WssEvent σ)) (link task : Nat) : Prop :=
  Machine.Occurs (wssStep env)
    (fun w event => event = .flushed ∧ w.link = link ∧ ∃ a message, w.active = some a ∧ a.task = task
      ∧ a.job = .send message ∧ a.stage = .flushing [])
    (Wss.new env.snow) events

/-- Its message has been encrypted, and all that was encrypted until then is on the wire. -/
theorem Returned.whole {events : List (WssEvent σ)} {link task : Nat}
    (h : Returned env events link task) :
    let w := Machine.final (wssStep env) (Wss.new env.snow) events
    ∃ messages rest, w.messages link = messages ++ rest
      ∧ messages.flatMap Sealed.frames <+: w.onWire link
      ∧ ∃ s ∈ messages, s.task = task ∧ s.frames ≠ [] := by
  obtain ⟨before, _, after, rfl, rfl, rfl, a, message, hactive, rfl, hjob, hstage⟩ := h
  have hsound := @sound_final _ env before
  obtain ⟨-, hemploys, -⟩ := @wss_accounts _ env before
  have hrest : (Machine.final (wssStep env) (Wss.new env.snow) before).active.map Active.stage
      = some (.flushing []) := by rw [hactive, Option.map_some, hstage]
  obtain ⟨hwhole, -⟩ := hsound.writing [] (by rw [hrest]; rfl)
  rw [show sealedOf ([] : List NoiseWrite) = [] from rfl, List.append_nil] at hwhole
  obtain ⟨s, hs, hlink, htask, hframes⟩ :=
    hemploys.written a message hactive (by rw [hstage]; exact fun h => nomatch h) hjob
  intro w
  obtain ⟨⟨rest, hgrown⟩, hwire⟩ := wss_grows
    (Machine.final (wssStep env) (Wss.new env.snow) before) (.flushed :: after)
    (Machine.final (wssStep env) (Wss.new env.snow) before).link
  rw [← Machine.final_append] at hgrown hwire
  rw [hwhole] at hwire
  exact ⟨_, rest, hgrown.symm, hwire, s, List.mem_filter.mpr ⟨hs, by simpa using hlink⟩, htask,
    hframes⟩

/-! ## A send with nothing in its way -/

/-- A send over the link can go out at once, under this session. -/
structure Wss.Idle (w : Wss env.snow) (link : Nat) (session : NoiseSession env.snow.cipher) : Prop where
  current : w.link = link
  active : w.active = none
  cancelled : w.cancelled = false
  writer : ∃ socket, w.writer = some socket
  valid : w.sessionValid = true
  channel : ∃ c, w.channel = some c ∧ c.failed = false ∧ c.session = some session

/-- The frames of a message are handed over and flushed, one after the other. -/
def writeEvents (frames : Nat) : List (WssEvent σ) :=
  (List.replicate frames [.handOver, .flushed]).flatten

/-- A send that nothing interrupts. -/
def sendEvents (task : Nat) (message : HiveMessage) (world : σ) (frames : Nat) : List (WssEvent σ) :=
  [.submit (.send message), .takeWriter task, .takeNoise world] ++ writeEvents frames

/-- What a task has to write is on the wire once it is all flushed. -/
theorem final_writeEvents {socket : Nat} : ∀ (writes : List NoiseWrite) (w : Wss env.snow) (a : Active),
    w.writer = some socket →
    (Machine.final (wssStep env) (goOn w a writes).2 (writeEvents writes.length)).wire
      = w.wire ++ writes.map fun write =>
        { socket := socket, link := w.link, task := a.task, write := write } := by
  intro writes
  induction writes with
  | nil =>
    intro w a _
    rw [List.map_nil, List.append_nil]
    exact (goOn_kept w a []).2
  | cons write writes ih =>
    intro w a hwriter
    have hnext := ih
      { w with
        wire := w.wire ++ [{ socket := socket, link := w.link, task := a.task, write := write }]
        active := some { a with stage := .flushing writes } }
      { a with stage := .flushing writes } hwriter
    rw [List.map_cons, List.append_cons, ← hnext]
    have hevents : (writeEvents (write :: writes).length : List (WssEvent σ))
        = .handOver :: .flushed :: writeEvents writes.length := by
      unfold writeEvents
      rw [List.length_cons, List.replicate_succ]
      rfl
    rw [hevents, Machine.final_cons, Machine.final_cons]
    congr 1
    simp only [goOn, wssStep, hwriter]

/-- A message that can be written is encoded under the session of a channel that has not failed. -/
theorem encode_of_writeAll {c : NoiseChannel env.snow} {session : NoiseSession env.snow.cipher}
    (hfailed : c.failed = false) (hsession : c.session = some session) {message : HiveMessage}
    {payload : Bytes} {frames : List Bytes} {t' : env.snow.cipher.State}
    (hpayload : env.toVec message = .ok payload)
    (hwrite : writeAll session.transport (plaintextFrames payload true) = (.ok frames, t')) (world : σ) :
    ∃ c', encode env message (c, world) = (.ok (asWrites frames), (c', world)) := by
  rcases encode_cases message (c, world) with ⟨-, hnone | hfailed'⟩ | ⟨session', hsession', -, hr⟩
  · cases hsession.symm.trans hnone
  · cases hfailed.symm.trans hfailed'
  · cases hsession.symm.trans hsession'
    refine ⟨{ c with session := some { session with transport := t' } }, ?_⟩
    have hjson : Fallible.ofExcept (ofJson (env.toVec message)) (c, world) = (.ok payload, (c, world)) := by
      rw [hpayload]
      rfl
    rw [hr, encodeUnder, bind_ok hjson, encryptMessage_eq_writeAll, hwrite]
    rfl

/-- A send that takes the channel's lock over a session starts to write. -/
theorem takeNoise_send {w : Wss env.snow} {a : Active} {message : HiveMessage} {c c' : NoiseChannel env.snow}
    {writes : List NoiseWrite} {world world' : σ} {socket : Nat} (hjob : a.job = .send message)
    (hc : w.channel = some c) (hvalid : w.sessionValid = true) (hwriter : w.writer = some socket)
    (hencode : encode env message (c, world) = (.ok writes, (c', world'))) :
    takeNoise env w a world = goOn (w.record a c c' writes) a writes := by
  unfold takeNoise
  rw [hc]
  dsimp only
  rw [hjob]
  dsimp only
  rw [if_pos hvalid, hencode]
  dsimp only
  unfold startWriting
  rw [show (w.record a c c' writes).writer = some socket from hwriter]

/-- The send of a new task, which has the writer's lock. -/
def Wss.sending {snow : Snow} (w : Wss snow) (message : HiveMessage) : Active :=
  { task := w.next, job := .send message, stage := .atNoise, message := none }

/-- The frames of a send that nothing interrupts are the next on the wire. -/
theorem Wss.Idle.sends {w : Wss env.snow} {link : Nat} {session : NoiseSession env.snow.cipher}
    (h : w.Idle link session) {message : HiveMessage} {payload : Bytes} {frames : List Bytes}
    {t' : env.snow.cipher.State} (hpayload : env.toVec message = .ok payload)
    (hwrite : writeAll session.transport (plaintextFrames payload true) = (.ok frames, t')) (world : σ) :
    (Machine.final (wssStep env) w (sendEvents w.next message world frames.length)).onWire link
      = w.onWire link ++ asWrites frames := by
  obtain ⟨socket, hsocket⟩ := h.writer
  obtain ⟨c, hc, hfailed, hsession⟩ := h.channel
  obtain ⟨c', hencode⟩ := encode_of_writeAll hfailed hsession hpayload hwrite world
  obtain rfl := h.current
  -- the task takes the writer's lock, and then the channel's
  obtain ⟨waiting, htaken⟩ : ∃ waiting,
      Machine.final (wssStep env) w [.submit (.send message), .takeWriter w.next]
        = { w with waiting := waiting, next := w.next + 1, active := some (w.sending message) } :=
    ⟨_, by simp [Machine.final_cons, wssStep, takeWriter, h.active, h.cancelled, Wss.sending]; rfl⟩
  obtain ⟨v, hwire, hlink, hwriter, hbegun⟩ : ∃ v : Wss env.snow, v.wire = w.wire ∧ v.link = w.link
      ∧ v.writer = some socket
      ∧ Machine.final (wssStep env) w [.submit (.send message), .takeWriter w.next, .takeNoise world]
        = (goOn v (w.sending message) (asWrites frames)).2 := by
    let taken : Wss env.snow :=
      { w with waiting := waiting, next := w.next + 1, active := some (w.sending message) }
    refine ⟨taken.record (w.sending message) c c' (asWrites frames), rfl, rfl, hsocket, ?_⟩
    rw [show ([.submit (.send message), .takeWriter w.next, .takeNoise world] : List (WssEvent σ))
      = [.submit (.send message), .takeWriter w.next] ++ [.takeNoise world] from rfl,
      Machine.final_append, htaken]
    exact congrArg Prod.snd (@takeNoise_send _ env taken (w.sending message) message c c'
      (asWrites frames) world world socket rfl hc h.valid hsocket hencode)
  have hframes : frames.length = (asWrites frames).length := (List.length_map _).symm
  unfold sendEvents Wss.onWire
  rw [Machine.final_append, hbegun, hframes, final_writeEvents _ _ _ hwriter, hwire, hlink,
    List.filter_append, List.map_append, sealedOf_append]
  congr 1
  rw [List.filter_eq_self.mpr fun e he => by
    obtain ⟨write, -, rfl⟩ := List.mem_map.mp he
    exact decide_eq_true rfl, List.map_map]
  exact (congrArg sealedOf (List.map_id _)).trans (sealedOf_asWrites frames)

/-! ## Reading -/

/-- What a hub has made of the frames on a link. -/
def Wss.readBy (w : Wss env.snow) (link : Nat) (hub : NoiseSession env.snow.cipher) :
    List (Result NoiseFrame) :=
  Machine.outputs decryptFrame hub ((w.onWire link).map NoiseWrite.payload)

/-- What a hub has read of a link after a run. `payloads`: the messages of the link, with their tasks. -/
structure HubReads (env : ChannelEnv σ) (events : List (WssEvent σ)) (link : Nat)
    (payloads : List (Nat × Bytes)) (hub : NoiseSession env.snow.cipher) (w : Wss env.snow) : Prop where
  accepted : ∀ r ∈ w.readBy link hub, ∃ frame, r = .ok frame
  first : delivered (w.readBy link hub) <+: payloads.map fun p => (p.2, true)
  /-- What a send has written is read once the send has returned. -/
  returned : ∀ task, Returned env events link task →
    ∃ payload, (task, payload) ∈ payloads.take (delivered (w.readBy link hub)).length
  all : w.link = link → w.sessionValid = true → (∃ c, w.channel = some c ∧ c.failed = false) →
    delivered (w.readBy link hub) = payloads.map fun p => (p.2, true)
  /-- What is sent over a link with nothing in the way is read next. -/
  next : ∀ session, w.Idle link session → ∀ message payload frames t', env.toVec message = .ok payload →
    payload.length ≤ NOISE_MAX_REASSEMBLY →
    writeAll session.transport (plaintextFrames payload true) = (.ok frames, t') → ∀ world,
    delivered ((Machine.final (wssStep env) w (sendEvents w.next message world frames.length)).readBy
      link hub) = delivered (w.readBy link hub) ++ [(payload, true)]

/-- The messages of a link, and the cipher of its session if it can be used. -/
theorem sealed_final (events : List (WssEvent σ)) (link : Nat) :
    let w := Machine.final (wssStep env) (Wss.new env.snow) events
    (∀ s ∈ w.messages link, s.frames = [])
    ∨ ∃ start payloads t, BegunWith env events link start ∧ Begins env.snow start
      ∧ Sealing env (jobsOf events) start (w.messages link) payloads t
      ∧ ∀ session, w.Idle link session → session.transport = t := by
  intro w
  obtain ⟨-, -, haccounts⟩ := @wss_accounts _ env events
  by_cases hidle : ∃ session, w.Idle link session
  · obtain ⟨session, hsession⟩ := hidle
    obtain rfl := hsession.current
    obtain ⟨c, hc, hfailed, hsome⟩ := hsession.channel
    have hseals := haccounts.usable c hc hfailed fun _ => hsession.valid
    unfold NoiseChannel.Seals at hseals
    rw [hsome] at hseals
    obtain ⟨start, payloads, hbegun, hbegins, hsealing⟩ := hseals
    refine .inr ⟨start, payloads, _, hbegun, hbegins, hsealing, fun session' h => ?_⟩
    obtain ⟨c', hc', -, hsome'⟩ := h.channel
    cases hc.symm.trans hc'
    cases hsome.symm.trans hsome'
    rfl
  · rcases haccounts.all link with hsilent | ⟨start, payloads, t, hbegun, hbegins, hsealing⟩
    · exact .inl hsilent
    · exact .inr ⟨start, payloads, t, hbegun, hbegins, hsealing, fun session h =>
        absurd ⟨session, h⟩ hidle⟩

/--
**A hub reads over a WebSocket what was sent, in the order in which it was encrypted.**

For every interleaving of sends, callers that give up, frames received, writes that are dropped or fail,
connects and disconnects, and for every link: there are messages, each that of its own task, a send's or
the HELLO that ends the handshake, no task having two in any link. The link has had one session, or none,
and then nothing is on its wire and no send over it has returned.

A hub that begins in step with this session and reads the socket, while no message is longer than the
32 MiB of a reassembly,

* refuses none of the frames;
* has read the first of these messages, whole and in order;
* has read the message of every send that has returned;
* has read all of them while the link can be used, which it cannot while a task writes;
* reads next what is sent with nothing in the way.
-/
theorem wss_delivers
    {Linked : env.snow.cipher.State → List (Bytes × Bytes) → Nat → env.snow.cipher.State → Prop}
    (hC : InOrder env.snow.cipher Linked) (events : List (WssEvent σ)) (link : Nat) :
    let w := Machine.final (wssStep env) (Wss.new env.snow) events
    (w.log.map Sealed.task).Nodup
    ∧ ∃ payloads : List (Nat × Bytes),
      (∀ p ∈ payloads, Origin env (jobsOf events) p.1 p.2)
      ∧ payloads.map Prod.fst
        = ((w.messages link).filter fun s => !s.frames.isEmpty).map Sealed.task
      ∧ ((∀ start, ¬ BegunWith env events link start) ∧ payloads = [] ∧ w.onWire link = []
          ∧ (∀ task, ¬ Returned env events link task)
        ∨ ∃ start, BegunWith env events link start
          ∧ (∀ start', BegunWith env events link start' → start' = start) ∧ Begins env.snow start
          ∧ ∀ hub : NoiseSession env.snow.cipher, Linked start [] 0 hub.transport →
            hub.reassembly = none → (∀ p ∈ payloads, p.2.length ≤ NOISE_MAX_REASSEMBLY) →
            HubReads env events link payloads hub w) := by
  intro w
  obtain ⟨hnext, hemploys, -⟩ := @wss_accounts _ env events
  have hsound := @sound_final _ env events
  refine ⟨hemploys.once, ?_⟩
  rcases @sealed_final _ env events link with
    hsilent | ⟨start, payloads, t, hbegun, hbegins, hsealing, hidle⟩
  · -- before there is a session nothing is encrypted
    have hnothing : w.encrypted link = [] := List.flatMap_eq_nil_iff.mpr hsilent
    refine ⟨[], (fun _ h => nomatch h), ?_,
      .inl ⟨fun start hbegun => ?_, rfl, ?_, fun task hreturned => ?_⟩⟩
    · rw [List.filter_eq_nil_iff.mpr fun s hs => by simp [hsilent s hs]]
      rfl
    · obtain ⟨s, hs, hframes⟩ := begunWith_recorded hbegun
      exact hframes (hsilent s hs)
    · have := hsound.order link
      rwa [show Wss.encrypted _ link = [] from hnothing, List.prefix_nil] at this
    · obtain ⟨messages, rest, hmessages, -, s, hs, -, hframes⟩ := hreturned.whole
      exact hframes (hsilent s (hmessages ▸ List.mem_append_left rest hs))
  · refine ⟨payloads, hsealing.origin, hsealing.tasks, .inr ⟨start, hbegun,
      fun start' hbegun' => begunWith_unique hbegun' hbegun, hbegins, ?_⟩⟩
    intro hub hlinked hopen hfit
    obtain ⟨hfirst, hok, hwhole⟩ := hsealing.delivers hC (hsound.order link) hlinked hopen hfit
    have husable : w.link = link → w.sessionValid = true →
        (∃ c, w.channel = some c ∧ c.failed = false) → w.onWire link = w.encrypted link := by
      rintro rfl hvalid ⟨c, hc, hfailed⟩
      exact (hsound.usable c hc hfailed fun _ => hvalid).1
    refine ⟨hok, hfirst, fun task hreturned => ?_,
      fun hlink hvalid hc => hwhole (husable hlink hvalid hc), ?_⟩
    · obtain ⟨messages, rest, hmessages, hwire, s, hs, rfl, hframes⟩ := hreturned.whole
      rw [show (Machine.final (wssStep env) (Wss.new env.snow) events).messages link = messages ++ rest
        from hmessages] at hsealing
      exact hsealing.delivers_of_whole hC hwire hlinked hopen hfit hs hframes
    · intro session hsession message payload frames t' hpayload hlength hwrite world
      obtain ⟨c, hc, hfailed, -⟩ := hsession.channel
      have hwire := husable hsession.current hsession.valid ⟨c, hc, hfailed⟩
      have hjob : jobsOf (events ++ [.submit (.send message)]) w.next = some (.send message) := by
        rw [hnext]
        exact jobsOf_submit events (.send message)
      unfold Wss.readBy
      rw [hsession.sends hpayload hwrite world, hwire]
      rw [hidle session hsession] at hwrite
      let entry : Sealed env.snow :=
        { link := link, task := w.next, cipher := none, frames := asWrites frames }
      exact (hsealing.mono fun _ _ => jobsOf_append [.submit (.send message)]).delivers_next hC hlinked hopen
        hfit (s := entry) hlength (.inl ⟨message, hjob, hpayload⟩) hwrite rfl

/-! ## A run -/

/-- The client of `sampleEnv`, with a cipher that numbers its frames. -/
def numberingEnv : ChannelEnv Unit :=
  { sampleEnv with snow := { countingSnow with cipher := numberingCipher } }

theorem sendCounter_numberingEnv : SendCounter numberingEnv.snow Prod.fst where
  start state transport h := sendCounter_countingSnow.start state transport h
  write n plaintext frame n' h :=
    sendCounter_countingSnow.write n plaintext frame n' (numberingCipher_write h)
  read n data := (numberingCipher_read_sent n data).trans rfl

/-- Every message of these surroundings is written alike. -/
theorem nine_of_origin {jobs : Nat → Option Job} {task : Nat} {payload : Bytes}
    (h : Origin numberingEnv jobs task payload) : payload = [9] := by
  rcases h with ⟨_, -, h⟩ | ⟨_, _, _, _, -, h⟩
  · exact (Except.ok.inj h).symm
  · exact (Except.ok.inj h).symm

theorem messages_of_origin {jobs : Nat → Option Job} {payloads : List (Nat × Bytes)}
    (h : ∀ p ∈ payloads, Origin numberingEnv jobs p.1 p.2) :
    payloads.map (fun p => (p.2, true)) = (payloads.map Prod.fst).map fun _ => ([9], true) := by
  rw [List.map_map]
  exact List.map_congr_left fun p hp => by rw [nine_of_origin (h p hp)]; rfl

theorem fit_of_origin {jobs : Nat → Option Job} {payloads : List (Nat × Bytes)}
    (h : ∀ p ∈ payloads, Origin numberingEnv jobs p.1 p.2) :
    ∀ p ∈ payloads, p.2.length ≤ NOISE_MAX_REASSEMBLY := by
  intro p hp
  rw [nine_of_origin (h p hp)]
  decide

/-- A cipher that has sent nothing is in step with the hub's. -/
theorem numbered_of_begins {start : numberingEnv.snow.cipher.State}
    (h : Begins numberingEnv.snow start) : Numbered start [] 0 numberingSession.transport :=
  ⟨h _ sendCounter_numberingEnv, rfl, by decide, fun _ _ _ h => nomatch h⟩

/-- A connect, the hub's HELLO, offer and answer, and a send. -/
def conversation : List (WssEvent Unit) :=
  [.closeWriter, .makeChannel sampleIdentity none false none, .openSocket,
    .submit (.receive [0] false), .takeWriter 0, .takeNoise (), .finishReading (),
    .submit (.receive [1] false), .takeWriter 1, .takeNoise (), .finishReading (), .handOver, .flushed,
    .submit (.receive [2] false), .takeWriter 2, .takeNoise (), .finishReading (), .handOver, .flushed,
    .handOver, .flushed,
    .submit (.send { msgType := "bus", payload := [] }), .takeWriter 3, .takeNoise (), .handOver, .flushed]

/-- The hub reads the HELLO and the send. -/
theorem wss_delivers_of_conversation :
    let w := Machine.final (wssStep numberingEnv) (Wss.new numberingEnv.snow) conversation
    delivered (w.readBy 1 numberingSession) = [([9], true), ([9], true)] := by
  intro w
  obtain ⟨-, payloads, horigin, htasks, hread⟩ :=
    @wss_delivers Unit numberingEnv Numbered inOrder_numberingCipher conversation 1
  have htwo : payloads.map Prod.fst = [2, 3] := htasks.trans (by decide +kernel)
  have hboth : payloads.map (fun p => (p.2, true)) = [([9], true), ([9], true)] := by
    rw [messages_of_origin horigin, htwo]
    rfl
  have hwritten : w.onWire 1 ≠ [] := by decide +kernel
  rcases hread with ⟨-, -, hnone, -⟩ | ⟨start, -, -, hbegins, hread⟩
  · exact absurd hnone hwritten
  · have husable : w.channel.any (fun c => !c.failed) = true := by decide +kernel
    obtain ⟨c, hc, hfailed⟩ := (Option.any_eq_true _ _).mp husable
    rw [← hboth]
    exact (hread numberingSession (numbered_of_begins hbegins) rfl (fit_of_origin horigin)).all
      (by decide +kernel) (by decide +kernel) ⟨c, hc, by simpa using hfailed⟩

end Thalovant.Transport
