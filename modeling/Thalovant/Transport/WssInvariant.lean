import Thalovant.Transport.WssCounter

/-!
# The invariant of the WebSocket transport

While a task writes, what is on the wire and what it has still to write are together all that the
session has encrypted; and so is what is on the wire by itself whenever the channel can be used. A
write that is dropped or fails leaves a channel that cannot (`Wss.Sound`).

Each function of a task keeps the invariant, and then each step (`wssStep_sound`).
-/

namespace Thalovant.Transport

open Thalovant.Noise

/-! ## The invariant -/

/-- The frames of a message, with the values of the counter they were encrypted under. -/
def Sealed.numbered {snow : Snow} (counter : snow.cipher.State → Nat) (s : Sealed snow) :
    List (NoiseWrite × Nat) :=
  s.frames.zipIdx ((s.cipher.map counter).getD 0)

/-- What every transport keeps, with the stage of the task that holds the writer's lock. -/
structure Wss.Sound {snow : Snow} (w : Wss snow) (stage : Option Stage) : Prop where
  writing : ∀ rest, stage.bind Stage.rest = some rest →
    w.onWire w.link ++ sealedOf rest = w.encrypted w.link
    ∧ ∃ c, w.channel = some c ∧ c.failed = true ∧ c.Counts (w.encrypted w.link).length
  reading : ∀ c, stage = some .reading → w.channel = some c → c.session = none
  usable : ∀ c, w.channel = some c → c.failed = false →
    (c.session.isSome = true → w.sessionValid = true) →
    w.onWire w.link = w.encrypted w.link ∧ c.Counts (w.encrypted w.link).length
  order : ∀ link, w.onWire link <+: w.encrypted link
  numbered : ∀ counter, SendCounter snow counter → ∀ link,
    (w.messages link).flatMap (Sealed.numbered counter) = (w.encrypted link).zipIdx
  later : ∀ link, w.link < link → w.messages link = []
  spoilt : ∀ link ∈ w.spoilt, link ≤ w.link ∧ (link = w.link → stage.bind Stage.rest = none
    ∧ ∀ c, w.channel = some c → c.failed = true)
  writer : ∀ socket, w.writer = some socket → socket = w.link
  closed : w.lifecycle ≠ .idle → w.writer = none
  sockets : ∀ e ∈ w.wire, e.socket = e.link

namespace Wss.Sound

variable {snow : Snow} {w : Wss snow} {stage : Option Stage}

theorem new (snow : Snow) : (Wss.new snow).Sound none where
  writing _ h := nomatch h
  reading _ h := nomatch h
  usable _ h := nomatch h
  order _ := List.nil_prefix
  numbered _ _ _ := rfl
  later _ _ := rfl
  spoilt _ h := nomatch h
  writer _ h := nomatch h
  closed h := absurd rfl h
  sockets _ h := nomatch h

/-- The tasks are not part of it, but for the stage of the active one. -/
theorem tasks (h : w.Sound stage) (waiting : Nat → Option Waiting) (next : Nat)
    (active : Option Active) (cancelled : Bool) :
    Sound { w with waiting := waiting, next := next, active := active, cancelled := cancelled }
      stage :=
  ⟨h.writing, h.reading, h.usable, h.order, h.numbered, h.later, h.spoilt, h.writer, h.closed,
    h.sockets⟩

/-- A task that does not write ends, or waits for the channel's lock. -/
theorem idle (h : w.Sound stage) {stage' : Option Stage} (hrest : stage'.bind Stage.rest = none)
    (hreading : stage' = some .reading → ∀ c, w.channel = some c → c.session = none) :
    w.Sound stage' where
  writing rest hsome := by rw [hrest] at hsome; cases hsome
  reading c hstage hc := hreading hstage c hc
  usable := h.usable
  order := h.order
  numbered := h.numbered
  later := h.later
  spoilt link hlink := ⟨(h.spoilt link hlink).1, fun heq =>
    ⟨hrest, ((h.spoilt link hlink).2 heq).2⟩⟩
  writer := h.writer
  closed := h.closed
  sockets := h.sockets

theorem leave (h : w.Sound stage) : (leave w).Sound none :=
  (@idle _ _ _ h none rfl fun h => nomatch h).tasks w.waiting w.next none w.cancelled

/-- `session_valid` is cleared. -/
theorem invalidate (h : w.Sound stage) : Sound { w with sessionValid := false } stage where
  writing := h.writing
  reading := h.reading
  usable c hc hfailed hvalid :=
    h.usable c hc hfailed fun hsome => absurd (hvalid hsome) Bool.false_ne_true
  order := h.order
  numbered := h.numbered
  later := h.later
  spoilt := h.spoilt
  writer := h.writer
  closed := h.closed
  sockets := h.sockets

/-- The channel is gone. -/
theorem clear (h : w.Sound stage) (hrest : stage.bind Stage.rest = none) :
    Sound { w with channel := none } stage where
  writing rest hsome := by rw [hrest] at hsome; cases hsome
  reading c _ hc := nomatch hc
  usable c hc := nomatch hc
  order := h.order
  numbered := h.numbered
  later := h.later
  spoilt link hlink := ⟨(h.spoilt link hlink).1, fun _ => ⟨hrest, fun c hc => nomatch hc⟩⟩
  writer := h.writer
  closed := h.closed
  sockets := h.sockets

/-- The channel's call has failed, and the session is invalid. -/
theorem refuse (h : w.Sound stage) {c c' : NoiseChannel snow} (hc : w.channel = some c)
    (hfailed : c.failed = true → c'.failed = true)
    (hnone : c'.failed = false → c'.session = none → c' = c) :
    Sound (Transport.leave { w with channel := some c', sessionValid := false }) none where
  writing _ hsome := nomatch hsome
  reading _ hstage := nomatch hstage
  usable := by
    rintro _ ⟨⟩ hfailed' hvalid
    have hsession : c'.session = none := by
      rcases hsession : c'.session with _ | session
      · rfl
      · exact absurd (hvalid (by rw [hsession]; rfl)) Bool.false_ne_true
    obtain rfl := hnone hfailed' hsession
    exact h.usable c' hc hfailed' fun hsome => by rw [hsession] at hsome; cases hsome
  order := h.order
  numbered := h.numbered
  later := h.later
  spoilt link hlink := by
    refine ⟨(h.spoilt link hlink).1, fun heq => ⟨rfl, ?_⟩⟩
    rintro _ ⟨⟩
    exact hfailed (((h.spoilt link hlink).2 heq).2 c hc)
  writer := h.writer
  closed := h.closed
  sockets := h.sockets

/-- Every frame is written: the channel may be used again. -/
theorem complete {a : Active} (h : w.Sound (some (.writing []))) :
    (complete w a).2.Sound none := by
  obtain ⟨hwire, c, hc, -, hcounts⟩ := h.writing [] rfl
  have hall : w.onWire w.link = w.encrypted w.link := by simpa [sealedOf] using hwire
  have hdone : ∀ valid, Sound (Transport.leave { w with
      channel := w.channel.map fun c => { c with failed := false }, sessionValid := valid }) none := by
    intro valid
    refine ⟨(fun _ h => nomatch h), (fun _ h => nomatch h), ?_, h.order, h.numbered, h.later, ?_,
      h.writer, h.closed, h.sockets⟩
    · intro c' hc' _ _
      obtain rfl : { c with failed := false } = c' := by
        have : w.channel.map (fun c => { c with failed := false }) = some c' := hc'
        rw [hc] at this
        exact Option.some.inj this
      exact ⟨hall, hcounts.setFailed false⟩
    · intro link hlink
      refine ⟨(h.spoilt link hlink).1, fun heq => ?_⟩
      exact absurd ((h.spoilt link hlink).2 heq).1 (by simp [Stage.rest])
  unfold Transport.complete
  cases a.job with
  | send message => exact hdone w.sessionValid
  | receive data binary => exact hdone _

theorem goOn {a : Active} : ∀ {rest : List NoiseWrite}, w.Sound (some (.writing rest)) →
    (goOn w a rest).2.Sound ((goOn w a rest).2.active.map Active.stage)
  | [], h => by
    have hnone : (Transport.complete w a).2.active = none := by
      unfold Transport.complete
      cases a.job <;> rfl
    show (Transport.complete w a).2.Sound ((Transport.complete w a).2.active.map Active.stage)
    rw [hnone]
    exact h.complete
  | write :: rest, h => h.tasks w.waiting w.next _ w.cancelled

theorem messages_record (w : Wss snow) (a : Active) (c c' : NoiseChannel snow)
    (writes : List NoiseWrite) (link : Nat) :
    (w.record a c c' writes).messages link = w.messages link ++ if w.link = link then
      [{ link := w.link, task := a.task, cipher := c.session.map NoiseSession.transport,
         frames := sealedOf writes }] else [] := by
  unfold Wss.messages Wss.record
  rw [List.filter_append]
  split <;> next hlink => simp [hlink]

theorem encrypted_record (w : Wss snow) (a : Active) (c c' : NoiseChannel snow)
    (writes : List NoiseWrite) (link : Nat) :
    (w.record a c c' writes).encrypted link
      = w.encrypted link ++ if w.link = link then sealedOf writes else [] := by
  unfold Wss.encrypted
  rw [messages_record, List.flatMap_append]
  split <;> simp

/-- A message that a usable channel has encrypted is recorded, and its frames are to be written. -/
theorem record (h : w.Sound stage) {c c' : NoiseChannel snow} {writes : List NoiseWrite} (a : Active)
    (hc : w.channel = some c) (hfailed : c.failed = false)
    (hvalid : c.session.isSome = true → w.sessionValid = true)
    (hcounts : ∀ n, c.Counts n → c'.Counts (n + (sealedOf writes).length)) :
    (w.record a c c' writes).Sound (some (.writing writes)) := by
  obtain ⟨hwire, hn⟩ := h.usable c hc hfailed hvalid
  have hlink : (w.record a c c' writes).encrypted w.link = w.encrypted w.link ++ sealedOf writes := by
    rw [encrypted_record, if_pos rfl]
  refine ⟨?_, (fun _ h => nomatch h), ?_, ?_, ?_, ?_, ?_, h.writer, h.closed, h.sockets⟩
  · rintro _ ⟨⟩
    refine ⟨?_, _, rfl, rfl, ?_⟩
    · show w.onWire w.link ++ _ = (w.record a c c' writes).encrypted w.link
      rw [hlink, hwire]
    · show ({ c' with failed := true } : NoiseChannel snow).Counts
        ((w.record a c c' writes).encrypted w.link).length
      rw [hlink, List.length_append]
      exact (hcounts _ hn).setFailed true
  · rintro _ ⟨⟩ hfailed'
    cases hfailed'
  · intro link
    rw [encrypted_record]
    exact (h.order link).trans (List.prefix_append _ _)
  · -- the new message's frames are numbered on from those before it
    intro counter hcounter link
    rw [messages_record, encrypted_record, List.flatMap_append, h.numbered counter hcounter link]
    split
    · next heq =>
      subst heq
      rw [List.zipIdx_append, List.flatMap_singleton, Sealed.numbered, Nat.zero_add]
      obtain ⟨-, hsession, hnone⟩ := hn counter hcounter
      rcases hcipher : c.session with _ | session
      · rw [hnone hcipher]
        rfl
      · rw [Option.map_some, Option.map_some, Option.getD_some, hsession session hcipher]
    · rw [List.append_nil, List.flatMap_nil, List.append_nil]
  · intro link hlink'
    have hne : ¬ w.link = link := Nat.ne_of_lt hlink'
    rw [messages_record, if_neg hne, h.later link hlink', List.nil_append]
  · intro link hmem
    refine ⟨(h.spoilt link hmem).1, fun heq => ?_⟩
    have := ((h.spoilt link hmem).2 heq).2 c hc
    rw [hfailed] at this
    cases this

theorem startWriting {a : Active} {writes : List NoiseWrite}
    (h : w.Sound (some (.writing writes))) :
    (startWriting w a writes).2.Sound ((startWriting w a writes).2.active.map Active.stage) := by
  unfold Transport.startWriting
  split
  · exact h.invalidate.leave
  · exact h.goOn

/-! ## Steps of a task -/

variable {σ : Type} {env : ChannelEnv σ} {w : Wss env.snow}

theorem received {c : NoiseChannel env.snow} (h : w.Sound stage) (a : Active)
    (hc : w.channel = some c) (hvalid : c.session.isSome = true → w.sessionValid = true)
    (data : Bytes) (binary : Bool) (world : σ) :
    let out := received env w a c (receive env data binary (c, world))
    out.2.Sound (out.2.active.map Active.stage) := by
  intro out
  rcases hr : receive env data binary (c, world) with ⟨err | ⟨message, writes⟩, c', world'⟩
  · have hfailed : c'.failed = true := failed_of_error hr
    show Sound (out.2) (out.2.active.map Active.stage)
    rw [show out = (none, Transport.leave { w with channel := some c', sessionValid := false }) by
      simp only [out, hr, Transport.received]]
    refine h.refuse hc (fun _ => hfailed) fun hnot => ?_
    rw [hfailed] at hnot
    cases hnot
  · show Sound (out.2) (out.2.active.map Active.stage)
    rw [show out = Transport.startWriting (w.record a c c' writes) { a with message := message } writes
      by simp only [out, hr, Transport.received]]
    exact (h.record a hc (not_failed_of_ok hr) hvalid fun n hn => receive_counts hr hn).startWriting

theorem takeNoise (h : w.Sound stage) (a : Active) (world : σ) :
    let out := takeNoise env w a world
    out.2.Sound (out.2.active.map Active.stage) := by
  intro out
  unfold out Transport.takeNoise
  rcases hc : w.channel with _ | c
  · exact h.leave
  rcases hjob : a.job with message | ⟨data, binary⟩
  · dsimp only
    split
    · next hvalid =>
      rcases hr : encode env message (c, world) with ⟨err | writes, c', world'⟩
      · refine h.refuse hc ?_ ?_
        · have hfixed := encode_frame message _ (c, world) rfl
          rw [hr] at hfixed
          intro hfailed
          rw [← hfailed]
          exact congrArg Prod.fst hfixed
        · -- without a session nothing has happened
          intro _ hnone
          have hsession := encode_session message (c, world)
          rw [hr, show c'.session = none from hnone] at hsession
          rcases encode_cases message (c, world) with ⟨he, -⟩ | ⟨session, hsome, -, -⟩
          · rw [hr] at he
            cases he
            rfl
          · rw [hsome] at hsession
            cases hsession
      · exact (h.record a hc (session_of_encoded hr).1 (fun _ => hvalid) fun n hn =>
          encode_counts hr hn).startWriting
    · exact h.leave
  · dsimp only
    split
    · split
      · next hvalid => exact h.received a hc (fun _ => hvalid) data binary world
      · exact h.leave
    · next hsession =>
      have hnone : c.session = none := by simpa using hsession
      -- without a session nothing has been encrypted, so the worker may have the channel
      have hreading : w.Sound (some .reading) := by
        refine h.idle rfl fun _ c' hc' => ?_
        cases hc.symm.trans hc'
        exact hnone
      rw [← hc, ← hjob]
      exact hreading.tasks w.waiting w.next (some { a with stage := .reading }) w.cancelled

theorem finishReading (h : w.Sound (some .reading)) (a : Active) (ha : a.stage = .reading)
    (hactive : w.active = some a) (world : σ) :
    let out := finishReading env w a world
    out.2.Sound (out.2.active.map Active.stage) := by
  intro out
  unfold out Transport.finishReading
  have hsame : w.Sound (w.active.map Active.stage) := by rw [hactive, Option.map_some, ha]; exact h
  rcases hc : w.channel with _ | c
  · exact hsame
  rcases hjob : a.job with message | ⟨data, binary⟩
  · exact hsame
  · refine h.received a hc (fun hsome => ?_) data binary world
    rw [h.reading c rfl hc] at hsome
    cases hsome

/-- A write that is dropped or fails leaves a channel that has failed. -/
theorem spoil {rest : List NoiseWrite} (h : w.Sound stage)
    (hrest : stage.bind Stage.rest = some rest) :
    Sound (Transport.leave { w with sessionValid := false, spoilt := w.spoilt ++ [w.link] })
      none := by
  obtain ⟨-, c, hc, hfailed, -⟩ := h.writing rest hrest
  have hall : ∀ c', w.channel = some c' → c'.failed = true := by
    intro c' hc'
    cases hc.symm.trans hc'
    exact hfailed
  refine ⟨(fun _ h => nomatch h), (fun _ h => nomatch h), ?_, h.order, h.numbered, h.later, ?_,
    h.writer, h.closed, h.sockets⟩
  · intro c' hc' hnot
    rw [hall c' hc'] at hnot
    cases hnot
  · intro link hlink
    rcases List.mem_append.mp hlink with hlink | hlink
    · exact ⟨(h.spoilt link hlink).1, fun _ => ⟨rfl, hall⟩⟩
    · obtain rfl := List.mem_singleton.mp hlink
      exact ⟨Nat.le_refl _, fun _ => ⟨rfl, hall⟩⟩

theorem stop {a : Active} (h : w.Sound (some a.stage)) : (stop w a).Sound none := by
  unfold Transport.stop
  rcases hstage : a.stage with _ | _ | rest | rest <;> rw [hstage] at h
  · exact h.leave
  · exact (h.invalidate.clear rfl).leave
  · exact h.spoil rfl
  · exact h.spoil rfl

/-- A frame goes to the socket. -/
theorem handOver {write : NoiseWrite} {rest : List NoiseWrite}
    (h : w.Sound (some (.writing (write :: rest)))) {socket task : Nat}
    (hsocket : w.writer = some socket) (active : Option Active) :
    Sound { w with
      wire := w.wire ++ [{ socket := socket, link := w.link, task := task, write := write }]
      active := active } (some (.flushing rest)) := by
  obtain ⟨hwire, hc⟩ := h.writing _ rfl
  have honWire : ∀ link, Wss.onWire { w with
      wire := w.wire ++ [{ socket := socket, link := w.link, task := task, write := write }]
      active := active } link
      = w.onWire link ++ if w.link = link then sealedOf [write] else [] := by
    intro link
    unfold Wss.onWire
    rw [List.filter_append, List.map_append, sealedOf_append]
    split <;> next hlink => simp [hlink, sealedOf]
  -- what is written and what is left to write are still what was encrypted
  have hnow : w.onWire w.link ++ sealedOf [write] ++ sealedOf rest = w.encrypted w.link := by
    rw [List.append_assoc, ← sealedOf_append]
    exact hwire
  refine ⟨?_, (fun _ h => nomatch h), ?_, ?_, h.numbered, h.later, ?_, h.writer, h.closed, ?_⟩
  · rintro _ ⟨⟩
    refine ⟨?_, hc⟩
    show Wss.onWire _ w.link ++ _ = w.encrypted w.link
    rw [honWire, if_pos rfl]
    exact hnow
  · intro c hc' hnot
    obtain ⟨c', hc'', hfailed, -⟩ := hc
    cases hc''.symm.trans hc'
    rw [hfailed] at hnot
    cases hnot
  · intro link
    rw [honWire]
    split
    · next heq =>
      subst heq
      exact ⟨sealedOf rest, hnow⟩
    · rw [List.append_nil]
      exact h.order link
  · intro link hlink
    refine ⟨(h.spoilt link hlink).1, fun heq => ?_⟩
    exact absurd ((h.spoilt link hlink).2 heq).1 (by simp [Stage.rest])
  · intro e he
    rcases List.mem_append.mp he with he | he
    · exact h.sockets e he
    · obtain rfl := List.mem_singleton.mp he
      exact h.writer socket hsocket

/-! ## Steps of a connect -/

theorem closeWriter (h : w.Sound stage) :
    Sound { w with writer := none, lifecycle := .closed } stage :=
  ⟨h.writing, h.reading, h.usable, h.order, h.numbered, h.later, h.spoilt, (fun _ h => nomatch h),
    fun _ => rfl, h.sockets⟩

theorem openSocket (h : w.Sound stage) :
    Sound { w with writer := some w.link, lifecycle := .idle } stage :=
  ⟨h.writing, h.reading, h.usable, h.order, h.numbered, h.later, h.spoilt,
    (fun _ h => (Option.some.inj h).symm), fun h => absurd rfl h, h.sockets⟩

theorem giveUp (h : w.Sound stage) : Sound { w with lifecycle := .idle } stage :=
  ⟨h.writing, h.reading, h.usable, h.order, h.numbered, h.later, h.spoilt, h.writer,
    fun h => absurd rfl h, h.sockets⟩

/-- A new channel has encrypted and written nothing. -/
theorem makeChannel (h : w.Sound stage) (hrest : stage.bind Stage.rest = none)
    (hreading : stage ≠ some .reading) (hclosed : w.lifecycle = .closed) (identity : Identity)
    (stateDir : Option String) (forceXx : Bool) (adoptFrom : Option String) :
    Sound { w with
      link := w.link + 1
      channel := some (NoiseChannel.new env.snow identity stateDir forceXx adoptFrom)
      lifecycle := .made } stage := by
  have hwriter : w.writer = none := h.closed (by rw [hclosed]; decide)
  have hnothing : w.encrypted (w.link + 1) = [] := by
    rw [Wss.encrypted, h.later _ (Nat.lt_succ_self _), List.flatMap_nil]
  have hunwritten : w.onWire (w.link + 1) = [] := by
    have := h.order (w.link + 1)
    rwa [hnothing, List.prefix_nil] at this
  refine ⟨?_, fun c hstage => absurd hstage hreading, ?_, h.order, h.numbered, ?_, ?_, ?_, fun _ => hwriter,
    h.sockets⟩
  · intro rest hsome
    rw [hrest] at hsome
    cases hsome
  · rintro _ ⟨⟩ - -
    refine ⟨hunwritten.trans hnothing.symm, ?_⟩
    show (NoiseChannel.new env.snow identity stateDir forceXx adoptFrom).Counts
      (w.encrypted (w.link + 1)).length
    rw [hnothing]
    exact counts_new _ _ _ _ _
  · exact fun link hlink => h.later link (Nat.lt_of_succ_lt hlink)
  · intro link hlink
    have hle := (h.spoilt link hlink).1
    exact ⟨Nat.le_succ_of_le hle, fun heq => absurd heq (Nat.ne_of_lt (Nat.lt_succ_of_le hle))⟩
  · intro socket hsocket
    rw [show w.writer = some socket from hsocket] at hwriter
    cases hwriter

/-! ## Every step -/

theorem submitted (h : w.Sound stage) (waiting : Nat → Option Waiting) (next : Nat) :
    Sound { w with waiting := waiting, next := next } stage :=
  h.tasks waiting next w.active w.cancelled

theorem takeWriter (h : w.Sound (w.active.map Active.stage)) (i : Nat) (t : Waiting) :
    (takeWriter w i t).Sound ((takeWriter w i t).active.map Active.stage) := by
  have hidle : w.Sound (some .atNoise) := h.idle rfl fun h => absurd h (by simp)
  unfold Transport.takeWriter
  rcases t.job with message | ⟨data, binary⟩
  · dsimp only
    split
    · exact h.submitted _ w.next
    · exact hidle.tasks _ w.next _ w.cancelled
  · exact hidle.tasks _ w.next _ w.cancelled

end Wss.Sound

variable {σ : Type} {env : ChannelEnv σ}

/-- Whoever takes the channel's lock does so while nobody writes. -/
theorem rest_of_noiseFree {w : Wss env.snow} (h : w.noiseFree = true) :
    (w.active.map Active.stage).bind Stage.rest = none
    ∧ w.active.map Active.stage ≠ some .reading := by
  unfold Wss.noiseFree at h
  rcases hactive : w.active with _ | ⟨task, job, stage, message⟩
  · exact ⟨rfl, by simp⟩
  · rw [hactive] at h
    cases stage with
    | atNoise => exact ⟨rfl, by simp⟩
    | _ => cases h

/-- **Every step keeps the invariant.** -/
theorem wssStep_sound {w : Wss env.snow} (h : w.Sound (w.active.map Active.stage))
    (event : WssEvent σ) :
    (wssStep env w event).2.Sound ((wssStep env w event).2.active.map Active.stage) := by
  cases event with
  | submit job => exact h.submitted _ _
  | withdraw i => exact h.submitted _ w.next
  | abort i => exact h.submitted _ w.next
  | takeWriter i =>
    simp only [wssStep]
    split
    · next t hactive hwaiting => exact h.takeWriter i t
    · exact h
  | takeNoise world =>
    simp only [wssStep]
    split
    · exact h.takeNoise _ world
    · exact h
  | finishReading world =>
    simp only [wssStep]
    split
    · next task job message hactive =>
      rw [hactive] at h
      exact Wss.Sound.finishReading h _ rfl hactive world
    · exact h
  | handOver =>
    simp only [wssStep]
    split
    · next task job write rest message socket hactive hsocket =>
      rw [hactive] at h
      exact Wss.Sound.handOver h hsocket _
    · exact h
  | flushed =>
    simp only [wssStep]
    split
    · next task job rest message hactive =>
      rw [hactive] at h
      -- what is left to write does not depend on the frame being flushed
      have hwriting : w.Sound (some (.writing rest)) :=
        ⟨h.writing, (fun _ h => nomatch h), h.usable, h.order, h.numbered, h.later, h.spoilt,
          h.writer, h.closed, h.sockets⟩
      exact hwriting.goOn
    · exact h
  | stop =>
    simp only [wssStep]
    split
    · next a hactive =>
      rw [hactive] at h
      have hnone : (stop w a).active = none := by
        unfold stop
        split <;> rfl
      dsimp only
      rw [hnone]
      exact Wss.Sound.stop h
    · exact h
  -- the remaining events change no stage, or ask for a free channel
  | cancel cancelled => exact h.tasks w.waiting w.next w.active cancelled
  | invalidate => exact h.invalidate
  | clear =>
    simp only [wssStep]
    split
    · next hfree => exact h.clear (rest_of_noiseFree hfree).1
    · exact h
  | closeWriter =>
    simp only [wssStep]
    split
    · exact h.closeWriter
    · exact h
  | makeChannel identity stateDir forceXx adoptFrom =>
    simp only [wssStep]
    split
    · next hfree =>
      rw [Bool.and_eq_true, decide_eq_true_eq] at hfree
      obtain ⟨hrest, hreading⟩ := rest_of_noiseFree hfree.2
      exact h.makeChannel hrest hreading hfree.1 identity stateDir forceXx adoptFrom
    · exact h
  | openSocket =>
    simp only [wssStep]
    split
    · exact h.openSocket
    · exact h
  | giveUp => exact h.giveUp

end Thalovant.Transport
