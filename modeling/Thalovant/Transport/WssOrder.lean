import Thalovant.Transport.WssInvariant

/-!
# Wire order is cipher order

Over every run of the WebSocket transport: the frames of a session are on the wire in the order they
were encrypted, none left out; nothing follows a write of unknown outcome; and a send that is given up
in time does nothing. The first is the invariant, the other two look at what a step of a task can
touch (`StepOf`).
-/

namespace Thalovant.Transport

open Thalovant.Noise

variable {σ : Type} {env : ChannelEnv σ}

/-! ## What a task leaves alone -/

/-- What a step of a task never touches, but by handing a frame over; and it works for itself alone. -/
structure StepOf {snow : Snow} (w : Wss snow) (task : Nat) (out : Wss snow) : Prop where
  waiting : out.waiting = w.waiting
  next : out.next = w.next
  link : out.link = w.link
  wire : out.wire = w.wire
  spoilt : ∀ link ∈ w.spoilt, link ∈ out.spoilt
  log : ∀ s ∈ out.log, s ∈ w.log ∨ s.task = task
  active : ∀ a, out.active = some a → a.task = task

namespace StepOf

variable {snow : Snow} {w : Wss snow}

theorem ended (task : Nat) (channel : Option (NoiseChannel snow)) (valid : Bool) :
    StepOf w task (leave { w with channel := channel, sessionValid := valid }) :=
  ⟨rfl, rfl, rfl, rfl, fun _ h => h, fun _ h => .inl h, fun _ h => nomatch h⟩

theorem goOn (a : Active) : ∀ rest, StepOf w a.task (goOn w a rest).2
  | [] => by
    unfold Transport.goOn complete
    cases a.job <;> exact ended _ _ _
  | write :: rest => by
    refine ⟨rfl, rfl, rfl, rfl, fun _ h => h, fun _ h => .inl h, ?_⟩
    rintro _ ⟨⟩
    rfl

theorem startWriting (a b : Active) (hab : b.task = a.task) (c c' : NoiseChannel snow)
    (writes : List NoiseWrite) :
    StepOf w a.task (startWriting (w.record a c c' writes) b writes).2 := by
  have hrecord : ∀ {out : Wss snow}, StepOf (w.record a c c' writes) b.task out →
      StepOf w a.task out := by
    intro out h
    refine ⟨h.waiting, h.next, h.link, h.wire, h.spoilt, fun s hs => ?_, hab ▸ h.active⟩
    rcases h.log s hs with hs | hs
    · rcases List.mem_append.mp hs with hs | hs
      · exact .inl hs
      · obtain rfl := List.mem_singleton.mp hs
        exact .inr rfl
    · exact .inr (hs.trans hab)
  unfold Transport.startWriting
  split
  · exact hrecord (ended _ _ _)
  · exact hrecord (goOn b writes)

variable {σ : Type} {env : ChannelEnv σ} {w : Wss env.snow}

theorem received (a : Active) (c : NoiseChannel env.snow) :
    ∀ out, StepOf w a.task (received env w a c out).2
  | (.error _, (_, _)) => ended _ _ _
  | (.ok (message, writes), (c', _)) => startWriting a { a with message := message } rfl c c' writes

theorem takeNoise (a : Active) (world : σ) : StepOf w a.task (takeNoise env w a world).2 := by
  unfold Transport.takeNoise
  split
  · exact ended _ _ _
  · next c hc =>
    split
    · split
      · split
        · exact ended _ _ _
        · exact startWriting a a rfl c _ _
      · exact ended _ _ _
    · split
      · split
        · exact received a c _
        · exact ended _ _ _
      · refine ⟨rfl, rfl, rfl, rfl, fun _ h => h, fun _ h => .inl h, ?_⟩
        rintro _ ⟨⟩
        rfl

theorem same {a : Active} (hactive : w.active = some a) : StepOf w a.task w := by
  refine ⟨rfl, rfl, rfl, rfl, fun _ h => h, fun _ h => .inl h, fun b hb => ?_⟩
  cases hactive.symm.trans hb
  rfl

theorem finishReading {a : Active} (hactive : w.active = some a) (world : σ) :
    StepOf w a.task (finishReading env w a world).2 := by
  unfold Transport.finishReading
  split
  · exact received a _ _
  · exact same hactive

theorem stop (a : Active) : StepOf w a.task (stop w a) := by
  unfold Transport.stop
  split
  · exact ended _ _ _
  · exact ended _ _ _
  all_goals exact ⟨rfl, rfl, rfl, rfl, fun _ h => List.mem_append_left _ h, fun _ h => .inl h,
    fun _ h => nomatch h⟩

end StepOf

/-! ## A step -/

/-- A frame that delivers at once was taken by a channel that had not failed. -/
theorem takeNoise_some {w : Wss env.snow} {a : Active} {world : σ} {message : HiveMessage}
    (h : (takeNoise env w a world).1 = some message) :
    ∃ c, w.channel = some c ∧ c.failed = false := by
  unfold takeNoise at h
  rcases hc : w.channel with _ | c <;> rw [hc] at h
  · cases h
  refine ⟨c, rfl, ?_⟩
  rcases hjob : a.job with message | ⟨data, binary⟩ <;> rw [hjob] at h
  · dsimp only at h
    split at h
    · rcases hr : encode env message (c, world) with ⟨err | writes, c', world'⟩ <;> rw [hr] at h
      · cases h
      · exact (session_of_encoded hr).1
    · cases h
  · dsimp only at h
    split at h
    · split at h
      · rcases hr : receive env data binary (c, world) with ⟨err | r, c', world'⟩ <;> rw [hr] at h
        · cases h
        · exact not_failed_of_ok hr
      · cases h
    · cases h

theorem finishReading_some {w : Wss env.snow} {a : Active} {world : σ} {message : HiveMessage}
    (h : (finishReading env w a world).1 = some message) :
    ∃ c, w.channel = some c ∧ c.failed = false := by
  unfold finishReading at h
  split at h
  · next c data binary hc hjob =>
    refine ⟨c, hc, ?_⟩
    rcases hr : receive env data binary (c, world) with ⟨err | r, c', world'⟩ <;> rw [hr] at h
    · cases h
    · exact not_failed_of_ok hr
  · cases h

/-- A waiting task is one that waited, or the one just submitted. -/
def WaitsFrom {snow : Snow} (w : Wss snow) (event : WssEvent σ) (out : Wss snow) : Prop :=
  w.next ≤ out.next
  ∧ ∀ i t', out.waiting i = some t' →
    i = w.next ∧ (∃ job, event = .submit job)
    ∨ ∃ t, w.waiting i = some t ∧ t'.job = t.job ∧ (t.withdrawn = true → t'.withdrawn = true)

section Waiting

variable {snow : Snow} {w out : Wss snow} {event : WssEvent σ}

theorem waitsFrom_of_same (hwaiting : out.waiting = w.waiting) (hnext : out.next = w.next) :
    WaitsFrom w event out :=
  ⟨Nat.le_of_eq hnext.symm, fun i t' ht' => .inr ⟨t', by rw [← hwaiting]; exact ht', rfl, id⟩⟩

/-- A task that begins or is aborted is taken out. -/
theorem waitsFrom_of_less {j : Nat} (hwaiting : out.waiting = Function.update w.waiting j none)
    (hnext : out.next = w.next) : WaitsFrom w event out := by
  refine ⟨Nat.le_of_eq hnext.symm, fun i t' ht' => ?_⟩
  rw [hwaiting] at ht'
  by_cases hi : i = j
  · rw [hi, Function.update_self] at ht'
    cases ht'
  · rw [Function.update_of_ne hi] at ht'
    exact .inr ⟨t', ht', rfl, id⟩

theorem waitsFrom_submit (w : Wss env.snow) (job : Job) :
    WaitsFrom w (.submit job : WssEvent σ) (wssStep env w (.submit job)).2 := by
  refine ⟨Nat.le_succ _, fun i t' ht' => ?_⟩
  by_cases hi : i = w.next
  · exact .inl ⟨hi, job, rfl⟩
  · have ht : w.waiting i = some t' := by
      rw [← ht']
      exact (Function.update_of_ne hi _ _).symm
    exact .inr ⟨t', ht, rfl, id⟩

theorem waitsFrom_withdraw (w : Wss env.snow) (j : Nat) :
    WaitsFrom w (.withdraw j : WssEvent σ) (wssStep env w (.withdraw j)).2 := by
  refine ⟨Nat.le_refl _, fun i t' ht' => .inr ?_⟩
  by_cases hi : i = j
  · subst hi
    have ht : (w.waiting i).map (fun t => ({ t with withdrawn := true } : Waiting)) = some t' := by
      rw [← ht']
      simp only [wssStep, Function.update_self]
    obtain ⟨t, hwaiting, rfl⟩ := Option.map_eq_some_iff.mp ht
    exact ⟨t, hwaiting, rfl, fun _ => rfl⟩
  · have ht : w.waiting i = some t' := by
      rw [← ht']
      exact (Function.update_of_ne hi _ _).symm
    exact ⟨t', ht, rfl, id⟩

end Waiting

/-- A task takes the writer's lock, unless its caller has given up or the link is retired. -/
theorem takeWriter_cases {snow : Snow} (w : Wss snow) (i : Nat) (t : Waiting) :
    takeWriter w i t = { w with waiting := Function.update w.waiting i none }
    ∨ takeWriter w i t = { w with
        waiting := Function.update w.waiting i none
        active := some { task := i, job := t.job, stage := .atNoise, message := none } }
      ∧ ¬ ((∃ message, t.job = .send message) ∧ t.withdrawn = true) := by
  unfold takeWriter
  rcases t with ⟨message | ⟨data, binary⟩, withdrawn⟩
  · dsimp only
    split
    · exact .inl rfl
    · next hgoes => exact .inr ⟨rfl, fun h => hgoes (by simp [h.2])⟩
  · exact .inr ⟨rfl, fun h => nomatch h.1.choose_spec⟩

/-- Nothing that the tasks have done is touched. -/
structure Beside {snow : Snow} (w out : Wss snow) : Prop where
  active : out.active = w.active
  log : out.log = w.log
  wire : out.wire = w.wire
  spoilt : out.spoilt = w.spoilt

/-- **What a step does**: it is beside the tasks, or one has the writer's lock, or the one that has it
takes a step or hands a frame over. -/
inductive WssStepped (w : Wss env.snow) (event : WssEvent σ) :
    Option HiveMessage × Wss env.snow → Prop where
  | beside (out : Wss env.snow) (h : Beside w out) (hwaits : WaitsFrom w event out) :
    WssStepped w event (none, out)
  | begins (i : Nat) (t : Waiting) (hevent : event = .takeWriter i) (hwaiting : w.waiting i = some t) :
    WssStepped w event (none, takeWriter w i t)
  | task (a : Active) (out : Option HiveMessage × Wss env.snow) (hactive : w.active = some a)
    (h : StepOf w a.task out.2)
    (hdelivers : ∀ message, out.1 = some message →
      (∃ c, w.channel = some c ∧ c.failed = false) ∨ ∃ rest, a.stage.rest = some rest) :
    WssStepped w event out
  | handedOver (task : Nat) (job : Job) (write : NoiseWrite) (rest : List NoiseWrite)
    (message : Option HiveMessage) (socket : Nat)
    (hactive : w.active = some { task, job, stage := .writing (write :: rest), message }) :
    WssStepped w event (none, { w with
      wire := w.wire ++ [{ socket := socket, link := w.link, task := task, write := write }]
      active := some { task, job, stage := .flushing rest, message } })

theorem wssStep_cases (w : Wss env.snow) (event : WssEvent σ) :
    WssStepped w event (wssStep env w event) := by
  have hsame : ∀ {event : WssEvent σ}, WssStepped w event (none, w) :=
    .beside w ⟨rfl, rfl, rfl, rfl⟩ (waitsFrom_of_same rfl rfl)
  -- the steps of a connect or a disconnect wait until no task is in their way
  have hbeside : ∀ {event : WssEvent σ} {b : Bool} {out : Wss env.snow}, Beside w out →
      out.waiting = w.waiting → out.next = w.next →
      WssStepped w event (none, if b then out else w) := by
    intro event b out h hwaiting hnext
    cases b with
    | false => exact hsame
    | true => exact .beside out h (waitsFrom_of_same hwaiting hnext)
  cases event with
  | submit job => exact .beside _ ⟨rfl, rfl, rfl, rfl⟩ (waitsFrom_submit w job)
  | withdraw i => exact .beside _ ⟨rfl, rfl, rfl, rfl⟩ (waitsFrom_withdraw w i)
  | abort i => exact .beside _ ⟨rfl, rfl, rfl, rfl⟩ (waitsFrom_of_less rfl rfl)
  | takeWriter i =>
    simp only [wssStep]
    split
    · next t _ hwaiting => exact .begins i t rfl hwaiting
    · exact hsame
  | takeNoise world =>
    simp only [wssStep]
    split
    · next hactive =>
      exact .task _ _ hactive (StepOf.takeNoise _ world) fun message hm => .inl (takeNoise_some hm)
    · exact hsame
  | finishReading world =>
    simp only [wssStep]
    split
    · next hactive =>
      exact .task _ _ hactive (StepOf.finishReading hactive world) fun message hm =>
        .inl (finishReading_some hm)
    · exact hsame
  | handOver =>
    simp only [wssStep]
    split
    · next hactive _ => exact .handedOver _ _ _ _ _ _ hactive
    · exact hsame
  | flushed =>
    simp only [wssStep]
    split
    · next hactive => exact .task _ _ hactive (StepOf.goOn _ _) fun _ _ => .inr ⟨_, rfl⟩
    · exact hsame
  | stop =>
    simp only [wssStep]
    split
    · next a hactive =>
      exact .task a _ hactive (StepOf.stop a) fun _ hm => (Option.some_ne_none _ hm.symm).elim
    · exact hsame
  | cancel cancelled => exact .beside _ ⟨rfl, rfl, rfl, rfl⟩ (waitsFrom_of_same rfl rfl)
  | invalidate => exact .beside _ ⟨rfl, rfl, rfl, rfl⟩ (waitsFrom_of_same rfl rfl)
  | clear => exact hbeside ⟨rfl, rfl, rfl, rfl⟩ rfl rfl
  | closeWriter => exact hbeside ⟨rfl, rfl, rfl, rfl⟩ rfl rfl
  | makeChannel identity stateDir forceXx adoptFrom => exact hbeside ⟨rfl, rfl, rfl, rfl⟩ rfl rfl
  | openSocket => exact hbeside ⟨rfl, rfl, rfl, rfl⟩ rfl rfl
  | giveUp => exact .beside _ ⟨rfl, rfl, rfl, rfl⟩ (waitsFrom_of_same rfl rfl)

/-! ## After a write of unknown outcome -/

/-- **A session with a write of unknown outcome is over**: nothing more is written or delivered. -/
theorem wssStep_spoilt {w : Wss env.snow} (h : w.Sound (w.active.map Active.stage))
    {link : Nat} (hlink : link ∈ w.spoilt) (event : WssEvent σ) :
    link ∈ (wssStep env w event).2.spoilt
    ∧ (wssStep env w event).2.onWire link = w.onWire link
    ∧ ∀ message, (wssStep env w event).1 = some message → w.link ≠ link := by
  -- a session with such a write has a failed channel, and no frames left to write
  have hfailed : ∀ c, w.channel = some c → c.failed = false → w.link ≠ link := by
    intro c hc hnot heq
    rw [((h.spoilt link hlink).2 heq.symm).2 c hc] at hnot
    cases hnot
  have hrest : ∀ a rest, w.active = some a → a.stage.rest = some rest → w.link ≠ link := by
    intro a rest hactive hsome heq
    have hnone := ((h.spoilt link hlink).2 heq.symm).1
    rw [hactive] at hnone
    cases hsome.symm.trans hnone
  have hstepped := wssStep_cases w event
  generalize wssStep env w event = out at hstepped
  cases hstepped with
  | beside out hbeside =>
    refine ⟨hbeside.spoilt ▸ hlink, ?_, fun _ hm => nomatch hm⟩
    unfold Wss.onWire
    rw [hbeside.wire]
  | begins i t =>
    rcases takeWriter_cases w i t with heq | ⟨heq, -⟩ <;> rw [heq] <;>
      exact ⟨hlink, rfl, fun _ hm => nomatch hm⟩
  | task a out hactive hstep hdelivers =>
    refine ⟨hstep.spoilt link hlink, by unfold Wss.onWire; rw [hstep.wire], fun message hm => ?_⟩
    rcases hdelivers message hm with ⟨c, hc, hnot⟩ | ⟨rest, hsome⟩
    · exact hfailed c hc hnot
    · exact hrest a rest hactive hsome
  | handedOver task job write rest message socket hactive =>
    have hne := hrest _ _ hactive rfl
    refine ⟨hlink, ?_, fun _ hm => nomatch hm⟩
    simp [Wss.onWire, List.filter_append, hne]

/-! ## A send whose caller gave up -/

/-- The task has done nothing: it is not under way, and nothing was encrypted or written for it. -/
def Wss.Untouched {snow : Snow} (w : Wss snow) (i : Nat) : Prop :=
  (∀ a, w.active = some a → a.task ≠ i) ∧ (∀ s ∈ w.log, s.task ≠ i) ∧ ∀ e ∈ w.wire, e.task ≠ i

theorem StepOf.untouched {snow : Snow} {w out : Wss snow} {task i : Nat} (h : StepOf w task out)
    (hne : task ≠ i) (hw : w.Untouched i) : out.Untouched i := by
  refine ⟨fun a ha => by rw [h.active a ha]; exact hne, fun s hs => ?_, by rw [h.wire]; exact hw.2.2⟩
  rcases h.log s hs with hs | hs
  · exact hw.2.1 s hs
  · rw [hs]
    exact hne

/-- A task does something only once it has the writer's lock. -/
theorem wssStep_untouched {w : Wss env.snow} {i : Nat} (hw : w.Untouched i) (event : WssEvent σ)
    (htake : ∀ t, event = .takeWriter i → w.waiting i = some t →
      (∃ message, t.job = .send message) ∧ t.withdrawn = true) :
    (wssStep env w event).2.Untouched i := by
  have hstepped := wssStep_cases w event
  generalize wssStep env w event = out at hstepped
  cases hstepped with
  | beside out hbeside =>
    unfold Wss.Untouched
    rw [hbeside.active, hbeside.log, hbeside.wire]
    exact hw
  | begins j t hevent hwaiting =>
    rcases takeWriter_cases w j t with heq | ⟨heq, hgoes⟩ <;> rw [heq]
    · exact hw
    · refine ⟨?_, hw.2.1, hw.2.2⟩
      rintro _ ⟨⟩ rfl
      exact hgoes (htake t hevent hwaiting)
  | task a out hactive hstep => exact hstep.untouched (hw.1 a hactive) hw
  | handedOver task job write rest message socket hactive =>
    have hne : task ≠ i := hw.1 _ hactive
    refine ⟨?_, hw.2.1, fun e he => ?_⟩
    · rintro _ ⟨⟩
      exact hne
    · rcases List.mem_append.mp he with he | he
      · exact hw.2.2 e he
      · obtain rfl := List.mem_singleton.mp he
        exact hne

theorem wssStep_waiting (w : Wss env.snow) (event : WssEvent σ) :
    WaitsFrom w event (wssStep env w event).2 := by
  have hstepped := wssStep_cases w event
  generalize wssStep env w event = out at hstepped
  cases hstepped with
  | beside out _ hwaits => exact hwaits
  | begins i t =>
    rcases takeWriter_cases w i t with heq | ⟨heq, -⟩ <;> rw [heq] <;>
      exact waitsFrom_of_less rfl rfl
  | task a out hactive hstep => exact waitsFrom_of_same hstep.waiting hstep.next
  | handedOver => exact waitsFrom_of_same rfl rfl

/-- Tasks that wait, and those to come, have done nothing. -/
def Wss.Orderly {snow : Snow} (w : Wss snow) : Prop :=
  (∀ i, w.next ≤ i → w.waiting i = none ∧ w.Untouched i)
  ∧ ∀ i t, w.waiting i = some t → w.Untouched i

theorem wssStep_orderly {w : Wss env.snow} (h : w.Orderly) (event : WssEvent σ) :
    (wssStep env w event).2.Orderly := by
  obtain ⟨hbeyond, hwaits⟩ := h
  obtain ⟨hnext, hwaiting⟩ := wssStep_waiting w event
  refine ⟨fun i hi => ?_, fun i t' ht' => ?_⟩
  · obtain ⟨hnone, huntouched⟩ := hbeyond i (hnext.trans hi)
    refine ⟨?_, wssStep_untouched huntouched event fun t _ ht => ?_⟩
    · rcases ht' : (wssStep env w event).2.waiting i with _ | t'
      · rfl
      · rcases hwaiting i t' ht' with ⟨rfl, job, rfl⟩ | ⟨t, ht, -⟩
        · exact absurd hi (Nat.not_succ_le_self w.next)
        · rw [hnone] at ht
          cases ht
    · rw [hnone] at ht
      cases ht
  · rcases hwaiting i t' ht' with ⟨rfl, job, rfl⟩ | ⟨t, ht, -⟩
    · exact (hbeyond w.next (Nat.le_refl _)).2
    · by_cases htake : event = .takeWriter i
      · -- a task that is still waiting has not got the lock
        subst htake
        rcases hactive : w.active with _ | a
        · have hgone : (wssStep env w (.takeWriter i)).2.waiting i = none := by
            simp only [wssStep, hactive, ht]
            rcases takeWriter_cases w i t with heq | ⟨heq, -⟩ <;> rw [heq] <;>
              exact Function.update_self i _ _
          rw [hgone] at ht'
          cases ht'
        · have hsame : (wssStep env w (.takeWriter i)).2 = w := by simp only [wssStep, hactive]
          rw [hsame]
          exact hwaits i t ht
      · exact wssStep_untouched (hwaits i t ht) event fun _ h _ => absurd h htake

/-- The caller of the send has given up, and it has not got the writer's lock. -/
def Wss.GaveUp {snow : Snow} (w : Wss snow) (i : Nat) : Prop :=
  i < w.next ∧ w.Untouched i
  ∧ ∀ t, w.waiting i = some t → (∃ message, t.job = .send message) ∧ t.withdrawn = true

theorem wssStep_gaveUp {i : Nat} (w : Wss env.snow) (event : WssEvent σ) (h : w.GaveUp i) :
    (wssStep env w event).2.GaveUp i := by
  obtain ⟨hlt, huntouched, hwithdrawn⟩ := h
  obtain ⟨hnext, hwaiting⟩ := wssStep_waiting w event
  refine ⟨hlt.trans_le hnext, wssStep_untouched huntouched event fun t _ ht => hwithdrawn t ht, ?_⟩
  intro t' ht'
  rcases hwaiting i t' ht' with ⟨rfl, -⟩ | ⟨t, ht, hjob, hkept⟩
  · exact absurd hlt (Nat.lt_irrefl _)
  · rw [hjob]
    exact ⟨(hwithdrawn t ht).1, hkept (hwithdrawn t ht).2⟩

/-! ## Every run -/

theorem sound_final (events : List (WssEvent σ)) :
    (Machine.final (wssStep env) (Wss.new env.snow) events).Sound
      ((Machine.final (wssStep env) (Wss.new env.snow) events).active.map Active.stage) :=
  Machine.final_invariant
    (P := fun w : Wss env.snow => w.Sound (w.active.map Active.stage))
    (fun _ event h => wssStep_sound h event) events (Wss.Sound.new env.snow)

theorem orderly_final (events : List (WssEvent σ)) :
    (Machine.final (wssStep env) (Wss.new env.snow) events).Orderly := by
  refine Machine.final_invariant (P := fun w : Wss env.snow => w.Orderly)
    (fun _ event h => wssStep_orderly h event) events ?_
  have hnothing : ∀ i, (Wss.new env.snow).Untouched i := fun i =>
    ⟨(fun _ h => nomatch h), (fun _ h => nomatch h), fun _ h => nomatch h⟩
  exact ⟨fun i _ => ⟨rfl, hnothing i⟩, fun i _ _ => hnothing i⟩

/--
**Wire order is cipher order.**

For every interleaving of sends, callers that give up, frames received, writes that time out, fail or
are dropped, and connects and disconnects:

* What has been written under a session is a prefix of the messages it has encrypted, in order; it is
  all on the socket of its link. The frame at each place of them is the one of that send counter.
* Once a write of a session has been dropped or has failed, no frame of it is written and no message
  of it is delivered any more.
* A send whose caller gives up before it has the writer's lock encrypts and writes nothing.
-/
theorem wire_order_is_cipher_order (events : List (WssEvent σ)) :
    let w := Machine.final (wssStep env) (Wss.new env.snow) events
    (∀ link, w.onWire link <+: (w.messages link).flatMap Sealed.frames)
    ∧ (∀ e ∈ w.wire, e.socket = e.link)
    ∧ (∀ counter, SendCounter env.snow counter → ∀ link,
      (w.messages link).flatMap (Sealed.numbered counter)
        = ((w.messages link).flatMap Sealed.frames).zipIdx)
    ∧ (∀ link ∈ w.spoilt, ∀ later,
      (Machine.final (wssStep env) w later).onWire link = w.onWire link
      ∧ ∀ event message, (wssStep env (Machine.final (wssStep env) w later) event).1 = some message →
        (Machine.final (wssStep env) w later).link ≠ link)
    ∧ (∀ i message, w.waiting i = some { job := .send message, withdrawn := true } → ∀ later,
      (∀ s ∈ (Machine.final (wssStep env) w later).log, s.task ≠ i)
      ∧ ∀ e ∈ (Machine.final (wssStep env) w later).wire, e.task ≠ i) := by
  intro w
  have hsound := @sound_final _ env events
  refine ⟨hsound.order, hsound.sockets, hsound.numbered, ?_, ?_⟩
  · intro link hlink later
    have hrun : ∀ later, (Machine.final (wssStep env) w later).Sound
          ((Machine.final (wssStep env) w later).active.map Active.stage)
        ∧ link ∈ (Machine.final (wssStep env) w later).spoilt
        ∧ (Machine.final (wssStep env) w later).onWire link = w.onWire link := fun later =>
      Machine.final_invariant
        (P := fun v : Wss env.snow => v.Sound (v.active.map Active.stage) ∧ link ∈ v.spoilt
          ∧ v.onWire link = w.onWire link)
        (fun v event ⟨hv, hmem, hsame⟩ => by
          obtain ⟨hmem', hsame', -⟩ := wssStep_spoilt hv hmem event
          exact ⟨wssStep_sound hv event, hmem', hsame'.trans hsame⟩)
        later ⟨hsound, hlink, rfl⟩
    obtain ⟨hv, hmem, hsame⟩ := hrun later
    exact ⟨hsame, fun event message hm => (wssStep_spoilt hv hmem event).2.2 message hm⟩
  · intro i message hwaiting later
    obtain ⟨hbeyond, hwaits⟩ := @orderly_final _ env events
    have hlt : i < w.next := by
      refine Nat.lt_of_not_le fun hle => ?_
      have hnone := (hbeyond i hle).1
      rw [show (Machine.final (wssStep env) (Wss.new env.snow) events).waiting i = w.waiting i from rfl,
        hwaiting] at hnone
      cases hnone
    have hgave : w.GaveUp i := by
      refine ⟨hlt, hwaits i _ hwaiting, fun t ht => ?_⟩
      cases hwaiting.symm.trans ht
      exact ⟨⟨message, rfl⟩, rfl⟩
    have hend := Machine.final_invariant (P := fun v : Wss env.snow => v.GaveUp i)
      wssStep_gaveUp later hgave
    exact hend.2.1.2

end Thalovant.Transport
