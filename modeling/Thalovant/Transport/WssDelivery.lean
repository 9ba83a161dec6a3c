import Thalovant.Transport.ChannelSafety
import Thalovant.Transport.Delivery
import Thalovant.Transport.WssOrder

/-!
# The messages of a WebSocket

Whatever runs over the transport, the messages of a link are those of its tasks, one of each at most, and
all encrypted from the cipher that the session of the link has begun with (`BegunWith`).

A step of a task keeps the log, or adds one message of its own (`Progress`). The invariant says what the
channel of the link has encrypted (`Wss.Accounts`), and goes through the functions of a task one by one
as that of the wire does.
-/

namespace Thalovant.Transport

open Thalovant.Noise

variable {σ : Type} {env : ChannelEnv σ}

/-! ## The tasks and their messages -/

def submitted : WssEvent σ → Option Job
  | .submit job => some job
  | _ => none

/-- The jobs of the tasks, which are numbered as they are submitted. -/
def jobsOf (events : List (WssEvent σ)) (i : Nat) : Option Job := (events.filterMap submitted)[i]?

theorem jobsOf_append {events : List (WssEvent σ)} (more : List (WssEvent σ)) {i : Nat} {job : Job}
    (h : jobsOf events i = some job) : jobsOf (events ++ more) i = some job := by
  unfold jobsOf at h ⊢
  rw [List.filterMap_append, List.getElem?_append_left (List.getElem?_eq_some_iff.mp h).1]
  exact h

/-- A job that is submitted is that of the next number. -/
theorem jobsOf_submit (events : List (WssEvent σ)) (job : Job) :
    jobsOf (events ++ [.submit job]) (events.filterMap submitted).length = some job := by
  unfold jobsOf
  rw [List.filterMap_append, List.getElem?_append_right (Nat.le_refl _), Nat.sub_self]
  rfl

/-- What a step of a task leaves: the log as it was, or with one message of the task. -/
inductive Progress {snow : Snow} (w : Wss snow) (a : Active) (out : Wss snow) : Prop where
  | kept (hlog : out.log = w.log)
    (hactive : ∀ b, out.active = some b →
      b.task = a.task ∧ b.job = a.job ∧ (b.stage.rest = none ↔ a.stage.rest = none))
  | recorded (s : Sealed snow) (hlog : out.log = w.log ++ [s]) (htask : s.task = a.task)
    (hlink : s.link = w.link) (hsent : ∀ message, a.job = .send message → s.frames ≠ [])
    (hrest : a.stage.rest = none)
    (hactive : ∀ b, out.active = some b → b.task = a.task ∧ b.job = a.job ∧ b.stage.rest ≠ none)

namespace Progress

variable {snow : Snow} {w : Wss snow}

theorem ended (a : Active) (channel : Option (NoiseChannel snow)) (valid : Bool) :
    Progress w a (leave { w with channel := channel, sessionValid := valid }) :=
  .kept rfl fun _ h => nomatch h

theorem goOn (a : Active) (rest : List NoiseWrite) :
    (goOn w a rest).2.log = w.log
    ∧ ∀ b, (goOn w a rest).2.active = some b →
      b.task = a.task ∧ b.job = a.job ∧ b.stage.rest ≠ none := by
  cases rest with
  | nil =>
    unfold Transport.goOn complete
    cases a.job <;> exact ⟨rfl, fun _ h => nomatch h⟩
  | cons write rest =>
    refine ⟨rfl, ?_⟩
    rintro _ ⟨⟩
    exact ⟨rfl, rfl, fun h => nomatch h⟩

theorem startWriting (a b : Active) (htask : b.task = a.task) (hjob : b.job = a.job)
    (hrest : a.stage.rest = none) (c c' : NoiseChannel snow) (writes : List NoiseWrite)
    (hsent : ∀ message, a.job = .send message → sealedOf writes ≠ []) :
    Progress w a (startWriting (w.record a c c' writes) b writes).2 := by
  unfold Transport.startWriting
  split
  · exact .recorded _ rfl rfl rfl hsent hrest fun _ h => nomatch h
  · obtain ⟨hlog, hactive⟩ := @goOn snow (w.record a c c' writes) b writes
    exact .recorded _ hlog rfl rfl hsent hrest fun b' hb' => by
      obtain ⟨ht, hj, hr⟩ := hactive b' hb'
      exact ⟨ht.trans htask, hj.trans hjob, hr⟩

variable {w : Wss env.snow}

theorem received (a : Active) (hrest : a.stage.rest = none) {data : Bytes} {binary : Bool}
    (hjob : a.job = .receive data binary) (c : NoiseChannel env.snow) :
    ∀ out, Progress w a (received env w a c out).2
  | (.error _, (_, _)) => ended _ _ _
  | (.ok (message, writes), (c', _)) =>
    startWriting a { a with message := message } rfl rfl hrest c c' writes fun message hsend => by
      cases hjob.symm.trans hsend

theorem takeNoise (a : Active) (hstage : a.stage = .atNoise) (world : σ) :
    Progress w a (takeNoise env w a world).2 := by
  have hrest : a.stage.rest = none := by rw [hstage]; rfl
  unfold Transport.takeNoise
  split
  · exact ended _ _ _
  · next c hc =>
    split
    · split
      · split
        · exact ended _ _ _
        · next writes c' world' hencode =>
          obtain ⟨session, payload, frames, t', -, -, hwrite, rfl, -⟩ := encode_ok hencode
          refine startWriting a a rfl rfl hrest c _ _ fun _ _ => ?_
          rw [sealedOf_asWrites]
          exact asWrites_ne_nil hwrite
      · exact ended _ _ _
    · next data binary hjob =>
      split
      · split
        · exact received a hrest hjob c _
        · exact ended _ _ _
      · refine .kept rfl ?_
        rintro _ ⟨⟩
        exact ⟨rfl, rfl, (fun _ => hrest), fun _ => rfl⟩

theorem same {a : Active} (hactive : w.active = some a) : Progress w a w := by
  refine .kept rfl fun b hb => ?_
  cases hactive.symm.trans hb
  exact ⟨rfl, rfl, Iff.rfl⟩

theorem finishReading {a : Active} (hactive : w.active = some a) (hstage : a.stage = .reading)
    (world : σ) : Progress w a (finishReading env w a world).2 := by
  unfold Transport.finishReading
  split
  · next hjob => exact received a (by rw [hstage]; rfl) hjob _ _
  · exact same hactive

theorem stop (a : Active) : Progress w a (stop w a) := by
  unfold Transport.stop
  split <;> exact .kept rfl fun _ h => nomatch h

end Progress

/-- A step is one of the task that has the writer's lock, or keeps the log. -/
theorem wssStep_progress (w : Wss env.snow) (event : WssEvent σ) :
    (∃ a, w.active = some a ∧ (wssStep env w event).2.link = w.link
      ∧ Progress w a (wssStep env w event).2)
    ∨ (wssStep env w event).2.log = w.log
      ∧ ((wssStep env w event).2.active = w.active
          ∧ ((wssStep env w event).2.link = w.link ∨ ∀ a, w.active = some a → a.stage.rest = none)
        ∨ ∃ i t, w.waiting i = some t ∧ (wssStep env w event).2.active
            = some { task := i, job := t.job, stage := .atNoise, message := none }) := by
  cases event with
  | takeWriter i =>
    simp only [wssStep]
    split
    · next t hactive hwaiting =>
      rcases takeWriter_cases w i t with heq | ⟨heq, -⟩ <;> rw [heq]
      · exact .inr ⟨rfl, .inl ⟨rfl, .inl rfl⟩⟩
      · exact .inr ⟨rfl, .inr ⟨i, t, hwaiting, rfl⟩⟩
    · exact .inr ⟨rfl, .inl ⟨rfl, .inl rfl⟩⟩
  | takeNoise world =>
    simp only [wssStep]
    split
    · next hactive => exact .inl ⟨_, hactive, (StepOf.takeNoise _ world).link, .takeNoise _ rfl world⟩
    · exact .inr ⟨rfl, .inl ⟨rfl, .inl rfl⟩⟩
  | finishReading world =>
    simp only [wssStep]
    split
    · next hactive =>
      exact .inl ⟨_, hactive, (StepOf.finishReading hactive world).link, .finishReading hactive rfl world⟩
    · exact .inr ⟨rfl, .inl ⟨rfl, .inl rfl⟩⟩
  | handOver =>
    simp only [wssStep]
    split
    · next hactive _ =>
      refine .inl ⟨_, hactive, rfl, .kept rfl ?_⟩
      rintro _ ⟨⟩
      exact ⟨rfl, rfl, (fun h => by cases h), fun h => by cases h⟩
    · exact .inr ⟨rfl, .inl ⟨rfl, .inl rfl⟩⟩
  | flushed =>
    simp only [wssStep]
    split
    · next task job rest message hactive =>
      refine .inl ⟨_, hactive, (StepOf.goOn _ rest).link, ?_⟩
      obtain ⟨hlog, hnext⟩ := @Progress.goOn env.snow w
        { task, job, stage := .flushing rest, message } rest
      exact .kept hlog fun b hb => ⟨(hnext b hb).1, (hnext b hb).2.1,
        (fun hnone => absurd hnone (hnext b hb).2.2), fun hnone => by cases hnone⟩
    · exact .inr ⟨rfl, .inl ⟨rfl, .inl rfl⟩⟩
  | stop =>
    simp only [wssStep]
    split
    · next a hactive => exact .inl ⟨a, hactive, (StepOf.stop a).link, .stop a⟩
    · exact .inr ⟨rfl, .inl ⟨rfl, .inl rfl⟩⟩
  | makeChannel =>
    simp only [wssStep]
    split
    · next hfree =>
      rw [Bool.and_eq_true] at hfree
      refine .inr ⟨rfl, .inl ⟨rfl, .inr fun a ha => ?_⟩⟩
      have hrest := (rest_of_noiseFree hfree.2).1
      rw [ha] at hrest
      exact hrest
    · exact .inr ⟨rfl, .inl ⟨rfl, .inl rfl⟩⟩
  | clear | closeWriter | openSocket =>
    simp only [wssStep]
    split <;> exact .inr ⟨rfl, .inl ⟨rfl, .inl rfl⟩⟩
  | submit | withdraw | abort | cancel | invalidate | giveUp => exact .inr ⟨rfl, .inl ⟨rfl, .inl rfl⟩⟩

/-- The tasks have their jobs, and no task has more than one message. -/
structure Wss.Employs {snow : Snow} (jobs : Nat → Option Job) (w : Wss snow) : Prop where
  waiting : ∀ i t, w.waiting i = some t → jobs i = some t.job
  active : ∀ a, w.active = some a → jobs a.task = some a.job
  fresh : ∀ a, w.active = some a → a.stage.rest = none → ∀ s ∈ w.log, s.task ≠ a.task
  /-- A send that writes has its message among those of the link. -/
  written : ∀ a message, w.active = some a → a.stage.rest ≠ none → a.job = .send message →
    ∃ s ∈ w.log, s.link = w.link ∧ s.task = a.task ∧ s.frames ≠ []
  once : (w.log.map Sealed.task).Nodup

theorem wssStep_waitingJobs {w : Wss env.snow} (event : WssEvent σ) {i : Nat} {t' : Waiting}
    (h : (wssStep env w event).2.waiting i = some t') :
    (i = w.next ∧ event = .submit t'.job) ∨ ∃ t, w.waiting i = some t ∧ t'.job = t.job := by
  cases event with
  | submit job =>
    by_cases hi : i = w.next
    · subst hi
      have ht : some ({ job := job, withdrawn := false } : Waiting) = some t' := by
        rw [← h]
        simp only [wssStep, Function.update_self]
      cases ht
      exact .inl ⟨rfl, rfl⟩
    · refine .inr ⟨t', ?_, rfl⟩
      rw [← h]
      exact (Function.update_of_ne hi _ _).symm
  | _ =>
    obtain ⟨-, hwaits⟩ := wssStep_waiting w _
    rcases hwaits i t' h with ⟨-, job, hsubmit⟩ | ⟨t, ht, hjob, -⟩
    · cases hsubmit
    · exact .inr ⟨t, ht, hjob⟩

theorem wssStep_employs {jobs jobs' : Nat → Option Job} {w : Wss env.snow} (h : w.Employs jobs)
    (horderly : w.Orderly) (event : WssEvent σ)
    (hjobs : ∀ i job, jobs i = some job → jobs' i = some job)
    (hsubmit : ∀ job, event = .submit job → jobs' w.next = some job) :
    (wssStep env w event).2.Employs jobs' := by
  have hwaiting : ∀ i t', (wssStep env w event).2.waiting i = some t' → jobs' i = some t'.job := by
    intro i t' ht'
    rcases wssStep_waitingJobs event ht' with ⟨rfl, hevent⟩ | ⟨t, ht, hjob⟩
    · exact hsubmit _ hevent
    · rw [hjob]
      exact hjobs i _ (h.waiting i t ht)
  rcases wssStep_progress w event with ⟨a, hactive, hlink, hprogress⟩ | ⟨hlog, hactive⟩
  · generalize wssStep env w event = out at hwaiting hlink hprogress
    have hjob := hjobs _ _ (h.active a hactive)
    cases hprogress with
    | kept hlog hnext =>
      refine ⟨hwaiting, fun b hb => ?_, fun b hb hrest s hs => ?_, fun b message hb hrest hsend => ?_,
        by rw [hlog]; exact h.once⟩
      · obtain ⟨htask, hj, -⟩ := hnext b hb
        rw [htask, hj]
        exact hjob
      · obtain ⟨htask, -, hstage⟩ := hnext b hb
        rw [htask]
        rw [hlog] at hs
        exact h.fresh a hactive (hstage.mp hrest) s hs
      · obtain ⟨htask, hj, hstage⟩ := hnext b hb
        rw [hlog, hlink, htask]
        exact h.written a message hactive (fun hnone => hrest (hstage.mpr hnone)) (hj ▸ hsend)
    | recorded s hlog htask hslink hsent hrest hnext =>
      refine ⟨hwaiting, fun b hb => ?_, fun b hb hnone => absurd hnone (hnext b hb).2.2,
        fun b message hb _ hsend => ?_, ?_⟩
      · obtain ⟨htask', hj, -⟩ := hnext b hb
        rw [htask', hj]
        exact hjob
      · obtain ⟨htask', hj, -⟩ := hnext b hb
        rw [hlog, hlink, htask']
        exact ⟨s, List.mem_append_right _ (List.mem_singleton_self s), hslink, htask,
          hsent message (hj ▸ hsend)⟩
      · rw [hlog, List.map_append, List.map_singleton, htask]
        refine List.nodup_append.mpr ⟨h.once, List.nodup_singleton _, fun x hx y hy => ?_⟩
        obtain ⟨s', hs', rfl⟩ := List.mem_map.mp hx
        rw [List.mem_singleton.mp hy]
        exact h.fresh a hactive hrest s' hs'
  · rcases hactive with ⟨hactive, hlink⟩ | ⟨i, t, ht, hactive⟩
    · refine ⟨hwaiting, fun a ha => ?_, fun a ha hrest => ?_, fun a message ha hrest hsend => ?_,
        by rw [hlog]; exact h.once⟩
      · rw [hactive] at ha
        exact hjobs _ _ (h.active a ha)
      · rw [hactive] at ha
        rw [hlog]
        exact h.fresh a ha hrest
      · rw [hactive] at ha
        rcases hlink with hlink | hnone
        · rw [hlog, hlink]
          exact h.written a message ha hrest hsend
        · exact absurd (hnone a ha) hrest
    · -- a task that was waiting has no message yet
      refine ⟨hwaiting, fun a ha => ?_, fun a ha hrest => ?_, fun a message ha hrest _ => ?_,
        by rw [hlog]; exact h.once⟩
      · rw [hactive] at ha
        cases ha
        exact hjobs _ _ (h.waiting i t ht)
      · rw [hactive] at ha
        cases ha
        rw [hlog]
        exact (horderly.2 i t ht).2.1
      · rw [hactive] at ha
        cases ha
        exact absurd rfl hrest

/-! ## The channel and its messages -/

/-- The worker of a reader opens the session of the link, which begins with the cipher `start`. -/
def Wss.Opens (w : Wss env.snow) (world : σ) (start : env.snow.cipher.State) : Prop :=
  ∃ a c data, w.active = some a ∧ a.stage = .reading ∧ a.job = .receive data false
    ∧ w.channel = some c ∧ Transport.Opens env data (c, world) start

/-- What the channel of the link has encrypted is what the log has of it, with the stage of the task
that holds the writer's lock. `begun`: the ciphers that the sessions of the links have begun with. -/
structure Wss.Accounts (jobs : Nat → Option Job) (begun : Nat → env.snow.cipher.State → Prop)
    (w : Wss env.snow) (stage : Option Stage) : Prop where
  writing : ∀ rest, stage.bind Stage.rest = some rest →
    ∃ c, w.channel = some c ∧ c.Seals env jobs (begun w.link) (w.messages w.link)
  usable : ∀ c, w.channel = some c → c.failed = false →
    (c.session.isSome = true → w.sessionValid = true) → c.Seals env jobs (begun w.link) (w.messages w.link)
  all : ∀ link, AllSealed env jobs (begun link) (w.messages link)

namespace Wss.Accounts

variable {jobs : Nat → Option Job} {begun : Nat → env.snow.cipher.State → Prop} {w : Wss env.snow}
  {stage : Option Stage}

theorem new : (Wss.new env.snow).Accounts jobs begun none where
  writing _ h := nomatch h
  usable _ h := nomatch h
  all _ := .inl fun _ h => nomatch h

theorem mono {jobs' : Nat → Option Job} {begun' : Nat → env.snow.cipher.State → Prop}
    (hjobs : ∀ i job, jobs i = some job → jobs' i = some job)
    (hbegun : ∀ link start, begun link start → begun' link start) (h : w.Accounts jobs begun stage) :
    w.Accounts jobs' begun' stage where
  writing rest hrest := by
    obtain ⟨c, hc, hseals⟩ := h.writing rest hrest
    exact ⟨c, hc, hseals.mono hjobs (hbegun w.link)⟩
  usable c hc hfailed hvalid := (h.usable c hc hfailed hvalid).mono hjobs (hbegun w.link)
  all link := (h.all link).mono hjobs (hbegun link)

/-- What does not touch the channel, its validity or the log. -/
theorem same {out : Wss env.snow} (h : w.Accounts jobs begun stage) (hchannel : out.channel = w.channel)
    (hlink : out.link = w.link) (hvalid : out.sessionValid = w.sessionValid) (hlog : out.log = w.log) :
    out.Accounts jobs begun stage := by
  have hmessages : out.messages = w.messages := by
    unfold Wss.messages
    rw [hlog]
  exact ⟨by rw [hchannel, hlink, hmessages]; exact h.writing,
    by rw [hchannel, hlink, hvalid, hmessages]; exact h.usable, by rw [hmessages]; exact h.all⟩

/-- A task that does not write. -/
theorem idle (h : w.Accounts jobs begun stage) (stage' : Option Stage)
    (hrest : stage'.bind Stage.rest = none) : w.Accounts jobs begun stage' where
  writing rest hsome := by rw [hrest] at hsome; cases hsome
  usable := h.usable
  all := h.all

/-- The session is invalid, or the channel is gone. -/
theorem close (h : w.Accounts jobs begun stage) {out : Wss env.snow} {stage' : Option Stage}
    (hrest : stage'.bind Stage.rest = none) (hlog : out.log = w.log)
    (hunusable : ∀ c, out.channel = some c → c.failed = false →
      (c.session.isSome = true → out.sessionValid = true) → w.channel = some c ∧ out.link = w.link
        ∧ (c.session.isSome = true → w.sessionValid = true)) :
    out.Accounts jobs begun stage' := by
  have hmessages : out.messages = w.messages := by
    unfold Wss.messages
    rw [hlog]
  refine ⟨fun rest hsome => ?_, fun c hc hfailed hvalid => ?_, by rw [hmessages]; exact h.all⟩
  · rw [hrest] at hsome
    cases hsome
  · obtain ⟨hc', hlink, hvalid'⟩ := hunusable c hc hfailed hvalid
    rw [hmessages, hlink]
    exact h.usable c hc' hfailed hvalid'

theorem invalidate (h : w.Accounts jobs begun stage) :
    Accounts jobs begun { w with sessionValid := false } stage where
  writing := h.writing
  usable c hc hfailed hvalid := h.usable c hc hfailed fun hsome =>
    absurd (hvalid hsome) Bool.false_ne_true
  all := h.all

theorem leave (h : w.Accounts jobs begun stage) : Accounts jobs begun (leave w) none :=
  (h.idle none rfl).same rfl rfl rfl rfl

/-- The channel's call has failed. -/
theorem refuse (h : w.Accounts jobs begun stage) {c c' : NoiseChannel env.snow} (hc : w.channel = some c)
    (hnone : c'.failed = false → c'.session = none → c' = c) :
    Accounts jobs begun (Transport.leave { w with channel := some c', sessionValid := false }) none := by
  refine h.close rfl rfl ?_
  rintro _ ⟨⟩ hfailed hvalid
  have hsession : c'.session = none := by
    rcases hsession : c'.session with _ | session
    · rfl
    · exact absurd (hvalid (by rw [hsession]; rfl)) Bool.false_ne_true
  obtain rfl := hnone hfailed hsession
  exact ⟨hc, rfl, fun hsome => by rw [hsession] at hsome; cases hsome⟩

theorem complete {a : Active} (h : w.Accounts jobs begun (some (.writing []))) :
    Accounts jobs begun (complete w a).2 none := by
  obtain ⟨c, hc, hseals⟩ := h.writing [] rfl
  have hdone : ∀ valid, Accounts jobs begun (Transport.leave { w with
      channel := w.channel.map fun c => { c with failed := false }, sessionValid := valid }) none := by
    intro valid
    refine ⟨(fun _ h => nomatch h), fun c' hc' _ _ => ?_, h.all⟩
    obtain rfl : { c with failed := false } = c' := by
      have : w.channel.map (fun c => { c with failed := false }) = some c' := hc'
      rw [hc] at this
      exact Option.some.inj this
    exact hseals.setFailed false
  unfold Transport.complete
  cases a.job with
  | send message => exact hdone w.sessionValid
  | receive data binary => exact hdone _

theorem goOn {a : Active} : ∀ {rest : List NoiseWrite}, w.Accounts jobs begun (some (.writing rest)) →
    Accounts jobs begun (goOn w a rest).2 ((goOn w a rest).2.active.map Active.stage)
  | [], h => by
    have hnone : (Transport.complete w a).2.active = none := by
      unfold Transport.complete
      cases a.job <;> rfl
    show Accounts jobs begun (Transport.complete w a).2 ((Transport.complete w a).2.active.map Active.stage)
    rw [hnone]
    exact h.complete
  | write :: rest, h => h.same rfl rfl rfl rfl

/-- A message that the channel has encrypted is recorded. -/
theorem record (h : w.Accounts jobs begun stage) (a : Active) {c c' : NoiseChannel env.snow}
    {writes : List NoiseWrite}
    (hseals : ∀ entry : Sealed env.snow, entry.task = a.task → entry.frames = sealedOf writes →
      c'.Seals env jobs (begun w.link) (w.messages w.link ++ [entry])) :
    Accounts jobs begun (w.record a c c' writes) (some (.writing writes)) := by
  have hlink : c'.Seals env jobs (begun w.link) ((w.record a c c' writes).messages w.link) := by
    rw [Wss.Sound.messages_record, if_pos rfl]
    exact hseals _ rfl rfl
  refine ⟨fun _ _ => ⟨_, rfl, hlink.setFailed true⟩, ?_, fun link => ?_⟩
  · rintro _ ⟨⟩ hfailed
    cases hfailed
  · by_cases hsame : w.link = link
    · subst hsame
      exact hlink.allSealed
    · rw [Wss.Sound.messages_record, if_neg hsame, List.append_nil]
      exact h.all link

theorem startWriting {a : Active} {writes : List NoiseWrite}
    (h : w.Accounts jobs begun (some (.writing writes))) :
    Accounts jobs begun (startWriting w a writes).2 ((startWriting w a writes).2.active.map Active.stage) := by
  unfold Transport.startWriting
  split
  · exact h.invalidate.leave
  · exact h.goOn

theorem received (h : w.Accounts jobs begun stage) (hsound : w.Sound stage) (a : Active)
    {c : NoiseChannel env.snow} (hc : w.channel = some c)
    (hvalid : c.session.isSome = true → w.sessionValid = true)
    (data : Bytes) (binary : Bool) (hjob : jobs a.task = some (.receive data binary)) (world : σ)
    (hopens : ∀ start, binary = false → Transport.Opens env data (c, world) start → begun w.link start) :
    let out := received env w a c (receive env data binary (c, world))
    Accounts jobs begun out.2 (out.2.active.map Active.stage) := by
  intro out
  rcases hr : receive env data binary (c, world) with ⟨err | ⟨message, writes⟩, c', world'⟩
  · have hfailed : c'.failed = true := failed_of_error hr
    rw [show out = (none, Transport.leave { w with channel := some c', sessionValid := false }) by
      simp only [out, hr, Transport.received]]
    refine h.refuse hc fun hnot => ?_
    rw [hfailed] at hnot
    cases hnot
  · rw [show out = Transport.startWriting (w.record a c c' writes) { a with message := message } writes
      by simp only [out, hr, Transport.received]]
    refine (h.record a fun entry htask hframes => ?_).startWriting
    have hfailed := not_failed_of_ok hr
    exact receive_seals hr (h.usable c hc hfailed hvalid) (hsound.usable c hc hfailed hvalid).2 entry
      ⟨data, binary, by rw [htask]; exact hjob⟩ hopens hframes

theorem takeNoise (h : w.Accounts jobs begun stage) (hsound : w.Sound stage) (a : Active)
    (hjob : jobs a.task = some a.job) (world : σ) :
    let out := takeNoise env w a world
    Accounts jobs begun out.2 (out.2.active.map Active.stage) := by
  intro out
  unfold out Transport.takeNoise
  rcases hc : w.channel with _ | c
  · exact h.leave
  rcases hsome : a.job with message | ⟨data, binary⟩ <;> rw [hsome] at hjob
  · dsimp only
    split
    · next hvalid =>
      rcases hr : encode env message (c, world) with ⟨err | writes, c', world'⟩
      · refine h.refuse hc fun _ hnone => ?_
        -- without a session nothing has happened
        have hsession := encode_session message (c, world)
        rw [hr, show c'.session = none from hnone] at hsession
        rcases encode_cases message (c, world) with ⟨he, -⟩ | ⟨session, hsession', -, -⟩
        · rw [hr] at he
          cases he
          rfl
        · rw [hsession'] at hsession
          cases hsession
      · refine (h.record a fun entry htask hframes => ?_).startWriting
        exact encode_seals hr (h.usable c hc (session_of_encoded hr).1 fun _ => hvalid) entry
          (by rw [htask]; exact hjob) hframes
    · exact h.leave
  · dsimp only
    split
    · split
      · next hsession hvalid =>
        refine h.received hsound a hc (fun _ => hvalid) data binary hjob world fun start _ hopen => ?_
        rw [show c.session = none from hopen.fresh] at hsession
        cases hsession
      · exact h.leave
    · rw [← hc, ← hsome]
      exact (h.idle (some .reading) rfl).same rfl rfl rfl rfl

theorem finishReading (h : w.Accounts jobs begun (some .reading)) (hsound : w.Sound (some .reading))
    (a : Active) (hstage : a.stage = .reading) (hactive : w.active = some a)
    (hjob : jobs a.task = some a.job) (world : σ)
    (hopens : ∀ start, w.Opens world start → begun w.link start) :
    let out := finishReading env w a world
    Accounts jobs begun out.2 (out.2.active.map Active.stage) := by
  intro out
  unfold out Transport.finishReading
  have hsame : w.Accounts jobs begun (w.active.map Active.stage) := by
    rw [hactive, Option.map_some, hstage]
    exact h
  rcases hc : w.channel with _ | c
  · exact hsame
  rcases hsome : a.job with message | ⟨data, binary⟩ <;> rw [hsome] at hjob
  · exact hsame
  · refine h.received hsound a hc (fun hsession => ?_) data binary hjob world fun start hbinary hopen =>
      hopens start ⟨a, c, data, hactive, hstage, hbinary ▸ hsome, hc, hopen⟩
    rw [hsound.reading c rfl hc] at hsession
    cases hsession

/-- A task that is dropped, or whose write fails, leaves a channel that cannot be used. -/
theorem stop {a : Active} (h : w.Accounts jobs begun (some a.stage)) (hsound : w.Sound (some a.stage)) :
    Accounts jobs begun (stop w a) none := by
  unfold Transport.stop
  rcases hstage : a.stage with _ | _ | rest | rest <;> rw [hstage] at h hsound
  · exact h.leave
  · exact h.close rfl rfl fun _ hc => nomatch hc
  all_goals
    refine h.close rfl rfl fun c hc hfailed _ => ?_
    obtain ⟨-, c', hc', hfailed', -⟩ := hsound.writing rest rfl
    cases hc'.symm.trans hc
    rw [hfailed'] at hfailed
    cases hfailed

/-- A new channel has encrypted nothing. -/
theorem makeChannel (h : w.Accounts jobs begun stage) (hsound : w.Sound stage)
    (hrest : stage.bind Stage.rest = none) (identity : Identity) (stateDir : Option String)
    (forceXx : Bool) (adoptFrom : Option String) :
    Accounts jobs begun { w with
      link := w.link + 1
      channel := some (NoiseChannel.new env.snow identity stateDir forceXx adoptFrom)
      lifecycle := .made } stage := by
  refine ⟨fun rest hsome => ?_, ?_, h.all⟩
  · rw [hrest] at hsome
    cases hsome
  · rintro _ ⟨⟩ - -
    show NoiseChannel.Seals env jobs _ _ (w.messages (w.link + 1))
    rw [hsound.later _ (Nat.lt_succ_self _)]
    exact seals_new identity stateDir forceXx adoptFrom

end Wss.Accounts

/-- **Every step keeps the account.** -/
theorem wssStep_accounts {jobs : Nat → Option Job} {begun : Nat → env.snow.cipher.State → Prop}
    {w : Wss env.snow}
    (h : w.Accounts jobs begun (w.active.map Active.stage)) (hsound : w.Sound (w.active.map Active.stage))
    (hemploys : w.Employs jobs) (event : WssEvent σ)
    (hopens : ∀ world start, event = .finishReading world → w.Opens world start → begun w.link start) :
    Wss.Accounts jobs begun (wssStep env w event).2 ((wssStep env w event).2.active.map Active.stage) := by
  cases event with
  | takeWriter i =>
    simp only [wssStep]
    split
    · next t hactive hwaiting =>
      rw [hactive] at h
      rcases takeWriter_cases w i t with heq | ⟨heq, -⟩ <;> rw [heq]
      · rw [show ({ w with waiting := Function.update w.waiting i none } : Wss env.snow).active = none
          from hactive]
        exact h.same rfl rfl rfl rfl
      · exact (h.idle (some .atNoise) rfl).same rfl rfl rfl rfl
    · exact h
  | takeNoise world =>
    simp only [wssStep]
    split
    · next hactive => exact h.takeNoise hsound _ (hemploys.active _ hactive) world
    · exact h
  | finishReading world =>
    simp only [wssStep]
    split
    · next hactive =>
      rw [hactive] at h hsound
      exact Wss.Accounts.finishReading h hsound _ rfl hactive (hemploys.active _ hactive) world fun start =>
        hopens world start rfl
    · exact h
  | handOver =>
    simp only [wssStep]
    split
    · next task job write rest message socket hactive hsocket =>
      rw [hactive] at h
      have hflushing : w.Accounts jobs begun (some (.flushing rest)) :=
        ⟨fun _ _ => h.writing (write :: rest) rfl, h.usable, h.all⟩
      exact hflushing.same rfl rfl rfl rfl
    · exact h
  | flushed =>
    simp only [wssStep]
    split
    · next task job rest message hactive =>
      rw [hactive] at h
      have hwriting : w.Accounts jobs begun (some (.writing rest)) := ⟨h.writing, h.usable, h.all⟩
      exact hwriting.goOn
    · exact h
  | stop =>
    simp only [wssStep]
    split
    · next a hactive =>
      rw [hactive] at h hsound
      have hnone : (stop w a).active = none := by
        unfold stop
        split <;> rfl
      dsimp only
      rw [hnone]
      exact Wss.Accounts.stop h hsound
    · exact h
  | invalidate => exact h.invalidate
  | clear =>
    simp only [wssStep]
    split
    · next hfree => exact h.close (rest_of_noiseFree hfree).1 rfl fun _ hc => by cases hc
    · exact h
  | makeChannel identity stateDir forceXx adoptFrom =>
    simp only [wssStep]
    split
    · next hfree =>
      rw [Bool.and_eq_true] at hfree
      exact h.makeChannel hsound (rest_of_noiseFree hfree.2).1 identity stateDir forceXx adoptFrom
    · exact h
  | closeWriter | openSocket =>
    simp only [wssStep]
    split
    · exact h.same rfl rfl rfl rfl
    · exact h
  | submit | withdraw | abort | cancel | giveUp => exact h.same rfl rfl rfl rfl

/-! ## Every run -/

/-- A task is numbered where it is submitted. -/
theorem wssStep_next (w : Wss env.snow) (event : WssEvent σ) :
    (wssStep env w event).2.next = w.next + (submitted event).toList.length := by
  cases event with
  | submit job => rfl
  | takeWriter i =>
    simp only [wssStep]
    split
    · next t _ _ => rcases takeWriter_cases w i t with heq | ⟨heq, -⟩ <;> rw [heq] <;> rfl
    · rfl
  | takeNoise world =>
    simp only [wssStep]
    split
    · exact (StepOf.takeNoise _ world).next
    · rfl
  | finishReading world =>
    simp only [wssStep]
    split
    · next hactive => exact (StepOf.finishReading hactive world).next
    · rfl
  | flushed =>
    simp only [wssStep]
    split
    · exact (StepOf.goOn _ _).next
    · rfl
  | stop =>
    simp only [wssStep]
    split
    · next a _ => exact (StepOf.stop a).next
    · rfl
  | handOver | clear | closeWriter | makeChannel | openSocket =>
    simp only [wssStep]
    split <;> rfl
  | withdraw | abort | cancel | invalidate | giveUp => rfl

/-- The step opens the session of a link. -/
def OpensAt (link : Nat) (start : env.snow.cipher.State) (w : Wss env.snow) (event : WssEvent σ) : Prop :=
  ∃ world, event = .finishReading world ∧ w.link = link ∧ w.Opens world start

/-- The session of a link has begun with the cipher `start`. -/
def BegunWith (env : ChannelEnv σ) (events : List (WssEvent σ)) (link : Nat)
    (start : env.snow.cipher.State) : Prop :=
  Machine.Occurs (wssStep env) (OpensAt link start) (Wss.new env.snow) events

/-- What is known of a run: the invariant of the wire, the tasks with their jobs, and the account. -/
theorem wss_accounts (events : List (WssEvent σ)) :
    let w := Machine.final (wssStep env) (Wss.new env.snow) events
    w.next = (events.filterMap submitted).length ∧ w.Employs (jobsOf events)
    ∧ w.Accounts (jobsOf events) (BegunWith env events) (w.active.map Active.stage) := by
  induction events using List.reverseRecOn with
  | nil =>
    exact ⟨rfl, ⟨(fun _ _ h => nomatch h), (fun _ h => nomatch h), (fun _ h => nomatch h),
      (fun _ _ h => nomatch h), List.nodup_nil⟩, Wss.Accounts.new⟩
  | append_singleton events event ih =>
    obtain ⟨hnext, hemploys, haccounts⟩ := ih
    have hjobs : ∀ i job, jobsOf events i = some job → jobsOf (events ++ [event]) i = some job :=
      fun _ _ => jobsOf_append [event]
    have hsubmit : ∀ job, event = .submit job → jobsOf (events ++ [event])
        (Machine.final (wssStep env) (Wss.new env.snow) events).next = some job := by
      rintro job rfl
      rw [hnext]
      exact jobsOf_submit events job
    have hbegun : ∀ link start, BegunWith env events link start →
        BegunWith env (events ++ [event]) link start := fun _ _ h => Machine.occurs_concat.mpr (.inl h)
    have hgrown := haccounts.mono (fun _ _ h => h) hbegun
    rw [Machine.final_concat]
    refine ⟨?_, wssStep_employs hemploys (@orderly_final _ env events) event hjobs hsubmit, ?_⟩
    · rw [List.filterMap_append, List.length_append, ← hnext, wssStep_next]
      cases event <;> rfl
    · have hstep := wssStep_accounts hgrown (@sound_final _ env events) hemploys event
        fun world start hevent hopens => Machine.occurs_concat.mpr (.inr ⟨world, hevent, rfl, hopens⟩)
      exact hstep.mono hjobs fun _ _ h => h

end Thalovant.Transport
