import Thalovant.Intents.DescribeRun

/-!
# How a describe call ends

Before its time a call ends only with everything answered, or by a denial, a closure or a failed send
(`earned_step`). Once the time is up it ends (`ends_in_time`), and until then it comes by itself to its
end or to where it awaits a reply (`attends`).
-/

namespace Thalovant.Intents

namespace DescribeMany

variable {link : DescribeLink} {batch : Nat} {wanted : List Wanted} {s : DescribeMany}

/-! ## What it takes to end -/

/-- The transport gives up on a request by itself. -/
def givesUp : Happening → Bool
  | .emitted (.error (.timeout _)) => true
  | _ => false

/-- It does so in the run. -/
def gaveUpIn (inputs : List DescribeInput) : Bool := inputs.any fun input => givesUp input.happening

/-- A window or the call has ended with what it found as its time was up or all was answered, and with an
error that is no timeout by what else ended it. -/
def Earned (wanted : List Wanted) (gaveUp : Bool) (s : DescribeMany) : Prop :=
  match s.phase with
  | .checkEnd => gaveUp = true ∨ s.timeUp = true ∨ s.window.full = true
  | .done (.ok _) => gaveUp = true ∨ s.timeUp = true ∨ ∀ key ∈ wanted, s.answered key = true
  | .done (.error err) => s.failed = true ∨ s.finish = none ∨ ∃ message, err = .timeout message
  | _ => True

theorem Earned.mono {gaveUp gaveUp' : Bool} (h : s.Earned wanted gaveUp)
    (hle : gaveUp = true → gaveUp' = true) : s.Earned wanted gaveUp' := by
  unfold Earned at h ⊢
  split at h
  · exact h.imp hle id
  · exact h.imp hle id
  · exact h
  · trivial

theorem earned_now {gaveUp : Bool} {time : Nat} (h : s.Earned wanted gaveUp) (htime : s.now ≤ time) :
    ({ s with now := time } : DescribeMany).Earned wanted gaveUp := by
  have hup : s.timeUp = true → ({ s with now := time } : DescribeMany).timeUp = true :=
    timeUp_mono (s := s) rfl htime
  unfold Earned at h ⊢
  dsimp only
  split
  · next hphase =>
    rw [hphase] at h
    exact h.imp id fun hrest => hrest.imp hup id
  · next hphase =>
    rw [hphase] at h
    exact h.imp id fun hrest => hrest.imp hup id
  · next hphase =>
    rw [hphase] at h
    exact h
  · trivial

theorem earned_windowFailed {gaveUp : Bool} (s : DescribeMany) (err : ThalovantError) (caused : Bool)
    (htimeout : ∀ message, err = .timeout message → gaveUp = true ∨ s.timeUp = true)
    (hother : (∀ message, err ≠ .timeout message) → caused = true) :
    (s.windowFailed err caused).Earned wanted gaveUp := by
  unfold windowFailed
  split
  · next message =>
    split
    · exact (htimeout message rfl).imp id .inl
    · exact .inr (.inr ⟨message, rfl⟩)
  · next hnot => exact .inl (hother hnot)

theorem earned_windowDone {gaveUp : Bool} (h : Base link batch wanted s.windowDone)
    (hwhy : s.timeUp = true ∨ s.window.full = true) : s.windowDone.Earned wanted gaveUp := by
  unfold windowDone at h ⊢
  split
  · exact .inr hwhy
  · next hwindowed =>
    rw [if_neg hwindowed] at h
    refine .inr (hwhy.imp id fun hfull key hkey => ?_)
    exact answered_of_last h (h.single (Bool.eq_false_iff.mpr hwindowed)).1 hfull hkey

theorem earned_begin {gaveUp : Bool} (s : DescribeMany) {unique : List Wanted}
    (hempty : unique = [] → wanted = []) : (s.begin unique).Earned wanted gaveUp := by
  cases unique with
  | nil =>
    refine .inr (.inr fun key hkey => ?_)
    rw [hempty rfl] at hkey
    cases hkey
  | cons key unsent => trivial

theorem earned_nextWindow {gaveUp : Bool} (h : Base link batch wanted s) (hphase : s.phase = .checkEnd)
    (he : s.Earned wanted gaveUp) : s.nextWindow.Earned wanted gaveUp := by
  unfold nextWindow
  split
  · next hlater =>
    rw [Earned, hphase] at he
    exact he.imp id fun hrest => hrest.imp id fun hfull key hkey => answered_of_last h hlater hfull hkey
  · next unique later hlater =>
    exact earned_begin _ fun hempty => absurd hempty (h.later unique (by simp [hlater])).1

theorem earned_hear {gaveUp : Bool} {within : Nat} (hwaiting : s.phase = .waiting within)
    {event : Event} (h : Base link batch wanted (s.hear link event)) :
    (s.hear link event).Earned wanted gaveUp := by
  unfold hear at h ⊢
  dsimp only at h ⊢
  split
  · exact earned_windowFailed _ _ true nofun fun _ => rfl
  · next hdenied =>
    rw [if_neg hdenied] at h
    rcases DescribeWindow.accept_cases link.lowercase
      { s.window with heard := s.window.heard ++ [event] } event with ⟨haccept, -⟩ |
      ⟨key, -, -, haccept⟩ <;> rw [haccept] at h ⊢
    · simp [Earned, hwaiting]
    · dsimp only at h ⊢
      split
      · next hfull =>
        rw [if_pos hfull] at h
        exact earned_windowDone h (.inr hfull)
      · simp [Earned, hwaiting]

theorem earned_waitElapsed {gaveUp : Bool} {within : Nat} (h : Base link batch wanted (s.waitElapsed within))
    (htime : s.timeUp = true) : (s.waitElapsed within).Earned wanted gaveUp := by
  unfold waitElapsed at h ⊢
  split
  · next husable =>
    rw [if_pos husable] at h
    exact earned_windowDone h (.inl htime)
  · exact earned_windowFailed s _ false (fun _ _ => .inr htime) fun hnot => absurd rfl (hnot _)

/-- Whatever happens, it takes that to end. -/
theorem earned_react {gaveUp : Bool} {happening : Happening} (h : Base link batch wanted s)
    (h' : Base link batch wanted (s.react link happening)) (he : s.Earned wanted gaveUp) :
    (s.react link happening).Earned wanted (gaveUp || givesUp happening) := by
  have hmono : s.Earned wanted (gaveUp || givesUp happening) := he.mono fun hgave => by simp [hgave]
  unfold react at h' ⊢
  split at h'
  · split
    · next htime =>
      exact earned_windowFailed s _ false (fun _ _ => .inr htime) fun hnot => absurd rfl (hnot _)
    · trivial
  · next unsent _ => cases unsent <;> trivial
  · next err _ =>
    refine earned_windowFailed s err true (fun message hmessage => .inl ?_) fun _ => rfl
    rw [hmessage]
    exact Bool.or_true gaveUp
  · split
    · next htime =>
      exact earned_windowFailed s _ false (fun _ _ => .inr htime) fun hnot => absurd rfl (hnot _)
    · exact hmono
  · trivial
  · next hphase => exact earned_hear hphase h'
  · exact earned_windowFailed s CLOSED true nofun fun _ => rfl
  · split at h'
    · next htime =>
      rw [if_pos htime]
      exact earned_waitElapsed h' htime
    · next htime =>
      rw [if_neg htime]
      exact hmono
  · next hphase =>
    split
    · next htime => exact .inr (.inl htime)
    · exact earned_nextWindow h hphase hmono
  · exact hmono

theorem earned_step {gaveUp : Bool} {input : DescribeInput} (h : Inv link batch wanted s)
    (hregular : s.Regular link input) (he : s.Earned wanted gaveUp) :
    (s.step link input).2.Earned wanted (gaveUp || givesUp input.happening) := by
  have h' := (inv_step h input hregular).base
  unfold step at h' ⊢
  split
  · exact he.mono fun hgave => by simp [hgave]
  · next htime =>
    rw [if_neg htime] at h'
    have hle : s.now ≤ input.time := Nat.not_lt.mp htime
    exact earned_react (inv_now h hle).base h' (earned_now he hle)

/-! ## When the time is up -/

/-- A window has ended, or the call. -/
def hasEnded (s : DescribeMany) : Bool :=
  match s.phase with
  | .checkEnd | .done _ => true
  | _ => false

theorem windowFailed_hasEnded (s : DescribeMany) (err : ThalovantError) (caused : Bool) :
    (s.windowFailed err caused).hasEnded = true := by
  unfold windowFailed
  split
  · split <;> rfl
  · rfl

theorem windowDone_hasEnded (s : DescribeMany) : s.windowDone.hasEnded = true := by
  unfold windowDone
  split <;> rfl

theorem waitElapsed_hasEnded (s : DescribeMany) (within : Nat) :
    (s.waitElapsed within).hasEnded = true := by
  unfold waitElapsed
  split
  · exact windowDone_hasEnded s
  · exact windowFailed_hasEnded s _ _

/-- The call waits, for a publication or for replies. -/
def waits (s : DescribeMany) : Bool :=
  match s.phase with
  | .emitting _ | .waiting _ => true
  | _ => false

variable (link) in
/-- A call whose clock shows that the time is up waits, unless a window has ended. -/
theorem clock_waits (htime : s.timeUp = true) :
    (s.react link .clock).hasEnded = true ∨ (s.react link .clock).waits = true := by
  cases hphase : s.phase with
  | checkSend key unsent =>
    refine .inl ?_
    simp [react, hphase, htime, windowFailed_hasEnded]
  | emitting unsent => exact .inr (by simp [react, hphase, waits])
  | startWait => exact .inr (by simp [react, hphase, waits])
  | waiting within => exact .inr (by simp [react, hphase, waits])
  | checkEnd => exact .inl (by simp [react, hphase, htime, hasEnded])
  | done result => exact .inl (by simp [react, hphase, hasEnded])

variable (link) in
theorem elapsed_hasEnded (htime : s.timeUp = true) (h : s.hasEnded = true ∨ s.waits = true) :
    (s.react link .elapsed).hasEnded = true := by
  cases hphase : s.phase with
  | checkSend key unsent => simp [hasEnded, waits, hphase] at h
  | emitting unsent => simp [react, hphase, htime, windowFailed_hasEnded]
  | startWait => simp [hasEnded, waits, hphase] at h
  | waiting within => simp [react, hphase, htime, waitElapsed_hasEnded]
  | checkEnd => simp [react, hphase, hasEnded]
  | done result => simp [react, hphase, hasEnded]

variable (link) in
theorem clock_isDone (htime : s.timeUp = true) (h : s.hasEnded = true) :
    (s.react link .clock).isDone = true := by
  cases hphase : s.phase with
  | checkEnd => simp [react, hphase, htime, isDone]
  | done result => simp [react, hphase, isDone]
  | _ => simp [hasEnded, hphase] at h

theorem step_at (link : DescribeLink) (s : DescribeMany) (happening : Happening) :
    (s.step link ⟨s.now, happening⟩).2 = s.react link happening := by
  unfold step
  rw [if_neg (Nat.lt_irrefl _)]

theorem step_later (link : DescribeLink) {time : Nat} (htime : s.now ≤ time) (happening : Happening) :
    (s.step link ⟨time, happening⟩).2
      = ({ s with now := time } : DescribeMany).react link happening := by
  unfold step
  rw [if_neg (Nat.not_lt.mpr htime)]

/-- Once the time is up the call ends: its wait elapses, and it reads the clock. -/
theorem ends_in_time (link : DescribeLink) {time : Nat} (htime : s.now ≤ time)
    (hfinish : s.finish.any (· ≤ time) = true) :
    (Machine.final (step link) s [⟨time, .clock⟩, ⟨time, .elapsed⟩, ⟨time, .clock⟩]).isDone = true := by
  let late : DescribeMany := { s with now := time }
  have hlate : late.timeUp = true := hfinish
  obtain ⟨hnow, hend⟩ := react_clock link late .clock
  have hup : (late.react link .clock).timeUp = true := by
    unfold timeUp at hlate ⊢
    rw [hnow, hend]
    exact hlate
  obtain ⟨hnow', hend'⟩ := react_clock link (late.react link .clock) .elapsed
  have hup' : ((late.react link .clock).react link .elapsed).timeUp = true := by
    unfold timeUp at hup ⊢
    rw [hnow', hend']
    exact hup
  have hstep : ∀ (other : DescribeMany) (happening : Happening), other.now = time →
      (other.step link ⟨time, happening⟩).2 = other.react link happening := by
    rintro other happening rfl
    exact step_at link other happening
  rw [Machine.final_cons, Machine.final_cons, Machine.final_cons, Machine.final_nil,
    step_later link htime, hstep _ _ hnow, hstep _ _ (hnow'.trans hnow)]
  exact clock_isDone link hup' (elapsed_hasEnded link hup (clock_waits link hlate))

/-! ## Until then -/

/-- The clock is read, or a request is published. -/
def own : Happening → Bool
  | .clock | .emitted (.ok ()) => true
  | _ => false

/-- A request is unanswered, and the events that come are read. -/
def Awaits (link : DescribeLink) (time : Nat) (s : DescribeMany) : Prop :=
  s.unanswered link.lowercase ≠ [] ∧ ∀ event, s.hears ⟨time, .event event⟩ = [event]

/-- By what it does itself, the call comes to its end, or to where it awaits a reply. -/
def Attends (link : DescribeLink) (time : Nat) (s : DescribeMany) : Prop :=
  ∃ happenings : List Happening, (∀ happening ∈ happenings, own happening = true) ∧
    let s' := Machine.final (step link) s (happenings.map fun happening => ⟨time, happening⟩)
    s'.isDone = true ∨ s'.Awaits link time

/-- The call keeps its invariant, and there is time left. -/
structure Early (link : DescribeLink) (batch : Nat) (wanted : List Wanted) (time : Nat)
    (s : DescribeMany) : Prop where
  inv : Inv link batch wanted s
  now_le : s.now ≤ time
  left : s.finish.any (· ≤ time) = false

variable {time : Nat}

theorem Early.step (h : Early link batch wanted time s) {happening : Happening}
    (hregular : s.Regular link ⟨time, happening⟩) :
    Early link batch wanted time (s.step link ⟨time, happening⟩).2 := by
  refine ⟨inv_step h.inv _ hregular, ?_, ?_⟩
  · rw [step_later link h.now_le, (react_clock link _ happening).1]
  · rw [step_finish]
    exact h.left

theorem Attends.of_step {happening : Happening} (hown : own happening = true)
    (h : Attends link time (s.step link ⟨time, happening⟩).2) : Attends link time s := by
  obtain ⟨happenings, howns, hend⟩ := h
  refine ⟨happening :: happenings, ?_, hend⟩
  intro other hother
  rcases List.mem_cons.mp hother with rfl | hother
  · exact hown
  · exact howns other hother

theorem attends_of_done (hdone : s.isDone = true) : Attends link time s :=
  ⟨[], fun _ hmem => absurd hmem List.not_mem_nil, .inl hdone⟩

/-- A window that waits has a request that is not answered. -/
theorem attends_waiting (h : Early link batch wanted time s) {within : Nat}
    (hphase : s.phase = .waiting within) : Attends link time s := by
  have hwaiting := h.inv.phase
  rw [hphase] at hwaiting
  obtain ⟨hopen, hsent⟩ := hwaiting
  obtain ⟨key, hkey, hnot⟩ := exists_unanswered h.inv.base hopen.full
  rw [answered_eq h.inv.base] at hnot
  have hunanswered : key ∈ s.unanswered link.lowercase := by
    rw [unanswered, List.mem_filter, hsent, hnot]
    exact ⟨hkey, rfl⟩
  refine ⟨[], fun _ hmem => absurd hmem List.not_mem_nil, .inr ⟨List.ne_nil_of_mem hunanswered, ?_⟩⟩
  intro event
  simp [hears, hphase, Nat.not_lt.mpr h.now_le]

theorem attends_startWait (h : Early link batch wanted time s) (hphase : s.phase = .startWait) :
    Attends link time s := by
  have hclock : own .clock = true := rfl
  have hwaiting : (s.step link ⟨time, .clock⟩).2.phase = .waiting (s.finish.getD 0 - time) := by
    rw [step_later link h.now_le]
    simp [react, hphase]
  refine .of_step hclock (attends_waiting (h.step ?_) hwaiting)
  exact fun hend => absurd (hphase.symm.trans hend) nofun

/-- A request goes out. -/
theorem attends_checkSend (h : Early link batch wanted time s) {key : Wanted} {unsent : List Wanted}
    (hphase : s.phase = .checkSend key unsent)
    (hnext : ∀ s', Early link batch wanted time s' → s'.phase = .emitting unsent → Attends link time s') :
    Attends link time s := by
  have hclock : own .clock = true := rfl
  refine .of_step hclock (hnext _ (h.step ?_) ?_)
  · exact fun hend => absurd (hphase.symm.trans hend) nofun
  · rw [step_later link h.now_le]
    simp [react, hphase, timeUp, h.left, send]

/-- A request is published. -/
theorem attends_emitted (h : Early link batch wanted time s) {unsent : List Wanted}
    (hphase : s.phase = .emitting unsent)
    (hnext : let s' := ({ s with now := time } : DescribeMany).goOn unsent
      Early link batch wanted time s' → Attends link time s') : Attends link time s := by
  have hpublish : own (.emitted (.ok ())) = true := rfl
  have hregular : s.Regular link ⟨time, .emitted (.ok ())⟩ :=
    fun hend => absurd (hphase.symm.trans hend) nofun
  have hgoOn : (s.step link ⟨time, .emitted (.ok ())⟩).2
      = ({ s with now := time } : DescribeMany).goOn unsent := by
    rw [step_later link h.now_le]
    simp [react, hphase]
  have hearly := h.step hregular
  refine .of_step hpublish ?_
  rw [hgoOn] at hearly ⊢
  exact hnext hearly

/-- The requests of a window go out, one after the other. -/
theorem attends_emitting (unsent : List Wanted) (s : DescribeMany) (h : Early link batch wanted time s)
    (hphase : s.phase = .emitting unsent) : Attends link time s := by
  induction unsent generalizing s with
  | nil => exact attends_emitted h hphase fun hnext => attends_startWait hnext rfl
  | cons key unsent ih => exact attends_emitted h hphase fun hnext => attends_checkSend hnext rfl ih

/-- **While there is time, a call comes by itself to its end or to where it awaits a reply.** -/
theorem attends (h : Early link batch wanted time s) (hregular : s.Regular link ⟨time, .clock⟩) :
    Attends link time s := by
  cases hphase : s.phase with
  | checkSend key unsent => exact attends_checkSend h hphase (attends_emitting unsent)
  | emitting unsent => exact attends_emitting unsent s h hphase
  | startWait => exact attends_startWait h hphase
  | waiting within => exact attends_waiting h hphase
  | done result => exact attends_of_done (by simp [isDone, hphase])
  | checkEnd =>
    have hnext := h.step hregular
    have hstep : (s.step link ⟨time, .clock⟩).2 = ({ s with now := time } : DescribeMany).nextWindow := by
      rw [step_later link h.now_le]
      simp [react, hphase, timeUp, h.left]
    have hclock : own .clock = true := rfl
    refine .of_step hclock ?_
    rw [hstep] at hnext ⊢
    unfold nextWindow at hnext ⊢
    split at hnext
    · exact attends_of_done rfl
    · next unique later hlater =>
      cases unique with
      | nil => exact attends_of_done rfl
      | cons key unsent => exact attends_checkSend hnext rfl (attends_emitting unsent)

end DescribeMany

end Thalovant.Intents
