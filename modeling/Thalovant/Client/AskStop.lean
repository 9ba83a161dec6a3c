import Thalovant.Client.AskForeign
import Thalovant.Client.AskTaken

/-!
# When a collector stops

Over events alone the loop takes some of what it is offered and stops: `Halted` says which and when.
An event is taken if it is read before the waits that the events ahead of it armed are over, and
nothing is taken after a hard failure. `halted_unique` shows that this determines the stop.
-/

namespace Thalovant.Client

namespace Ask

variable {ask : Ask}

/-! ## Waits -/

variable (ask) in
/-- The earlier of the deadline and an instant, if there is one. -/
def byDeadline (instant : Option Nat) : Nat := min (instant.getD ask.deadline) ask.deadline

/-- A wait that the clock cannot represent is past the deadline. -/
theorem window_eq (now wait : Nat) : ask.window now wait = min (now + wait) ask.deadline := by
  have hdeadline := ask.representable
  unfold window checkedAdd
  by_cases h : now + wait < INSTANT_END
  · simp [h]
  · rw [if_neg h]
    simp only [Option.getD_none]
    omega

variable (ask) in
/-- When the loop gives up if it takes no more than some events: after the fragments of the speech, or
else the wait of the completion, or else at the deadline. -/
def quietAt (start : Nat) (taken : List Heard) : Nat :=
  ask.byDeadline (((firstRead start voiced taken).map (· + ask.replySettle)).or
    ((firstRead start completes taken).map (· + ask.emptyReplyWait)))

theorem wake_collected (start : Nat) (budget : ReplyMediaBudget) (taken : List Heard) :
    ask.wake (ask.collected start budget taken) = ask.quietAt start taken := by
  unfold wake quietAt byDeadline collected
  cases firstRead start voiced taken with
  | some now => simp [window_eq]
  | none => cases firstRead start completes taken <;> simp [window_eq]

theorem quietAt_le (start : Nat) (taken : List Heard) : ask.quietAt start taken ≤ ask.deadline :=
  Nat.min_le_right _ _

/-- No wait ends before the event that arms it. -/
theorem readAt_le_quietAt {start : Nat} {taken : List Heard} {heard : Heard}
    (h : readAt start heard < ask.quietAt start taken) :
    readAt start heard ≤ ask.quietAt start (taken ++ [heard]) := by
  unfold quietAt byDeadline at h ⊢
  rw [firstRead_concat, firstRead_concat]
  generalize firstRead start voiced taken = speech at h ⊢
  generalize firstRead start completes taken = completion at h ⊢
  rcases speech with _ | now
  · rcases completion with _ | now
    · by_cases hv : voiced heard <;> by_cases hc : completes heard <;> simp [hv, hc] at h ⊢ <;> omega
    · by_cases hv : voiced heard <;> simp [hv] at h ⊢ <;> omega
  · simp at h ⊢
    omega

/-! ## The stop -/

variable (ask) in
/-- The loop takes some of what it is offered, leaves the rest, and stops. -/
structure Halted (start : Nat) (taken later : List Heard) (stop : Nat) : Prop where
  /-- Each event is read before the wait that those ahead of it left, none of which failed. -/
  read : ∀ before heard after, taken = before ++ heard :: after →
    (∀ x ∈ before, isHardFailure x.event = false)
      ∧ readAt start heard < ask.quietAt start before
  before : ∀ heard ∈ taken, readAt start heard ≤ stop
  after : ∀ heard ∈ later, stop ≤ readAt start heard
  /-- It stops with the wait, or with a hard failure. -/
  ending : ((∀ heard ∈ taken, isHardFailure heard.event = false)
      ∧ stop = max start (ask.quietAt start taken))
    ∨ ∃ before heard, taken = before ++ [heard] ∧ isHardFailure heard.event = true
      ∧ stop = readAt start heard

theorem mem_accepted : ∀ {budget : ReplyMediaBudget} {heard : List Heard} {x : Heard},
    x ∈ ask.accepted budget heard → x ∈ heard
  | _, [], _, h => h
  | budget, first :: rest, x, h => by
    unfold accepted at h
    split at h
    · split at h
      · rcases List.mem_cons.mp h with rfl | h
        · exact List.mem_cons_self
        · exact List.mem_cons_of_mem _ (mem_accepted h)
      · exact List.mem_cons_of_mem _ (mem_accepted h)
    · exact List.mem_cons_of_mem _ (mem_accepted h)

variable (ask) in
/-- The loop at an instant, with some events taken and its wait not over. -/
structure Waiting (start now : Nat) (taken : List Heard) : Prop where
  started : start ≤ now
  waits : now ≤ max start (ask.quietAt start taken)
  unfailed : ∀ x ∈ taken, isHardFailure x.event = false
  before : ∀ x ∈ taken, readAt start x ≤ now
  read : ∀ before heard after, taken = before ++ heard :: after →
    (∀ x ∈ before, isHardFailure x.event = false)
      ∧ readAt start heard < ask.quietAt start before

namespace Waiting

variable {start now : Nat} {taken : List Heard}

theorem begin (start : Nat) : ask.Waiting start start [] where
  started := le_rfl
  waits := Nat.le_max_left _ _
  unfailed := by simp
  before := by simp
  read := by simp

/-- The wait goes on after an event that is not taken. -/
theorem later (h : ask.Waiting start now taken) {heard : Heard}
    (hlater : now ≤ readAt start heard) (hwake : readAt start heard ≤ ask.quietAt start taken) :
    ask.Waiting start (readAt start heard) taken where
  started := Nat.le_max_left _ _
  waits := hwake.trans (Nat.le_max_right _ _)
  unfailed := h.unfailed
  before := fun x hx => (h.before x hx).trans hlater
  read := h.read

theorem read_concat (h : ask.Waiting start now taken) {heard : Heard}
    (hwake : readAt start heard < ask.quietAt start taken) :
    ∀ before x after, taken ++ [heard] = before ++ x :: after →
      (∀ y ∈ before, isHardFailure y.event = false)
        ∧ readAt start x < ask.quietAt start before := by
  intro before x after heq
  rcases List.eq_nil_or_concat after with rfl | ⟨after, last, rfl⟩
  · obtain ⟨rfl, hx⟩ := List.append_inj' heq rfl
    cases hx
    exact ⟨h.unfailed, hwake⟩
  · have heq' : taken ++ [heard] = (before ++ x :: after) ++ [last] := by simpa using heq
    exact h.read before x after (List.append_inj' heq' rfl).1

theorem before_concat (h : ask.Waiting start now taken) {heard : Heard}
    (hlater : now ≤ readAt start heard) :
    ∀ x ∈ taken ++ [heard], readAt start x ≤ readAt start heard := by
  intro x hx
  rcases List.mem_append.mp hx with hx | hx
  · exact (h.before x hx).trans hlater
  · rw [List.mem_singleton.mp hx]

/-- The wait goes on after an event that is taken, unless it is a hard failure. -/
theorem concat (h : ask.Waiting start now taken) {heard : Heard}
    (hlater : now ≤ readAt start heard) (hwake : readAt start heard < ask.quietAt start taken)
    (hsoft : isHardFailure heard.event = false) :
    ask.Waiting start (readAt start heard) (taken ++ [heard]) where
  started := Nat.le_max_left _ _
  waits := (readAt_le_quietAt hwake).trans (Nat.le_max_right _ _)
  unfailed := by
    intro x hx
    rcases List.mem_append.mp hx with hx | hx
    · exact h.unfailed x hx
    · rw [List.mem_singleton.mp hx]
      exact hsoft
  before := h.before_concat hlater
  read := h.read_concat hwake

/-- The wait is over. -/
theorem halted (h : ask.Waiting start now taken) {later : List Heard} {stop : Nat}
    (hstop : stop = max now (ask.quietAt start taken))
    (hlater : ∀ x ∈ later, stop ≤ readAt start x) : ask.Halted start taken later stop where
  read := h.read
  before := by
    intro x hx
    rw [hstop]
    exact (h.before x hx).trans (Nat.le_max_left _ _)
  after := hlater
  ending := by
    have := h.started
    have := h.waits
    exact .inl ⟨h.unfailed, by omega⟩

/-- A hard failure ends the wait. -/
theorem failed (h : ask.Waiting start now taken) {heard : Heard} {later : List Heard}
    (hlater : now ≤ readAt start heard) (hwake : readAt start heard < ask.quietAt start taken)
    (hhard : isHardFailure heard.event = true)
    (hrest : ∀ x ∈ later, readAt start heard ≤ readAt start x) :
    ask.Halted start (taken ++ [heard]) later (readAt start heard) where
  read := h.read_concat hwake
  before := h.before_concat hlater
  after := hrest
  ending := .inr ⟨taken, heard, rfl, hhard, rfl⟩

end Waiting

theorem readAt_mono {start : Nat} {heard heard' : Heard} (h : heard.time ≤ heard'.time) :
    readAt start heard ≤ readAt start heard' := by
  unfold readAt
  omega

theorem max_eq_readAt {start now : Nat} {heard : Heard} (hstart : start ≤ now)
    (hlater : now ≤ readAt start heard) : max now heard.time = readAt start heard := by
  unfold readAt at hlater ⊢
  omega

/-- The wait is over before any of the events is read. -/
theorem collectFrom_collected_over {start now : Nat} {budget : ReplyMediaBudget}
    {taken rest : List Heard} (hstart : start ≤ now)
    (h : ∀ x ∈ rest, ask.quietAt start taken ≤ readAt start x) :
    ask.collectFrom now (ask.collected start budget taken) (rest.map .event)
      = { time := max now (ask.quietAt start taken), interrupted := none,
          collection := ask.collected start budget taken } := by
  rw [collectFrom_over, wake_collected]
  intro d hd
  obtain ⟨x, hx, rfl⟩ := List.mem_map.mp hd
  have hquiet := h x hx
  rw [wake_collected]
  show ask.quietAt start taken ≤ max now x.time
  unfold readAt at hquiet
  omega

/-- The next event is read before the wait is over. -/
theorem collectFrom_collected_event {start now : Nat} {budget : ReplyMediaBudget}
    {taken : List Heard} {heard : Heard} (hstart : start ≤ now) (hlater : now ≤ readAt start heard)
    (hwake : readAt start heard < ask.quietAt start taken) (rest : List Heard) :
    ask.collectFrom now (ask.collected start budget taken) ((heard :: rest).map .event) =
      match ask.hear (readAt start heard) heard (ask.collected start budget taken) with
      | (c, true) => { time := readAt start heard, interrupted := none, collection := c }
      | (c, false) => ask.collectFrom (readAt start heard) c (rest.map .event) := by
  have hmax := max_eq_readAt hstart hlater
  have hread : ¬ ask.wake (ask.collected start budget taken) ≤ max now heard.time := by
    rw [wake_collected, hmax]
    omega
  have hevent := collectFrom_event hread (rest.map .event)
  rw [hmax] at hevent
  exact hevent

theorem hear_over {heard : Heard} {c : Collection} (hown : ask.belongs heard = true)
    (hover : (c.mediaBudget.accept heard.event).1 = false) (now : Nat) :
    ask.hear now heard c
      = ({ c with mediaBudget := (c.mediaBudget.accept heard.event).2 }, false) := by
  simp [hear, hown, hover]

/-- **The loop halts**, having taken some of what it was offered. -/
theorem exists_halted : ∀ (rest : List Heard) {start now : Nat} {budget : ReplyMediaBudget}
    {taken : List Heard}, rest.Pairwise (fun x y => x.time ≤ y.time) →
    ask.Waiting start now taken → (∀ x ∈ rest, now ≤ readAt start x) →
    ∃ more later budget' stop, ask.accepted budget rest = more ++ later
      ∧ ask.collectFrom now (ask.collected start budget taken) (rest.map .event)
        = { time := stop, interrupted := none,
            collection := ask.collected start budget' (taken ++ more) }
      ∧ ask.Halted start (taken ++ more) later stop
  | [], start, now, budget, taken, _, h, _ => by
    refine ⟨[], [], budget, max now (ask.quietAt start taken), rfl, ?_, ?_⟩
    · simp [collectFrom, wake_collected]
    · rw [List.append_nil]
      exact h.halted rfl (by simp)
  | heard :: rest, start, now, budget, taken, hsorted, h, hlater => by
    obtain ⟨hfirst, hrest⟩ := List.pairwise_cons.mp hsorted
    have hnow := hlater heard List.mem_cons_self
    by_cases hwake : ask.quietAt start taken ≤ readAt start heard
    · -- the wait is over before the event is read
      have hover : ∀ x ∈ heard :: rest, ask.quietAt start taken ≤ readAt start x := by
        intro x hx
        rcases List.mem_cons.mp hx with rfl | hx
        · exact hwake
        · exact hwake.trans (readAt_mono (hfirst x hx))
      refine ⟨[], ask.accepted budget (heard :: rest), budget, max now (ask.quietAt start taken), rfl,
        ?_, ?_⟩
      · rw [List.append_nil]
        exact collectFrom_collected_over h.started hover
      · rw [List.append_nil]
        refine h.halted rfl fun x hx => ?_
        exact Nat.max_le.mpr ⟨hlater x (mem_accepted hx), hover x (mem_accepted hx)⟩
    · -- it is read: taken, ending the loop if it is a hard failure, or passed over
      rw [Nat.not_le] at hwake
      have hrest' : ∀ x ∈ rest, readAt start heard ≤ readAt start x := fun x hx =>
        readAt_mono (hfirst x hx)
      rw [collectFrom_collected_event h.started hnow hwake]
      unfold accepted
      by_cases hown : ask.belongs heard = true
      · by_cases hfits : (budget.accept heard.event).1 = true
        · rw [if_pos hown, if_pos hfits, hear_collected hown hfits h.unfailed]
          rcases hhard : isHardFailure heard.event with _ | _
          · obtain ⟨more, later, budget', stop, haccepted, hloop, hhalted⟩ :=
              exists_halted rest hrest (h.concat hnow hwake hhard) hrest'
            refine ⟨heard :: more, later, budget', stop, by rw [haccepted]; rfl, ?_, ?_⟩
            · simpa using hloop
            · simpa using hhalted
          · exact ⟨[heard], ask.accepted (budget.accept heard.event).2 rest, _, _, rfl, rfl,
              h.failed hnow hwake hhard fun x hx => hrest' x (mem_accepted hx)⟩
        · have hover : (budget.accept heard.event).1 = false := by simpa using hfits
          rw [if_pos hown, if_neg hfits, hear_over hown hover]
          exact exists_halted rest hrest (h.later hnow hwake.le) hrest'
      · rw [if_neg hown, hear_foreign (by simpa using hown)]
        exact exists_halted rest hrest (h.later hnow hwake.le) hrest'

end Ask

end Thalovant.Client
