import Thalovant.Intents.DescribeManySteps

/-!
# What a describe call hears and publishes

What a run publishes is what the call keeps as sent, and what it reads is what the windows keep as
heard (`final_keeps`). A send error, a closure or a denial that ends the call is one of its inputs
(`brokenIn_of_failed`).
-/

namespace Thalovant.Intents

namespace DescribeMany

variable {link : DescribeLink} {s : DescribeMany}

/-! ## Inputs of a run -/

/-- The event that the call reads, if it waits for replies. -/
def hears (s : DescribeMany) (input : DescribeInput) : List Event :=
  match s.phase, input.happening with
  | .waiting _, .event event => if input.time < s.now then [] else [event]
  | _, _ => []

/-- The events that a run reads. -/
def heardIn (link : DescribeLink) : DescribeMany → List DescribeInput → List Event
  | _, [] => []
  | s, input :: inputs => s.hears input ++ heardIn link (s.step link input).2 inputs

/-- A send error, a closure or a denial. -/
def breaks (s : DescribeMany) (input : DescribeInput) : Bool :=
  match s.phase, input.happening with
  | .emitting _, .emitted (.error _) => true
  | .waiting _, .closed => true
  | .waiting _, .event event =>
    deniedTypeOf event = some EVENT_INTENT_DESCRIBE && s.window.correlates event
  | _, _ => false

def isDone (s : DescribeMany) : Bool :=
  match s.phase with
  | .done _ => true
  | _ => false

/-- A send error, a closure or a denial ends the run. -/
def brokenIn (link : DescribeLink) : DescribeMany → List DescribeInput → Bool
  | _, [] => false
  | s, input :: inputs =>
    s.breaks input && (s.step link input).2.isDone || brokenIn link (s.step link input).2 inputs

/-! ## What a run leaves in the call -/

/-- The requests that are out, as they were published. -/
def requests (link : DescribeLink) (s : DescribeMany) : List (String × Data × Context) :=
  s.sent.map fun request => describeMessage link request.1 request.2

/-- All that was heard. -/
def allHeard (s : DescribeMany) : List Event := s.windows.flatMap fun window => window.heard

/-- What the end of a window leaves alone. -/
structure Ends (s s' : DescribeMany) : Prop where
  sent : s'.sent = s.sent
  past : s'.past = s.past
  window : s'.window = s.window
  now : s'.now = s.now
  finish : s'.finish = s.finish

theorem windowFailed_ends (s : DescribeMany) (err : ThalovantError) (caused : Bool) :
    s.Ends (s.windowFailed err caused) := by
  unfold windowFailed
  split
  · split <;> exact ⟨rfl, rfl, rfl, rfl, rfl⟩
  · exact ⟨rfl, rfl, rfl, rfl, rfl⟩

theorem windowDone_ends (s : DescribeMany) : s.Ends s.windowDone := by
  unfold windowDone
  split <;> exact ⟨rfl, rfl, rfl, rfl, rfl⟩

theorem waitElapsed_ends (s : DescribeMany) (within : Nat) : s.Ends (s.waitElapsed within) := by
  unfold waitElapsed
  split
  · exact windowDone_ends s
  · exact windowFailed_ends s _ _

theorem Ends.requests {s' : DescribeMany} (h : s.Ends s') : s'.requests link = s.requests link := by
  rw [DescribeMany.requests, DescribeMany.requests, h.sent]

theorem Ends.allHeard {s' : DescribeMany} (h : s.Ends s') : s'.allHeard = s.allHeard := by
  rw [DescribeMany.allHeard, DescribeMany.allHeard, windows, windows, h.past, h.window]

/-- A window that starts has heard nothing. -/
theorem nextWindow_keeps (s : DescribeMany) :
    s.nextWindow.requests link = s.requests link ∧ s.nextWindow.allHeard = s.allHeard := by
  unfold nextWindow
  split
  · exact ⟨rfl, rfl⟩
  · refine ⟨rfl, ?_⟩
    simp [allHeard, windows, begin]

/-- An event that is read is heard, whatever comes of it. -/
theorem hear_keeps (link : DescribeLink) (s : DescribeMany) (event : Event) :
    (s.hear link event).requests link = s.requests link ∧
      (s.hear link event).allHeard = s.allHeard ++ [event] := by
  have hheard : ∀ window : DescribeWindow, window.heard = s.window.heard ++ [event] →
      ({ s with window := window } : DescribeMany).allHeard = s.allHeard ++ [event] := by
    intro window hwindow
    simp [allHeard, windows, hwindow]
  unfold hear
  dsimp only
  split
  · exact ⟨(windowFailed_ends _ _ _).requests, (windowFailed_ends _ _ _).allHeard.trans (hheard _ rfl)⟩
  · rcases DescribeWindow.accept_cases link.lowercase
      { s.window with heard := s.window.heard ++ [event] } event with ⟨h, -⟩ | ⟨key, -, -, h⟩ <;> rw [h]
    · exact ⟨rfl, hheard _ rfl⟩
    · dsimp only
      split
      · exact ⟨(windowDone_ends _).requests, (windowDone_ends _).allHeard.trans (hheard _ rfl)⟩
      · exact ⟨rfl, hheard _ rfl⟩

theorem hear_clock (link : DescribeLink) (s : DescribeMany) (event : Event) :
    (s.hear link event).now = s.now ∧ (s.hear link event).finish = s.finish := by
  unfold hear
  dsimp only
  split
  · exact ⟨(windowFailed_ends _ _ _).now, (windowFailed_ends _ _ _).finish⟩
  · rcases DescribeWindow.accept_cases link.lowercase
      { s.window with heard := s.window.heard ++ [event] } event with ⟨h, -⟩ | ⟨key, -, -, h⟩ <;> rw [h]
    · exact ⟨rfl, rfl⟩
    · dsimp only
      split
      · exact ⟨(windowDone_ends _).now, (windowDone_ends _).finish⟩
      · exact ⟨rfl, rfl⟩

/-- What a happening has done: published a request, read an event, or neither. -/
inductive Reacted (link : DescribeLink) (s : DescribeMany) (happening : Happening) :
    DescribeMany → Prop where
  | sent (key : Wanted) (unsent : List Wanted) (hpublished : s.published link happening
        = some (describeMessage link key (link.newRequestId s.sent.length)))
      (hhears : s.hears ⟨s.now, happening⟩ = []) : Reacted link s happening (s.send link key unsent)
  | heard (event : Event) (hpublished : s.published link happening = none)
      (hhears : s.hears ⟨s.now, happening⟩ = [event]) :
      Reacted link s happening (s.hear link event)
  | moved (s' : DescribeMany) (hpublished : s.published link happening = none)
      (hhears : s.hears ⟨s.now, happening⟩ = []) (hends : s.Ends s') : Reacted link s happening s'
  | next (hpublished : s.published link happening = none)
      (hhears : s.hears ⟨s.now, happening⟩ = []) : Reacted link s happening s.nextWindow

theorem react_reacted (link : DescribeLink) (s : DescribeMany) (happening : Happening) :
    Reacted link s happening (s.react link happening) := by
  unfold react
  split
  · next key unsent hphase =>
    split
    · next htime =>
      exact .moved _ (by simp [published, hphase, htime]) (by simp [hears, hphase])
        (windowFailed_ends s _ _)
    · next htime =>
      exact .sent key unsent (by simp [published, hphase, htime]) (by simp [hears, hphase])
  · next unsent hphase =>
    refine .moved _ (by simp [published, hphase]) (by simp [hears, hphase]) ?_
    cases unsent <;> exact ⟨rfl, rfl, rfl, rfl, rfl⟩
  · next hphase =>
    exact .moved _ (by simp [published, hphase]) (by simp [hears, hphase]) (windowFailed_ends s _ _)
  · next hphase =>
    refine .moved _ (by simp [published, hphase]) (by simp [hears, hphase]) ?_
    split
    · exact windowFailed_ends s _ _
    · exact ⟨rfl, rfl, rfl, rfl, rfl⟩
  · next hphase =>
    exact .moved _ (by simp [published, hphase]) (by simp [hears, hphase])
      ⟨rfl, rfl, rfl, rfl, rfl⟩
  · next event hphase =>
    exact .heard event (by simp [published, hphase]) (by simp [hears, hphase])
  · next hphase =>
    exact .moved _ (by simp [published, hphase]) (by simp [hears, hphase]) (windowFailed_ends s _ _)
  · next within hphase =>
    refine .moved _ (by simp [published, hphase]) (by simp [hears, hphase]) ?_
    split
    · exact waitElapsed_ends s within
    · exact ⟨rfl, rfl, rfl, rfl, rfl⟩
  · next hphase =>
    split
    · exact .moved _ (by simp [published, hphase]) (by simp [hears, hphase])
        ⟨rfl, rfl, rfl, rfl, rfl⟩
    · exact .next (by simp [published, hphase]) (by simp [hears, hphase])
  · next hsend _ _ _ _ hevent _ _ _ =>
    refine .moved _ ?_ ?_ ⟨rfl, rfl, rfl, rfl, rfl⟩
    · unfold published
      split
      · exact (hsend _ _ ‹_› rfl).elim
      · rfl
    · unfold hears
      split
      · exact (hevent _ _ ‹_› ‹_›).elim
      · rfl

/-- What happens takes no time and moves no deadline. -/
theorem react_clock (link : DescribeLink) (s : DescribeMany) (happening : Happening) :
    (s.react link happening).now = s.now ∧ (s.react link happening).finish = s.finish := by
  have h := react_reacted link s happening
  generalize s.react link happening = s' at h ⊢
  cases h with
  | sent key unsent hpublished hhears => exact ⟨rfl, rfl⟩
  | heard event hpublished hhears => exact hear_clock link s event
  | moved _ hpublished hhears hends => exact ⟨hends.now, hends.finish⟩
  | next hpublished hhears =>
    unfold nextWindow
    split <;> exact ⟨rfl, rfl⟩

theorem step_finish (link : DescribeLink) (s : DescribeMany) (input : DescribeInput) :
    (s.step link input).2.finish = s.finish := by
  unfold step
  split
  · rfl
  · exact (react_clock link _ input.happening).2

/-- A call keeps its deadline. -/
theorem final_finish (link : DescribeLink) (s : DescribeMany) (inputs : List DescribeInput) :
    (Machine.final (step link) s inputs).finish = s.finish :=
  Machine.final_invariant (P := fun other => other.finish = s.finish)
    (fun other input h => (step_finish link other input).trans h) inputs rfl

/-- What happens adds what it publishes and what is heard of it, and no more. -/
theorem react_keeps (link : DescribeLink) (s : DescribeMany) (happening : Happening) :
    (s.react link happening).requests link
        = s.requests link ++ (s.published link happening).toList ∧
      (s.react link happening).allHeard = s.allHeard ++ s.hears ⟨s.now, happening⟩ := by
  have h := react_reacted link s happening
  generalize s.react link happening = s' at h ⊢
  cases h with
  | sent key unsent hpublished hhears =>
    rw [hpublished, hhears]
    exact ⟨by simp [requests, send], by simp [allHeard, windows, send]⟩
  | heard event hpublished hhears =>
    rw [hpublished, hhears, Option.toList_none, List.append_nil]
    exact hear_keeps link s event
  | moved _ hpublished hhears hends =>
    rw [hpublished, hhears, Option.toList_none, List.append_nil, List.append_nil]
    exact ⟨hends.requests, hends.allHeard⟩
  | next hpublished hhears =>
    rw [hpublished, hhears, Option.toList_none, List.append_nil, List.append_nil]
    exact nextWindow_keeps s

theorem step_keeps (link : DescribeLink) (s : DescribeMany) (input : DescribeInput) :
    (s.step link input).2.requests link = s.requests link ++ (s.step link input).1.toList ∧
      (s.step link input).2.allHeard = s.allHeard ++ s.hears input := by
  unfold step
  split
  · next hearlier =>
    refine ⟨(List.append_nil _).symm, ?_⟩
    unfold hears
    split
    · rw [if_pos hearlier, List.append_nil]
    · rw [List.append_nil]
  · next hlater =>
    have hhears : s.hears input
        = ({ s with now := input.time } : DescribeMany).hears ⟨input.time, input.happening⟩ := by
      unfold hears
      dsimp only
      split
      · simp [hlater]
      · rfl
    rw [hhears]
    exact react_keeps link { s with now := input.time } input.happening

/-- What is published on the way is what was sent, and what is read is what was heard. -/
theorem final_keeps (link : DescribeLink) (s : DescribeMany) (inputs : List DescribeInput) :
    (Machine.final (step link) s inputs).requests link
        = s.requests link ++ (Machine.outputs (step link) s inputs).reduceOption ∧
      (Machine.final (step link) s inputs).allHeard = s.allHeard ++ heardIn link s inputs := by
  induction inputs generalizing s with
  | nil => exact ⟨(List.append_nil _).symm, (List.append_nil _).symm⟩
  | cons input inputs ih =>
    obtain ⟨hrequests, hheard⟩ := step_keeps link s input
    obtain ⟨hrequests', hheard'⟩ := ih (s.step link input).2
    rw [Machine.final_cons, Machine.outputs_cons, hrequests', hheard', hrequests, hheard,
      List.append_assoc, List.append_assoc]
    refine ⟨?_, rfl⟩
    cases (s.step link input).1 <;> rfl

/-- The mark is set where an error that something else caused ends the call. -/
theorem windowFailed_failed {err : ThalovantError} {caused : Bool}
    (h : (s.windowFailed err caused).failed = true) :
    s.failed = true ∨ caused = true ∧ (s.windowFailed err caused).isDone = true := by
  unfold windowFailed at h ⊢
  split at h
  · split at h
    · exact .inl h
    · next hnot => exact .inr ⟨h, by simp [hnot, isDone]⟩
  · exact .inr ⟨h, by simp [isDone]⟩

theorem windowDone_failed (s : DescribeMany) : s.windowDone.failed = s.failed := by
  unfold windowDone
  split <;> rfl

theorem hear_failed {event : Event} (h : (s.hear link event).failed = true) :
    s.failed = true ∨
      (deniedTypeOf event = some EVENT_INTENT_DESCRIBE && s.window.correlates event) = true
        ∧ (s.hear link event).isDone = true := by
  unfold hear at h ⊢
  dsimp only at h ⊢
  split at h
  · next hdenied =>
    rw [if_pos hdenied]
    exact (windowFailed_failed h).imp id fun hdone => ⟨hdenied, hdone.2⟩
  · refine .inl ?_
    rcases DescribeWindow.accept_cases link.lowercase
      { s.window with heard := s.window.heard ++ [event] } event with ⟨haccept, -⟩ |
      ⟨key, -, -, haccept⟩ <;> rw [haccept] at h
    · exact h
    · dsimp only at h
      split at h
      · rwa [windowDone_failed] at h
      · exact h

/-- Only a send error, a closure or a denial sets the mark, and it ends the call. -/
theorem react_failed {happening : Happening} (h : (s.react link happening).failed = true) :
    s.failed = true
    ∨ (s.breaks ⟨s.now, happening⟩ && (s.react link happening).isDone) = true := by
  unfold react at h ⊢
  split at h
  · next hphase =>
    split at h
    · exact .inl ((windowFailed_failed h).resolve_right nofun)
    · exact .inl h
  · next unsent hphase => cases unsent <;> exact .inl h
  · next hphase =>
    refine (windowFailed_failed h).imp id fun hdone => ?_
    simp [breaks, hphase, hdone.2]
  · next hphase =>
    split at h
    · exact .inl ((windowFailed_failed h).resolve_right nofun)
    · exact .inl h
  · exact .inl h
  · next event hphase =>
    refine (hear_failed h).imp id fun hdone => ?_
    simpa [breaks, hphase] using hdone
  · next hphase =>
    refine (windowFailed_failed h).imp id fun hdone => ?_
    simp [breaks, hphase, hdone.2]
  · next within hphase =>
    refine .inl ?_
    split at h
    · unfold waitElapsed at h
      split at h
      · rwa [windowDone_failed] at h
      · exact (windowFailed_failed h).resolve_right nofun
    · exact h
  · refine .inl ?_
    split at h
    · exact h
    · unfold nextWindow at h
      split at h <;> exact h
  · exact .inl h

theorem step_failed (link : DescribeLink) (s : DescribeMany) (input : DescribeInput)
    (h : (s.step link input).2.failed = true) :
    s.failed = true ∨ (s.breaks input && (s.step link input).2.isDone) = true := by
  unfold step at h ⊢
  split at h
  · exact .inl h
  · next hlater =>
    rw [if_neg hlater]
    exact react_failed h

theorem brokenIn_of_failed (link : DescribeLink) {s : DescribeMany} {inputs : List DescribeInput}
    (h : (Machine.final (step link) s inputs).failed = true) :
    s.failed = true ∨ brokenIn link s inputs = true := by
  induction inputs generalizing s with
  | nil => exact .inl h
  | cons input inputs ih =>
    rcases ih h with hstep | hlater
    · rcases step_failed link s input hstep with hfailed | hbreaks
      · exact .inl hfailed
      · exact .inr (Bool.or_eq_true_iff.mpr (.inl hbreaks))
    · exact .inr (Bool.or_eq_true_iff.mpr (.inr hlater))

end DescribeMany

end Thalovant.Intents
