import Mathlib.Data.List.Destutter
import Thalovant.Client.AskCollector

/-!
# What a collector holds of what it took

The collector folds the events it accepts into its state one at a time. `collected` is the state as a
whole: a closed form over the list of events taken, with one lemma that a step appends to that list
(`hear_collected`). `accepted` is the list a stream offers: what belongs to the ask, less the audio
over the budget.
-/

namespace Thalovant.Client

/-! ## Kinds of events -/

section Kinds

variable {e : Event}

theorem kinds_of_isSpeech (h : isSpeech e = true) :
    isSoftMiss e = false ∧ isHardFailure e = false ∧ isHandled e = false := by
  have hname : e.name = EVENT_SPEAK ∨ e.name = EVENT_OVOS_UTTERANCE_SPEAK := by
    simpa [isSpeech] using h
  rcases hname with hname | hname <;> simp only [isSoftMiss, isHardFailure, isHandled, hname] <;>
    decide

theorem kinds_of_isSoftMiss (h : isSoftMiss e = true) :
    isSpeech e = false ∧ isHardFailure e = false ∧ isHandled e = false := by
  have hname : e.name = EVENT_INTENT_FAILURE ∨ e.name = EVENT_INTENT_UNMATCHED := by
    simpa [isSoftMiss] using h
  rcases hname with hname | hname <;> simp only [isSpeech, isHardFailure, isHandled, hname] <;>
    decide

theorem kinds_of_isHardFailure (h : isHardFailure e = true) :
    isSpeech e = false ∧ isSoftMiss e = false ∧ isHandled e = false := by
  have hname : e.name = EVENT_POLICY_DENIED ∨ e.name = EVENT_QUERY_TIMEOUT := by
    simpa [isHardFailure] using h
  rcases hname with hname | hname <;> simp only [isSpeech, isSoftMiss, isHandled, hname] <;>
    decide

end Kinds

/-! ## The texts that are spoken -/

/-- An event speaks a text that is not blank. -/
def voiced (heard : Heard) : Bool := isSpeech heard.event && normalized heard.event.text ≠ ""

/-- An event completes the turn, with or without an answer. -/
def completes (heard : Heard) : Bool := isSoftMiss heard.event || isHandled heard.event

/-- The texts spoken, with one space between words, without the blank ones and without one that
repeats the text before it. -/
def spoken (taken : List Heard) : List String :=
  ((taken.filter voiced).map fun heard => normalized heard.event.text).destutter (· ≠ ·)

/-- Taking one more text away from its own repetition. -/
theorem destutter'_concat (a : String) : ∀ (x : String) (l : List String),
    (l ++ [a]).destutter' (· ≠ ·) x =
      if (l.destutter' (· ≠ ·) x).getLast? ≠ some a then l.destutter' (· ≠ ·) x ++ [a]
      else l.destutter' (· ≠ ·) x
  | x, [] => by simp [List.destutter'_singleton]
  | x, y :: l => by
    have hy := destutter'_concat a y l
    have hx := destutter'_concat a x l
    rw [List.cons_append, List.destutter'_cons, List.destutter'_cons]
    by_cases hne : x ≠ y
    · rw [if_pos hne, if_pos hne, hy, List.getLast?_cons_of_ne_nil (List.destutter'_ne_nil _ _)]
      split <;> rfl
    · rw [if_neg hne, if_neg hne, hx]

theorem destutter_concat (a : String) : ∀ l : List String,
    (l ++ [a]).destutter (· ≠ ·) =
      if (l.destutter (· ≠ ·)).getLast? ≠ some a then l.destutter (· ≠ ·) ++ [a]
      else l.destutter (· ≠ ·)
  | [] => by simp
  | x :: l => destutter'_concat a x l

theorem spoken_concat (taken : List Heard) (heard : Heard) (h : isSpeech heard.event = true) :
    spoken (taken ++ [heard]) = pushFragment (spoken taken) heard.event.text := by
  unfold spoken pushFragment
  by_cases hblank : normalized heard.event.text = ""
  · have hvoiced : voiced heard = false := by simp [voiced, hblank]
    simp [List.filter_append, hvoiced, hblank]
  · have hvoiced : voiced heard = true := by simp [voiced, h, hblank]
    have hfilter : (taken ++ [heard]).filter voiced = taken.filter voiced ++ [heard] := by
      simp [List.filter_append, hvoiced]
    rw [if_neg hblank, hfilter, List.map_append, List.map_singleton]
    exact destutter_concat _ _

theorem spoken_concat_of_not_speech (taken : List Heard) (heard : Heard)
    (h : isSpeech heard.event = false) : spoken (taken ++ [heard]) = spoken taken := by
  have hvoiced : voiced heard = false := by simp [voiced, h]
  simp [spoken, List.filter_append, hvoiced]

theorem spoken_eq_nil {taken : List Heard} : spoken taken = [] ↔ taken.find? voiced = none := by
  simp [spoken, List.destutter_eq_nil]

theorem pushFragment_ne_nil {fragments : List String} {text : String}
    (h : normalized text ≠ "") : pushFragment fragments text ≠ [] := by
  unfold pushFragment
  rw [if_neg h]
  split
  · simp
  · next hlast =>
    intro hnil
    simp [hnil] at hlast

namespace Ask

variable (ask : Ask)

/-! ## What a stream offers -/

/-- The events the ask accepts: those that belong to it, less the audio over the budget. -/
def accepted : ReplyMediaBudget → List Heard → List Heard
  | _, [] => []
  | budget, heard :: rest =>
    if ask.belongs heard then
      if (budget.accept heard.event).1 then heard :: accepted (budget.accept heard.event).2 rest
      else accepted (budget.accept heard.event).2 rest
    else accepted budget rest

/-- When the loop reads an event that it waits for from an instant on. -/
def readAt (start : Nat) (heard : Heard) : Nat := max start heard.time

/-- When the first event of a kind is read. -/
def firstRead (start : Nat) (kind : Heard → Bool) (heard : List Heard) : Option Nat :=
  (heard.find? kind).map (readAt start)

theorem firstRead_append (start : Nat) (kind : Heard → Bool) (taken later : List Heard) :
    firstRead start kind (taken ++ later)
      = (firstRead start kind taken).or (firstRead start kind later) := by
  unfold firstRead
  rw [List.find?_append]
  cases taken.find? kind <;> rfl

theorem firstRead_concat (start : Nat) (kind : Heard → Bool) (taken : List Heard) (heard : Heard) :
    firstRead start kind (taken ++ [heard])
      = (firstRead start kind taken).or (if kind heard then some (readAt start heard) else none) := by
  rw [firstRead_append]
  unfold firstRead
  by_cases h : kind heard <;> simp [h]

theorem firstRead_voiced {start : Nat} {taken : List Heard} :
    firstRead start voiced taken = none ↔ spoken taken = [] := by
  rw [spoken_eq_nil]
  simp [firstRead]

theorem firstRead_some {start : Nat} {kind : Heard → Bool} {heard : List Heard} {now : Nat}
    (h : firstRead start kind heard = some now) :
    ∃ x ∈ heard, kind x = true ∧ readAt start x = now := by
  unfold firstRead at h
  obtain ⟨x, hx, rfl⟩ := Option.map_eq_some_iff.mp h
  exact ⟨x, List.mem_of_find?_eq_some hx, List.find?_some hx, rfl⟩

/-- The last event of a kind. -/
def lastOf (kind : Event → Bool) (taken : List Heard) : Option Event :=
  (taken.map Heard.event).reverse.find? kind

theorem lastOf_concat (kind : Event → Bool) (taken : List Heard) (heard : Heard) :
    lastOf kind (taken ++ [heard])
      = if kind heard.event then some heard.event else lastOf kind taken := by
  unfold lastOf
  rw [List.map_append, List.map_singleton, List.reverse_concat, List.find?_cons]
  split <;> simp_all

theorem lastOf_eq_none {kind : Event → Bool} {taken : List Heard} :
    lastOf kind taken = none ↔ ∀ heard ∈ taken, kind heard.event = false := by
  simp [lastOf]

/-! ## The state over what was taken -/

/-- What the loop holds after the events taken. -/
def collected (start : Nat) (budget : ReplyMediaBudget) (taken : List Heard) : Collection where
  events := taken.map Heard.event
  mediaBudget := budget
  fragments := spoken taken
  hardFailure := lastOf isHardFailure taken
  softFailure := lastOf isSoftMiss taken
  emptyDeadline := (firstRead start completes taken).map fun now => ask.window now ask.emptyReplyWait
  settleDeadline := (firstRead start voiced taken).map fun now => ask.window now ask.replySettle
  remembered := (taken.map Heard.event).filter isHandled

variable {ask}

theorem hear_of_accepted {heard : Heard} {c : Collection} (hown : ask.belongs heard = true)
    (hfits : (c.mediaBudget.accept heard.event).1 = true) (now : Nat) :
    ask.hear now heard c =
      let c' := ask.take now heard.event
        { c with mediaBudget := (c.mediaBudget.accept heard.event).2 }
      ({ c' with events := c'.events ++ [heard.event] }, c'.hardFailure.isSome) := by
  simp [hear, hown, hfits]

/-- One event more, by its kinds. -/
theorem collected_concat (start : Nat) (budget : ReplyMediaBudget) (taken : List Heard)
    (heard : Heard) :
    ask.collected start budget (taken ++ [heard]) = {
      events := taken.map Heard.event ++ [heard.event]
      mediaBudget := budget
      fragments :=
        if isSpeech heard.event then pushFragment (spoken taken) heard.event.text else spoken taken
      hardFailure :=
        if isHardFailure heard.event then some heard.event else lastOf isHardFailure taken
      softFailure := if isSoftMiss heard.event then some heard.event else lastOf isSoftMiss taken
      emptyDeadline := ((firstRead start completes taken).or
        (if completes heard then some (readAt start heard) else none)).map fun now =>
          ask.window now ask.emptyReplyWait
      settleDeadline := ((firstRead start voiced taken).or
        (if voiced heard then some (readAt start heard) else none)).map fun now =>
          ask.window now ask.replySettle
      remembered := (taken.map Heard.event).filter isHandled
        ++ if isHandled heard.event then [heard.event] else [] } := by
  unfold collected
  simp only [lastOf_concat, firstRead_concat, List.map_append, List.map_singleton,
    List.filter_append, List.filter_singleton, Collection.mk.injEq, true_and]
  refine ⟨?_, by cases isHandled heard.event <;> rfl⟩
  by_cases h : isSpeech heard.event = true
  · rw [if_pos h, spoken_concat taken heard h]
  · rw [if_neg h, spoken_concat_of_not_speech taken heard (by simpa using h)]

/-- **One event is taken.** What the loop holds is told by the list of events taken: to take one more
is to append it to the list. -/
theorem take_collected (start : Nat) (budget : ReplyMediaBudget) (taken : List Heard)
    (heard : Heard) :
    { ask.take (readAt start heard) heard.event (ask.collected start budget taken) with
      events := (ask.take (readAt start heard) heard.event
        (ask.collected start budget taken)).events ++ [heard.event] }
      = ask.collected start budget (taken ++ [heard]) := by
  rw [collected_concat]
  by_cases hspeech : isSpeech heard.event = true
  · obtain ⟨hsoft, hhard, hhandled⟩ := kinds_of_isSpeech hspeech
    by_cases hblank : normalized heard.event.text = ""
    · -- nothing is said: the settle window is not armed by a blank text
      have hsame : pushFragment (spoken taken) heard.event.text = spoken taken := by
        simp [pushFragment, hblank]
      rcases hfirst : firstRead start voiced taken with _ | now
      · have hnil := firstRead_voiced.mp hfirst
        rw [hnil] at hsame
        simp [take, collected, hspeech, hsoft, hhard, hhandled, hsame, hnil, hfirst, completes,
          voiced, hblank]
      · simp [take, collected, hspeech, hsoft, hhard, hhandled, hsame, hfirst, completes, voiced,
          hblank]
    · have hsaid := @pushFragment_ne_nil (spoken taken) _ hblank
      rcases hfirst : firstRead start voiced taken with _ | now <;>
        simp [take, collected, hspeech, hsoft, hhard, hhandled, hsaid, hfirst, completes, voiced,
          hblank]
  · by_cases hsoft : isSoftMiss heard.event = true
    · obtain ⟨hspeech, hhard, hhandled⟩ := kinds_of_isSoftMiss hsoft
      rcases hfirst : firstRead start completes taken with _ | now <;>
        simp [take, collected, hspeech, hsoft, hhard, hhandled, hfirst, completes, voiced]
    · by_cases hhard : isHardFailure heard.event = true
      · obtain ⟨hspeech, hsoft, hhandled⟩ := kinds_of_isHardFailure hhard
        simp [take, collected, hspeech, hsoft, hhard, hhandled, completes, voiced]
      · by_cases hhandled : isHandled heard.event = true
        · rcases hfirst : firstRead start completes taken with _ | now <;>
            simp [take, collected, hspeech, hsoft, hhard, hhandled, hfirst, completes, voiced]
        · simp [take, collected, hspeech, hsoft, hhard, hhandled, completes, voiced]

/-- **One event is read.** -/
theorem hear_collected {start : Nat} {budget : ReplyMediaBudget} {taken : List Heard}
    {heard : Heard} (hown : ask.belongs heard = true)
    (hfits : (budget.accept heard.event).1 = true)
    (hunfailed : ∀ x ∈ taken, isHardFailure x.event = false) :
    ask.hear (readAt start heard) heard (ask.collected start budget taken)
      = (ask.collected start (budget.accept heard.event).2 (taken ++ [heard]),
        isHardFailure heard.event) := by
  have hbudget : { ask.collected start budget taken with
      mediaBudget := (budget.accept heard.event).2 }
      = ask.collected start (budget.accept heard.event).2 taken := rfl
  have htake := @take_collected ask start (budget.accept heard.event).2 taken heard
  rw [hear_of_accepted hown hfits]
  dsimp only
  rw [show (ask.collected start budget taken).mediaBudget = budget from rfl, hbudget, htake]
  have hfailed := congrArg Collection.hardFailure htake
  dsimp only at hfailed
  rw [hfailed]
  simp only [collected, lastOf_concat, lastOf_eq_none.mpr hunfailed]
  split <;> simp_all

end Ask

end Thalovant.Client
