import Thalovant.Client.AskUnheard

/-!
# The answer of an ask

Over events alone, the answer of an ask by what it took before it stopped: when it stopped, what was
said, whether that is a reply and which error it is otherwise (`Answers`). Two kinds of events show
how little they count: audio over the budget counts for nothing, and a soft miss counts only where
nothing was said.
-/

namespace Thalovant.Client

/-- An event is a hard failure. -/
def failing (heard : Heard) : Bool := isHardFailure heard.event

/-- Events as a receiver delivers them, without a lag and without an end. -/
structure HubEvents where
  heard : List Heard
  inOrder : heard.Pairwise fun x y => x.time ≤ y.time

def HubEvents.deliveries (events : HubEvents) : List Delivery := events.heard.map .event

/-- The events less the soft misses. -/
def HubEvents.answering (events : HubEvents) : HubEvents where
  heard := events.heard.filter Client.answering
  inOrder := events.inOrder.filter _

namespace Ask

variable {ask : Ask}

/-! ## When it stops -/

variable (ask) in
/-- The earliest of the deadline, the first hard failure offered, and a wait: if something was said,
the wait after the first speech, else the wait after the first completion. -/
def stopTime (start : Nat) (offered taken : List Heard) : Nat :=
  max start (min (ask.byDeadline (firstRead start failing offered))
    (ask.byDeadline (
      if spoken taken = [] then (firstRead start completes offered).map (· + ask.emptyReplyWait)
      else (firstRead start voiced offered).map (· + ask.replySettle))))

/-- What comes after the stop does not move a wait to before it. -/
theorem byDeadline_append (kind : Heard → Bool) (wait : Nat) {start stop : Nat}
    {taken later : List Heard} (hlater : ∀ x ∈ later, stop ≤ readAt start x) :
    ask.byDeadline ((firstRead start kind (taken ++ later)).map (· + wait))
        ≤ ask.byDeadline ((firstRead start kind taken).map (· + wait))
      ∧ min stop (ask.byDeadline ((firstRead start kind taken).map (· + wait)))
        ≤ ask.byDeadline ((firstRead start kind (taken ++ later)).map (· + wait)) := by
  rw [firstRead_append]
  unfold byDeadline
  rcases firstRead start kind taken with _ | now
  · rcases hfirst : firstRead start kind later with _ | now
    · simp
    · obtain ⟨x, hx, -, rfl⟩ := firstRead_some hfirst
      have := hlater x hx
      simp
      omega
  · simp

theorem quietAt_eq (start : Nat) (taken : List Heard) :
    ask.quietAt start taken = ask.byDeadline (
      if spoken taken = [] then (firstRead start completes taken).map (· + ask.emptyReplyWait)
      else (firstRead start voiced taken).map (· + ask.replySettle)) := by
  unfold quietAt
  by_cases h : spoken taken = []
  · rw [if_pos h, firstRead_voiced.mpr h]
    rfl
  · rw [if_neg h]
    rcases hfirst : firstRead start voiced taken with _ | now
    · exact absurd (firstRead_voiced.mp hfirst) h
    · rfl

/-- A hard failure arms no wait. -/
theorem quietAt_concat_of_failing {start : Nat} {taken : List Heard} {heard : Heard}
    (h : isHardFailure heard.event = true) :
    ask.quietAt start (taken ++ [heard]) = ask.quietAt start taken := by
  obtain ⟨hspeech, hsoft, hhandled⟩ := kinds_of_isHardFailure h
  unfold quietAt
  simp [firstRead_concat, voiced, completes, hspeech, hsoft, hhandled]

theorem firstRead_failing {start : Nat} {taken : List Heard} :
    firstRead start failing taken = none ↔ ∀ x ∈ taken, isHardFailure x.event = false := by
  simp [firstRead, failing]

/-- **The stop**, over all that was offered. -/
theorem Halted.stop_eq {start stop : Nat} {taken later : List Heard}
    (h : ask.Halted start taken later stop) :
    stop = ask.stopTime start (taken ++ later) taken := by
  -- what comes after the stop moves neither end of the wait across it
  have hwait : min stop (ask.quietAt start taken)
        ≤ ask.byDeadline (if spoken taken = [] then
          (firstRead start completes (taken ++ later)).map (· + ask.emptyReplyWait)
        else (firstRead start voiced (taken ++ later)).map (· + ask.replySettle))
      ∧ ask.byDeadline (if spoken taken = [] then
          (firstRead start completes (taken ++ later)).map (· + ask.emptyReplyWait)
        else (firstRead start voiced (taken ++ later)).map (· + ask.replySettle))
        ≤ ask.quietAt start taken := by
    rw [quietAt_eq]
    by_cases hspoken : spoken taken = []
    · simp only [if_pos hspoken]
      exact (byDeadline_append completes ask.emptyReplyWait h.after).symm
    · simp only [if_neg hspoken]
      exact (byDeadline_append voiced ask.replySettle h.after).symm
  obtain ⟨hafter, hbefore⟩ := hwait
  unfold stopTime
  generalize ask.byDeadline (if spoken taken = [] then _ else _) = wait at hafter hbefore ⊢
  have hquiet := @quietAt_le ask start taken
  rcases h.ending with ⟨hunfailed, hstop⟩ | ⟨before, heard, rfl, hhard, hstop⟩
  · -- the wait runs out; a hard failure comes later if at all
    have hfailed : stop ≤ max start (ask.byDeadline (firstRead start failing (taken ++ later))) := by
      rw [firstRead_append, firstRead_failing.mpr hunfailed, Option.none_or]
      rcases hfirst : firstRead start failing later with _ | now
      · simp only [byDeadline, Option.getD_none]
        omega
      · obtain ⟨x, hx, -, rfl⟩ := firstRead_some hfirst
        have := h.after x hx
        simp only [byDeadline, Option.getD_some]
        omega
    omega
  · -- a hard failure, before the wait ran out
    obtain ⟨hunfailed, hread⟩ := h.read before heard [] rfl
    have hfirst : firstRead start failing ((before ++ [heard]) ++ later)
        = some (readAt start heard) := by
      rw [firstRead_append, firstRead_concat, firstRead_failing.mpr hunfailed]
      simp [failing, hhard]
    rw [quietAt_concat_of_failing hhard] at hafter hbefore hquiet
    have hstart : start ≤ readAt start heard := Nat.le_max_left _ _
    rw [hfirst]
    simp only [byDeadline, Option.getD_some]
    omega

/-! ## What it answers -/

variable (ask) in
/-- The answer of an ask by the events it took and those it left. -/
structure Answers (start : Nat) (taken later : List Heard) (outcome : Outcome) : Prop where
  before : ∀ heard ∈ taken, readAt start heard ≤ outcome.time
  after : ∀ heard ∈ later, outcome.time ≤ readAt start heard
  /-- Each was read before the wait that those ahead of it left, none of which failed. -/
  read : ∀ before heard after, taken = before ++ heard :: after →
    (∀ x ∈ before, failing x = false) ∧ readAt start heard < ask.quietAt start before
  stop : outcome.time = ask.stopTime start (taken ++ later) taken
  /-- It is a reply if something was said, -/
  replies : (∃ reply, outcome.result = .ok reply) ↔ spoken taken ≠ []
  reply : ∀ reply, outcome.result = .ok reply →
    reply.utterances = spoken taken ∧ reply.text = joinWords (spoken taken)
      ∧ reply.events = taken.map Heard.event ∧ reply.failureEvent = lastOf isHardFailure taken
      ∧ (reply.ok = false ↔ ∃ heard ∈ taken, failing heard = true)
      ∧ (reply.handled = false ↔ ∃ heard ∈ taken, failing heard = true)
  /-- and otherwise the error of the hard failure, or of the last soft miss, or a timeout. -/
  error : ∀ err, outcome.result = .error err →
    err = failure ((lastOf isHardFailure taken).or (lastOf isSoftMiss taken))
  remembered : outcome.remembered = (taken.map Heard.event).filter isHandled

theorem lastOf_isNone {taken : List Heard} :
    (lastOf isHardFailure taken).isNone = false ↔ ∃ heard ∈ taken, failing heard = true := by
  by_cases h : lastOf isHardFailure taken = none
  · rw [h]
    simpa [failing] using lastOf_eq_none.mp h
  · obtain ⟨e, he⟩ := Option.ne_none_iff_exists'.mp h
    have hnot := mt lastOf_eq_none.mpr h
    rw [he]
    simpa [failing] using hnot

theorem Halted.answers {start stop : Nat} {taken later : List Heard} {budget : ReplyMediaBudget}
    (h : ask.Halted start taken later stop) :
    ask.Answers start taken later (ask.outcome
      { time := stop, interrupted := none, collection := ask.collected start budget taken }) where
  before := h.before
  after := h.after
  read := h.read
  stop := h.stop_eq
  replies := by
    by_cases hspoken : spoken taken = [] <;> simp [outcome, Ask.reply, collected, hspoken]
  reply := by
    intro reply hreply
    by_cases hspoken : spoken taken = []
    · simp [outcome, Ask.reply, collected, hspoken] at hreply
    · simp [outcome, Ask.reply, collected, hspoken] at hreply
      subst hreply
      exact ⟨rfl, rfl, rfl, rfl, lastOf_isNone, lastOf_isNone⟩
  error := by
    intro err herr
    by_cases hspoken : spoken taken = []
    · simp [outcome, Ask.reply, collected, hspoken] at herr
      exact herr.symm
    · simp [outcome, Ask.reply, collected, hspoken] at herr
  remembered := rfl

/-- Streams that offer the same get the same answer, but for the number of clips left out. -/
theorem collect_of_accepted {events events' : HubEvents}
    (h : ask.accepted {} events.heard = ask.accepted {} events'.heard) (start : Nat) :
    (ask.collectAskReply start events.deliveries).undropped
      = (ask.collectAskReply start events'.deliveries).undropped := by
  have hloop := @collectFrom_accepted ask _ events.inOrder start {}
  have hloop' := @collectFrom_accepted ask _ events'.inOrder start {}
  unfold collectAskReply HubEvents.deliveries
  rw [outcome_undropped, hloop, show ({} : Collection).mediaBudget = {} from rfl, h, ← hloop',
    ← outcome_undropped]

/-- With something said, the soft misses count for nothing in the reply but their own place in the list
of events. -/
theorem collect_answering (start : Nat) (events : HubEvents) {reply : Reply}
    (h : (ask.collectAskReply start events.deliveries).result = .ok reply) :
    ∃ reply', (ask.collectAskReply start events.answering.deliveries).result = .ok reply'
      ∧ (ask.collectAskReply start events.answering.deliveries).time
        = (ask.collectAskReply start events.deliveries).time
      ∧ reply' = { reply with
          events := reply.events.filter fun e => !isSoftMiss e
          sessionId := reply'.sessionId } := by
  obtain ⟨budget, all, stop, hloop, hanswering⟩ := @collectFrom_answering ask events.heard start start {}
    [] events.inOrder (Waiting.begin start) fun _ _ => Nat.le_max_left _ _
  rw [show ask.collected start {} [] = {} from rfl] at hloop
  have hout : ask.collectAskReply start events.deliveries = ask.outcome
      { time := stop, interrupted := none, collection := ask.collected start budget all } := by
    unfold collectAskReply HubEvents.deliveries
    rw [hloop]
  have hspoken : spoken all ≠ [] := by
    intro hnil
    simp [hout, outcome, Ask.reply, collected, hnil] at h
  have hout' : ask.collectAskReply start events.answering.deliveries = ask.outcome
      { time := stop, interrupted := none,
        collection := ask.collected start budget (all.filter answering) } := by
    unfold collectAskReply HubEvents.deliveries HubEvents.answering
    rw [← hanswering hspoken]
    rfl
  have hevents : (all.filter answering).map Heard.event
      = (all.map Heard.event).filter fun e => !isSoftMiss e := by
    rw [List.filter_map]
    rfl
  rw [hout] at h ⊢
  rw [hout']
  simp [outcome, Ask.reply, collected, hspoken] at h
  subst h
  simp [outcome, Ask.reply, collected, spoken_answering, lastOf_answering, hevents, hspoken]

end Ask

end Thalovant.Client
