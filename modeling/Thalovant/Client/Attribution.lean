import Mathlib.Data.List.TakeWhile
import Thalovant.Client.AskTaken
import Thalovant.Client.Replies
import Thalovant.Lib.Reservation

/-!
# Who takes a denial

The hub denies an utterance without a request id, so an ask takes such a denial only when nothing else
the transport has out could be what was denied. `World.Inv` ties what the transport counts to the calls
and the sends of the run: a reservation is held by one call, and of the fire-and-forget utterances
within their grace one at least is kept.
-/

namespace Thalovant.Client

open Reservation (Held)

/-! ## What is kept of the sends -/

section Prune

variable {now : Nat} {sends : List Nat}

theorem pruneUntrackedSends_sublist (now : Nat) (sends : List Nat) :
    (pruneUntrackedSends now sends).Sublist sends := by
  unfold pruneUntrackedSends
  exact (List.drop_sublist _ _).trans (List.dropWhile_sublist _)

/-- A send within the grace is kept, or one after it. -/
theorem exists_mem_pruneUntrackedSends (hsorted : sends.Pairwise (· ≤ ·)) {sent : Nat}
    (hmem : sent ∈ sends) (hgrace : now ≤ sent + UNTRACKED_UTTERANCE_GRACE) :
    ∃ later ∈ pruneUntrackedSends now sends, sent ≤ later := by
  unfold pruneUntrackedSends
  extract_lets live
  have hlive : sent ∈ live := by
    rw [← @List.takeWhile_append_dropWhile _ (fun sent => now - sent > UNTRACKED_UTTERANCE_GRACE)
      sends, List.mem_append] at hmem
    rcases hmem with hmem | hmem
    · have hexpired := List.mem_takeWhile_imp hmem
      simp only [gt_iff_lt, decide_eq_true_eq] at hexpired
      omega
    · exact hmem
  have hpos : 0 < live.length := List.length_pos_of_mem hlive
  have hsplit := List.take_append_drop (live.length - 1024) live
  have horder : live.Pairwise (· ≤ ·) := hsorted.sublist (List.dropWhile_sublist _)
  rw [← hsplit, List.mem_append] at hlive
  rcases hlive with hold | hnew
  · -- beyond the cap: what the cap keeps is later
    obtain ⟨later, hlater⟩ := List.exists_mem_of_length_pos
      (show 0 < (live.drop (live.length - 1024)).length by rw [List.length_drop]; omega)
    rw [← hsplit, List.pairwise_append] at horder
    exact ⟨later, hlater, horder.2.2 sent hold later hlater⟩
  · exact ⟨sent, hnew, Nat.le_refl _⟩

/-- Nothing is kept exactly when every send is past the grace. -/
theorem pruneUntrackedSends_eq_nil (hsorted : sends.Pairwise (· ≤ ·)) :
    pruneUntrackedSends now sends = []
      ↔ ∀ sent ∈ sends, sent + UNTRACKED_UTTERANCE_GRACE < now := by
  constructor
  · intro hnil sent hmem
    by_contra hgrace
    obtain ⟨later, hlater, -⟩ := exists_mem_pruneUntrackedSends hsorted hmem (Nat.le_of_not_lt hgrace)
    rw [hnil] at hlater
    cases hlater
  · intro hexpired
    have hlive : sends.dropWhile (fun sent => now - sent > UNTRACKED_UTTERANCE_GRACE) = [] := by
      rw [List.dropWhile_eq_nil_iff]
      intro sent hmem
      have := hexpired sent hmem
      simp only [gt_iff_lt, decide_eq_true_eq]
      omega
    unfold pruneUntrackedSends
    rw [hlive]
    exact List.drop_nil

end Prune

/-! ## The sends of a run -/

/-- What the transport keeps of the sends that the `emit`s of a run noted. -/
structure Noted (now : Nat) (sends : List Nat) (emits : Nat → Option Nat) : Prop where
  sorted : sends.Pairwise (· ≤ ·)
  noted : ∀ sent ∈ sends, ∃ k, emits k = some sent
  past : ∀ {k sent}, emits k = some sent → sent ≤ now
  /-- Of an `emit` within the grace, its send is kept or a later one. -/
  kept : ∀ {k sent}, emits k = some sent → now ≤ sent + UNTRACKED_UTTERANCE_GRACE →
    ∃ later ∈ sends, sent ≤ later

namespace Noted

variable {now : Nat} {sends : List Nat} {emits : Nat → Option Nat}

theorem start (now : Nat) : Noted now [] fun _ => none where
  sorted := List.Pairwise.nil
  noted := by simp
  past := by simp
  kept := by simp

theorem tick (h : Noted now sends emits) (d : Nat) : Noted (now + d) sends emits where
  sorted := h.sorted
  noted := h.noted
  past hk := Nat.le_add_right_of_le (h.past hk)
  kept hk hgrace := h.kept hk (Nat.le_trans (Nat.le_add_right now d) hgrace)

/-- What is too old is forgotten. -/
theorem prune (h : Noted now sends emits) : Noted now (pruneUntrackedSends now sends) emits where
  sorted := h.sorted.sublist (pruneUntrackedSends_sublist now sends)
  noted sent hmem := h.noted sent ((pruneUntrackedSends_sublist now sends).subset hmem)
  past := h.past
  kept hk hgrace := by
    obtain ⟨later, hmem, hle⟩ := h.kept hk hgrace
    obtain ⟨later', hmem', hle'⟩ := exists_mem_pruneUntrackedSends h.sorted hmem
      (Nat.le_trans hgrace (Nat.add_le_add_right hle _))
    exact ⟨later', hmem', Nat.le_trans hle hle'⟩

/-- An `emit` is noted. -/
theorem note (h : Noted now sends emits) {k : Nat} (hk : emits k = none) :
    Noted now (sends ++ [now]) (Function.update emits k (some now)) where
  sorted := by
    rw [List.pairwise_append]
    refine ⟨h.sorted, List.pairwise_singleton _ _, ?_⟩
    intro sent hmem now' hnow
    rw [List.mem_singleton.mp hnow]
    obtain ⟨j, hj⟩ := h.noted sent hmem
    exact h.past hj
  noted sent hmem := by
    rcases List.mem_append.mp hmem with hmem | hmem
    · obtain ⟨j, hj⟩ := h.noted sent hmem
      -- an `emit` is noted once, so this is another's
      have hjk : j ≠ k := by
        rintro rfl
        rw [hk] at hj
        cases hj
      exact ⟨j, by rw [Function.update_of_ne hjk, hj]⟩
    · rw [List.mem_singleton.mp hmem]
      exact ⟨k, Function.update_self ..⟩
  past {j sent} hj := by
    by_cases hjk : j = k
    · subst hjk
      rw [Function.update_self, Option.some.injEq] at hj
      exact Nat.le_of_eq hj.symm
    · rw [Function.update_of_ne hjk] at hj
      exact h.past hj
  kept {j sent} hj hgrace := by
    by_cases hjk : j = k
    · subst hjk
      rw [Function.update_self, Option.some.injEq] at hj
      exact ⟨now, List.mem_append_right _ List.mem_cons_self, Nat.le_of_eq hj.symm⟩
    · rw [Function.update_of_ne hjk] at hj
      obtain ⟨later, hmem, hle⟩ := h.kept hj hgrace
      exact ⟨later, List.mem_append_left _ hmem, hle⟩

/-- Nothing is kept exactly when every `emit` is past its grace. -/
theorem pruned_eq_nil (h : Noted now sends emits) : pruneUntrackedSends now sends = []
    ↔ ∀ k sent, emits k = some sent → sent + UNTRACKED_UTTERANCE_GRACE < now := by
  rw [pruneUntrackedSends_eq_nil h.sorted]
  constructor
  · intro hexpired k sent hk
    by_contra hgrace
    obtain ⟨later, hmem, hle⟩ := h.kept hk (Nat.le_of_not_lt hgrace)
    have := hexpired later hmem
    omega
  · intro hexpired sent hmem
    obtain ⟨k, hk⟩ := h.noted sent hmem
    exact hexpired k sent hk

end Noted

/-! ## The invariant of a run -/

namespace CallState

@[simp] theorem key_subscribe (state : CallState) : state.subscribe.key = state.key := by
  rcases state with _ | _ | (_ | _) | _ | _ | _ | _ <;> rfl

@[simp] theorem key_deliver (a : Arrival) (state : CallState) : (state.deliver a).key = state.key := by
  cases state <;> rfl

end CallState

namespace World

variable {w : World}

/-- The reservation of each call. -/
def keys (w : World) (n : Nat) : Option (Bool × String) := (w.calls n).key

theorem keys_setCall (w : World) (n : Nat) (state : CallState) :
    (w.setCall n state).keys = Function.update w.keys n state.key := by
  funext m
  by_cases hm : m = n
  · subst hm
    simp [keys, setCall]
  · simp [keys, setCall, hm]

/-- A call that goes on keeps its reservation. -/
theorem keys_setCall_of_eq {n : Nat} {state : CallState} (h : state.key = w.keys n) :
    (w.setCall n state).keys = w.keys := by
  rw [keys_setCall, h, Function.update_eq_self]

/-- What the transport holds is what the calls and the sends of the run amount to. -/
structure Inv (w : World) : Prop where
  held : Held w.control.activeReplies w.keys
  noted : Noted w.now w.control.untrackedSends w.emits

theorem inv_start : Inv {} where
  held := Held.empty
  noted := Noted.start 0

theorem Inv.reserve (h : w.Inv) (n : Nat) (call : Call) : (w.reserve n call).Inv := by
  unfold World.reserve
  split
  · next hidle =>
    have hkey : w.keys n = none := by simp [keys, hidle, CallState.key]
    unfold ConnectionControl.reserveReply
    by_cases hfree : (call.key.1, call.key.2) ∈ w.control.activeReplies
    · rw [if_pos hfree]
      refine ⟨?_, h.noted⟩
      rw [keys_setCall_of_eq]
      · exact h.held
      · exact hkey.symm
    · rw [if_neg hfree]
      refine ⟨?_, h.noted⟩
      show Held (insert call.key w.control.activeReplies) (w.setCall n (.reserved call)).keys
      rw [keys_setCall]
      exact h.held.take hkey hfree
  · exact h

theorem Inv.subscribe (h : w.Inv) (n : Nat) : (w.setCall n (w.calls n).subscribe).Inv where
  held := by
    rw [keys_setCall_of_eq (CallState.key_subscribe _)]
    exact h.held
  noted := h.noted

theorem Inv.record (h : w.Inv) (k : Nat) : (w.record k).Inv := by
  unfold World.record
  split
  · next hidle => exact ⟨h.held, (h.noted.note hidle).prune⟩
  · exact h

theorem Inv.publish (h : w.Inv) (publisher : Publisher) : (w.publish publisher).Inv := by
  unfold World.publish
  split
  · exact ⟨h.held, h.noted⟩
  · exact h

theorem Inv.arrive (h : w.Inv) (event : Event) (cause : Option Nat) :
    (w.arrive event cause).Inv := by
  unfold World.arrive
  split
  · refine ⟨?_, h.noted⟩
    have hkeys : (fun n => ((w.calls n).deliver
        { time := w.now, event := event, cause := cause }).key) = w.keys :=
      funext fun n => CallState.key_deliver _ _
    show Held w.control.activeReplies fun n => ((w.calls n).deliver _).key
    rw [hkeys]
    exact h.held
  · exact h

theorem Inv.controlAfter (h : w.Inv) (a : Arrival) : Inv { w with control := w.controlAfter a } := by
  unfold World.controlAfter
  split
  · exact ⟨h.held, h.noted.prune⟩
  · exact h

theorem next_some {n : Nat} {r : Reading} (h : w.next n = some r) :
    w.calls n = .collecting r.ask r.c (r.arrival :: r.inbox) ∧ w.now < r.ask.wake r.c := by
  unfold next at h
  split at h
  · next ask c a inbox hcall =>
    by_cases hwake : w.now < ask.wake c
    · rw [if_pos hwake] at h
      cases h
      exact ⟨hcall, hwake⟩
    · rw [if_neg hwake] at h
      cases h
  · cases h

theorem read_of_next {n : Nat} {r : Reading} (h : w.next n = some r) :
    w.read n = { w with control := w.controlAfter r.arrival }.setCall n
      (if (r.ask.hear w.now (w.heard r.arrival) r.c).2 then
        .settled r.ask (r.ask.hear w.now (w.heard r.arrival) r.c).1
      else .collecting r.ask (r.ask.hear w.now (w.heard r.arrival) r.c).1 r.inbox) := by
  unfold read
  rw [h]
  dsimp only
  rcases r.ask.hear w.now (w.heard r.arrival) r.c with ⟨c, _ | _⟩ <;> rfl

theorem Inv.read (h : w.Inv) (n : Nat) : (w.read n).Inv := by
  cases hnext : w.next n with
  | none =>
    unfold World.read
    rw [hnext]
    exact h
  | some r =>
    have hafter := h.controlAfter r.arrival
    rw [read_of_next hnext]
    refine ⟨?_, hafter.noted⟩
    rw [keys_setCall_of_eq]
    · exact hafter.held
    · have hkey : w.keys n = some (Call.asking r.ask).key := by
        simp [keys, (next_some hnext).1, CallState.key]
      rw [show World.keys { w with control := w.controlAfter r.arrival } n = w.keys n from rfl, hkey]
      split <;> rfl

theorem Inv.release (h : w.Inv) (n : Nat) : (w.release n).Inv := by
  unfold World.release
  split
  · next key hkey =>
    refine ⟨?_, h.noted⟩
    show Held (w.control.activeReplies.erase key) (w.setCall n (.ended (w.calls n).opened)).keys
    rw [keys_setCall]
    exact h.held.release hkey
  · exact h

theorem Inv.step (h : w.Inv) (act : Act) : (w.step act).Inv := by
  cases act with
  | tick d => exact ⟨h.held, h.noted.tick d⟩
  | reserve n call => exact h.reserve n call
  | subscribe n => exact h.subscribe n
  | record k => exact h.record k
  | publish publisher => exact h.publish publisher
  | arrive event cause => exact h.arrive event cause
  | read n => exact h.read n
  | release n => exact h.release n

/-- **The transport counts what is out.** In every run, its reservations are those of the calls, and
it keeps a send of the last grace if there is one. -/
theorem inv_after (acts : List Act) : (after acts).Inv := by
  induction acts using List.reverseRecOn with
  | nil => exact inv_start
  | append_singleton acts act ih =>
    rw [after_concat]
    exact ih.step act

/-! ## A denial that is read -/

/-- An ask ends on an event as it reads it. -/
def Takes (w : World) (n : Nat) (e : Event) : Prop :=
  ∃ ask c, (w.read n).calls n = .settled ask c ∧ c.hardFailure = some e

/-- A denial without a request id, within the grace of an utterance that another published. -/
def Foreign (w : World) (n : Nat) (a : Arrival) : Prop :=
  a.event.name = EVENT_POLICY_DENIED ∧ (∀ id ∈ a.event.requestId, id = "")
    ∧ ∃ u p, a.cause = some u ∧ w.published[u]? = some p ∧ p.publisher ≠ .call n
      ∧ a.time ≤ p.time + UNTRACKED_UTTERANCE_GRACE

/-- The ask has a reason to leave a denial: it names another type, another call waits for its reply, or
a fire-and-forget utterance was noted within the grace. -/
def Covered (w : World) (n : Nat) (a : Arrival) : Prop :=
  a.event.data.getStr "denied_type" ≠ some EVENT_RECOGNIZER_LOOP_UTTERANCE
    ∨ (∃ m, m ≠ n ∧ w.keys m ≠ none)
    ∨ ∃ k sent, w.emits k = some sent ∧ w.now ≤ sent + UNTRACKED_UTTERANCE_GRACE

/-- A publisher still has its utterance out: the call waits, or the `emit` is within its grace. -/
def Out (w : World) : Publisher → Prop
  | .call m => w.keys m ≠ none
  | .emit k => ∃ sent, w.emits k = some sent ∧ w.now ≤ sent + UNTRACKED_UTTERANCE_GRACE

end World

namespace Ask

variable {ask : Ask} {heard : Heard}

theorem hear_of_not_belongs (h : ask.belongs heard = false) (now : Nat) (c : Collection) :
    ask.hear now heard c = (c, false) := by
  simp [hear, h]

/-- A denial that belongs to the ask ends it. -/
theorem hear_of_denied (hname : heard.event.name = EVENT_POLICY_DENIED)
    (h : ask.belongs heard = true) (now : Nat) (c : Collection) :
    (ask.hear now heard c).2 = true
      ∧ (ask.hear now heard c).1.hardFailure = some heard.event := by
  have haudio : heard.event.isAudio = false := by
    simp only [Event.isAudio, hname]
    decide
  have haccept := c.mediaBudget.accept_of_not_isAudio haudio
  have hhard : isHardFailure heard.event = true := by simp [isHardFailure, hname]
  obtain ⟨hspeech, hsoft, -⟩ := kinds_of_isHardFailure hhard
  rw [hear_of_accepted h (by rw [haccept])]
  simp [take, hspeech, hsoft, hhard]

end Ask

namespace World

variable {w : World}

/-- What an ask ends on as it reads a denial is what it judges its own. -/
theorem takes_iff_belongs {n : Nat} {r : Reading} (hnext : w.next n = some r)
    (hname : r.arrival.event.name = EVENT_POLICY_DENIED) :
    w.Takes n r.arrival.event ↔ r.ask.belongs (w.heard r.arrival) = true := by
  unfold Takes
  rw [read_of_next hnext]
  simp only [setCall, Function.update_self]
  by_cases hown : r.ask.belongs (w.heard r.arrival) = true
  · obtain ⟨hstop, hfailure⟩ := Ask.hear_of_denied hname hown w.now r.c
    rw [if_pos hstop]
    exact iff_of_true ⟨_, _, rfl, hfailure⟩ hown
  · rw [Ask.hear_of_not_belongs (by simpa using hown)]
    simp [hown]

/-- An ask is the only call exactly when it is counted so. -/
theorem Inv.only_call_iff (h : w.Inv) {n : Nat} {id : String} (hn : w.keys n = some (false, id)) :
    ((w.control.utterancesInFlight w.now).1.asks = 1
      ∧ (w.control.utterancesInFlight w.now).1.queries = 0) ↔ ∀ m, m ≠ n → w.keys m = none := by
  rw [← h.held.eq_singleton_iff hn]
  have hmem : (false, id) ∈ w.control.activeReplies := (h.held.mem_iff _).mpr ⟨n, hn⟩
  dsimp only [ConnectionControl.utterancesInFlight]
  constructor
  · rintro ⟨hasks, hqueries⟩
    obtain ⟨key, hkey⟩ := Finset.card_eq_one.mp
      (show w.control.activeReplies.card = 1 by omega)
    rw [hkey, Finset.mem_singleton] at hmem
    rw [hkey, hmem]
  · intro hkey
    rw [hkey]
    simp [Finset.filter_singleton]

/-- No send is counted exactly when every `emit` is past its grace. -/
theorem Inv.no_send_iff (h : w.Inv) : (w.control.utterancesInFlight w.now).1.sends = 0
    ↔ ∀ k sent, w.emits k = some sent → sent + UNTRACKED_UTTERANCE_GRACE < w.now := by
  rw [← h.noted.pruned_eq_nil]
  exact List.length_eq_zero_iff

theorem refusalBelongsToAsk_of_unattributed {requestId : Option String}
    (h : ∀ id ∈ requestId, id = "") (own : String) (deniedType : Option String)
    (inFlight : InFlight) : refusalBelongsToAsk requestId own deniedType inFlight = true
      ↔ deniedType = some EVENT_RECOGNIZER_LOOP_UTTERANCE
        ∧ (inFlight.asks = 1 ∧ inFlight.queries = 0) ∧ inFlight.sends = 0 := by
  cases requestId with
  | none => simp [refusalBelongsToAsk, and_assoc]
  | some id => simp [refusalBelongsToAsk, h id rfl, and_assoc]

/-- **Who takes a denial.** An ask ends on a denial without a request id exactly when nothing else that
is out covers it. -/
theorem Inv.takes_iff (h : w.Inv) {n : Nat} {r : Reading} (hnext : w.next n = some r)
    (hname : r.arrival.event.name = EVENT_POLICY_DENIED)
    (hid : ∀ id ∈ r.arrival.event.requestId, id = "") :
    w.Takes n r.arrival.event ↔ ¬ w.Covered n r.arrival := by
  have hkey : w.keys n = some (false, r.ask.requestId) := by
    simp [keys, (next_some hnext).1, CallState.key, Call.key]
  have hbelongs : r.ask.belongs (w.heard r.arrival) = refusalBelongsToAsk r.arrival.event.requestId
      r.ask.requestId (r.arrival.event.data.getStr "denied_type")
      (w.control.utterancesInFlight w.now).1 := by
    simp [Ask.belongs, heard, hname]
  rw [takes_iff_belongs hnext hname, hbelongs, refusalBelongsToAsk_of_unattributed hid,
    h.only_call_iff hkey, h.no_send_iff]
  unfold Covered
  push Not
  rfl

/-- As long as the publisher of an utterance has it out, no other ask takes its denial. -/
theorem covered_of_out {n : Nat} {a : Arrival} {p : Publication}
    (hother : p.publisher ≠ .call n) (hout : w.Out p.publisher) : w.Covered n a := by
  cases hpub : p.publisher with
  | call m =>
    rw [hpub] at hother hout
    exact .inr (.inl ⟨m, fun hm => hother (by rw [hm]), hout⟩)
  | emit k =>
    rw [hpub] at hout
    exact .inr (.inr ⟨k, hout⟩)

/-! ## Runs -/

/-- What holds of every event an ask reads in a run, in the world it reads it in. -/
def EveryRead (P : World → Nat → Arrival → Prop) (acts : List Act) : Prop :=
  ∀ before n rest r, acts = before ++ .read n :: rest → (after before).next n = some r →
    P (after before) n r.arrival

/-- No ask ends on a denial of an utterance that another published. -/
def OnlyTheCauser (acts : List Act) : Prop :=
  EveryRead (fun w n a => w.Foreign n a → ¬ w.Takes n a.event) acts

/-- Where the publisher of every denied utterance still has it out as the denial is read, no other ask
takes the denial. -/
theorem onlyTheCauser_of_out {acts : List Act}
    (h : EveryRead (fun w _ a => ∀ u p, a.cause = some u → w.published[u]? = some p →
      w.Out p.publisher) acts) : OnlyTheCauser acts := by
  intro before n rest r hacts hnext hforeign
  obtain ⟨hname, hid, u, p, hcause, hp, hother, -⟩ := hforeign
  rw [(inv_after before).takes_iff hnext hname hid]
  exact not_not_intro (covered_of_out hother (h before n rest r hacts hnext u p hcause hp))

/-- **Denials and their utterances.** In a run of any calls and sends, no ask ends on the denial of
another's utterance exactly when, each time an ask reads such a denial, something else that is out
covers it. -/
theorem denial_attribution (acts : List Act) :
    OnlyTheCauser acts ↔ EveryRead (fun w n a => w.Foreign n a → w.Covered n a) acts := by
  constructor
  · intro h before n rest r hacts hnext hforeign
    have hnot := h before n rest r hacts hnext hforeign
    rw [(inv_after before).takes_iff hnext hforeign.1 hforeign.2.1] at hnot
    exact not_not.mp hnot
  · intro h before n rest r hacts hnext hforeign
    rw [(inv_after before).takes_iff hnext hforeign.1 hforeign.2.1]
    exact not_not_intro (h before n rest r hacts hnext hforeign)

/-! ## An ask that timed out -/

/-- The hub denies an utterance. -/
def utteranceDenied : Event where
  name := EVENT_POLICY_DENIED
  data := [("denied_type", .string EVENT_RECOGNIZER_LOOP_UTTERANCE)]

/-- An ask with a second to wait, and one with twenty. -/
def firstAsk : Ask := { requestId := "first", deadline := 1000000000, representable := by decide }

def secondAsk : Ask := { requestId := "second", deadline := 20000000000, representable := by decide }

/-- The first ask sends and its wait runs out; the second ask sends; then the first one's denial
arrives. -/
def lateDenial : List Act :=
  [.reserve 0 (.asking firstAsk), .subscribe 0, .publish (.call 0), .tick 1000000000, .release 0,
    .reserve 1 (.asking secondAsk), .subscribe 1, .publish (.call 1),
    .arrive utteranceDenied (some 0)]

/-- The second ask ends on the denial of what the first one sent. -/
theorem denial_attribution_fails : ¬ ∀ acts, OnlyTheCauser acts := by
  intro h
  have hnext : (after lateDenial).next 1 = some {
      ask := secondAsk
      c := {}
      arrival := { time := 1000000000, event := utteranceDenied, cause := some 0 }
      inbox := [] } := rfl
  have hforeign : (after lateDenial).Foreign 1
      { time := 1000000000, event := utteranceDenied, cause := some 0 } := by
    refine ⟨rfl, ?_, 0, { publisher := .call 0, time := 0 }, rfl, rfl, by simp, by decide⟩
    rw [show utteranceDenied.requestId = none by decide +kernel]
    simp
  refine h (lateDenial ++ [.read 1]) lateDenial 1 [] _ rfl hnext hforeign ?_
  rw [(inv_after lateDenial).takes_iff hnext hforeign.1 hforeign.2.1]
  rintro (htype | ⟨m, hm, hkey⟩ | ⟨k, sent, hsent, -⟩)
  · exact htype (by decide +kernel)
  · match m with
    | 0 => exact hkey rfl
    | 1 => exact hm rfl
    | m + 2 => exact hkey rfl
  · cases hsent

end World

end Thalovant.Client
