import Thalovant.Client.AskCollector

/-!
# What an ask does not hear

Many calls share one connection and every receiver is given every event. An event that does not
belong to an ask leaves its collector as it was, clock included: the loop over a stream is the loop
over the part of the stream that concerns the ask.
-/

namespace Thalovant.Client

/-- What a receiver delivers over time: no delivery arrived before the one ahead of it. -/
structure EventStream where
  deliveries : List Delivery
  inOrder : deliveries.Pairwise fun d d' => d.time ≤ d'.time

/-- A delivery without the counts read with it. -/
def Delivery.uncounted : Delivery → Delivery
  | .event heard => .event { heard with inFlight := { asks := 0, queries := 0, sends := 0 } }
  | d => d

namespace Ask

variable (ask : Ask)

/-- A delivery concerns the ask: an event that belongs to it, or a report of the receiver itself. -/
def concerns : Delivery → Bool
  | .event heard => ask.belongs heard
  | _ => true

/-- The part of a stream that concerns the ask. -/
def own (stream : EventStream) : List Delivery :=
  (stream.deliveries.filter ask.concerns).map Delivery.uncounted

variable {ask}

/-! ## The loop between two events -/

/-- Nothing is read once the wait is over. -/
theorem collectFrom_over {now : Nat} {c : Collection} : ∀ {rest : List Delivery},
    (∀ d ∈ rest, ask.wake c ≤ max now d.time) →
      ask.collectFrom now c rest
        = { time := max now (ask.wake c), interrupted := none, collection := c }
  | [], _ => rfl
  | d :: rest, h => by
    have hd := h d List.mem_cons_self
    unfold collectFrom
    by_cases hnow : ask.wake c ≤ now
    · rw [if_pos hnow, Nat.max_eq_left hnow]
    · rw [if_neg hnow, if_pos (by omega), Nat.max_eq_right (by omega)]

/-- Time that passes before the next event arrives changes nothing. -/
theorem collectFrom_later {now t : Nat} {c : Collection} (h : ¬ ask.wake c ≤ max now t) :
    ∀ {rest : List Delivery}, (∀ d ∈ rest, t ≤ d.time) →
      ask.collectFrom (max now t) c rest = ask.collectFrom now c rest
  | [], _ => by
    unfold collectFrom
    rw [Nat.max_eq_right (by omega), Nat.max_eq_right (by omega)]
  | d :: rest, hrest => by
    have hmax : max (max now t) d.time = max now d.time := by
      have := hrest d List.mem_cons_self
      omega
    unfold collectFrom
    rw [if_neg h, if_neg (by omega : ¬ ask.wake c ≤ now), hmax]

/-- An event that comes before the wait is over is read. -/
theorem collectFrom_event {now : Nat} {c : Collection} {heard : Heard}
    (h : ¬ ask.wake c ≤ max now heard.time) (rest : List Delivery) :
    ask.collectFrom now c (.event heard :: rest) =
      match ask.hear (max now heard.time) heard c with
      | (c, true) => { time := max now heard.time, interrupted := none, collection := c }
      | (c, false) => ask.collectFrom (max now heard.time) c rest := by
  conv_lhs => unfold collectFrom
  rw [if_neg (by omega), if_neg (by show ¬ ask.wake c ≤ heard.time; omega)]
  rfl

/-- The loop over a delivery and what follows it depends on the loop over what follows it. -/
theorem collectFrom_congr {rest rest' : List Delivery}
    (h : ∀ now c, ask.collectFrom now c rest = ask.collectFrom now c rest') (now : Nat)
    (c : Collection) (d : Delivery) :
    ask.collectFrom now c (d :: rest) = ask.collectFrom now c (d :: rest') := by
  unfold collectFrom
  split
  · rfl
  · split
    · rfl
    · cases d with
      | event heard =>
        dsimp only
        split
        · rfl
        · exact h _ _
      | lagged time skipped => rfl
      | closed time => rfl

/-! ## Foreign events -/

theorem hear_foreign {heard : Heard} (h : ask.belongs heard = false) (now : Nat)
    (c : Collection) : ask.hear now heard c = (c, false) := by
  simp [hear, h]

/-- **A foreign event is as good as none.** -/
theorem collectFrom_foreign {heard : Heard} (h : ask.belongs heard = false) {rest : List Delivery}
    (hrest : ∀ d ∈ rest, heard.time ≤ d.time) (now : Nat) (c : Collection) :
    ask.collectFrom now c (.event heard :: rest) = ask.collectFrom now c rest := by
  by_cases hover : ask.wake c ≤ max now heard.time
  · have hlate : ∀ d ∈ Delivery.event heard :: rest, ask.wake c ≤ max now d.time := by
      intro d hd
      rcases List.mem_cons.mp hd with rfl | hd
      · exact hover
      · have := hrest d hd
        omega
    rw [collectFrom_over hlate,
      collectFrom_over fun d hd => hlate d (List.mem_cons_of_mem _ hd)]
  · rw [collectFrom_event hover, hear_foreign h]
    exact collectFrom_later hover hrest

/-- The loop over a stream is the loop over what concerns the ask. -/
theorem collectFrom_filter : ∀ {deliveries : List Delivery},
    deliveries.Pairwise (fun d d' => d.time ≤ d'.time) → ∀ now c,
      ask.collectFrom now c deliveries = ask.collectFrom now c (deliveries.filter ask.concerns)
  | [], _, _, _ => rfl
  | d :: rest, h, now, c => by
    obtain ⟨hfirst, hrest⟩ := List.pairwise_cons.mp h
    have ih := collectFrom_filter hrest
    rw [List.filter_cons]
    by_cases hd : ask.concerns d
    · rw [if_pos hd]
      exact collectFrom_congr ih now c d
    · rw [if_neg hd]
      cases d with
      | event heard =>
        have hforeign : ask.belongs heard = false := by
          simpa [concerns] using hd
        rw [collectFrom_foreign hforeign hfirst, ih]
      | lagged time skipped => exact absurd rfl hd
      | closed time => exact absurd rfl hd

/-! ## The counts -/

theorem hear_uncounted {heard heard' : Heard} (h : ask.belongs heard = true)
    (h' : ask.belongs heard' = true) (hevent : heard.event = heard'.event) (now : Nat)
    (c : Collection) : ask.hear now heard c = ask.hear now heard' c := by
  simp [hear, h, h', hevent]

/-- Of an event that belongs to the ask the counts do not matter any more. -/
theorem collectFrom_uncounted : ∀ {deliveries deliveries' : List Delivery},
    (∀ d ∈ deliveries, ask.concerns d = true) → (∀ d ∈ deliveries', ask.concerns d = true) →
    deliveries.map Delivery.uncounted = deliveries'.map Delivery.uncounted → ∀ now c,
      ask.collectFrom now c deliveries = ask.collectFrom now c deliveries'
  | [], [], _, _, _, _, _ => rfl
  | d :: rest, d' :: rest', hd, hd', h, now, c => by
    obtain ⟨hhead, htail⟩ := List.cons.inj h
    have ih := collectFrom_uncounted (fun x hx => hd x (List.mem_cons_of_mem _ hx))
      (fun x hx => hd' x (List.mem_cons_of_mem _ hx)) htail
    rw [collectFrom_congr ih now c d]
    have hown := hd d List.mem_cons_self
    have hown' := hd' d' List.mem_cons_self
    cases d with
    | event heard =>
      cases d' with
      | event heard' =>
        obtain ⟨time, e, counts⟩ := heard
        obtain ⟨time', e', counts'⟩ := heard'
        obtain ⟨rfl, rfl⟩ : time = time' ∧ e = e' := by
          simpa [Delivery.uncounted] using hhead
        unfold collectFrom
        dsimp only [Delivery.time]
        rw [hear_uncounted hown hown' rfl]
        rfl
      | lagged time skipped => cases hhead
      | closed time => cases hhead
    | lagged time skipped =>
      rw [show d' = .lagged time skipped by cases d' <;> simp_all [Delivery.uncounted]]
    | closed time =>
      rw [show d' = .closed time by cases d' <;> simp_all [Delivery.uncounted]]

/-! ## Noninterference -/

/-- **An ask hears only what belongs to it.** Two streams that give an ask the same events at the same
times give it the same answer at the same time, whatever else they carry. -/
theorem collector_noninterference (ask : Ask) (start : Nat) (left right : EventStream)
    (h : ask.own left = ask.own right) :
    ask.collectAskReply start left.deliveries = ask.collectAskReply start right.deliveries := by
  have hconcerns : ∀ (stream : EventStream), ∀ d ∈ stream.deliveries.filter ask.concerns,
      ask.concerns d = true := fun _ _ hd => (List.mem_filter.mp hd).2
  unfold collectAskReply
  rw [collectFrom_filter left.inOrder, collectFrom_filter right.inOrder,
    collectFrom_uncounted (hconcerns left) (hconcerns right) h]

/-! ## Two streams -/

def sample : Ask where
  requestId := "mine"
  deadline := 12000000000
  representable := by decide

/-- An event of the call with an id, or of no call. -/
def sampleEvent (name text : String) (requestId : Option String) : Event where
  name := name
  data := [("denied_type", .string EVENT_RECOGNIZER_LOOP_UTTERANCE), ("utterance", .string text)]
  context := requestId.toList.map fun id => ("request_id", .string id)

def sampleSpeech : Delivery :=
  .event { time := 5, event := sampleEvent EVENT_SPEAK "it is noon" (some "mine") }

/-- The answer to the sample ask and nothing else. -/
def quietStream : EventStream where
  deliveries := [sampleSpeech]
  inOrder := by decide

/-- The same answer between another call's speech, a denial either call may have caused, and the other
call's completion. -/
def busyStream : EventStream where
  deliveries := [
    .event { time := 3, event := sampleEvent EVENT_SPEAK "it rains" (some "theirs") },
    .event {
      time := 4
      event := sampleEvent EVENT_POLICY_DENIED "" none
      inFlight := { asks := 2, queries := 0, sends := 0 } },
    sampleSpeech,
    .event { time := 6, event := sampleEvent EVENT_UTTERANCE_HANDLED "" (some "theirs") }]
  inOrder := by decide

theorem collector_noninterference_two_streams :
    sample.own quietStream = sample.own busyStream
    ∧ sample.collectAskReply 0 quietStream.deliveries
      = sample.collectAskReply 0 busyStream.deliveries :=
  ⟨rfl, collector_noninterference sample 0 quietStream busyStream rfl⟩

end Ask

end Thalovant.Client
