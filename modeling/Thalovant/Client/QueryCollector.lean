import Thalovant.Client.AskTaken
import Thalovant.HiveMessage
import Thalovant.ReplyAudio

/-!
# The collector of a query

A query sends an utterance through the mesh and collects the messages that carry its id, until the hub
says that the query is complete or refuses it. Unlike an ask it does not watch for silence: it waits for
the hub, for the end of its time, or for the end of its receiver. The send runs beside it, and a failed
send ends the query only as long as nothing else has.

What happens is a list of inputs, in the order in which the query comes to them: any order is possible.

* `hear_gathered`: what the loop holds, of the events it has read
* `sendAndCollect_answers`: how the query ends, and with which answer
* `query_answers`: the query as a whole
-/

namespace Thalovant.Client

def EVENT_QUERY_COMPLETE : String := "hive.query.complete"

/-! ## What a message carries -/

def objectValue (value : Option Value) : Map := (value.bind Json.Value.asObject).getD []

def queryIdFromHiveMessage (message : HiveMessage) : Option String :=
  ((message.metadata.get "query_id").or (message.metadata.get "queryId")).bind Json.Value.asStr

theorem sizeOf_lt_of_get {key : String} {m : Map} {v : Value} (h : m.get key = some v) :
    sizeOf v < sizeOf m := by
  have hlt := List.sizeOf_lt_of_mem (SortedMap.mem_of_get_eq_some h)
  rw [Prod.mk.sizeOf_spec] at hlt
  omega

/-- The event in a payload, or in the payload within it. -/
def busPayloadFromHivePayload (payload : Map) : Option (String × Data × Context) :=
  match payload.getStr "type" with
  | some eventType =>
    some (eventType, objectValue (payload.get "data"), objectValue (payload.get "context"))
  | none =>
    match _h : payload.get "payload" with
    | some (.object inner) => busPayloadFromHivePayload inner
    | _ => none
termination_by sizeOf payload
decreasing_by
  have hlt := sizeOf_lt_of_get _h
  rw [Json.Value.object.sizeOf_spec] at hlt
  omega

/-! ## What the loop is given -/

/-- What a query is collected under. -/
structure Query where
  queryId : String
  sessionId : String
  requestId : String
  /-- `serde_json::to_value` -/
  toValue : HiveMessage → Option Value

/-- What a query waits for: its receiver, its time, and the send. -/
inductive QueryInput where
  | message (message : HiveMessage)
  | lagged (skipped : Nat)
  | closed
  | elapsed
  | sent (result : Result Unit)

/-! ## What the loop keeps -/

structure QueryCollection where
  events : List Event := []
  mediaBudget : ReplyMediaBudget := {}
  fragments : List String := []
  failureEvent : Option Event := none
  softFailure : Option Event := none

namespace Query

variable (query : Query)

def eventFromQueryHiveMessage (message : HiveMessage) : Option Event :=
  (busPayloadFromHivePayload message.payload).map fun (eventType, data, context) =>
    { name := eventType, data := data, context := context, raw := query.toValue message }

/-- What an event changes, by its name. -/
def take (e : Event) (c : QueryCollection) : QueryCollection :=
  if isSpeech e then { c with fragments := pushFragment c.fragments e.text }
  else if isSoftMiss e then { c with softFailure := some e }
  else if isHardFailure e then { c with failureEvent := some e }
  else c

/-- One event: what is kept after it, and whether it ended the loop. -/
def hear (e : Event) (c : QueryCollection) : QueryCollection × Bool :=
  let (kept, budget) := c.mediaBudget.accept e
  let c := { c with mediaBudget := budget }
  if !kept then (c, false)
  else if e.name = EVENT_QUERY_COMPLETE then ({ c with events := c.events ++ [e] }, true)
  else
    let c := take e c
    ({ c with events := c.events ++ [e] }, c.failureEvent.isSome)

/-- The event of a message, if the message is of this query. -/
def event (message : HiveMessage) : Option Event :=
  if queryIdFromHiveMessage message ≠ some query.queryId then none
  else query.eventFromQueryHiveMessage message

/-! ## The answer -/

def reply (c : QueryCollection) : Result Reply :=
  let failureEvent := if c.fragments = [] then c.failureEvent <|> c.softFailure else c.failureEvent
  if c.fragments = [] then
    .error <| match failureEvent with
      | some e => .runtime e.name
      | none => .timeout "hub finished the query without a speak reply"
  else
    .ok {
      droppedMedia := c.mediaBudget.dropped
      text := joinWords c.fragments
      utterances := c.fragments
      handled := failureEvent.isNone
      ok := failureEvent.isNone
      sessionId := ((c.events.filterMap Event.sessionId).find? fun id => !isBlank id)
        <|> some query.sessionId
      requestId := some query.requestId
      events := c.events
      failureEvent := failureEvent }

/-- `collect_query_reply` under its timeout, beside the send. Nothing is answered yet where the inputs
end. -/
def sendAndCollect : QueryCollection → List QueryInput → Option (Result Reply)
  | _, [] => none
  | c, .message message :: rest =>
    match query.event message with
    | none => sendAndCollect c rest
    | some e =>
      match hear e c with
      | (c, true) => some (query.reply c)
      | (c, false) => sendAndCollect c rest
  | _, .lagged skipped :: _ => some (.error (.runtime ("channel lagged by " ++ toString skipped)))
  | _, .closed :: _ => some (.error (.runtime "channel closed"))
  | _, .elapsed :: _ => some (.error (.timeout "query timed out"))
  | c, .sent (.ok ()) :: rest => sendAndCollect c rest
  | _, .sent (.error err) :: _ => some (.error err)

/-- A query from its start on. -/
def collectQueryReply (inputs : List QueryInput) : Option (Result Reply) :=
  query.sendAndCollect {} inputs

/-! ## What is kept of the events of a query -/

/-- The events without the audio over the budget. -/
def kept (events : List Event) : List Event :=
  ((({} : ReplyMediaBudget).acceptAll events).1.filter Prod.snd).map Prod.fst

/-- The event ends a query. -/
def ends (e : Event) : Bool := e.name = EVENT_QUERY_COMPLETE || isHardFailure e

/-- An event, which a query reads at any instant. -/
def asHeard (e : Event) : Heard where
  time := 0
  event := e

/-- What the loop holds after the events of its query. -/
def gathered (events : List Event) : QueryCollection where
  events := kept events
  mediaBudget := (({} : ReplyMediaBudget).acceptAll events).2
  fragments := spoken ((kept events).map asHeard)
  failureEvent := Ask.lastOf isHardFailure ((kept events).map asHeard)
  softFailure := Ask.lastOf isSoftMiss ((kept events).map asHeard)

theorem acceptAll_concat (e : Event) (events : List Event) : ∀ budget : ReplyMediaBudget,
    budget.acceptAll (events ++ [e])
      = ((budget.acceptAll events).1 ++ [(e, ((budget.acceptAll events).2.accept e).1)],
        ((budget.acceptAll events).2.accept e).2) := by
  induction events with
  | nil => exact fun budget => rfl
  | cons first events ih =>
    intro budget
    rw [List.cons_append, ReplyMediaBudget.acceptAll_cons, ReplyMediaBudget.acceptAll_cons, ih]
    rfl

theorem kept_concat (events : List Event) (e : Event) :
    kept (events ++ [e]) = kept events
      ++ if ((({} : ReplyMediaBudget).acceptAll events).2.accept e).1 then [e] else [] := by
  unfold kept
  rw [acceptAll_concat, List.filter_append, List.map_append, List.filter_singleton]
  cases ((({} : ReplyMediaBudget).acceptAll events).2.accept e).1 <;> rfl

theorem gathered_of_left_out {events : List Event} {e : Event} {budget : ReplyMediaBudget}
    (h : (({} : ReplyMediaBudget).acceptAll events).2.accept e = (false, budget)) :
    gathered (events ++ [e]) = { gathered events with mediaBudget := budget } := by
  have hkept : kept (events ++ [e]) = kept events := by
    rw [kept_concat, h]
    exact List.append_nil _
  unfold gathered
  rw [hkept, acceptAll_concat, h]

theorem gathered_of_kept {events : List Event} {e : Event} {budget : ReplyMediaBudget}
    (h : (({} : ReplyMediaBudget).acceptAll events).2.accept e = (true, budget)) :
    gathered (events ++ [e]) = {
      events := kept events ++ [e]
      mediaBudget := budget
      fragments := if isSpeech e then pushFragment (gathered events).fragments e.text
        else (gathered events).fragments
      failureEvent := if isHardFailure e then some e else (gathered events).failureEvent
      softFailure := if isSoftMiss e then some e else (gathered events).softFailure } := by
  have hkept : kept (events ++ [e]) = kept events ++ [e] := by
    rw [kept_concat, h]
    rfl
  unfold gathered
  rw [hkept, acceptAll_concat, h, List.map_append, List.map_singleton, Ask.lastOf_concat,
    Ask.lastOf_concat]
  by_cases hspeech : isSpeech e = true
  · rw [if_pos hspeech, spoken_concat _ (asHeard e) hspeech]
    rfl
  · rw [if_neg hspeech, spoken_concat_of_not_speech _ (asHeard e) (Bool.eq_false_iff.mpr hspeech)]
    rfl

theorem kinds_of_complete {e : Event} (h : e.name = EVENT_QUERY_COMPLETE) :
    isSpeech e = false ∧ isSoftMiss e = false ∧ isHardFailure e = false := by
  simp only [isSpeech, isSoftMiss, isHardFailure, h]
  decide

theorem take_events (e : Event) (c : QueryCollection) : (take e c).events = c.events := by
  unfold take
  split
  · rfl
  · split
    · rfl
    · split <;> rfl

/-- To take an event that is kept is to add it to the events so far. -/
theorem take_gathered {events : List Event} {e : Event} {budget : ReplyMediaBudget}
    (h : (({} : ReplyMediaBudget).acceptAll events).2.accept e = (true, budget)) :
    { take e { gathered events with mediaBudget := budget } with events := kept events ++ [e] }
      = gathered (events ++ [e]) := by
  rw [gathered_of_kept h]
  unfold take
  by_cases hspeech : isSpeech e = true
  · obtain ⟨hsoft, hhard, -⟩ := kinds_of_isSpeech hspeech
    simp [hspeech, hsoft, hhard]
  · by_cases hsoft : isSoftMiss e = true
    · obtain ⟨-, hhard, -⟩ := kinds_of_isSoftMiss hsoft
      simp [hspeech, hsoft, hhard]
    · by_cases hhard : isHardFailure e = true
      · simp [hspeech, hsoft, hhard]
      · simp [hspeech, hsoft, hhard]

/-- **One event is read.** -/
theorem hear_gathered {events : List Event} (hcalm : ∀ x ∈ kept events, ends x = false) (e : Event) :
    hear e (gathered events)
      = (gathered (events ++ [e]),
        ((({} : ReplyMediaBudget).acceptAll events).2.accept e).1 && ends e) := by
  have hbudget : (gathered events).mediaBudget = (({} : ReplyMediaBudget).acceptAll events).2 := rfl
  have hevents : (gathered events).events = kept events := rfl
  have hnone : (gathered events).failureEvent = none :=
    Ask.lastOf_eq_none.mpr fun x hx => by
      obtain ⟨y, hy, rfl⟩ := List.mem_map.mp hx
      exact (Bool.or_eq_false_iff.mp (hcalm y hy)).2
  unfold hear
  rw [hbudget]
  rcases hpair : (({} : ReplyMediaBudget).acceptAll events).2.accept e with ⟨taken, budget⟩
  cases taken with
  | false => exact Prod.ext (gathered_of_left_out hpair).symm rfl
  | true =>
    by_cases hcomplete : e.name = EVENT_QUERY_COMPLETE
    · obtain ⟨hspeech, hsoft, hhard⟩ := kinds_of_complete hcomplete
      rw [gathered_of_kept hpair]
      simp [hcomplete, ends, hspeech, hsoft, hhard, hevents]
    · have htake := take_gathered hpair
      have hfailed := congrArg QueryCollection.failureEvent htake
      rw [gathered_of_kept hpair, hnone] at hfailed
      simp only [Bool.not_true, Bool.false_eq_true, if_false, if_neg hcomplete, take_events, hevents]
      refine Prod.ext htake ?_
      refine (congrArg Option.isSome hfailed).trans ?_
      cases hhard : isHardFailure e <;> simp [ends, hcomplete, hhard]

/-! ## How a query ends -/

/-- The error that an input ends a query with. -/
def failure : QueryInput → Option ThalovantError
  | .message _ | .sent (.ok ()) => none
  | .lagged skipped => some (.runtime ("channel lagged by " ++ toString skipped))
  | .closed => some (.runtime "channel closed")
  | .elapsed => some (.timeout "query timed out")
  | .sent (.error err) => some err

/-- The event of an input, if it is of this query. -/
def heard : QueryInput → Option Event
  | .message message => query.event message
  | _ => none

/-- The input can matter: it is no message, or one of this query. -/
def concerns : QueryInput → Bool
  | .message message => (query.event message).isSome
  | _ => true

/-- What the inputs have said to the query. -/
def own (inputs : List QueryInput) : List Event := inputs.filterMap query.heard

/-- Nothing has ended the query. -/
def Calm (inputs : List QueryInput) : Prop :=
  (∀ i ∈ inputs, failure i = none) ∧ ∀ e ∈ kept (query.own inputs), ends e = false

/-- The answer of a query: the first input that can end it does, by its error or with what the hub has
said until then. -/
def Answers (inputs : List QueryInput) : Option (Result Reply) → Prop
  | none => query.Calm inputs
  | some result => ∃ before last after, inputs = before ++ last :: after ∧ query.Calm before
      ∧ ((∃ err, failure last = some err ∧ result = .error err)
        ∨ ∃ e, kept (query.own (before ++ [last])) = kept (query.own before) ++ [e] ∧ ends e = true
          ∧ result = query.reply (gathered (query.own (before ++ [last]))))

theorem own_concat (inputs : List QueryInput) (i : QueryInput) :
    query.own (inputs ++ [i]) = query.own inputs ++ (query.heard i).toList := by
  unfold own
  rw [List.filterMap_append, List.filterMap_cons, List.filterMap_nil]
  cases query.heard i <;> rfl

variable {query}

theorem Calm.concat {inputs : List QueryInput} {i : QueryInput} (h : query.Calm inputs)
    (hfailure : failure i = none)
    (hheard : ∀ e, query.heard i = some e →
      (((({} : ReplyMediaBudget).acceptAll (query.own inputs)).2.accept e).1 && ends e) = false) :
    query.Calm (inputs ++ [i]) := by
  constructor
  · intro j hj
    rcases List.mem_append.mp hj with hj | hj
    · exact h.1 j hj
    · exact List.mem_singleton.mp hj ▸ hfailure
  · intro x hx
    rw [own_concat] at hx
    cases hevent : query.heard i with
    | none =>
      rw [hevent, Option.toList_none, List.append_nil] at hx
      exact h.2 x hx
    | some e =>
      have hended := hheard e hevent
      rw [hevent, Option.toList_some, kept_concat] at hx
      rcases List.mem_append.mp hx with hx | hx
      · exact h.2 x hx
      · split at hx
        · next htaken =>
          rw [htaken, Bool.true_and] at hended
          exact List.mem_singleton.mp hx ▸ hended
        · cases hx

/-- The query goes on from where it is. -/
theorem sendAndCollect_answers (rest : List QueryInput) : ∀ inputs, query.Calm inputs →
    query.Answers (inputs ++ rest) (query.sendAndCollect (gathered (query.own inputs)) rest) := by
  induction rest with
  | nil =>
    intro inputs hcalm
    rw [List.append_nil]
    exact hcalm
  | cons i rest ih =>
    intro inputs hcalm
    -- an input that says nothing leaves the collection as it is
    have hquiet : failure i = none → query.heard i = none →
        query.Answers (inputs ++ i :: rest) (query.sendAndCollect (gathered (query.own inputs)) rest) := by
      intro hfailure hheard
      have hnext := ih (inputs ++ [i]) (hcalm.concat hfailure fun e he => by
        rw [hheard] at he
        cases he)
      rwa [own_concat, hheard, Option.toList_none, List.append_nil, List.append_assoc,
        List.singleton_append] at hnext
    cases i with
    | message message =>
      have hheard : query.heard (.message message) = query.event message := rfl
      rw [sendAndCollect]
      cases hevent : query.event message with
      | none => exact hquiet rfl (hheard.trans hevent)
      | some e =>
        have hown : query.own (inputs ++ [.message message]) = query.own inputs ++ [e] := by
          rw [own_concat, hheard, hevent]
          rfl
        dsimp only
        rw [hear_gathered hcalm.2, ← hown]
        cases hended : ((({} : ReplyMediaBudget).acceptAll (query.own inputs)).2.accept e).1 && ends e with
        | true =>
          obtain ⟨htaken, hends⟩ := Bool.and_eq_true_iff.mp hended
          refine ⟨inputs, .message message, rest, rfl, hcalm, .inr ⟨e, ?_, hends, rfl⟩⟩
          rw [hown, kept_concat, if_pos htaken]
        | false =>
          have hnext := ih (inputs ++ [.message message]) (hcalm.concat rfl fun x hx => by
            rw [hheard, hevent] at hx
            exact Option.some.inj hx ▸ hended)
          rwa [List.append_assoc, List.singleton_append] at hnext
    | lagged skipped => exact ⟨inputs, _, rest, rfl, hcalm, .inl ⟨_, rfl, rfl⟩⟩
    | closed => exact ⟨inputs, _, rest, rfl, hcalm, .inl ⟨_, rfl, rfl⟩⟩
    | elapsed => exact ⟨inputs, _, rest, rfl, hcalm, .inl ⟨_, rfl, rfl⟩⟩
    | sent result =>
      cases result with
      | ok _ => exact hquiet rfl rfl
      | error err => exact ⟨inputs, _, rest, rfl, hcalm, .inl ⟨_, rfl, rfl⟩⟩

theorem collectQueryReply_answers (inputs : List QueryInput) :
    query.Answers inputs (query.collectQueryReply inputs) :=
  sendAndCollect_answers inputs [] ⟨List.forall_mem_nil _, List.forall_mem_nil _⟩

/-- The messages of others are passed over. -/
theorem sendAndCollect_filter (inputs : List QueryInput) : ∀ c : QueryCollection,
    query.sendAndCollect c (inputs.filter query.concerns) = query.sendAndCollect c inputs := by
  induction inputs with
  | nil => exact fun c => rfl
  | cons i inputs ih =>
    intro c
    cases i with
    | message message =>
      cases hevent : query.event message with
      | none =>
        rw [List.filter_cons_of_neg (by simp [concerns, hevent]), ih, sendAndCollect, hevent]
      | some e =>
        rw [List.filter_cons_of_pos (by simp [concerns, hevent]), sendAndCollect, sendAndCollect, hevent]
        simp only [ih]
    | sent result =>
      rw [List.filter_cons_of_pos rfl]
      cases result with
      | ok _ => exact ih c
      | error err => rfl
    | lagged skipped => rfl
    | closed => rfl
    | elapsed => rfl

/-- What an answer that is a reply says. -/
theorem reply_gathered {events : List Event} {answer : Reply}
    (h : query.reply (gathered events) = .ok answer) :
    answer.events = kept events ∧ answer.utterances = spoken ((kept events).map asHeard)
      ∧ answer.utterances ≠ []
      ∧ (answer.ok = true ↔ Ask.lastOf isHardFailure ((kept events).map asHeard) = none) := by
  unfold reply at h
  by_cases hsaid : (gathered events).fragments = []
  · simp only [if_pos hsaid] at h
    cases h
  · simp only [if_neg hsaid] at h
    cases h
    refine ⟨rfl, rfl, hsaid, ?_⟩
    simp only [Option.isNone_iff_eq_none]
    rfl

/--
**A query answers what the hub has said to it.**

Whatever comes to the query, in whatever order: it goes on until an input ends it, which is the first
that can; then it answers with the error of that input, or with the events that the hub has sent under
its id until then. The messages of others could as well not have come. A reply has said something, and
it is well exactly if the hub has said that the query is complete.
-/
theorem query_answers (query : Query) (inputs : List QueryInput) :
    query.Answers inputs (query.collectQueryReply inputs)
    ∧ query.collectQueryReply (inputs.filter query.concerns) = query.collectQueryReply inputs
    ∧ ∀ answer, query.collectQueryReply inputs = some (.ok answer) →
      answer.utterances = spoken (answer.events.map asHeard) ∧ answer.utterances ≠ []
      ∧ (answer.ok = true ↔ ∃ e, answer.events.getLast? = some e ∧ e.name = EVENT_QUERY_COMPLETE) := by
  have hanswers := @collectQueryReply_answers query inputs
  refine ⟨hanswers, sendAndCollect_filter inputs {}, fun answer hanswer => ?_⟩
  rw [hanswer] at hanswers
  obtain ⟨before, last, after, -, hcalm, ⟨err, -, herr⟩ | ⟨e, hlast, hends, hreply⟩⟩ := hanswers
  · cases herr
  · obtain ⟨hevents, hsaid, hne, hok⟩ := reply_gathered hreply.symm
    rw [hevents]
    refine ⟨hsaid, hne, hok.trans ?_⟩
    have hearlier : Ask.lastOf isHardFailure ((kept (query.own before)).map asHeard) = none :=
      Ask.lastOf_eq_none.mpr fun x hx => by
        obtain ⟨y, hy, rfl⟩ := List.mem_map.mp hx
        exact (Bool.or_eq_false_iff.mp (hcalm.2 y hy)).2
    rw [hlast, List.map_append, List.map_singleton, Ask.lastOf_concat, hearlier, List.getLast?_concat]
    by_cases hcomplete : e.name = EVENT_QUERY_COMPLETE
    · have hhard : isHardFailure e = false := (kinds_of_complete hcomplete).2.2
      simp [asHeard, hhard, hcomplete]
    · have hhard : isHardFailure e = true := by simpa [ends, hcomplete] using hends
      simp [asHeard, hhard, hcomplete]

end Query

end Thalovant.Client
