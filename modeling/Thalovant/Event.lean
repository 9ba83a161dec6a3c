import Thalovant.Text
import Thalovant.Value

/-!
# Events of the hub and replies to a caller

An `Event` is what the hub sent over the bus. Its request id, its session id and its text are read
from wherever a hub of some version puts them. A `Reply` is what an ask answers with, and
`ReplyMediaBudget` bounds the audio a reply may hold.
-/

namespace Thalovant

def EVENT_RECOGNIZER_LOOP_UTTERANCE : String := "recognizer_loop:utterance"
def EVENT_UTTERANCE_HANDLED : String := "ovos.utterance.handled"
def EVENT_AUDIO_QUEUE : String := "mycroft.audio.queue"
def EVENT_SPEAK : String := "speak"
def EVENT_OVOS_UTTERANCE_SPEAK : String := "ovos.utterance.speak"
def EVENT_INTENT_FAILURE : String := "complete_intent_failure"
def EVENT_INTENT_UNMATCHED : String := "ovos.intent.unmatched"
def EVENT_POLICY_DENIED : String := "hive.policy.denied"
def EVENT_QUERY_TIMEOUT : String := "hive.query.timeout"

def MAX_AUDIO_CLIP_BYTES : Nat := 4 * 1024 * 1024
def MAX_REPLY_MEDIA_BYTES : Nat := 16 * 1024 * 1024

abbrev Context := Map

abbrev Data := Map

/-! ## The context of a message -/

def sessionFromContext (context : Context) : Context :=
  ((context.get "session").bind Json.Value.asObject).getD []

def requestIdFromMap (values : Map) : Option String :=
  ["request_id", "thalovant_request_id", "correlation_id"].findSome? fun key => values.getStr key

def requestIdFromContext (context : Context) : Option String :=
  requestIdFromMap context <|> requestIdFromMap (sessionFromContext context)

def sessionIdFromContext (context : Context) : Option String :=
  (sessionFromContext context).getStr "session_id" <|> context.getStr "session_id"

/-! ## Events -/

/-- A message of the hub's bus. -/
structure Event where
  name : String
  data : Data := []
  context : Context := []
  raw : Option Value := none

namespace Event

def utterances (e : Event) : List String :=
  match e.data.get "utterances" with
  | some (.string value) => [value]
  | some (.array values) => values.filterMap Json.Value.asStr
  | _ => (e.data.getStr "utterance").toList

def text (e : Event) : String :=
  match e.data.getStr "utterance" with
  | some value => value
  | none =>
    match e.data.getStr "text" with
    | some value => value
    | none => e.utterances.head?.getD ""

def sessionId (e : Event) : Option String := sessionIdFromContext e.context

def requestId (e : Event) : Option String :=
  requestIdFromContext e.context <|> requestIdFromMap e.data

def isAudio (e : Event) : Bool := e.name = EVENT_AUDIO_QUEUE

end Event

/-! ## Replies -/

structure Reply where
  droppedMedia : Nat
  text : String
  utterances : List String
  handled : Bool
  ok : Bool
  sessionId : Option String
  requestId : Option String
  events : List Event
  failureEvent : Option Event

/-- How much embedded audio a reply holds, in characters of its encoding, and how many clips it left
out. -/
structure ReplyMediaBudget where
  chars : Nat := 0
  dropped : Nat := 0

namespace ReplyMediaBudget

/-- The audio of an event fits: it is there, within the bound of a clip and of the reply. -/
def fits (budget : ReplyMediaBudget) (encoded : String) : Bool :=
  !(encoded.utf8ByteSize > MAX_AUDIO_CLIP_BYTES * 2
    || budget.chars + encoded.utf8ByteSize > MAX_REPLY_MEDIA_BYTES * 2)

/-- Whether to keep an event, and the budget after it. -/
def accept (budget : ReplyMediaBudget) (e : Event) : Bool × ReplyMediaBudget :=
  if !e.isAudio then (true, budget)
  else
    match e.data.getStr "binary_data" with
    | none => (false, { budget with dropped := budget.dropped + 1 })
    | some encoded =>
      if budget.fits encoded then
        (true, { budget with chars := budget.chars + encoded.utf8ByteSize })
      else (false, { budget with dropped := budget.dropped + 1 })

theorem accept_of_not_isAudio (budget : ReplyMediaBudget) {e : Event} (h : e.isAudio = false) :
    budget.accept e = (true, budget) := by
  simp [accept, h]

/-- A clip that is left out costs the reply nothing. -/
theorem chars_of_not_accepted {budget : ReplyMediaBudget} {e : Event}
    (h : (budget.accept e).1 = false) : (budget.accept e).2.chars = budget.chars := by
  unfold accept at h ⊢
  split at h
  · cases h
  · next haudio =>
    rw [if_neg haudio]
    split at h
    · rfl
    · split at h
      · cases h
      · next hfits => rw [if_neg hfits]

/-- What is kept depends on the audio held, not on how much was left out. -/
theorem accept_congr {budget budget' : ReplyMediaBudget} (h : budget.chars = budget'.chars)
    (e : Event) : (budget.accept e).1 = (budget'.accept e).1
      ∧ (budget.accept e).2.chars = (budget'.accept e).2.chars := by
  unfold accept
  split
  · exact ⟨rfl, h⟩
  · split
    · exact ⟨rfl, h⟩
    · next encoded _ =>
      have hfits : budget.fits encoded = budget'.fits encoded := by simp [fits, h]
      rw [hfits]
      split
      · exact ⟨rfl, congrArg (· + encoded.utf8ByteSize) h⟩
      · exact ⟨rfl, h⟩

end ReplyMediaBudget

end Thalovant
