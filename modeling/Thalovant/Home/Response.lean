import Thalovant.Event
import Thalovant.Rich.Markup

/-!
# What the home answers

A hub asks a home, and the home answers under a contract: the speech is plain text, and the type of a
response and the code of an error are among those every client knows. What a handler says is held to
it, whatever it says: `homeResponse_contract`.
-/

namespace Thalovant.Home

open Regex

/-! ## Speech -/

/-- `&(?:#([0-9]{1,7})|#[xX]([0-9A-Fa-f]{1,6})|(amp|lt|gt|quot|apos|nbsp));` -/
def reference : Pattern Char :=
  .seq (.one (· = '&')) (.seq
    (.oneOf [.seq (.one (· = '#')) (Pattern.between (.one fun c => '0' ≤ c && c ≤ '9') 1 6),
      .seq (.one (· = '#')) (.seq (.one fun c => c = 'x' || c = 'X')
        (Pattern.between (.one isAsciiHexdigit) 1 5)),
      .literal "amp".toList, .literal "lt".toList, .literal "gt".toList, .literal "quot".toList,
      .literal "apos".toList, .literal "nbsp".toList])
    (.one (· = ';')))

theorem reference_consumes : reference.consumes = true := rfl

/-- `u32::from_str_radix`, of digits that fit. -/
def fromDigits (radix : Nat) (digits : List Char) : Nat :=
  digits.foldl (fun n digit => radix * n + (Json.hexValue digit).getD 0) 0

/-- `char::from_u32`, of a number that is not zero. -/
def fromU32 (value : Nat) : Option Char :=
  if value ≠ 0 ∧ value.isValidChar then some (Char.ofNat value) else none

/-- What a named reference stands for. -/
def namedReference (name : String) : Char :=
  if name = "amp" then '&'
  else if name = "lt" then '<'
  else if name = "gt" then '>'
  else if name = "quot" then '"'
  else if name = "apos" then '\''
  else Char.ofNat 0xA0

/-- What a reference is replaced by; one to no character is left as it is written. -/
def decodeReference (whole : List Char) : List Char :=
  match (whole.drop 1).dropLast with
  | '#' :: 'x' :: digits => ((fromU32 (fromDigits 16 digits)).map ([·])).getD whole
  | '#' :: 'X' :: digits => ((fromU32 (fromDigits 16 digits)).map ([·])).getD whole
  | '#' :: digits => ((fromU32 (fromDigits 10 digits)).map ([·])).getD whole
  | name => [namedReference (String.ofList name)]

/-- `decode_references`. -/
def decodeReferences (text : String) : String :=
  String.ofList (replaceAll (reference.scanner reference_consumes) decodeReference text.toList)

/-- `plain_speech`. -/
def plainSpeech (text : String) : String := joinWords (splitWhitespace (decodeReferences (Rich.stripSsml text)))

example : decodeReferences "&#x43; &#0; &amp;lt; &eacute;" = "C &#0; &lt; &eacute;" := by decide +kernel

/-! ## Requests and answers -/

def HOME_RESPONSE : String := "thalovant.home.response"

def RESPONSE_TYPES : List String := ["action_done", "query_answer", "error"]

def ERROR_CODES : List String :=
  ["no_intent_match", "no_valid_targets", "failed_to_handle", "unknown", "timeout", "agent_unavailable"]

/-- What was said, and in which language. -/
structure HomeRequest where
  requestId : String
  utterance : String
  lang : Option String
  conversationId : Option String
  event : Event

/-- A field of the event that is a string, unless it is empty. -/
def requestText (event : Event) (key : String) : Option String :=
  (event.data.getStr key).filter (· ≠ "")

def HomeRequest.fromEvent (event : Event) : HomeRequest where
  requestId := (requestText event "request_id").getD ""
  utterance := (requestText event "utterance").getD ""
  lang := requestText event "lang"
  conversationId := requestText event "conversation_id"
  event := event

/-- The id of the event is the id of the request, an empty one too. -/
theorem requestId_fromEvent {event : Event} {id : String}
    (h : event.data.get "request_id" = some (.string id)) :
    (HomeRequest.fromEvent event).requestId = id := by
  have hstr : event.data.getStr "request_id" = some id := by
    rw [Map.getStr, h]
    rfl
  rw [HomeRequest.fromEvent, requestText, hstr]
  by_cases hid : id = "" <;> simp [Option.filter, hid]

/-- What a handler says back. -/
structure HomeAnswer where
  speech : String
  responseType : String
  errorCode : Option String := none
  continueConversation : Bool := false
  conversationId : Option String := none

/-- `HomeAnswer::error`. -/
def HomeAnswer.error (errorCode : String) : HomeAnswer where
  speech := ""
  responseType := "error"
  errorCode := some errorCode

/-! ## The response -/

/-- The type and the code of a response. -/
def contractType (answer : HomeAnswer) : String × Option String :=
  let errorCode := answer.errorCode.filter fun _ => answer.responseType = "error"
  if answer.responseType ∉ RESPONSE_TYPES
      ∨ (answer.responseType = "error" ∧ ¬errorCode.any (· ∈ ERROR_CODES)) then
    ("error", some "unknown")
  else (answer.responseType, errorCode)

/-- The conversation of a response. -/
def contractConversation (request : HomeRequest) (answer : HomeAnswer) : Option String :=
  ((answer.conversationId.filter (· ≠ "")).or request.conversationId).filter (· ≠ "")

/-- Put a text under a key, if there is one. -/
def insertText (key : String) (text : Option String) (payload : Data) : Data :=
  match text with
  | some text => payload.insert key (.string text)
  | none => payload

/-- `home_response`. -/
def homeResponse (request : HomeRequest) (answer : HomeAnswer) : Data :=
  let payload := Map.insert "request_id" (.string request.requestId) []
  let payload := payload.insert "speech" (.string (plainSpeech answer.speech))
  let payload := payload.insert "response_type" (.string (contractType answer).1)
  let payload := payload.insert "continue_conversation" (.bool answer.continueConversation)
  let payload := insertText "error_code" ((contractType answer).2.filter (· ≠ "")) payload
  insertText "conversation_id" (contractConversation request answer) payload

/-! ## The contract -/

/-- What every client relies on in a response to a request. -/
structure HomeContract (request : HomeRequest) (answer : HomeAnswer) (payload : Data) : Prop where
  responseType : ∃ kind ∈ RESPONSE_TYPES, payload.get "response_type" = some (.string kind)
  errorCode : payload.get "error_code" ≠ none ↔ payload.get "response_type" = some (.string "error")
  errorCodeKnown : ∀ value, payload.get "error_code" = some value →
    ∃ code ∈ ERROR_CODES, value = .string code
  requestId : payload.get "request_id" = some (.string request.requestId)
  speech : ∃ speech, payload.get "speech" = some (.string speech) ∧ trim speech = speech ∧
    Trim.Collapsed isWhitespace ' ' speech.toList
  conversationId : payload.get "conversation_id" =
    ((answer.conversationId.filter (· ≠ "")).or (request.conversationId.filter (· ≠ ""))).map .string

theorem get_insertText (j key : String) (text : Option String) (payload : Data) :
    Map.get j (insertText key text payload) =
      if j = key then (text.map .string).or (Map.get j payload) else Map.get j payload := by
  cases text with
  | none => simp [insertText]
  | some text => rw [insertText, Map.get_insert]; rfl

/-- The type is allowed, and there is a known code with an error and none without. -/
theorem contractType_spec (answer : HomeAnswer) :
    (contractType answer).1 ∈ RESPONSE_TYPES ∧
    ((contractType answer).2 ≠ none ↔ (contractType answer).1 = "error") ∧
    ∀ code, (contractType answer).2 = some code → code ∈ ERROR_CODES := by
  unfold contractType
  dsimp only
  split
  · refine ⟨by decide, by simp, fun code h => ?_⟩
    obtain rfl := Option.some.inj h
    decide
  · next h =>
    simp only [not_or, not_and, not_not] at h
    obtain ⟨hkind, hcode⟩ := h
    refine ⟨hkind, ?_, fun code h => ?_⟩
    · by_cases herror : answer.responseType = "error"
      · have hany := hcode herror
        cases hc : answer.errorCode.filter fun _ => decide (answer.responseType = "error") with
        | none => simp [hc] at hany
        | some code => simp [herror]
      · simp [herror]
    · have herror : answer.responseType = "error" := by
        simpa using (Option.filter_eq_some_iff.mp h).2
      have hany := hcode herror
      have h' : answer.errorCode.filter (fun _ => decide (answer.responseType = "error")) = some code := h
      rw [h'] at hany
      simpa using hany

theorem contractConversation_eq (request : HomeRequest) (answer : HomeAnswer) :
    contractConversation request answer =
      (answer.conversationId.filter (· ≠ "")).or (request.conversationId.filter (· ≠ "")) := by
  unfold contractConversation
  cases h : answer.conversationId.filter (· ≠ "") with
  | none => rfl
  | some id => simpa [Option.filter] using (Option.filter_eq_some_iff.mp h).2

/-- **Every response meets the contract**, whatever was answered. -/
theorem homeResponse_contract (request : HomeRequest) (answer : HomeAnswer) :
    HomeContract request answer (homeResponse request answer) := by
  obtain ⟨hkind, hcode, hknown⟩ := contractType_spec answer
  have hne : (contractType answer).2.filter (· ≠ "") = (contractType answer).2 := by
    cases h : (contractType answer).2 with
    | none => rfl
    | some code =>
      have hmem := hknown code h
      have hcode' : code ≠ "" := by
        rintro rfl
        exact absurd hmem (by decide)
      simp [Option.filter, hcode']
  have htype : Map.get "response_type" (homeResponse request answer)
      = some (.string (contractType answer).1) := by
    simp [homeResponse, get_insertText, Map.get_insert]
  have herror : Map.get "error_code" (homeResponse request answer)
      = (contractType answer).2.map .string := by
    simp only [homeResponse, hne, get_insertText, Map.get_insert]
    simp [Map.get]
  refine ⟨⟨_, hkind, htype⟩, ?_, fun value h => ?_, ?_, ?_, ?_⟩
  · rw [htype, herror, Ne, Option.map_eq_none_iff, ← Ne, hcode]
    simp
  · rw [herror] at h
    obtain ⟨code, hc, rfl⟩ := Option.map_eq_some_iff.mp h
    exact ⟨code, hknown code hc, rfl⟩
  · simp [homeResponse, get_insertText, Map.get_insert]
  · have hcollapsed := collapsed_joinWords (decodeReferences (Rich.stripSsml answer.speech))
    refine ⟨plainSpeech answer.speech, ?_, ?_, hcollapsed⟩
    · simp [homeResponse, get_insertText, Map.get_insert]
    · rw [← String.toList_inj, toList_trim, Trim.both_eq_self_iff]
      exact ⟨hcollapsed.start, hcollapsed.stop⟩
  · simp only [homeResponse, get_insertText, Map.get_insert, contractConversation_eq]
    simp [Map.get]

end Thalovant.Home
