import Thalovant.Event

/-!
# What a hub says of its intents

The rows of the hub's manifest, and the definitions that a describe answers with.
-/

namespace Thalovant.Intents

def EVENT_INTENT_LIST : String := "ovos.intent.list"
def EVENT_INTENT_LIST_RESPONSE : String := "ovos.intent.list.response"
def EVENT_INTENT_DESCRIBE : String := "ovos.intent.describe"
def EVENT_INTENT_DESCRIBE_RESPONSE : String := "ovos.intent.describe.response"

/-! ## Languages -/

/-- `lowercase` is `str::to_lowercase`. -/
def foldLanguage (lowercase : String → String) (tag : String) : String :=
  String.ofList ((lowercase (trim tag)).toList.map fun c => if c = '_' then '-' else c)

def sameLanguage (lowercase : String → String) (a b : String) : Bool :=
  foldLanguage lowercase a = foldLanguage lowercase b

@[simp] theorem sameLanguage_self (lowercase : String → String) (tag : String) :
    sameLanguage lowercase tag tag = true := by
  simp [sameLanguage]

theorem sameLanguage_comm (lowercase : String → String) (a b : String) :
    sameLanguage lowercase a b = sameLanguage lowercase b a := by
  simp [sameLanguage, eq_comm]

theorem sameLanguage_trans {lowercase : String → String} {a b c : String}
    (hab : sameLanguage lowercase a b = true) (hbc : sameLanguage lowercase b c = true) :
    sameLanguage lowercase a c = true := by
  simp only [sameLanguage, decide_eq_true_eq] at hab hbc ⊢
  exact hab.trans hbc

/-! ## Rows and definitions -/

/-- A text field, without the white space around it; empty where there is none. -/
def stringField (map : Map) (key : String) : String := ((map.getStr key).map trim).getD ""

/-- One row of the hub's intent manifest. -/
structure IntentRegistration where
  skillId : String
  intentName : String
  lang : String
  method : String
  enabled : Bool
  sessionId : String
  definition : Option Map
  deriving DecidableEq

/-- The engine behind a manifest's method. -/
def engineForMethod (method : String) : String :=
  if method = "template" then "padatious"
  else if method = "keyword" then "adapt"
  else if method = "" then "unknown"
  else method

def IntentRegistration.engine (row : IntentRegistration) : String := engineForMethod row.method

def IntentRegistration.fromValue (raw : Value) : Option IntentRegistration :=
  raw.asObject.bind fun row =>
    let skillId := stringField row "skill_id"
    let intentName := stringField row "intent_name"
    let sessionId := stringField row "session_id"
    if skillId = "" || intentName = "" then none
    else some
      { skillId := skillId
        intentName := intentName
        lang := stringField row "lang"
        method := stringField row "method"
        enabled := Map.get "enabled" row ≠ some (.bool false)
        sessionId := if sessionId = "" then "default" else sessionId
        definition := (Map.get "definition" row).bind Json.Value.asObject }

/-- A registration as the skill made it. -/
structure IntentDefinition where
  skillId : String
  intentName : String
  lang : String
  method : String
  samples : List String
  raw : Map
  deriving DecidableEq

/-- The sentences of a definition. -/
def samplesOf (definition : Map) : List String :=
  let items := ((Map.get "samples" definition).bind Json.Value.asArray).getD []
  ((items.filterMap Json.Value.asStr).map trim).filter (· ≠ "")

def IntentDefinition.fromValue (item : Value) : Option IntentDefinition :=
  item.asObject.bind fun item =>
    ((Map.get "definition" item).bind Json.Value.asObject).bind fun definition =>
      let skillId := stringField definition "skill_id"
      let intentName := stringField definition "intent_name"
      let method := stringField item "method"
      if skillId = "" || intentName = "" then none
      else some
        { skillId := skillId
          intentName := intentName
          lang := stringField definition "lang"
          method := if method = "" then stringField definition "method" else method
          samples := samplesOf definition
          raw := definition }

def registrationsOf (event : Event) : List IntentRegistration :=
  (((event.data.get "intents").bind Json.Value.asArray).getD []).filterMap
    IntentRegistration.fromValue

def definitionsOf (event : Event) : List IntentDefinition :=
  if event.data.get "ok" = some (.bool false) then []
  else (((event.data.get "definitions").bind Json.Value.asArray).getD []).filterMap
    IntentDefinition.fromValue

/-- What a denial denies. -/
def deniedTypeOf (event : Event) : Option String :=
  if event.name ≠ EVENT_POLICY_DENIED then none else event.data.getStr "denied_type"

end Thalovant.Intents
