import Thalovant.Error
import Thalovant.Lib.GroupedCache
import Thalovant.Lib.Json.Codec

/-!
# The inventory as JSON

An inventory is written by its fields and read back by them. The languages of an intent are put
right on either side: only those that it has phrases in, and each of those.

What the JSON library does with a field that is not known, and what it says of a text that it cannot
read, are parameters.
-/

namespace Thalovant

open GroupedCache Json

def INVENTORY_CACHE_VERSION : UInt32 := 1

/-- An intent as it is presented. Its phrases keep the order of their languages. -/
structure Intent where
  id : String
  name : String
  skillId : String
  engine : String
  languages : List String
  phrases : List (String × List String)
  deriving DecidableEq, Repr

structure Skill where
  id : String
  title : String
  locales : List String
  intents : List Intent
  deriving DecidableEq, Repr

structure Inventory where
  cacheVersion : UInt32
  hubId : String
  hubName : String
  source : String
  generatedAt : String
  skills : List Skill
  notes : List String
  deriving DecidableEq, Repr

/-- `serde_json`, where what it does is not told by the fields of an inventory. -/
structure JsonLibrary where
  /-- What is left after a value that nothing asks for. -/
  skip : List Char → Option (List Char)
  /-- How a text is refused. -/
  message : String → String

variable (library : JsonLibrary)

/-- A value that nothing asks for leaves what has been read as it is. -/
def JsonLibrary.ignore {σ : Type} (fields : σ) : Reader σ := fun cs =>
  (library.skip cs).map fun rest => (fields, rest)

abbrev stringsCodec : Codec (List String) := listCodec stringCodec

/-! ## Phrases -/

def serializePhrases (phrases : List (String × List String)) : List Char :=
  writeObject (phrases.map fun p => (p.1, stringsCodec.write p.2))

/-- A language that is there already gets the later texts, in its place. -/
def setPhrases (out : List (String × List String)) (key : String) (value : List String) :
    List (String × List String) :=
  match out with
  | [] => [(key, value)]
  | entry :: out =>
    if entry.1 = key then (entry.1, value) :: out else entry :: setPhrases out key value

def phrasesEntry : EntryStep (List (String × List String)) := fun key out cs =>
  (stringsCodec.read cs).map fun r => (setPhrases out key r.1, r.2)

def deserializePhrases : Reader (List (String × List String)) := readMap phrasesEntry []

/-! ## Intents -/

def Intent.entries (intent : Intent) : List (String × List Char) := [
  ("id", stringCodec.write intent.id),
  ("name", stringCodec.write intent.name),
  ("skill_id", stringCodec.write intent.skillId),
  ("engine", stringCodec.write intent.engine),
  ("languages", stringsCodec.write intent.languages),
  ("phrases", serializePhrases intent.phrases)]

def Intent.serialize (intent : Intent) : List Char := writeObject intent.entries

/-- The fields of an intent that have been read. -/
structure IntentFields where
  id : Option String := none
  name : Option String := none
  skillId : Option String := none
  engine : Option String := none
  languages : Option (List String) := none
  phrases : Option (List (String × List String)) := none

def IntentFields.entry : EntryStep IntentFields := fun key fields =>
  match key with
  | "id" => readField fields.id stringCodec.read fun v => { fields with id := some v }
  | "name" => readField fields.name stringCodec.read fun v => { fields with name := some v }
  | "skill_id" =>
    readField fields.skillId stringCodec.read fun v => { fields with skillId := some v }
  | "engine" => readField fields.engine stringCodec.read fun v => { fields with engine := some v }
  | "languages" =>
    readField fields.languages stringsCodec.read fun v => { fields with languages := some v }
  | "phrases" =>
    readField fields.phrases deserializePhrases fun v => { fields with phrases := some v }
  | _ => library.ignore fields

/-- Every field has to be there, but the languages: there are none by default. -/
def IntentFields.finish (fields : IntentFields) : Option Intent := do
  let id ← fields.id
  let name ← fields.name
  let skillId ← fields.skillId
  let engine ← fields.engine
  let phrases ← fields.phrases
  return { id, name, skillId, engine, languages := fields.languages.getD [], phrases }

def Intent.deserialize : Reader Intent :=
  readStruct (IntentFields.entry library)
    ["id", "name", "skill_id", "engine", "languages", "phrases"] {} IntentFields.finish

/-! ## Skills -/

def Skill.entries (skill : Skill) : List (String × List Char) := [
  ("id", stringCodec.write skill.id),
  ("title", stringCodec.write skill.title),
  ("locales", stringsCodec.write skill.locales),
  ("intents", writeArray Intent.serialize skill.intents)]

def Skill.serialize (skill : Skill) : List Char := writeObject skill.entries

/-- The fields of a skill that have been read. -/
structure SkillFields where
  id : Option String := none
  title : Option String := none
  locales : Option (List String) := none
  intents : Option (List Intent) := none

def SkillFields.entry : EntryStep SkillFields := fun key fields =>
  match key with
  | "id" => readField fields.id stringCodec.read fun v => { fields with id := some v }
  | "title" => readField fields.title stringCodec.read fun v => { fields with title := some v }
  | "locales" =>
    readField fields.locales stringsCodec.read fun v => { fields with locales := some v }
  | "intents" =>
    readField fields.intents (readArray (Intent.deserialize library))
      fun v => { fields with intents := some v }
  | _ => library.ignore fields

def SkillFields.finish (fields : SkillFields) : Option Skill := do
  let id ← fields.id
  let title ← fields.title
  let locales ← fields.locales
  let intents ← fields.intents
  return { id, title, locales, intents }

def Skill.deserialize : Reader Skill :=
  readStruct (SkillFields.entry library) ["id", "title", "locales", "intents"] {} SkillFields.finish

/-! ## Inventories -/

def Inventory.entries (inventory : Inventory) : List (String × List Char) := [
  ("cache_version", u32Codec.write inventory.cacheVersion),
  ("hub_id", stringCodec.write inventory.hubId),
  ("hub_name", stringCodec.write inventory.hubName),
  ("source", stringCodec.write inventory.source),
  ("generated_at", stringCodec.write inventory.generatedAt),
  ("skills", writeArray Skill.serialize inventory.skills),
  ("notes", stringsCodec.write inventory.notes)]

def Inventory.serialize (inventory : Inventory) : List Char := writeObject inventory.entries

/-- The fields of an inventory that have been read. -/
structure InventoryFields where
  cacheVersion : Option UInt32 := none
  hubId : Option String := none
  hubName : Option String := none
  source : Option String := none
  generatedAt : Option String := none
  skills : Option (List Skill) := none
  notes : Option (List String) := none

def InventoryFields.entry : EntryStep InventoryFields := fun key fields =>
  match key with
  | "cache_version" =>
    readField fields.cacheVersion u32Codec.read fun v => { fields with cacheVersion := some v }
  | "hub_id" => readField fields.hubId stringCodec.read fun v => { fields with hubId := some v }
  | "hub_name" =>
    readField fields.hubName stringCodec.read fun v => { fields with hubName := some v }
  | "source" => readField fields.source stringCodec.read fun v => { fields with source := some v }
  | "generated_at" =>
    readField fields.generatedAt stringCodec.read fun v => { fields with generatedAt := some v }
  | "skills" =>
    readField fields.skills (readArray (Skill.deserialize library))
      fun v => { fields with skills := some v }
  | "notes" => readField fields.notes stringsCodec.read fun v => { fields with notes := some v }
  | _ => library.ignore fields

def InventoryFields.finish (fields : InventoryFields) : Option Inventory := do
  let cacheVersion ← fields.cacheVersion
  let hubId ← fields.hubId
  let hubName ← fields.hubName
  let source ← fields.source
  let generatedAt ← fields.generatedAt
  let skills ← fields.skills
  let notes ← fields.notes
  return { cacheVersion, hubId, hubName, source, generatedAt, skills, notes }

def Inventory.deserialize : Reader Inventory :=
  readStruct (InventoryFields.entry library)
    ["cache_version", "hub_id", "hub_name", "source", "generated_at", "skills", "notes"] {}
    InventoryFields.finish

/-! ## As JSON, and from JSON -/

def Intent.hasPhrases (intent : Intent) (tag : String) : Bool :=
  intent.phrases.any fun p => p.1 = tag

/-- The languages that an intent is written with. -/
def Intent.writtenLanguages (intent : Intent) : List String :=
  let tags := intent.languages.filter intent.hasPhrases
  intent.phrases.foldl (fun tags p => pushNew tags p.1) tags

/-- The languages that an intent is given when it has been read. -/
def Intent.readLanguages (intent : Intent) : List String :=
  (intent.languages ++ intent.phrases.map Prod.fst).foldl (fun tags tag =>
    if intent.hasPhrases tag then pushNew tags tag else tags) []

/-- The same inventory with its intents changed. -/
def Inventory.mapIntents (f : Intent → Intent) (inventory : Inventory) : Inventory :=
  { inventory with
    skills := inventory.skills.map fun skill => { skill with intents := skill.intents.map f } }

def NOT_CURRENT : String := "not a current inventory cache"

def Inventory.asJson (inventory : Inventory) : Result String :=
  if inventory.cacheVersion ≠ INVENTORY_CACHE_VERSION then .error (.listing NOT_CURRENT)
  else
    let value := inventory.mapIntents fun intent =>
      { intent with languages := intent.writtenLanguages }
    .ok (String.ofList value.serialize)

/-- `serde_json::from_str`. -/
def Inventory.ofStr (raw : String) : Option Inventory :=
  readAll (Inventory.deserialize library) raw.toList

def Inventory.fromJson (raw : String) : Result Inventory :=
  match Inventory.ofStr library raw with
  | none => .error (.json (library.message raw))
  | some value =>
    let value := value.mapIntents fun intent => { intent with languages := intent.readLanguages }
    if value.cacheVersion ≠ INVENTORY_CACHE_VERSION then .error (.listing NOT_CURRENT)
    else .ok value

end Thalovant
