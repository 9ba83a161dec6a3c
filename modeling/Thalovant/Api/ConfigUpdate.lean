import Thalovant.Api.RuntimeConfig
import Thalovant.Lib.Async

/-!
# Updating the configuration of a runtime group

A call reads the configuration and its revision, and writes the merged one with that revision as the
expected one. The API processes a PUT some time after it is sent, or never, and writes only if the
revision is still current; other programs write as well. Its answer may be lost.

Any number of calls may be under way; each is named by a number.
-/

namespace Thalovant.Api

/-- What one call is given. The maps of the JSON library are sorted. -/
structure ConfigUpdate where
  config : Value
  personas : Option Value
  sorted : config.IsSorted

/-! ## The messages -/

def isRevision (s : String) : Bool :=
  s.utf8ByteSize = 64 && s.toList.all fun c => c.isDigit || ('a' ≤ c && c ≤ 'f')

/-- The revision that a snapshot gives. -/
def revisionOf (snapshot : Value) : Option String :=
  ((member "revision" snapshot).bind Json.Value.asStr).filter isRevision

/-- The configuration that a snapshot gives. -/
def baseOf (snapshot : Value) : Option Value :=
  (member "config" snapshot).filter fun v => v.asObject.isSome

/-- What is written, over the configuration of a snapshot. -/
def putBody (base : Value) (revision : String) (update : ConfigUpdate) : Value :=
  let body := (Map.insert "config" (mergeRuntimeConfig base update.config) []).insert
    "expected_revision" (.string revision)
  .object (match update.personas with
    | some personas => body.insert "personas" personas
    | none => body)

/-- The revision that a PUT expects. -/
def expectedOf (body : Value) : Option String := (member "expected_revision" body).bind Json.Value.asStr

@[simp] theorem expectedOf_putBody (base : Value) (revision : String) (update : ConfigUpdate) :
    expectedOf (putBody base revision update) = some revision := by
  unfold expectedOf member putBody Json.Value.asObject
  cases update.personas <;> simp [Map.get_insert, Json.Value.asStr]

@[simp] theorem config_putBody (base : Value) (revision : String) (update : ConfigUpdate) :
    member "config" (putBody base revision update) = some (mergeRuntimeConfig base update.config) := by
  unfold member putBody Json.Value.asObject
  cases update.personas <;> simp [Map.get_insert]

/-! ## The API -/

/-- A configuration as it once was. -/
structure Version where
  revision : String
  config : Value
  deriving DecidableEq

/-- A PUT of a call. -/
structure Put where
  call : Nat
  attempt : Nat
  body : Value
  deriving DecidableEq

/-- What has been written, and by which PUT; `none` for another program's. -/
structure Written where
  version : Version
  put : Option Put

/-- The configuration after these writes, the last one first. -/
def lastOf (first : Version) : List Written → Version
  | [] => first
  | w :: _ => w.version

structure GroupConfig where
  first : Version
  /-- The writes, the last one first. -/
  log : List Written
  /-- The PUTs on their way. -/
  flight : List Put
  /-- The PUTs of which the expected revision was not current. -/
  refused : List Put
  /-- How often each call has read the configuration. -/
  gets : Nat → Nat
  /-- The PUTs that each call has sent, the last one first. -/
  puts : Nat → List Put
  /-- What each call has returned. -/
  results : Nat → Option (Result Value)

def GroupConfig.new (first : Version) : GroupConfig where
  first := first
  log := []
  flight := []
  refused := []
  gets _ := 0
  puts _ := []
  results _ := none

namespace GroupConfig

def current (s : GroupConfig) : Version := lastOf s.first s.log

/-- What the configuration has been. -/
def versions (s : GroupConfig) : List Version := s.log.map (·.version) ++ [s.first]

/-- A revision names one configuration. -/
def names (v : Version) (s : GroupConfig) : Bool :=
  s.versions.all fun w => w.revision ≠ v.revision || w.config = v.config

def arrive (put : Put) (s : GroupConfig) : GroupConfig :=
  { s with flight := s.flight.filter (· ≠ put) }

/-- The API processes a PUT; `revision` is the one that a write gets. -/
def process (put : Put) (revision : String) (s : GroupConfig) : GroupConfig :=
  if put ∈ s.flight then
    match member "config" put.body with
    | some config =>
      if expectedOf put.body = some s.current.revision then
        if s.names ⟨revision, config⟩ then
          { s.arrive put with log := ⟨⟨revision, config⟩, some put⟩ :: s.log }
        else s
      else { s.arrive put with refused := put :: s.refused }
    | none => s.arrive put
  else s

/-- Another program writes. -/
def write (v : Version) (s : GroupConfig) : GroupConfig :=
  if s.names v then { s with log := ⟨v, none⟩ :: s.log } else s

end GroupConfig

inductive ApiEvent where
  | process (put : Put) (revision : String)
  | lose (put : Put)
  | write (v : Version)

def apiWorld : ApiEvent → GroupConfig → GroupConfig
  | .process put revision => GroupConfig.process put revision
  | .lose put => GroupConfig.arrive put
  | .write v => GroupConfig.write v

/-! ## The calls -/

inductive ConfigRequest where
  | snapshot
  | put (put : Put)

abbrev ConfigResponse : ConfigRequest → Type := fun _ => Result Value

abbrev ConfigTask := Async GroupConfig ConfigRequest ConfigResponse

/-- A snapshot is of a configuration that has been current. A PUT that is answered has been processed,
unless the answer is an error other than a conflict. -/
def configEnabled : (r : ConfigRequest) → ConfigResponse r → GroupConfig → Bool
  | .snapshot, .ok snapshot, s =>
    match revisionOf snapshot, baseOf snapshot with
    | some revision, some base => s.versions.contains ⟨revision, base⟩
    | _, _ => true
  | .put put, .ok _, s => s.log.any (·.put = some put)
  | .put put, .error err, s => err.statusCode ≠ some 412 || s.refused.contains put
  | _, _, _ => true

/-- A call reads the configuration. -/
def countGet (i : Nat) (s : GroupConfig) : GroupConfig :=
  { s with gets := Function.update s.gets i (s.gets i + 1) }

/-- A call sends a PUT. -/
def sendPut (put : Put) (s : GroupConfig) : GroupConfig :=
  { s with
    flight := put :: s.flight
    puts := Function.update s.puts put.call (put :: s.puts put.call) }

def finish (i : Nat) (result : Result Value) (s : GroupConfig) : GroupConfig :=
  { s with results := Function.update s.results i (some result) }

/-- The revision was not current any more. -/
def isConflict : Result Value → Bool
  | .error err => err.statusCode = some 412
  | .ok _ => false

def needsRevision : ThalovantError :=
  .api "safe configuration merge requires a valid config and revision from the API"

/-- One attempt; `again` is what follows a conflict. -/
def attempt (i : Nat) (update : ConfigUpdate) (again : Result Value → ConfigTask (Result Value)) :
    ConfigTask (Result Value) := do
  Async.modify (countGet i)
  match ← Async.ask ConfigRequest.snapshot with
  | .error err => return .error err
  | .ok snapshot =>
    match revisionOf snapshot, baseOf snapshot with
    | some revision, some base =>
      match validateConfigNumbers base with
      | .error err => return .error err
      | .ok () =>
        let s ← Async.get
        let put := ⟨i, (s.puts i).length, putBody base revision update⟩
        Async.modify (sendPut put)
        let result ← Async.ask (ConfigRequest.put put)
        if isConflict result then again result else return result
    | _, _ => return .error needsRevision

/-- An attempt, and those that may follow it. -/
def attempts (i : Nat) (update : ConfigUpdate) : Nat → ConfigTask (Result Value)
  | 0 => attempt i update pure
  | left + 1 => attempt i update fun _ => attempts i update left

def updateRuntimeGroupConfig (i : Nat) (update : ConfigUpdate) : ConfigTask (Result Value) :=
  if update.config.asObject.isNone then return .error (.api "config must be a JSON object")
  else match validateConfigNumbers update.config with
    | .error err => return .error err
    | .ok () =>
      match update.personas.elim (.ok ()) validateConfigNumbers with
      | .error err => return .error err
      | .ok () => attempts i update 2

/-- The calls of one runtime group's configuration, call `i` with `updates i`. -/
def configSystem (updates : Nat → ConfigUpdate) :
    AsyncSystem GroupConfig ConfigRequest ConfigResponse Unit ApiEvent where
  enabled := configEnabled
  start _ s := some s
  program i _ := do
    let result ← updateRuntimeGroupConfig i (updates i)
    Async.modify (finish i result)
  world := apiWorld

end Thalovant.Api
