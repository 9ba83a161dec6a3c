import Thalovant.Lib.Async
import Thalovant.Lib.Directory
import Thalovant.Lib.Json.Text
import Thalovant.Noise.Store

/-!
# The files of the noise store

The store's operations on the static key and the pins, one file-system call after the other. Processes
share the folder and its lock. Between any two calls others may go on, and a process may die: its lock is
then free, and what it has written is left as it is.

What is published under a trusted name is first written, whole, to a temporary file of another name.
-/

namespace Thalovant.Noise.StoreFiles

open Async (andThen)

/-! ## The folder -/

/-- The trusted names. -/
inductive StateFile where
  | key
  | pins
  deriving DecidableEq

inductive Name where
  | state (file : StateFile)
  | temporary (unique : Nat)
  deriving DecidableEq

def StateFile.path (dir : String) : StateFile → String
  | .key => dir ++ "/" ++ NOISE_KEY_FILENAME
  | .pins => dir ++ "/" ++ NOISE_PINS_FILENAME

def StateFile.label : StateFile → String
  | .key => "Noise key file"
  | .pins => "Noise pin file"

abbrev Files := Directory Name UInt8

/-- What is found under a trusted name. -/
def stat (file : StateFile) (files : Files) : Stored Nat :=
  match files.entry (.state file) with
  | .absent => .absent
  | .irregular => .irregular
  | .file n => if (files.node n).secure then .held n else .insecure

/-- What the JSON library does with pins. -/
structure PinCodec where
  fromStr : String → Except String TextMap
  toStringPretty : TextMap → String
  sorted : ∀ text pins, fromStr text = .ok pins → SortedMap.Sorted pins
  roundTrip : ∀ pins, SortedMap.Sorted pins → fromStr (toStringPretty pins ++ "\n") = .ok pins

/-- Pins as a JSON object. -/
def pinsObject (pins : TextMap) : Json.Value Nat := .object (pins.map (Prod.map id .string))

/-- The pins that a JSON value is, if it is an object of texts. -/
def pinsOfValue (value : Json.Value Nat) : Option TextMap := do
  let entries ← value.asObject
  let pins ← entries.mapM fun e => e.2.asStr.map (e.1, ·)
  return SortedMap.ofList pins

theorem mapM_texts (pins : TextMap) :
    ((pins.map (Prod.map id Json.Value.string)).mapM fun e : String × Json.Value Nat =>
      e.2.asStr.map (e.1, ·)) = some pins := by
  induction pins with
  | nil => rfl
  | cons e pins ih =>
    rw [List.map_cons, List.mapM_cons, ih]
    rfl

theorem sorted_pinsOfValue {value : Json.Value Nat} {pins : TextMap} (h : pinsOfValue value = some pins) :
    SortedMap.Sorted pins := by
  unfold pinsOfValue at h
  obtain ⟨entries, -, h⟩ := Option.bind_eq_some_iff.mp h
  obtain ⟨pins', -, h⟩ := Option.bind_eq_some_iff.mp h
  cases h
  exact SortedMap.sorted_ofList pins'

theorem pinsOfValue_object {pins : TextMap} (h : SortedMap.Sorted pins) :
    pinsOfValue (pinsObject pins).sortKeys = some pins := by
  unfold pinsObject
  rw [Json.Value.sortKeys_object, List.map_map]
  have htexts : (Prod.map id Json.Value.sortKeys ∘ Prod.map id Json.Value.string
      : String × String → String × Json.Value Nat) = Prod.map id Json.Value.string := by
    funext e
    show (e.1, (Json.Value.string e.2).sortKeys) = (e.1, .string e.2)
    simp only [Json.Value.sortKeys]
  rw [htexts, SortedMap.ofList_map, h.ofList_eq]
  unfold pinsOfValue
  rw [Json.Value.asObject]
  show ((pins.map (Prod.map id Json.Value.string)).mapM _ >>= fun pins => some (SortedMap.ofList pins))
    = some pins
  rw [mapM_texts]
  exact congrArg some h.ofList_eq

/-- Pins in JSON without line breaks. -/
instance : Inhabited PinCodec where
  default := {
    fromStr := fun text =>
      match (Json.parse Json.natFormat text.toList).bind pinsOfValue with
      | some pins => .ok pins
      | none => .error "invalid type"
    toStringPretty := fun pins => String.ofList (Json.print Json.natFormat (pinsObject pins))
    sorted := by
      intro text pins h
      split at h
      · next hread =>
        cases h
        obtain ⟨value, -, hvalue⟩ := Option.bind_eq_some_iff.mp hread
        exact sorted_pinsOfValue hvalue
      · cases h
    roundTrip := by
      intro pins hsorted
      have hparse : Json.parse Json.natFormat
          (String.ofList (Json.print Json.natFormat (pinsObject pins)) ++ "\n").toList
          = some (pinsObject pins).sortKeys := by
        have hlong : (Json.print Json.natFormat (pinsObject pins)).length
            < (Json.print Json.natFormat (pinsObject pins) ++ ['\n']).length + 1 := by
          rw [List.length_append]
          omega
        have htext := Json.readValue_print Json.natFormat_lawful (pinsObject pins) _ ['\n'] hlong
          (fun ⟨_, h⟩ => nomatch h)
        rw [String.toList_append, String.toList_ofList]
        show Json.parse Json.natFormat (Json.print Json.natFormat (pinsObject pins) ++ ['\n']) = _
        unfold Json.parse
        rw [htext]
        rfl
      rw [hparse, Option.bind_some, pinsOfValue_object hsorted] }

/-! ## The state -/

inductive StoreOp where
  | loadOrCreateNoiseKey
  | pinHubKey (nodeId remoteStaticKey : String)
  | forgetNoisePin (nodeId : String)
  | loadNoisePin (nodeId : String)

/-- What has been seen of the operations. -/
structure Seen where
  /-- The operation of each task. -/
  op : Nat → Option StoreOp
  /-- What was found under a trusted name at first, and what has been published under it since. -/
  versions : List (StateFile × Bytes)
  /-- What has been read of the trusted files. -/
  reads : List (StateFile × Bytes)
  /-- The static keys that callers have had. -/
  keys : List Bytes

structure StoreState where
  /-- The task that has the lock of the folder. -/
  lock : Option Nat
  files : Files
  seen : Seen

inductive Request where
  | lock
  | call
  | unique
  | random

/-- A call fails, or goes ahead; a read or a write then moves at most so many bytes, but at least one. -/
abbrev Answer : Request → Type
  | .lock => Result Unit
  | .call => Result Nat
  | .unique => Nat
  | .random => Bytes

/-- The lock is had when no other has it; waiting for it may time out. -/
def enabled : (q : Request) → Answer q → StoreState → Bool
  | .lock, .ok _, s => s.lock.isNone
  | .random, bytes, _ => bytes.length = 32
  | _, _, _ => true

abbrev StoreTask := Async StoreState Request Answer

/-- A call of the file system, which may fail. -/
def call : StoreTask (Result Nat) := Async.ask Request.call

def modifyFiles (f : Files → Files) : StoreTask Unit :=
  Async.modify fun s => { s with files := f s.files }

/-! ## Reading -/

variable (dir : String)

def validateStateFile (file : StateFile) : StoreTask (Result Unit) :=
  andThen call fun _ => do
    return Store.validateStateFile (file.path dir) file.label (stat file (← Async.get).files)

/-- The rest of a file, read after `acc`. -/
def readRest (n : Nat) : Nat → Bytes → StoreTask (Result Bytes)
  | 0, acc => return .ok acc
  | fuel + 1, acc =>
    andThen call fun count => do
      let content := ((← Async.get).files.node n).content
      if content.length ≤ acc.length then return .ok acc
      else readRest n fuel (acc ++ (content.drop acc.length).take (max 1 count))

/-- `fs::read_to_string` of a trusted file; `none` where there is none. -/
def readToString (file : StateFile) : StoreTask (Result (Option String)) :=
  andThen call fun _ => do
    let s ← Async.get
    match s.files.entry (.state file) with
    | .absent => return .ok none
    | .irregular => return .error (.io "Is a directory")
    | .file n =>
      andThen (readRest n ((s.files.node n).content.length + 1) []) fun bytes => do
        Async.modify fun s => { s with seen := { s.seen with reads := (file, bytes) :: s.seen.reads } }
        match fromUtf8 bytes with
        | none => return .error (.io "stream did not contain valid UTF-8")
        | some text => return .ok (some text)

/-! ## Writing -/

/-- `write_all`, of what is left to write. -/
def writeAll (n : Nat) : Nat → Bytes → StoreTask (Result Unit)
  | 0, _ => return .ok ()
  | fuel + 1, rest =>
    if rest = [] then return .ok ()
    else
      andThen call fun count => do
        modifyFiles (·.append n (rest.take (max 1 count)))
        writeAll n fuel (rest.drop (max 1 count))

/-- `write_private_at`: a new file with this content. `false` where the name is taken. -/
def writePrivateAt (name : Name) (contents : Bytes) : StoreTask (Result Bool) :=
  andThen call fun _ => do
    let s ← Async.get
    match s.files.entry name with
    | .absent =>
      modifyFiles (·.create name)
      andThen (writeAll s.files.made contents.length contents) fun () =>
        -- `sync_all`
        andThen call fun _ => return .ok true
    | _ => return .ok false

def removeFile (name : Name) : StoreTask Unit := do
  match ← call with
  | .error _ => return ()
  | .ok _ => modifyFiles (·.remove name)

/-- A file is published. -/
def publish (file : StateFile) (contents : Bytes) (f : Files → Files) (s : StoreState) : StoreState :=
  { s with
    files := f s.files
    seen := { s.seen with versions := (file, contents) :: s.seen.versions } }

/-- `false` where the trusted name is taken. -/
def hardLink (temporary : Name) (file : StateFile) (contents : Bytes) : StoreTask (Result Bool) := do
  match ← call with
  | .error (.io err) => return .error (.io
      ("atomic Noise key publication requires a filesystem supporting hard links: " ++ err))
  | .error err => return .error err
  | .ok _ =>
    match (← Async.get).files.entry (.state file) with
    | .absent =>
      Async.modify (publish file contents (·.link temporary (.state file)))
      return .ok true
    | _ => return .ok false

def rename (temporary : Name) (file : StateFile) (contents : Bytes) : StoreTask (Result Bool) :=
  andThen call fun _ => do
    Async.modify (publish file contents (·.rename temporary (.state file)))
    return .ok true

/-- `publish_private`. `false` where it is exclusive and the trusted name is taken. -/
def publishPrivate (file : StateFile) (contents : Bytes) (exclusive : Bool) :
    StoreTask (Result Bool) := do
  let unique ← Async.ask Request.unique
  match ← writePrivateAt (.temporary unique) contents with
  | .ok false => return .error (.io "Noise staging path already exists; retry publication")
  | .error err =>
    removeFile (.temporary unique)
    return .error err
  | .ok true =>
    let result ← if exclusive then hardLink (.temporary unique) file contents
      else rename (.temporary unique) file contents
    removeFile (.temporary unique)
    return result

/-! ## The static key -/

def parseKey (text : String) : Result Bytes :=
  match Store.decodePsk text with
  | some key => .ok key
  | none => .error (.invalidIdentity
      ("Noise key file " ++ StateFile.path dir .key ++ " is not a 32-byte hex key"))

def loadExistingNoiseKey : StoreTask (Result Bytes) :=
  andThen (validateStateFile dir .key) fun () =>
    andThen (readToString .key) fun
      | none => return .error (.io "No such file or directory")
      | some text => return parseKey dir text

/-- A caller has a key. -/
def haveKey (key : Bytes) (s : StoreState) : StoreState :=
  { s with seen := { s.seen with keys := key :: s.seen.keys } }

def loadOrCreateNoiseKey : StoreTask (Result Bytes) :=
  andThen (validateStateFile dir .key) fun () =>
    andThen (readToString .key) fun
      | some text => return parseKey dir text
      | none => do
        let key ← Async.ask Request.random
        -- `create_dir_all`
        andThen call fun _ =>
          andThen (publishPrivate .key (utf8 (hexEncode key)) true) fun
            | true => return .ok key
            | false => loadExistingNoiseKey dir

/-! ## Pins -/

variable (codec : PinCodec)

def parsePins (text : String) : Result TextMap :=
  match codec.fromStr text with
  | .error err => .error (.invalidIdentity ("Noise pin file " ++ StateFile.path dir .pins
      ++ " is not a JSON object of node id to key: " ++ err))
  | .ok pins => do
    pins.forM fun e => Store.validatePin e.1 e.2
    return pins

def readPins : StoreTask (Result TextMap) :=
  andThen (validateStateFile dir .pins) fun () =>
    andThen (readToString .pins) fun
      | none => return .ok []
      | some text => return parsePins dir codec text

/-- `write_pins`. -/
def writePins (pins : TextMap) : StoreTask (Result Unit) :=
  -- `create_dir_all`
  andThen call fun _ =>
    andThen (publishPrivate .pins (utf8 (codec.toStringPretty pins ++ "\n")) false) fun _ =>
      return .ok ()

def pinHubKey (nodeId remoteStaticKey : String) : StoreTask (Result Unit) :=
  andThen (readPins dir codec) fun pins =>
    match SortedMap.get nodeId pins with
    | none => writePins codec (SortedMap.insert nodeId remoteStaticKey pins)
    | some pinned =>
      if eqIgnoreAsciiCase pinned remoteStaticKey then return .ok ()
      else return .error (.connection "the hub's Noise static key changed. If the hub was not reinstalled or replaced, another machine may be answering at this address. If it was, drop the stale pin with forget_noise_pin and reconnect to trust the new key")

def forgetNoisePin (nodeId : String) : StoreTask (Result Unit) :=
  andThen (readPins dir codec) fun pins =>
    if (SortedMap.get nodeId pins).isNone then return .ok ()
    else writePins codec (SortedMap.erase nodeId pins)

def loadNoisePin (nodeId : String) : StoreTask (Result (Option String)) :=
  andThen (readPins dir codec) fun pins => return .ok (SortedMap.get nodeId pins)

/-! ## The operations -/

def take (i : Nat) (s : StoreState) : StoreState := { s with lock := some i }

def release (s : StoreState) : StoreState := { s with lock := none }

/-- `lock_state`, and what is done under the lock. -/
def locked {α : Type} (i : Nat) (t : StoreTask (Result α)) : StoreTask (Result α) :=
  andThen (Async.ask Request.lock) fun () => do
    Async.modify (take i)
    Async.guarded release t

/-- A task begins its operation. -/
def begin (i : Nat) (op : StoreOp) (s : StoreState) : StoreState :=
  { s with seen := { s.seen with op := Function.update s.seen.op i (some op) } }

def program (i : Nat) (op : StoreOp) : StoreTask Unit := do
  Async.modify (begin i op)
  match op with
  | .loadOrCreateNoiseKey =>
    match ← locked i (loadOrCreateNoiseKey dir) with
    | .error _ => return ()
    | .ok key => Async.modify (haveKey key)
  | .pinHubKey nodeId remoteStaticKey =>
    match Store.validatePin nodeId remoteStaticKey with
    | .error _ => return ()
    | .ok () => let _ ← locked i (pinHubKey dir codec nodeId remoteStaticKey)
  | .forgetNoisePin nodeId => let _ ← locked i (forgetNoisePin dir codec nodeId)
  | .loadNoisePin nodeId => let _ ← locked i (loadNoisePin dir codec nodeId)

/-- The processes over one folder. -/
def storeSystem : AsyncSystem StoreState Request Answer StoreOp Empty where
  enabled := enabled
  start _ s := some s
  program := program dir codec
  world e := nomatch e

/-- What is under a trusted name, if it is a file. -/
def contentOf (file : StateFile) (files : Files) : Option Bytes :=
  match files.entry (.state file) with
  | .file n => some (files.node n).content
  | _ => none

/-- Before any operation, over a folder that holds anything. -/
def StoreState.new (files : Files) : StoreState where
  lock := none
  files := files
  seen := {
    op := fun _ => none
    versions := [StateFile.key, .pins].filterMap fun file =>
      (contentOf file files).map fun content => (file, content)
    reads := []
    keys := [] }

end Thalovant.Noise.StoreFiles
