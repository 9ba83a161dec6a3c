import Thalovant.Error
import Thalovant.Lib.Fallible
import Thalovant.Lib.SortedMap
import Thalovant.Text

/-!
# The noise store

The folder that keeps this client's static key, the pinned hub keys and the derived pre-shared keys,
at the level of its transactions: each operation holds the folder's lock from its first read to its
last write, and a file is replaced whole or not at all.

A file is what reading it gives (`Stored`), so that its encoding is not part of the model. Any access
may fail, with any error (`StoreEnv.fault`); a write that fails has written nothing.
-/

namespace Thalovant.Noise

/-! ## Folders -/

/-- What is found under a name in the folder. -/
inductive Stored (α : Type) where
  | absent
  | irregular
  | insecure
  | malformed
  | held (a : α)

/-- An ordered map from texts to texts, as the pin file and the cache hold one. -/
abbrev TextMap := List (String × String)

structure Folder where
  key : Stored Bytes
  pins : Stored TextMap
  psks : Stored TextMap

/-- The folders, and how many times they have been accessed and keys drawn. -/
structure Disk where
  folders : String → Folder
  accesses : Nat
  draws : Nat

/-- What the store depends on. -/
structure StoreEnv where
  /-- `noise_state_dir()`: the folder when none is named. -/
  noiseStateDir : Result String
  /-- What the n-th access fails with, if it does. -/
  fault : Nat → Option ThalovantError
  /-- The n-th draw of 32 random bytes. -/
  randomKey : Nat → Bytes
  /-- `Path::canonicalize`. -/
  canonicalize : String → Option String

def NOISE_KEY_FILENAME : String := "noise_key"

def NOISE_PINS_FILENAME : String := "noise_pins.json"

def NOISE_PSK_FILENAME : String := "noise_psks.json"

def Disk.set (d : Disk) (dir : String) (folder : Folder) : Disk :=
  { d with folders := fun other => if other = dir then folder else d.folders other }

/-- An operation on the store. -/
abbrev Store (α : Type) : Type := Fallible ThalovantError Disk α

namespace Store

variable (env : StoreEnv)

/-- One access to the file system. -/
def access : Store Unit := fun d =>
  (match env.fault d.accesses with
    | none => .ok ()
    | some err => .error err,
    { d with accesses := d.accesses + 1 })

def resolveDir : Option String → Result String
  | some dir => .ok dir
  | none => env.noiseStateDir

/-- `lock_state`, and reading under the lock. -/
def lockState : Store Unit := access env

def folder (dir : String) : Store Folder := Fallible.read fun d => d.folders dir

def put (dir : String) (f : Folder → Folder) : Store Unit := do
  access env
  Fallible.modify fun d => d.set dir (f (d.folders dir))

/-- `validate_state_file`: what is there has to be a regular file that only its owner reads. -/
def validateStateFile {α : Type} (path label : String) : Stored α → Result Unit
  | .irregular => .error (.invalidIdentity s!"{label} must be a regular file")
  | .insecure =>
    .error (.invalidIdentity s!"{label} is too permissive: {path}. Run `chmod 600 {path}`.")
  | _ => .ok ()

/-! ## Pins -/

/-- `validate_pin`. -/
def validatePin (nodeId key : String) : Result Unit :=
  if isBlank nodeId || (utf8 key).length ≠ 64 || !key.toList.all isAsciiHexdigit then
    .error (.invalidIdentity
      "Noise pin requires a nonempty node id and a 32-byte hexadecimal static key")
  else .ok ()

/-- `read_pins`. -/
def readPins (dir : String) : Store TextMap := do
  let path := s!"{dir}/{NOISE_PINS_FILENAME}"
  let pins := (← folder dir).pins
  Fallible.ofExcept (validateStateFile path "Noise pin file" pins)
  match pins with
  | .held pins =>
    Fallible.ofExcept (pins.forM fun e => validatePin e.1 e.2)
    return pins
  | .absent => return []
  | _ =>
    Fallible.fail
      (.invalidIdentity s!"Noise pin file {path} is not a JSON object of node id to key")

def writePins (dir : String) (pins : TextMap) : Store Unit :=
  put env dir fun folder => { folder with pins := .held pins }

/-- `load_noise_pin`. -/
def loadNoisePin (dir : Option String) (nodeId : String) : Store (Option String) := do
  let dir ← Fallible.ofExcept (resolveDir env dir)
  lockState env
  let pins ← readPins dir
  return SortedMap.get nodeId pins

/-- `pin_hub_key`: record the first key seen for a node id, refuse one that does not match it. -/
def pinHubKey (dir : Option String) (nodeId remoteStaticKey : String) : Store Unit := do
  Fallible.ofExcept (validatePin nodeId remoteStaticKey)
  let dir ← Fallible.ofExcept (resolveDir env dir)
  lockState env
  let pins ← readPins dir
  match SortedMap.get nodeId pins with
  | none => writePins env dir (SortedMap.insert nodeId remoteStaticKey pins)
  | some pinned =>
    if eqIgnoreAsciiCase pinned remoteStaticKey then return ()
    else Fallible.fail (.connection "the hub's Noise static key changed. If the hub was not reinstalled or replaced, another machine may be answering at this address. If it was, drop the stale pin with forget_noise_pin and reconnect to trust the new key")

/-! ## The static key -/

/-- The key in the file. -/
def readKey (dir : String) (key : Stored Bytes) : Result Bytes := do
  let path := s!"{dir}/{NOISE_KEY_FILENAME}"
  validateStateFile path "Noise key file" key
  match key with
  | .held key => return key
  | .absent => throw (.io "No such file or directory")
  | _ => throw (.invalidIdentity s!"Noise key file {path} is not a 32-byte hex key")

/-- `load_or_create_noise_key`. -/
def loadOrCreateNoiseKey (dir : Option String) : Store Bytes := do
  let dir ← Fallible.ofExcept (resolveDir env dir)
  lockState env
  let stored := (← folder dir).key
  match stored with
  | .absent =>
    let key ← Fallible.read fun d => env.randomKey d.draws
    Fallible.modify fun d => { d with draws := d.draws + 1 }
    put env dir fun folder => { folder with key := .held key }
    return key
  | stored => Fallible.ofExcept (readKey dir stored)

/-- There is something under the name. -/
def isThere {α : Type} : Stored α → Bool
  | .absent => false
  | _ => true

/-- There is a regular file under the name. -/
def isFile {α : Type} : Stored α → Bool
  | .absent | .irregular => false
  | _ => true

/-- The old folder, read under its lock. Anything wrong there copies nothing. -/
def readLegacy (legacy nodeId : String) : Store (Bytes × TextMap) := do
  lockState env
  let pins ← readPins legacy
  if (SortedMap.get nodeId pins).isNone then Fallible.fail (.io "never met this hub")
  else
    let key ← Fallible.ofExcept (readKey legacy (← folder legacy).key)
    return (key, pins)

/-- `adopt_legacy_key`: copy the key and the pins of `legacy` into `target`, once. -/
def adoptLegacyKey (target legacy nodeId : String) : Store Bool := do
  if isThere (← folder target).key || !isFile (← folder legacy).key then return false
  else if (env.canonicalize target).isSome && env.canonicalize target = env.canonicalize legacy then
    return false
  else
    match ← Fallible.attempt (readLegacy env legacy nodeId) with
    | .error _ => return false
    | .ok (key, pins) =>
      lockState env
      -- another process may have adopted, or started afresh, meanwhile
      if isThere (← folder target).key then return false
      else
        -- the pins first: a key without them would look like first contact
        let existing ← readPins target
        if existing.isEmpty then writePins env target pins
        put env target fun folder => { folder with key := .held key }
        return true

/-! ## Cached pre-shared keys -/

/-- `read_psk_cache`: a corrupt cache is an empty one. -/
def readPskCache (dir : String) : Store TextMap := do
  let psks := (← folder dir).psks
  Fallible.ofExcept
    (validateStateFile s!"{dir}/{NOISE_PSK_FILENAME}" "Noise PSK cache" psks)
  match psks with
  | .held psks => return psks
  | _ => return []

def writePskCache (dir : String) (cache : TextMap) : Store Unit :=
  put env dir fun folder => { folder with psks := .held cache }

/-- The 32 bytes of a hexadecimal text. -/
def decodePsk (encoded : String) : Option Bytes :=
  (hexDecode (trim encoded)).filter fun raw => raw.length = 32

/-- `load_cached_psk`. -/
def loadCachedPsk (dir : Option String) (nodeId : String) : Store (Option Bytes) := do
  if isBlank nodeId then return none
  else
    let dir ← Fallible.ofExcept (resolveDir env dir)
    lockState env
    let cache ← readPskCache dir
    return (SortedMap.get nodeId cache).bind decodePsk

/-- `save_cached_psk`. -/
def saveCachedPsk (dir : Option String) (nodeId : String) (psk : Bytes) : Store Unit := do
  if isBlank nodeId then return ()
  else
    let dir ← Fallible.ofExcept (resolveDir env dir)
    lockState env
    let cache ← readPskCache dir
    if SortedMap.get nodeId cache = some (hexEncode psk) then return ()
    else writePskCache env dir (SortedMap.insert nodeId (hexEncode psk) cache)

/-- `forget_cached_psk`. -/
def forgetCachedPsk (dir : Option String) (nodeId : String) : Store Unit := do
  let dir ← Fallible.ofExcept (resolveDir env dir)
  lockState env
  let cache ← readPskCache dir
  if (SortedMap.get nodeId cache).isNone then return ()
  else writePskCache env dir (SortedMap.erase nodeId cache)

end Store

end Thalovant.Noise
