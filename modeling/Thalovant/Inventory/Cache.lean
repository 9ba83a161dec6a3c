import Thalovant.Duration
import Thalovant.Inventory.Json
import Thalovant.Lib.Directory

/-!
# The inventory cache

An inventory is kept in a file of its key. A store writes a file beside it, bit by bit, which takes the
name when it is whole; a load opens what is under the name, looks at its size and age, and reads it bit
by bit. Any number of loads and stores run beside each other, in one process or in several, and between
two calls of one others run. A store may be killed between two calls, and a file may be removed at any
time.

`held` is what a cache without files would hold: a store puts its inventory there at once, when the file
takes its name.
-/

namespace Thalovant

structure InventoryCache where
  directory : String
  ttl : Duration

namespace InventoryCache

variable (library : JsonLibrary) (cache : InventoryCache)

/-! ## Names -/

def MAX_SIZE : Nat := 8 * 1024 * 1024

def isKeyChar (c : Char) : Bool := c.isAlphanum || c = '.' || c = '_' || c = '-'

/-- The name of a key's file, in the directory. -/
def path (key : String) : Result String :=
  if cache.directory = "" || key = "" || key.utf8ByteSize > 160 || !key.toList.all isKeyChar then
    .error (.listing "invalid inventory cache key")
  else .ok ("intents-" ++ key ++ ".json")

def scratchPath (uuid : String) : String := ".intents-" ++ uuid ++ ".partial"

theorem path_eq {key name : String} (h : cache.path key = .ok name) :
    name = "intents-" ++ key ++ ".json" := by
  unfold path at h
  split at h
  · cases h
  · exact (Except.ok.inj h).symm

theorem path_inj {key key' name : String} (h : cache.path key = .ok name)
    (h' : cache.path key' = .ok name) : key = key' := by
  have htexts := congrArg String.toList ((path_eq cache h).symm.trans (path_eq cache h'))
  simp only [String.toList_append, List.append_cancel_left_eq, List.append_cancel_right_eq] at htexts
  exact String.toList_inj.mp htexts

theorem scratchPath_inj {uuid uuid' : String} (h : scratchPath uuid = scratchPath uuid') :
    uuid = uuid' := by
  have htexts := congrArg String.toList h
  simp only [scratchPath, String.toList_append, List.append_cancel_left_eq,
    List.append_cancel_right_eq] at htexts
  exact String.toList_inj.mp htexts

theorem path_ne_scratchPath {key name : String} (h : cache.path key = .ok name) (uuid : String) :
    name ≠ scratchPath uuid := by
  intro heq
  have htexts := congrArg String.toList ((path_eq cache h).symm.trans heq)
  simp [scratchPath, String.toList_append] at htexts

/-! ## The state -/

/-- A store that has made its file. What is left to write is `none` where no more will be. -/
structure Storing where
  target : String
  scratch : String
  node : Nat
  inventory : Inventory
  rest : Option Bytes

/-- A load that has opened a file. -/
structure Loading where
  key : String
  node : Nat
  /-- What was held as it opened the file. -/
  opened : Option Inventory
  /-- The size and the age have been looked at. -/
  checked : Bool
  raw : Bytes

/-- What a load answers. -/
structure Loaded where
  key : String
  result : Option Inventory

structure CacheState where
  files : Directory String UInt8
  modified : Nat → Nat
  now : Nat
  used : List String
  stores : Nat → Option Storing
  loads : Nat → Option Loading
  held : String → Option Inventory
  /-- What stores have been given, with their keys. -/
  stored : List (String × Inventory)

/-- A directory without files. -/
def CacheState.new : CacheState where
  files := {
    entry := fun _ => .absent
    node := fun _ => { content := [], secure := true }
    made := 0
    known := fun _ _ h => by cases h }
  modified _ := 0
  now := 0
  used := []
  stores _ := none
  loads _ := none
  held _ := none
  stored := []

namespace CacheState

variable (s : CacheState)

def setStore (i : Nat) (st : Option Storing) : CacheState :=
  { s with stores := Function.update s.stores i st }

def setLoad (i : Nat) (ld : Option Loading) : CacheState :=
  { s with loads := Function.update s.loads i ld }

/-! ## A store -/

/-- Until the file is there. A unique id does not come twice. -/
def beginStore (i : Nat) (key : String) (inventory : Inventory) (uuid : String) : CacheState :=
  match cache.path key with
  | .error _ => s
  | .ok target =>
    if (s.stores i).isSome || s.used.contains uuid then s
    else
      let scratch := scratchPath uuid
      let s := { s with used := uuid :: s.used, stored := (key, inventory) :: s.stored }
      match s.files.entry scratch with
      | .absent =>
        let storing : Storing :=
          { target := target
            scratch := scratch
            node := s.files.made
            inventory := inventory
            rest := inventory.asJson.toOption.map utf8 }
        { s.setStore i (some storing) with
          files := s.files.create scratch
          modified := Function.update s.modified s.files.made s.now }
      | _ => { s with files := s.files.remove scratch }

/-- One call of `write_all`. -/
def write (i count : Nat) : CacheState :=
  match s.stores i with
  | none => s
  | some st =>
    match st.rest with
    | none => s
    | some rest =>
      if rest = [] then s
      else
        { s.setStore i (some { st with rest := some (rest.drop (max 1 count)) }) with
          files := s.files.append st.node (rest.take (max 1 count))
          modified := Function.update s.modified st.node s.now }

/-- All is written, and the file takes its name, if it is still there. -/
def rename (i : Nat) : CacheState :=
  match s.stores i with
  | none => s
  | some st =>
    if st.rest = some [] then
      match s.files.entry st.scratch with
      | .file _ =>
        { s.setStore i (some { st with rest := none }) with
          files := s.files.rename st.scratch st.target
          held := Function.update s.held st.target (some st.inventory) }
      | _ => s.setStore i (some { st with rest := none })
    else s

/-- The end of a store, whatever came of it. -/
def endStore (i : Nat) : CacheState :=
  match s.stores i with
  | none => s
  | some st => { s.setStore i none with files := s.files.remove st.scratch }

/-- A file is removed by somebody else. -/
def clean (name : String) : CacheState :=
  { s with files := s.files.remove name, held := Function.update s.held name none }

/-! ## A load -/

/-- Until the file is open. -/
def beginLoad (i : Nat) (key : String) : Option Loaded × CacheState :=
  match cache.path key with
  | .error _ => (some { key := key, result := none }, s)
  | .ok name =>
    if (s.loads i).isSome then (none, s)
    else
      match s.files.entry name with
      | .file n =>
        (none, s.setLoad i (some
          { key := key, node := n, opened := s.held name, checked := false, raw := [] }))
      | _ => (some { key := key, result := none }, s)

def failLoad (i : Nat) : Option Loaded × CacheState :=
  match s.loads i with
  | none => (none, s)
  | some ld =>
    (some { key := ld.key, result := none }, s.setLoad i none)

/-- The size and the age of the file. -/
def check (i : Nat) : Option Loaded × CacheState :=
  match s.loads i with
  | none => (none, s)
  | some ld =>
    if ld.checked then (none, s)
    else if (s.files.node ld.node).content.length > MAX_SIZE then
      (some { key := ld.key, result := none }, s.setLoad i none)
    else if s.now - s.modified ld.node > cache.ttl.nanos then s.failLoad i
    else (none, s.setLoad i (some { ld with checked := true }))

/-- What is read, as an inventory. -/
def parsed (raw : Bytes) : Option Inventory :=
  if raw.length > MAX_SIZE then none
  else (fromUtf8 raw).bind fun text => (Inventory.fromJson library text).toOption

/-- One call of `read_to_string`, which goes on to the end of the file or past the greatest size. -/
def read (i count : Nat) : Option Loaded × CacheState :=
  match s.loads i with
  | none => (none, s)
  | some ld =>
    if !ld.checked then (none, s)
    else
      let left := ((s.files.node ld.node).content.take (MAX_SIZE + 1)).drop ld.raw.length
      if left = [] then
        (some { key := ld.key, result := parsed library ld.raw }, s.setLoad i none)
      else (none, s.setLoad i (some { ld with raw := ld.raw ++ left.take (max 1 count) }))

end CacheState

/-! ## What happens -/

inductive CacheEvent where
  | tick (nanos : Nat)
  | store (i : Nat) (key : String) (inventory : Inventory) (uuid : String)
  | write (i count : Nat)
  | rename (i : Nat)
  | endStore (i : Nat)
  | kill (i : Nat)
  | clean (name : String)
  | load (i : Nat) (key : String)
  | failLoad (i : Nat)
  | check (i : Nat)
  | read (i count : Nat)

/-- The load that the call is of, once it has opened its file. -/
def CacheEvent.ofLoad : CacheEvent → Option Nat
  | .failLoad i | .check i | .read i _ => some i
  | _ => none

def cacheStep (s : CacheState) : CacheEvent → Option Loaded × CacheState
  | .tick nanos => (none, { s with now := s.now + nanos })
  | .store i key inventory uuid => (none, s.beginStore cache i key inventory uuid)
  | .write i count => (none, s.write i count)
  | .rename i => (none, s.rename i)
  | .endStore i => (none, s.endStore i)
  | .kill i => (none, s.setStore i none)
  | .clean name => (none, s.clean name)
  | .load i key => s.beginLoad cache i key
  | .failLoad i => s.failLoad i
  | .check i => s.check cache i
  | .read i count => s.read library i count

end InventoryCache

end Thalovant
