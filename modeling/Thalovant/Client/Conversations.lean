import Mathlib.Data.Finset.Card
import Mathlib.Data.List.MinMax
import Thalovant.Event
import Thalovant.Lib.SortedMap

/-!
# The conversations a client remembers

A hub keeps nothing between the turns of a named session, so the client keeps the session of the last
turn of each conversation and sends it back with the next. A conversation is filed under every session
id that reaches it: the id the client sent, and those the hub answered with.

The store is a map from ids to entries. Its order of iteration is that of the keys: no result depends
on it. The sequence is a counter of turns, here a natural number; the source's wraps at 64 bits, which
fewer than 2 ^ 64 turns do not tell apart.
-/

namespace Thalovant.Client

open SortedMap (Sorted)

/-- How many conversations one client remembers. -/
def MAX_REMEMBERED_CONVERSATIONS : Nat := 32

/-- How many session ids one conversation answers to. -/
def MAX_CONVERSATION_ALIASES : Nat := 8

/-- The session fields carried from one turn to the next. -/
def CONVERSATION_SESSION_FIELDS : List String :=
  ["converse_handlers", "active_handlers", "active_skills", "context", "utterance_states",
    "response_mode"]

/-! ## The store -/

/-- One conversation: when it was last touched, every id that reaches it, and what is carried. -/
structure ConversationEntry where
  inserted : Nat
  group : List String
  kept : Map

/-- Every conversation a client remembers, under each of its ids. -/
structure ConversationStore where
  entries : List (String × ConversationEntry)
  sorted : Sorted entries

namespace ConversationStore

def empty : ConversationStore := ⟨[], Sorted.nil⟩

def get (id : String) (store : ConversationStore) : Option ConversationEntry :=
  SortedMap.get id store.entries

def insert (id : String) (entry : ConversationEntry) (store : ConversationStore) :
    ConversationStore :=
  ⟨SortedMap.insert id entry store.entries, store.sorted.insert id entry⟩

def remove (store : ConversationStore) (id : String) : ConversationStore :=
  ⟨SortedMap.erase id store.entries, store.sorted.erase id⟩

def values (store : ConversationStore) : List ConversationEntry := store.entries.map Prod.snd

def size (store : ConversationStore) : Nat := store.entries.length

theorem get_insert (j id : String) (entry : ConversationEntry) (store : ConversationStore) :
    (store.insert id entry).get j = if j = id then some entry else store.get j :=
  SortedMap.get_insert j id entry store.entries

theorem get_remove (j id : String) (store : ConversationStore) :
    (store.remove id).get j = if j = id then none else store.get j :=
  SortedMap.get_erase j id store.entries

theorem mem_values {store : ConversationStore} {entry : ConversationEntry} :
    entry ∈ store.values ↔ ∃ id, store.get id = some entry := by
  constructor
  · intro h
    obtain ⟨⟨id, _⟩, hmem, rfl⟩ := List.mem_map.mp h
    exact ⟨id, store.sorted.get_eq_some_iff.mpr hmem⟩
  · rintro ⟨id, h⟩
    exact List.mem_map.mpr ⟨(id, entry), store.sorted.get_eq_some_iff.mp h, rfl⟩

theorem size_remove_le (store : ConversationStore) (id : String) :
    (store.remove id).size ≤ store.size := List.length_filter_le _ _

theorem size_remove_lt {store : ConversationStore} {id : String} {entry : ConversationEntry}
    (h : store.get id = some entry) : (store.remove id).size < store.size := by
  refine List.length_filter_lt_length_iff_exists.mpr ⟨(id, entry), ?_, by simp⟩
  exact SortedMap.mem_of_get_eq_some h

theorem size_foldl_remove_le : ∀ (ids : List String) (store : ConversationStore),
    (ids.foldl remove store).size ≤ store.size
  | [], _ => le_rfl
  | id :: ids, store => (size_foldl_remove_le ids _).trans (store.size_remove_le id)

end ConversationStore

/-- Conversations held, counting a group of ids once. -/
def distinctConversations (conversations : ConversationStore) : Nat :=
  (conversations.values.map ConversationEntry.inserted).toFinset.card

/-! ## What is kept of a session -/

/-- A value says something. -/
def isKept : Value → Bool
  | .null => false
  | .bool flag => flag
  | .string text => text ≠ ""
  | .number number => !number.isZero
  | .array items => !items.isEmpty
  | .object fields => !fields.isEmpty

/-- Keep one field of a session. -/
def keepField (session kept : Map) (field : String) : Map :=
  match session.get field with
  | some value => if isKept value then kept.insert field value else kept
  | none => kept

/-- What is kept of the session of a context. -/
def keptFields (context : Context) : Map :=
  CONVERSATION_SESSION_FIELDS.foldl (keepField (sessionFromContext context)) []

def isCarried : Value → Bool
  | .null => false
  | .array items => !items.isEmpty
  | .object fields => !fields.isEmpty
  | _ => true

/-- Fill one field from the turn before, unless the session has it. -/
def carryField (previous carried : Map) (field : String) : Map :=
  if carried.containsKey field then carried
  else
    match previous.get field with
    | some value => if isCarried value then carried.insert field value else carried
    | none => carried

/-- Fill the fields a session leaves out from those of the turn before. -/
def carryConversation (previous session : Map) : Map :=
  CONVERSATION_SESSION_FIELDS.foldl (carryField previous) session

/-! ## A turn -/

/-- The store of a client and the counter of its turns. -/
structure Conversations where
  store : ConversationStore := .empty
  sequence : Nat := 0

/-- One more key, unless it is there. -/
def pushKey (keys : List String) (key : String) : List String :=
  if key ∈ keys then keys else keys ++ [key]

/-- Take over every id that the keys from an index on reach: they are removed from the store, and join
the keys. -/
def takeOver (conversations : ConversationStore) (keys : List String) (index : Nat) :
    List String × ConversationStore :=
  match _hkey : keys[index]? with
  | none => (keys, conversations)
  | some key =>
    match hentry : conversations.get key with
    | none => takeOver conversations keys (index + 1)
    | some entry =>
      takeOver (entry.group.foldl .remove (conversations.remove key))
        (entry.group.foldl pushKey keys) (index + 1)
termination_by (conversations.size, keys.length - index)
decreasing_by
  · have := (List.getElem?_eq_some_iff.mp _hkey).1
    exact .right _ (by omega)
  · exact .left _ _ ((ConversationStore.size_foldl_remove_le _ _).trans_lt
      (ConversationStore.size_remove_lt hentry))

/-- Remove the oldest conversation as long as there are too many. The loop turns at most as often as
there are entries. -/
def evict : Nat → ConversationStore → ConversationStore
  | 0, conversations => conversations
  | turns + 1, conversations =>
    if distinctConversations conversations > MAX_REMEMBERED_CONVERSATIONS then
      match conversations.values.argmin ConversationEntry.inserted with
      | none => conversations
      | some oldest => evict turns (oldest.group.foldl .remove conversations)
    else conversations

/-- Keep the session a hub returned, under every session id that reaches it. -/
def rememberConversation (sessionIds : List String) (context : Context) (s : Conversations) :
    Conversations :=
  let kept := keptFields context
  let keys := sessionIds.foldl pushKey []
  if keys = [] then s
  else
    let (keys, conversations) := takeOver s.store keys 0
    if kept = [] then { s with store := keys.foldl .remove conversations }
    else
      -- this turn's ids come first: the tail is the stalest
      let keys := keys.take MAX_CONVERSATION_ALIASES
      let inserted := s.sequence
      let conversations := keys.foldl (fun conversations key =>
        conversations.insert key { inserted := inserted, group := keys, kept := kept }) conversations
      { store := evict conversations.size conversations, sequence := s.sequence + 1 }

/-- Put the last turn's conversation state back into this turn's context. -/
def continueConversation (context : Option Context) (sessionId : String) (s : Conversations) :
    Option Context :=
  (s.store.get sessionId).map fun entry =>
    let next := context.getD []
    next.insert "session" (.object (carryConversation entry.kept (sessionFromContext next)))

end Thalovant.Client
