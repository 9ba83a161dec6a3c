import Thalovant.Client.ConversationGroups

/-!
# What a client remembers

Over every sequence of turns: the ids filed fall into conversations within both bounds; an id carries
what the last turn of its conversation kept, until a later turn of that conversation changes or
forgets it, or until it is the least recently spoken in of one too many.
-/

namespace Thalovant.Client

open GroupedCache

/-! ## Runs -/

/-- The store after some turns. -/
def conversationsAfter (turns : List Turn) : Conversations :=
  turns.foldl (fun s turn => rememberConversation turn.ids turn.context s) {}

/-- The conversations after some turns. -/
def memoryAfter (turns : List Turn) : Memory := turns.foldl Memory.after {}

theorem conversationsAfter_concat (turns : List Turn) (turn : Turn) :
    conversationsAfter (turns ++ [turn])
      = rememberConversation turn.ids turn.context (conversationsAfter turns) := by
  simp [conversationsAfter, List.foldl_append]

theorem memoryAfter_concat (turns : List Turn) (turn : Turn) :
    memoryAfter (turns ++ [turn]) = (memoryAfter turns).after turn := by
  simp [memoryAfter, List.foldl_append]

/-- The counter as an `AtomicU64` has it. -/
def Conversations.wrapped (s : Conversations) : Conversations := { s with sequence := s.sequence % 2 ^ 64 }

/-- The store after some turns, where the counter wraps. -/
def wrappingAfter (turns : List Turn) : Conversations :=
  turns.foldl (fun s turn => (rememberConversation turn.ids turn.context s).wrapped) {}

theorem sequence_rememberConversation (sessionIds : List String) (context : Context) (s : Conversations) :
    (rememberConversation sessionIds context s).sequence ≤ s.sequence + 1 := by
  unfold rememberConversation
  dsimp only
  split
  · exact Nat.le_succ _
  · split
    · exact Nat.le_succ _
    · exact Nat.le_refl _

theorem sequence_le (turns : List Turn) : (conversationsAfter turns).sequence ≤ turns.length := by
  induction turns using List.reverseRecOn with
  | nil => exact Nat.le_refl _
  | append_singleton turns turn ih =>
    have hstep := sequence_rememberConversation turn.ids turn.context (conversationsAfter turns)
    rw [conversationsAfter_concat, List.length_append, List.length_singleton]
    omega

/-- Fewer than 2 ^ 64 turns leave the store that the wrapping counter does. -/
theorem wrappingAfter_eq {turns : List Turn} (h : turns.length < 2 ^ 64) :
    wrappingAfter turns = conversationsAfter turns := by
  induction turns using List.reverseRecOn with
  | nil => rfl
  | append_singleton turns turn ih =>
    have hlast := sequence_le (turns ++ [turn])
    rw [List.length_append, List.length_singleton] at h hlast
    rw [wrappingAfter, List.foldl_append, ← wrappingAfter, ih (by omega)]
    show (rememberConversation turn.ids turn.context (conversationsAfter turns)).wrapped = _
    rw [← conversationsAfter_concat, Conversations.wrapped, Nat.mod_eq_of_lt (by omega)]

/-- **The store is that of the conversations**, after every run. -/
theorem represents_turns (turns : List Turn) :
    Represents (conversationsAfter turns) (memoryAfter turns) := by
  induction turns using List.reverseRecOn with
  | nil => exact represents_new
  | append_singleton turns turn ih =>
    rw [conversationsAfter_concat, memoryAfter_concat]
    exact ih.after turn

/-! ## What the entries are -/

/-- The ids of the store fall into conversations. -/
structure Filed (store : ConversationStore) : Prop where
  listed : ∀ id entry, store.get id = some entry → id ∈ entry.group
  shared : ∀ id entry, store.get id = some entry → ∀ sibling ∈ entry.group,
    store.get sibling = some entry
  apart : ∀ id entry id' entry', store.get id = some entry → store.get id' = some entry' →
    entry.inserted = entry'.inserted → entry = entry'
  aliases_le : ∀ id entry, store.get id = some entry →
    entry.group.Nodup ∧ entry.group.length ≤ MAX_CONVERSATION_ALIASES
  kept : ∀ id entry, store.get id = some entry → entry.kept ≠ []
  conversations_le : distinctConversations store ≤ MAX_REMEMBERED_CONVERSATIONS

section Represents

variable {s : Conversations} {m : Memory} (h : Represents s m)

include h

theorem get_eq_some {id : String} {entry : ConversationEntry} :
    s.store.get id = some entry ↔ ∃ g ∈ m.talks, id ∈ g.keys ∧ entryOf g = entry := by
  rw [h.files id]
  constructor
  · intro hget
    obtain ⟨g, hfind, rfl⟩ := Option.map_eq_some_iff.mp hget
    obtain ⟨hg, hid⟩ := mem_of_find hfind
    exact ⟨g, hg, hid, rfl⟩
  · rintro ⟨g, hg, hid, rfl⟩
    rw [find_of_mem h.grouped.apart hg hid]
    rfl

theorem count_eq : distinctConversations s.store = m.talks.length :=
  distinctConversations_eq h.files h.grouped.apart h.grouped.reached h.inOrder.recent

theorem filed_of_represents : Filed s.store where
  listed := by
    intro id entry hget
    obtain ⟨g, -, hid, rfl⟩ := (get_eq_some h).mp hget
    exact hid
  shared := by
    intro id entry hget sibling hsibling
    obtain ⟨g, hg, -, rfl⟩ := (get_eq_some h).mp hget
    exact (get_eq_some h).mpr ⟨g, hg, hsibling, rfl⟩
  apart := by
    intro id entry id' entry' hget hget' hsame
    obtain ⟨g, hg, -, rfl⟩ := (get_eq_some h).mp hget
    obtain ⟨g', hg', -, rfl⟩ := (get_eq_some h).mp hget'
    rw [List.inj_on_of_nodup_map (nodup_inserted h.inOrder.recent) hg hg' hsame]
  aliases_le := by
    intro id entry hget
    obtain ⟨g, hg, -, rfl⟩ := (get_eq_some h).mp hget
    exact ⟨h.grouped.nodup g hg, h.grouped.keys_le g hg⟩
  kept := by
    intro id entry hget
    obtain ⟨g, hg, -, rfl⟩ := (get_eq_some h).mp hget
    exact h.inOrder.kept g hg
  conversations_le := by
    rw [count_eq h]
    exact h.grouped.length_le

end Represents

/-! ## What a turn does -/

/-- A turn under some ids is one of the conversation of an id. -/
def Reaches (store : ConversationStore) (ids : List String) (id : String) : Prop :=
  id ∈ ids ∨ ∃ entry, store.get id = some entry ∧ ∃ k ∈ ids, k ∈ entry.group

/-- What a turn does to the store. -/
structure Turned (s : Conversations) (turn : Turn) (s' : Conversations) : Prop where
  /-- The ids of the turn come first in one group with those of the conversations it reaches; what the
  turn kept is filed under that group, and under no id beyond it. -/
  remembers : turn.ids ≠ [] → turn.kept ≠ [] → ∃ group, group ≠ []
    ∧ (distinct turn.ids).take MAX_CONVERSATION_ALIASES <+: group
    ∧ (∀ id ∈ group, Reaches s.store turn.ids id ∧ s'.store.get id
      = some { inserted := s.sequence, group := group, kept := turn.kept })
    ∧ ∀ id, Reaches s.store turn.ids id → id ∉ group → s'.store.get id = none
  /-- A turn that leaves nothing to keep forgets every id of its conversations. -/
  forgets : turn.kept = [] → ∀ id, Reaches s.store turn.ids id → s'.store.get id = none
  /-- Another conversation stays as it was, or is the one least recently spoken in of one too many. -/
  keeps : ∀ id, ¬ Reaches s.store turn.ids id → s'.store.get id = s.store.get id
    ∨ s'.store.get id = none ∧ turn.kept ≠ []
      ∧ distinctConversations s'.store = MAX_REMEMBERED_CONVERSATIONS
      ∧ ∀ entry, s.store.get id = some entry →
        ∀ id' entry', s'.store.get id' = some entry' → entry.inserted < entry'.inserted

theorem reaches_iff {s : Conversations} {m : Memory} (h : Represents s m) {ids : List String}
    {id : String} : Reaches s.store ids id ↔ id ∈ joined ids m.talks := by
  rw [mem_joined h.grouped.apart]
  refine or_congr_right ⟨?_, ?_⟩
  · rintro ⟨entry, hget, k, hk, hkg⟩
    rw [h.files id] at hget
    obtain ⟨g, hfind, rfl⟩ := Option.map_eq_some_iff.mp hget
    exact ⟨g, hfind, List.any_eq_true.mpr ⟨k, hkg, by simpa using hk⟩⟩
  · rintro ⟨g, hfind, hmeets⟩
    obtain ⟨k, hkg, hk⟩ := List.any_eq_true.mp hmeets
    exact ⟨entryOf g, by rw [h.files id, hfind]; rfl, k, by simpa using hk, hkg⟩

/-- What a turn does not reach is found as before, if nothing is dropped. -/
theorem find_forget_of_not_joined {ids : List String} {talks : Cache String Talk}
    (hapart : talks.Pairwise fun g g' => ∀ k ∈ g.keys, k ∉ g'.keys) {id : String}
    (hid : id ∉ joined ids talks) : find id (forget ids talks) = find id talks := by
  rw [find_forget hapart]
  rcases hfind : find id talks with _ | g
  · rfl
  · have hnot : g.meets ids = false := by
      by_contra hmeets
      exact hid ((mem_joined hapart).mpr (.inr ⟨g, hfind, by simpa using hmeets⟩))
    simp [hnot]

theorem find_take_or {n : Nat} {talks : Cache String Talk} (id : String) :
    find id talks = (find id (talks.take n)).or (find id (talks.drop n)) := by
  unfold find
  rw [← List.find?_append, List.take_append_drop]

theorem talks_after {m : Memory} {turn : Turn} (hids : turn.ids ≠ []) (hkept : turn.kept ≠ []) :
    (m.after turn).talks = {
        keys := (joined turn.ids m.talks).take MAX_CONVERSATION_ALIASES
        value := { inserted := m.sequence, turn := turn } }
      :: (forget turn.ids m.talks).take (MAX_REMEMBERED_CONVERSATIONS - 1) := by
  unfold Memory.after
  rw [if_neg hids, if_neg hkept]
  rfl

theorem talks_after_of_forgets {m : Memory} {turn : Turn} (hids : turn.ids ≠ [])
    (hkept : turn.kept = []) : (m.after turn).talks = forget turn.ids m.talks := by
  unfold Memory.after
  rw [if_neg hids, if_pos hkept]

theorem not_reaches_nil {store : ConversationStore} {id : String} : ¬ Reaches store [] id := by
  simp [Reaches]

/-- What a turn that keeps something files, and leaves. -/
theorem remembers_of_represents {s : Conversations} {m : Memory} (h : Represents s m) {turn : Turn}
    (hids : turn.ids ≠ []) (hkept : turn.kept ≠ []) {id : String}
    (hreach : Reaches s.store turn.ids id) :
    (rememberConversation turn.ids turn.context s).store.get id =
      if id ∈ (joined turn.ids m.talks).take MAX_CONVERSATION_ALIASES then
        some {
          inserted := s.sequence
          group := (joined turn.ids m.talks).take MAX_CONVERSATION_ALIASES
          kept := turn.kept }
      else none := by
  have hjoined := (reaches_iff h).mp hreach
  have hrest : find id ((forget turn.ids m.talks).take (MAX_REMEMBERED_CONVERSATIONS - 1)) = none :=
    find_eq_none.mpr fun g hg =>
      joined_apart h.grouped.apart hjoined g (List.mem_of_mem_take hg)
  rw [(h.after turn).files id, talks_after hids hkept, find_cons, hrest, h.sequence]
  by_cases hid : id ∈ (joined turn.ids m.talks).take MAX_CONVERSATION_ALIASES
  · simp only [if_pos hid]
    rfl
  · simp only [if_neg hid]
    rfl

/-- What a turn that keeps something does to another conversation. -/
theorem keeps_of_represents {s : Conversations} {m : Memory} (h : Represents s m) {turn : Turn}
    (hids : turn.ids ≠ []) (hkept : turn.kept ≠ []) {id : String}
    (hreach : ¬ Reaches s.store turn.ids id) :
    (rememberConversation turn.ids turn.context s).store.get id = s.store.get id
      ∨ (rememberConversation turn.ids turn.context s).store.get id = none
        ∧ distinctConversations (rememberConversation turn.ids turn.context s).store
          = MAX_REMEMBERED_CONVERSATIONS
        ∧ ∀ entry, s.store.get id = some entry → ∀ id' entry',
          (rememberConversation turn.ids turn.context s).store.get id' = some entry' →
          entry.inserted < entry'.inserted := by
  have h' := h.after turn
  have hapart := h.grouped.apart
  have hjoined : id ∉ joined turn.ids m.talks := fun hid => hreach ((reaches_iff h).mpr hid)
  have hsame := find_forget_of_not_joined hapart hjoined
  have hnew : id ∉ (joined turn.ids m.talks).take MAX_CONVERSATION_ALIASES := fun hid =>
    hjoined (List.mem_of_mem_take hid)
  have hget : (rememberConversation turn.ids turn.context s).store.get id
      = (find id ((forget turn.ids m.talks).take (MAX_REMEMBERED_CONVERSATIONS - 1))).map entryOf := by
    rw [h'.files id, talks_after hids hkept, find_cons]
    simp only [if_neg hnew]
  rw [h.files id, ← hsame,
    @find_take_or (MAX_REMEMBERED_CONVERSATIONS - 1) (forget turn.ids m.talks) id, hget]
  rcases hkeep : find id ((forget turn.ids m.talks).take (MAX_REMEMBERED_CONVERSATIONS - 1)) with _ | g
  · rcases hdrop : find id ((forget turn.ids m.talks).drop (MAX_REMEMBERED_CONVERSATIONS - 1))
      with _ | g
    · exact .inl rfl
    · -- it is past the bound: the conversations kept were all spoken in later
      obtain ⟨hg, -⟩ := mem_of_find hdrop
      refine .inr ⟨rfl, ?_, ?_⟩
      · have hmore := List.length_pos_of_mem hg
        rw [count_eq h', talks_after hids hkept]
        simp only [List.length_cons, List.length_take, List.length_drop] at hmore ⊢
        unfold MAX_REMEMBERED_CONVERSATIONS at hmore ⊢
        omega
      · intro entry hentry id' entry' hget'
        obtain rfl : entryOf g = entry := by simpa using hentry
        obtain ⟨g', hg', -, rfl⟩ := (get_eq_some h').mp hget'
        rw [talks_after hids hkept] at hg'
        rcases List.mem_cons.mp hg' with rfl | hg'
        · exact (h.inOrder.forget turn.ids).past g (List.mem_of_mem_drop hg)
        · have hrecent := (h.inOrder.forget turn.ids).recent
          rw [← List.take_append_drop (MAX_REMEMBERED_CONVERSATIONS - 1) (forget turn.ids m.talks)]
            at hrecent
          exact (List.pairwise_append.mp hrecent).2.2 g' hg' g hg
  · exact .inl rfl

/-- **One turn.** -/
theorem turned_of_represents {s : Conversations} {m : Memory} (h : Represents s m) (turn : Turn) :
    Turned s turn (rememberConversation turn.ids turn.context s) where
  remembers := by
    intro hids hkept
    refine ⟨(joined turn.ids m.talks).take MAX_CONVERSATION_ALIASES, ?_, ?_, ?_, ?_⟩
    · simp [joined_ne_nil hids, MAX_CONVERSATION_ALIASES]
    · exact (prefix_gather _ _ _).take _
    · intro id hid
      have hreach := (reaches_iff h).mpr (List.mem_of_mem_take hid)
      exact ⟨hreach, by rw [remembers_of_represents h hids hkept hreach, if_pos hid]⟩
    · intro id hreach hid
      rw [remembers_of_represents h hids hkept hreach, if_neg hid]
  forgets := by
    intro hkept id hreach
    by_cases hids : turn.ids = []
    · rw [hids] at hreach
      exact absurd hreach not_reaches_nil
    · rw [(h.after turn).files id, talks_after_of_forgets hids hkept,
        find_eq_none.mpr (joined_apart h.grouped.apart ((reaches_iff h).mp hreach))]
      rfl
  keeps := by
    intro id hreach
    by_cases hids : turn.ids = []
    · simp [rememberConversation, hids]
    · by_cases hkept : turn.kept = []
      · left
        rw [(h.after turn).files id, talks_after_of_forgets hids hkept,
          find_forget_of_not_joined h.grouped.apart fun hid => hreach ((reaches_iff h).mpr hid),
          ← h.files id]
      · rcases keeps_of_represents h hids hkept hreach with hsame | ⟨hnone, hcount, holder⟩
        · exact .inl hsame
        · exact .inr ⟨hnone, hkept, hcount, holder⟩

theorem turned_turns (turns : List Turn) (turn : Turn) :
    Turned (conversationsAfter turns) turn (conversationsAfter (turns ++ [turn])) := by
  rw [conversationsAfter_concat]
  exact turned_of_represents (represents_turns turns) turn

/-! ## Where an entry comes from, and how long it stays -/

/-- The entry of an id is what the last turn of its conversation filed. -/
def FromLastTurn (turns : List Turn) (id : String) (entry : ConversationEntry) : Prop :=
  ∃ earlier turn later, turns = earlier ++ turn :: later ∧ entry.kept = turn.kept
    ∧ Reaches (conversationsAfter earlier).store turn.ids id
    ∧ (conversationsAfter (earlier ++ [turn])).store.get id = some entry
    ∧ ∀ before next after, later = before ++ next :: after →
      ¬ Reaches (conversationsAfter (earlier ++ turn :: before)).store next.ids id

theorem fromLastTurn (turns : List Turn) {id : String} {entry : ConversationEntry}
    (h : (conversationsAfter turns).store.get id = some entry) : FromLastTurn turns id entry := by
  induction turns using List.reverseRecOn with
  | nil => cases h
  | append_singleton turns turn ih =>
    have hturned := turned_turns turns turn
    by_cases hreach : Reaches (conversationsAfter turns).store turn.ids id
    · -- this turn is the last of the conversation
      have hids : turn.ids ≠ [] := by
        intro hnil
        rw [hnil] at hreach
        exact not_reaches_nil hreach
      have hkept : turn.kept ≠ [] := by
        intro hnil
        rw [hturned.forgets hnil id hreach] at h
        cases h
      obtain ⟨group, -, -, hgroup, hbeyond⟩ := hturned.remembers hids hkept
      by_cases hid : id ∈ group
      · obtain ⟨-, hget⟩ := hgroup id hid
        obtain rfl := Option.some.inj (hget.symm.trans h)
        exact ⟨turns, turn, [], rfl, rfl, hreach, h, by simp⟩
      · rw [hbeyond id hreach hid] at h
        cases h
    · rcases hturned.keeps id hreach with hsame | ⟨hnone, -⟩
      · rw [hsame] at h
        obtain ⟨earlier, last, later, rfl, hkept, hlast, hget, hlater⟩ := ih h
        refine ⟨earlier, last, later ++ [turn], by simp, hkept, hlast, hget, ?_⟩
        intro before next after heq
        rcases List.eq_nil_or_concat' after with rfl | ⟨after, x, rfl⟩
        · obtain ⟨rfl, hnext⟩ := List.append_inj' heq rfl
          cases hnext
          exact hreach
        · have heq' : later ++ [turn] = (before ++ next :: after) ++ [x] := by simpa using heq
          exact hlater before next after (List.append_inj' heq' rfl).1
      · rw [hnone] at h
        cases h

/-- The entry of an id is dropped for a turn of other conversations. -/
def Evicted (turns later : List Turn) (id : String) (entry : ConversationEntry) : Prop :=
  ∃ before next after, later = before ++ next :: after
    ∧ (conversationsAfter (turns ++ before)).store.get id = some entry
    ∧ (conversationsAfter (turns ++ before ++ [next])).store.get id = none

theorem stays_or_evicted (turns : List Turn) {id : String} {entry : ConversationEntry}
    (h : (conversationsAfter turns).store.get id = some entry) (later : List Turn)
    (hlater : ∀ before next after, later = before ++ next :: after →
      ¬ Reaches (conversationsAfter (turns ++ before)).store next.ids id) :
    (conversationsAfter (turns ++ later)).store.get id = some entry
      ∨ Evicted turns later id entry := by
  induction later using List.reverseRecOn with
  | nil => exact .inl (by simpa using h)
  | append_singleton later turn ih =>
    have hbefore : ∀ before next after, later = before ++ next :: after →
        ¬ Reaches (conversationsAfter (turns ++ before)).store next.ids id := by
      intro before next after heq
      exact hlater before next (after ++ [turn]) (by simp [heq])
    rcases ih hbefore with hget | ⟨before, next, after, heq, hstay, hgone⟩
    · have hturned := turned_turns (turns ++ later) turn
      have hassoc : turns ++ (later ++ [turn]) = turns ++ later ++ [turn] := by simp
      rcases hturned.keeps id (hlater later turn [] rfl) with hsame | ⟨hnone, -⟩
      · exact .inl (by rw [hassoc, hsame, hget])
      · exact .inr ⟨later, turn, [], rfl, hget, hnone⟩
    · exact .inr ⟨before, next, after ++ [turn], by simp [heq], hstay, hgone⟩

/-! ## What is carried -/

theorem get_keepField (session kept : Map) (first field : String) :
    (keepField session kept first).get field
      = if field = first then ((session.get first).filter isKept).or (kept.get first)
        else kept.get field := by
  unfold keepField
  rcases hvalue : session.get first with _ | value
  · by_cases h : field = first <;> simp [h]
  · by_cases hkept : isKept value = true
    · by_cases h : field = first <;> simp [hkept, h, Map.get_insert, Option.filter_some]
    · by_cases h : field = first <;> simp [hkept, h, Option.filter_some]

theorem get_foldl_keepField (session : Map) (field : String) : ∀ (fields : List String) (kept : Map),
    (fields.foldl (keepField session) kept).get field
      = if field ∈ fields then ((session.get field).filter isKept).or (kept.get field)
        else kept.get field
  | [], kept => by simp
  | first :: fields, kept => by
    rw [List.foldl_cons, get_foldl_keepField session field fields, get_keepField]
    by_cases hfirst : field = first
    · subst hfirst
      rcases (session.get field).filter isKept with _ | value <;> simp
    · simp [hfirst]

/-- A field is kept if it is one that is carried, and says something. -/
theorem get_keptFields (context : Context) (field : String) :
    (keptFields context).get field
      = if field ∈ CONVERSATION_SESSION_FIELDS then
          ((sessionFromContext context).get field).filter isKept
        else none := by
  unfold keptFields
  rw [get_foldl_keepField]
  simp [Map.get]

theorem isCarried_of_isKept {value : Value} (h : isKept value = true) : isCarried value = true := by
  cases value <;> simp_all [isKept, isCarried]

theorem get_carryField (previous carried : Map) (first field : String) :
    (carryField previous carried first).get field
      = if field = first then (carried.get first).or ((previous.get first).filter isCarried)
        else carried.get field := by
  unfold carryField Map.containsKey
  rcases hhas : carried.get first with _ | value
  · rcases hvalue : previous.get first with _ | value
    · by_cases h : field = first <;> simp [h, hhas]
    · by_cases hcarried : isCarried value = true
      · by_cases h : field = first <;>
          simp [hcarried, h, Map.get_insert, Option.filter_some]
      · by_cases h : field = first <;> simp [hcarried, h, hhas, Option.filter_some]
  · by_cases h : field = first <;> simp [h, hhas]

theorem get_foldl_carryField (previous : Map) (field : String) :
    ∀ (fields : List String) (carried : Map),
      (fields.foldl (carryField previous) carried).get field
        = if field ∈ fields then (carried.get field).or ((previous.get field).filter isCarried)
          else carried.get field
  | [], carried => by simp
  | first :: fields, carried => by
    rw [List.foldl_cons, get_foldl_carryField previous field fields, get_carryField]
    by_cases hfirst : field = first
    · subst hfirst
      rcases carried.get field with _ | value <;> simp
    · simp [hfirst]

/-- Of what a turn kept every field is carried, unless the session has it. -/
theorem get_carryConversation (context : Context) (session : Map) (field : String) :
    (carryConversation (keptFields context) session).get field
      = (session.get field).or ((keptFields context).get field) := by
  unfold carryConversation
  rw [get_foldl_carryField, get_keptFields]
  by_cases h : field ∈ CONVERSATION_SESSION_FIELDS
  · rcases (sessionFromContext context).get field with _ | value
    · simp [h]
    · by_cases hkept : isKept value = true
      · simp [h, hkept, Option.filter_some, isCarried_of_isKept hkept]
      · simp [h, hkept, Option.filter_some]
  · simp [h]

/-- A context that goes on from an entry: what the caller put in its session stays, and the rest is
what was kept. -/
structure GoesOn (entry : ConversationEntry) (context next : Context) : Prop where
  session : ∀ field, (sessionFromContext next).get field
    = ((sessionFromContext context).get field).or (entry.kept.get field)
  others : ∀ key, key ≠ "session" → next.get key = context.get key

theorem continueConversation_of_some {s : Conversations} {id : String} {entry : ConversationEntry}
    (hget : s.store.get id = some entry) {turn : Turn} (hkept : entry.kept = turn.kept)
    (context : Option Context) :
    ∃ next, continueConversation context id s = some next ∧ GoesOn entry (context.getD []) next := by
  refine ⟨_, by unfold continueConversation; rw [hget]; rfl, ?_, ?_⟩
  · intro field
    have hsession : ∀ (session : Map) (m : Map),
        sessionFromContext (m.insert "session" (.object session)) = session := by
      intro session m
      simp [sessionFromContext, Map.get_insert, Json.Value.asObject]
    dsimp only
    rw [hsession, hkept]
    exact get_carryConversation turn.context _ field
  · intro key hkey
    dsimp only
    rw [Map.get_insert, if_neg hkey]

/-! ## Every run -/

/-- **What a client remembers.** After every run of turns the ids filed fall into conversations within
the bounds. The next turn joins the conversations it reaches, forgets them if it leaves nothing to
keep, and drops at most the one least recently spoken in. An entry is that of the last turn of its
conversation; it stays until a later turn reaches it or it is dropped; and it is what a context goes
on from. -/
theorem conversation_store (turns : List Turn) :
    Filed (conversationsAfter turns).store
    ∧ (∀ turn, Turned (conversationsAfter turns) turn (conversationsAfter (turns ++ [turn])))
    ∧ ∀ id,
      ((conversationsAfter turns).store.get id = none →
        ∀ context, continueConversation context id (conversationsAfter turns) = none)
      ∧ ∀ entry, (conversationsAfter turns).store.get id = some entry →
        FromLastTurn turns id entry
        ∧ (∀ context, ∃ next, continueConversation context id (conversationsAfter turns) = some next
          ∧ GoesOn entry (context.getD []) next)
        ∧ ∀ later, (∀ before next after, later = before ++ next :: after →
            ¬ Reaches (conversationsAfter (turns ++ before)).store next.ids id) →
          (conversationsAfter (turns ++ later)).store.get id = some entry
            ∨ Evicted turns later id entry := by
  refine ⟨filed_of_represents (represents_turns turns), turned_turns turns, fun id => ⟨?_, ?_⟩⟩
  · intro hnone context
    unfold continueConversation
    rw [hnone]
    rfl
  · intro entry hget
    obtain ⟨earlier, turn, later, -, hkept, -⟩ := fromLastTurn turns hget
    exact ⟨fromLastTurn turns hget, continueConversation_of_some hget hkept,
      stays_or_evicted turns hget⟩

end Thalovant.Client
