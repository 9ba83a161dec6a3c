import Thalovant.Client.Conversations
import Thalovant.Lib.GroupedCache

/-!
# The store as a cache of conversations

What the store is for is a cache whose groups are the conversations, the last one spoken in first
(`Memory`). The map refines it (`Represents`): each id has the entry of the conversation it reaches,
and every turn does to the map what it does to the cache (`represents_after`).
-/

namespace Thalovant.Client

open GroupedCache

/-- A turn: the session ids it was spoken under, and the context its answer ended with. -/
structure Turn where
  ids : List String
  context : Context

/-- What is kept of a turn. -/
def Turn.kept (turn : Turn) : Map := keptFields turn.context

/-- A conversation: its last turn, and when that was. -/
structure Talk where
  inserted : Nat
  turn : Turn

/-- The conversations, the last one spoken in first. -/
structure Memory where
  talks : Cache String Talk := []
  sequence : Nat := 0

/-- The conversations after a turn. -/
def Memory.after (m : Memory) (turn : Turn) : Memory :=
  if turn.ids = [] then m
  else if turn.kept = [] then { m with talks := forget turn.ids m.talks }
  else {
    talks := remember MAX_CONVERSATION_ALIASES MAX_REMEMBERED_CONVERSATIONS turn.ids
      { inserted := m.sequence, turn := turn } m.talks
    sequence := m.sequence + 1 }

/-- The conversations in the order they were last spoken in. -/
structure InOrder (talks : Cache String Talk) (sequence : Nat) : Prop where
  recent : talks.Pairwise fun g g' => g'.value.inserted < g.value.inserted
  past : ∀ g ∈ talks, g.value.inserted < sequence
  kept : ∀ g ∈ talks, g.value.turn.kept ≠ []

/-- The entry of a conversation. -/
def entryOf (g : Group String Talk) : ConversationEntry where
  inserted := g.value.inserted
  group := g.keys
  kept := g.value.turn.kept

/-- Each id has the entry of the conversation it reaches. -/
def Files (store : ConversationStore) (talks : Cache String Talk) : Prop :=
  ∀ id, store.get id = (find id talks).map entryOf

/-! ## Removing and inserting -/

theorem get_foldl_remove (id : String) : ∀ (ids : List String) (store : ConversationStore),
    (ids.foldl .remove store).get id = if id ∈ ids then none else store.get id
  | [], store => by simp
  | first :: ids, store => by
    rw [List.foldl_cons, get_foldl_remove id ids, ConversationStore.get_remove]
    by_cases h : id ∈ ids <;> by_cases hfirst : id = first <;> simp [h, hfirst]

theorem get_foldl_insert (id : String) (entry : ConversationEntry) :
    ∀ (ids : List String) (store : ConversationStore),
      (ids.foldl (fun store key => store.insert key entry) store).get id
        = if id ∈ ids then some entry else store.get id
  | [], store => by simp
  | first :: ids, store => by
    rw [List.foldl_cons, get_foldl_insert id entry ids, ConversationStore.get_insert]
    by_cases h : id ∈ ids <;> by_cases hfirst : id = first <;> simp [h, hfirst]

theorem pushKey_eq : pushKey = @pushNew String _ := rfl

/-! ## Taking conversations over -/

/-- Keys that reach nothing are passed. -/
theorem takeOver_none (store : ConversationStore) (keys : List String) (index : Nat)
    (h : ∀ key ∈ keys.drop index, store.get key = none) : takeOver store keys index = (keys, store) := by
  rw [takeOver]
  split
  · rfl
  · next key hkey =>
    have hlt := (List.getElem?_eq_some_iff.mp hkey).1
    have hdrop : keys.drop index = key :: keys.drop (index + 1) := by
      rw [List.drop_eq_getElem_cons hlt]
      congr 1
      exact (List.getElem?_eq_some_iff.mp hkey).2
    split
    · refine takeOver_none store keys (index + 1) fun k hk => h k ?_
      rw [hdrop]
      exact List.mem_cons_of_mem _ hk
    · next entry hentry =>
      rw [h key (hdrop ▸ List.mem_cons_self)] at hentry
      cases hentry
termination_by keys.length - index

theorem takeOver_of_none {store : ConversationStore} {keys : List String} {index : Nat} {key : String}
    (hkey : keys[index]? = some key) (h : store.get key = none) :
    takeOver store keys index = takeOver store keys (index + 1) := by
  conv_lhs => rw [takeOver]
  split
  · next heq => rw [heq] at hkey; cases hkey
  · next key' heq =>
    obtain rfl : key' = key := Option.some.inj (heq.symm.trans hkey)
    split
    · rfl
    · next entry hentry => rw [h] at hentry; cases hentry

theorem takeOver_of_some {store : ConversationStore} {keys : List String} {index : Nat} {key : String}
    {entry : ConversationEntry} (hkey : keys[index]? = some key) (h : store.get key = some entry) :
    takeOver store keys index = takeOver (entry.group.foldl .remove (store.remove key))
      (entry.group.foldl pushKey keys) (index + 1) := by
  conv_lhs => rw [takeOver]
  split
  · next heq => rw [heq] at hkey; cases hkey
  · next key' heq =>
    obtain rfl : key' = key := Option.some.inj (heq.symm.trans hkey)
    split
    · next hentry => rw [h] at hentry; cases hentry
    · next entry' hentry =>
      obtain rfl : entry' = entry := Option.some.inj (hentry.symm.trans h)
      rfl

/-- To forget one key more. -/
theorem meets_concat (done : List String) (key : String) (g : Group String Talk) :
    g.meets (done ++ [key]) = (g.meets done || decide (key ∈ g.keys)) := by
  rw [Bool.eq_iff_iff]
  simp only [Group.meets, List.any_eq_true, List.mem_append, List.mem_singleton, Bool.or_eq_true,
    decide_eq_true_eq]
  constructor
  · rintro ⟨k, hk, hdone | rfl⟩
    · exact .inl ⟨k, hk, hdone⟩
    · exact .inr hk
  · rintro (⟨k, hk, hdone⟩ | hkey)
    · exact ⟨k, hk, .inl hdone⟩
    · exact ⟨key, hkey, .inr rfl⟩

section TakeOver

variable {talks : Cache String Talk}
  (hapart : talks.Pairwise fun g g' => ∀ k ∈ g.keys, k ∉ g'.keys)

include hapart

/-- A key that reaches nothing new changes nothing. -/
theorem forget_concat_of_none {done : List String} {key : String}
    (h : find key (forget done talks) = none) :
    forget (done ++ [key]) talks = forget done talks := by
  refine List.filter_congr fun g hg => ?_
  rw [meets_concat]
  by_cases hkey : key ∈ g.keys
  · rw [find_forget hapart, find_of_mem hapart hg hkey, Option.filter_some] at h
    by_cases hmeets : g.meets done = true
    · simp [hmeets]
    · simp [hmeets] at h
  · simp [hkey]

/-- A key that reaches a conversation takes its entries out of the store. -/
theorem files_concat_of_some {store : ConversationStore} {done : List String} {key : String}
    {g : Group String Talk} (hfiles : Files store (forget done talks))
    (hfind : find key (forget done talks) = some g) :
    Files (g.keys.foldl .remove (store.remove key)) (forget (done ++ [key]) talks) := by
  intro id
  obtain ⟨hg, hkey⟩ := mem_of_find hfind
  obtain ⟨hg, hnot⟩ := List.mem_filter.mp hg
  rw [get_foldl_remove, ConversationStore.get_remove, hfiles id, find_forget hapart,
    find_forget hapart]
  by_cases hid : id ∈ g.keys
  · rw [if_pos hid, find_of_mem hapart hg hid, Option.filter_some, meets_concat]
    simp [hkey]
  · have hne : id ≠ key := by
      rintro rfl
      exact hid hkey
    rw [if_neg hid, if_neg hne]
    rcases hfind' : find id talks with _ | g'
    · rfl
    · obtain ⟨hg', hid'⟩ := mem_of_find hfind'
      have hother : key ∉ g'.keys := by
        intro hkey'
        have hsame := (find_of_mem hapart hg' hkey').symm.trans (find_of_mem hapart hg hkey)
        exact hid (Option.some.inj hsame ▸ hid')
      simp [Option.filter_some, meets_concat, hother]

/-- **The loop joins what the keys reach.** -/
theorem takeOver_gather : ∀ (pending done : List String) {keys : List String}
    {store : ConversationStore}, Files store (forget done talks) →
    (∀ g ∈ talks, g.meets done = true → ∀ k ∈ g.keys, k ∈ keys) →
    (∃ extra, keys = done ++ pending ++ extra
      ∧ ∀ k ∈ extra, ∃ g ∈ talks, g.meets done = true ∧ k ∈ g.keys) →
    ∃ store', takeOver store keys done.length = (gather talks keys pending, store')
      ∧ Files store' (forget (done ++ pending) talks)
  | [], done, keys, store, hfiles, _, hkeys => by
    obtain ⟨extra, rfl, hextra⟩ := hkeys
    refine ⟨store, takeOver_none store _ _ ?_, by simpa using hfiles⟩
    intro k hk
    have hk : k ∈ extra := by simpa using hk
    obtain ⟨g, hg, hmeets, hkg⟩ := hextra k hk
    rw [hfiles k, find_forget hapart, find_of_mem hapart hg hkg]
    simp [hmeets]
  | key :: pending, done, keys, store, hfiles, hheld, hkeys => by
    obtain ⟨extra, hshape, hextra⟩ := hkeys
    have hget : keys[done.length]? = some key := by
      rw [hshape]
      simp
    have hlength : (done ++ [key]).length = done.length + 1 := by simp
    have hpending : done ++ key :: pending = (done ++ [key]) ++ pending := by simp
    have hmore : ∀ g : Group String Talk, g.meets done = true → g.meets (done ++ [key]) = true := by
      intro g h
      rw [meets_concat, h]
      rfl
    rw [gather, hpending]
    rcases hfind : find key (forget done talks) with _ | g
    · -- the key reaches nothing, or what an earlier key took over
      have hnone : store.get key = none := by rw [hfiles key, hfind]; rfl
      have hgone := hfind
      rw [find_forget hapart] at hgone
      have hmet : ∀ g ∈ talks, key ∈ g.keys → g.meets done = true := by
        intro g hg hkg
        rw [find_of_mem hapart hg hkg, Option.filter_some] at hgone
        by_contra hmeets
        simp [hmeets] at hgone
      have hsame : (((find key talks).map Group.keys).getD []).foldl pushNew keys = keys := by
        rcases hfound : find key talks with _ | g
        · rfl
        · obtain ⟨hg, hkg⟩ := mem_of_find hfound
          exact foldl_pushNew_of_subset (hheld g hg (hmet g hg hkg))
      rw [hsame, takeOver_of_none hget hnone, ← hlength]
      refine takeOver_gather pending (done ++ [key]) ?_ ?_ ⟨extra, by simpa using hshape, ?_⟩
      · rw [forget_concat_of_none hapart hfind]
        exact hfiles
      · intro g hg hmeets
        rw [meets_concat, Bool.or_eq_true, decide_eq_true_eq] at hmeets
        exact hheld g hg (hmeets.elim id (hmet g hg))
      · intro k hk
        obtain ⟨g, hg, hmeets, hkg⟩ := hextra k hk
        exact ⟨g, hg, hmore g hmeets, hkg⟩
    · -- the key reaches a conversation, whose ids join the keys
      obtain ⟨hg, hkg⟩ := mem_of_find hfind
      obtain ⟨hg, -⟩ := List.mem_filter.mp hg
      have hsome : store.get key = some (entryOf g) := by rw [hfiles key, hfind]; rfl
      have hfound := find_of_mem hapart hg hkg
      rw [hfound, takeOver_of_some hget hsome, ← hlength]
      obtain ⟨new, hnew, hnewg⟩ := exists_foldl_pushNew g.keys keys
      refine takeOver_gather pending (done ++ [key]) (files_concat_of_some hapart hfiles hfind) ?_
        ⟨extra ++ new, ?_, ?_⟩
      · intro g' hg' hmeets k hk
        rw [pushKey_eq, mem_foldl_pushNew]
        rw [meets_concat, Bool.or_eq_true, decide_eq_true_eq] at hmeets
        rcases hmeets with hmeets | hkey'
        · exact .inl (hheld g' hg' hmeets k hk)
        · have hsame := (find_of_mem hapart hg' hkey').symm.trans hfound
          exact .inr (Option.some.inj hsame ▸ hk)
      · rw [pushKey_eq]
        show g.keys.foldl pushNew keys = _
        rw [hnew, hshape]
        simp
      · intro k hk
        rcases List.mem_append.mp hk with hk | hk
        · obtain ⟨g', hg', hmeets, hkg'⟩ := hextra k hk
          exact ⟨g', hg', hmore g' hmeets, hkg'⟩
        · refine ⟨g, hg, ?_, hnewg k hk⟩
          rw [meets_concat]
          simp [hkg]

end TakeOver

/-! ## Dropping the oldest -/

theorem nodup_inserted {talks : Cache String Talk}
    (hrecent : talks.Pairwise fun g g' => g'.value.inserted < g.value.inserted) :
    (talks.map fun g => g.value.inserted).Nodup :=
  List.pairwise_map.mpr (hrecent.imp fun h => h.ne')

section Evict

variable {store : ConversationStore} {talks : Cache String Talk}
  (hfiles : Files store talks) (hapart : talks.Pairwise fun g g' => ∀ k ∈ g.keys, k ∉ g'.keys)
  (hreached : ∀ g ∈ talks, g.keys ≠ [])

include hfiles hapart hreached

/-- The values of the store are the entries of the conversations. -/
theorem mem_values_iff {entry : ConversationEntry} :
    entry ∈ store.values ↔ ∃ g ∈ talks, entryOf g = entry := by
  rw [ConversationStore.mem_values]
  constructor
  · rintro ⟨id, h⟩
    rw [hfiles id] at h
    obtain ⟨g, hfind, rfl⟩ := Option.map_eq_some_iff.mp h
    exact ⟨g, (mem_of_find hfind).1, rfl⟩
  · rintro ⟨g, hg, rfl⟩
    obtain ⟨id, hid⟩ := List.exists_mem_of_ne_nil _ (hreached g hg)
    refine ⟨id, ?_⟩
    rw [hfiles id, find_of_mem hapart hg hid]
    rfl

theorem distinctConversations_eq
    (hrecent : talks.Pairwise fun g g' => g'.value.inserted < g.value.inserted) :
    distinctConversations store = talks.length := by
  have hset : (store.values.map ConversationEntry.inserted).toFinset
      = (talks.map fun g => g.value.inserted).toFinset := by
    ext n
    simp only [List.mem_toFinset, List.mem_map, mem_values_iff hfiles hapart hreached]
    constructor
    · rintro ⟨_, ⟨g, hg, rfl⟩, rfl⟩
      exact ⟨g, hg, rfl⟩
    · rintro ⟨g, hg, rfl⟩
      exact ⟨_, ⟨g, hg, rfl⟩, rfl⟩
  unfold distinctConversations
  rw [hset, List.toFinset_card_of_nodup (nodup_inserted hrecent), List.length_map]

end Evict

/-- The entry that is dropped is that of the conversation last spoken in before all others. -/
theorem argmin_oldest {store : ConversationStore} {older : Cache String Talk} {g : Group String Talk}
    (hfiles : Files store (older ++ [g]))
    (hapart : (older ++ [g]).Pairwise fun g g' => ∀ k ∈ g.keys, k ∉ g'.keys)
    (hreached : ∀ g' ∈ older ++ [g], g'.keys ≠ [])
    (hrecent : (older ++ [g]).Pairwise fun g g' => g'.value.inserted < g.value.inserted) :
    store.values.argmin ConversationEntry.inserted = some (entryOf g) := by
  have hvalues := @mem_values_iff store _ hfiles hapart hreached
  have hg : entryOf g ∈ store.values := hvalues.mpr ⟨g, by simp, rfl⟩
  rcases hmin : store.values.argmin ConversationEntry.inserted with _ | oldest
  · rw [List.argmin_eq_none.mp hmin] at hg
    cases hg
  · obtain ⟨g', hg', rfl⟩ := hvalues.mp (List.argmin_mem hmin)
    have hle := List.le_of_mem_argmin hg hmin
    rcases List.mem_append.mp hg' with hg' | hg'
    · have hlt := (List.pairwise_append.mp hrecent).2.2 g' hg' g (by simp)
      exact absurd hle (by show ¬ g'.value.inserted ≤ g.value.inserted; omega)
    · rw [List.mem_singleton.mp hg']

theorem files_dropLast {store : ConversationStore} {older : Cache String Talk}
    {g : Group String Talk} (hfiles : Files store (older ++ [g]))
    (hapart : (older ++ [g]).Pairwise fun g g' => ∀ k ∈ g.keys, k ∉ g'.keys) :
    Files (g.keys.foldl .remove store) older := by
  intro id
  rw [get_foldl_remove, hfiles id]
  by_cases hid : id ∈ g.keys
  · have hnone : find id older = none := by
      rw [find_eq_none]
      intro g' hg' hid'
      exact (List.pairwise_append.mp hapart).2.2 g' hg' g (by simp) id hid' hid
    rw [if_pos hid, hnone]
    rfl
  · rw [if_neg hid]
    unfold find
    rw [List.find?_append]
    simp [hid]

/-- **The loop drops what is past the bound**, the oldest first. -/
theorem evict_eq : ∀ (turns : Nat) {store : ConversationStore} {talks : Cache String Talk},
    Files store talks → (talks.Pairwise fun g g' => ∀ k ∈ g.keys, k ∉ g'.keys) →
    (∀ g ∈ talks, g.keys ≠ []) →
    (talks.Pairwise fun g g' => g'.value.inserted < g.value.inserted) →
    talks.length ≤ MAX_REMEMBERED_CONVERSATIONS + turns →
    Files (evict turns store) (talks.take MAX_REMEMBERED_CONVERSATIONS)
  | 0, store, talks, hfiles, _, _, _, hlength => by
    rw [List.take_of_length_le (by simpa using hlength)]
    exact hfiles
  | turns + 1, store, talks, hfiles, hapart, hreached, hrecent, hlength => by
    unfold evict
    rw [distinctConversations_eq hfiles hapart hreached hrecent]
    by_cases hover : talks.length > MAX_REMEMBERED_CONVERSATIONS
    · rw [if_pos hover]
      rcases List.eq_nil_or_concat' talks with rfl | ⟨older, g, rfl⟩
      · simp at hover
      · have holder : MAX_REMEMBERED_CONVERSATIONS ≤ older.length := by
          simp only [List.length_append, List.length_singleton] at hover
          omega
        rw [argmin_oldest hfiles hapart hreached hrecent, List.take_append_of_le_length holder]
        refine evict_eq turns (files_dropLast hfiles hapart) (List.pairwise_append.mp hapart).1
          (fun g' hg' => hreached g' (by simp [hg'])) (List.pairwise_append.mp hrecent).1 ?_
        simp only [List.length_append, List.length_singleton] at hlength
        omega
    · rw [if_neg hover, List.take_of_length_le (by omega)]
      exact hfiles

theorem length_le_size {store : ConversationStore} {talks : Cache String Talk}
    (hfiles : Files store talks) (hapart : talks.Pairwise fun g g' => ∀ k ∈ g.keys, k ∉ g'.keys)
    (hreached : ∀ g ∈ talks, g.keys ≠ [])
    (hrecent : talks.Pairwise fun g g' => g'.value.inserted < g.value.inserted) :
    talks.length ≤ store.size := by
  rw [← distinctConversations_eq hfiles hapart hreached hrecent]
  unfold distinctConversations
  refine (List.toFinset_card_le _).trans ?_
  simp [ConversationStore.values, ConversationStore.size]

/-! ## A turn -/

/-- The store of a client is that of some conversations. -/
structure Represents (s : Conversations) (m : Memory) : Prop where
  files : Files s.store m.talks
  sequence : s.sequence = m.sequence
  grouped : Grouped MAX_CONVERSATION_ALIASES MAX_REMEMBERED_CONVERSATIONS m.talks
  inOrder : InOrder m.talks m.sequence

theorem represents_new : Represents {} {} where
  files := fun _ => rfl
  sequence := rfl
  grouped := .nil _ _
  inOrder := ⟨.nil, by simp, by simp⟩

theorem InOrder.forget {talks : Cache String Talk} {sequence : Nat} (h : InOrder talks sequence)
    (ids : List String) : InOrder (forget ids talks) sequence where
  recent := h.recent.filter _
  past := fun g hg => h.past g (List.mem_filter.mp hg).1
  kept := fun g hg => h.kept g (List.mem_filter.mp hg).1

theorem InOrder.remember {talks : Cache String Talk} {sequence : Nat} (h : InOrder talks sequence)
    {turn : Turn} (hkept : turn.kept ≠ []) (keys : List String) :
    InOrder ({ keys := keys, value := { inserted := sequence, turn := turn } } :: talks)
      (sequence + 1) where
  recent := List.pairwise_cons.mpr ⟨h.past, h.recent⟩
  past := by
    intro g hg
    rcases List.mem_cons.mp hg with rfl | hg
    · exact Nat.lt_succ_self _
    · exact Nat.lt_succ_of_lt (h.past g hg)
  kept := by
    intro g hg
    rcases List.mem_cons.mp hg with rfl | hg
    · exact hkept
    · exact h.kept g hg

theorem InOrder.take {talks : Cache String Talk} {sequence : Nat} (h : InOrder talks sequence)
    (n : Nat) : InOrder (talks.take n) sequence where
  recent := h.recent.sublist (List.take_sublist _ _)
  past := fun g hg => h.past g (List.mem_of_mem_take hg)
  kept := fun g hg => h.kept g (List.mem_of_mem_take hg)

/-- Filing a conversation puts it in front. -/
theorem files_insert {store : ConversationStore} {talks : Cache String Talk}
    (hfiles : Files store talks) (g : Group String Talk) :
    Files (g.keys.foldl (fun store key => store.insert key (entryOf g)) store) (g :: talks) := by
  intro id
  rw [get_foldl_insert, find_cons, hfiles id]
  by_cases h : id ∈ g.keys <;> simp [h]

/-- **A turn does to the map what it does to the conversations.** -/
theorem Represents.after {s : Conversations} {m : Memory} (h : Represents s m) (turn : Turn) :
    Represents (rememberConversation turn.ids turn.context s) (m.after turn) := by
  have hapart := h.grouped.apart
  unfold rememberConversation Memory.after
  rw [show turn.ids.foldl pushKey [] = distinct turn.ids from rfl]
  by_cases hids : turn.ids = []
  · simp only [if_pos hids, if_pos (distinct_eq_nil.mpr hids)]
    exact h
  have hkeys : ¬ distinct turn.ids = [] := mt distinct_eq_nil.mp hids
  obtain ⟨store', htake, hfiles⟩ := @takeOver_gather m.talks hapart (distinct turn.ids) []
    (distinct turn.ids) s.store (by simpa using h.files) (by simp) ⟨[], by simp, by simp⟩
  rw [List.nil_append, forget_distinct] at hfiles
  rw [show gather m.talks (distinct turn.ids) (distinct turn.ids) = joined turn.ids m.talks from rfl]
    at htake
  simp only [if_neg hids, if_neg hkeys, List.length_nil] at htake ⊢
  rw [htake]
  dsimp only
  rw [show keptFields turn.context = turn.kept from rfl]
  -- what the ids reach is forgotten either way, and filed anew where something is kept
  by_cases hkept : turn.kept = []
  · simp only [if_pos hkept]
    refine ⟨?_, h.sequence, h.grouped.forget _, h.inOrder.forget _⟩
    intro id
    dsimp only
    rw [get_foldl_remove, hfiles id]
    by_cases hid : id ∈ joined turn.ids m.talks
    · rw [if_pos hid, find_eq_none.mpr (joined_apart hapart hid)]
      rfl
    · rw [if_neg hid]
  · simp only [if_neg hkept]
    have hgrouped := grouped_joined h.grouped (by decide) hids
      ({ inserted := m.sequence, turn := turn } : Talk)
    have horder := (h.inOrder.forget turn.ids).remember hkept
      ((joined turn.ids m.talks).take MAX_CONVERSATION_ALIASES)
    have hfiled := files_insert hfiles {
      keys := (joined turn.ids m.talks).take MAX_CONVERSATION_ALIASES
      value := { inserted := m.sequence, turn := turn } }
    have hlength := length_le_size hfiled hgrouped.apart hgrouped.reached horder.recent
    refine ⟨?_, congrArg (· + 1) h.sequence, hgrouped.take _, horder.take _⟩
    -- the one over the bound, if there is one, is the last in order
    have hevict := evict_eq _ hfiled hgrouped.apart hgrouped.reached horder.recent
      (hlength.trans (Nat.le_add_left _ _))
    rw [h.sequence]
    exact hevict

end Thalovant.Client
