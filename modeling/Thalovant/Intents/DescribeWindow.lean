import Mathlib.Data.List.Nodup
import Thalovant.Intents.DescribeMany

/-!
# What a describe window finds

Each of its own registrations at most once, by the first reply for it (`DescribeWindow.Good`). The
windows of a call are the registrations wanted, cut in pieces.
-/

namespace Thalovant.Intents

/-! ## Lists -/

theorem uniqueOf_fold (wanted unique : List Wanted) (h : unique.Nodup) :
    let result := wanted.foldl (fun unique key => if unique.contains key then unique else unique ++ [key])
      unique
    result.Nodup ∧ ∀ key, key ∈ result ↔ key ∈ unique ∨ key ∈ wanted := by
  induction wanted generalizing unique with
  | nil => exact ⟨h, by simp⟩
  | cons k wanted ih =>
    simp only [List.foldl_cons]
    by_cases hk : unique.contains k = true
    · have hmem : k ∈ unique := by simpa using hk
      rw [if_pos hk]
      refine ⟨(ih unique h).1, fun key => ((ih unique h).2 key).trans ?_⟩
      constructor
      · rintro (hkey | hkey)
        · exact .inl hkey
        · exact .inr (List.mem_cons_of_mem k hkey)
      · rintro (hkey | hkey)
        · exact .inl hkey
        · rcases List.mem_cons.mp hkey with rfl | hkey
          · exact .inl hmem
          · exact .inr hkey
    · have hmem : k ∉ unique := by simpa using hk
      have hnodup : (unique ++ [k]).Nodup := by
        simpa [List.nodup_append, h] using fun a ha (hak : a = k) => hmem (hak ▸ ha)
      rw [if_neg hk]
      refine ⟨(ih _ hnodup).1, fun key => ((ih _ hnodup).2 key).trans ?_⟩
      simp [or_assoc]

theorem nodup_uniqueOf (wanted : List Wanted) : (uniqueOf wanted).Nodup :=
  (uniqueOf_fold wanted [] .nil).1

theorem mem_uniqueOf {wanted : List Wanted} {key : Wanted} : key ∈ uniqueOf wanted ↔ key ∈ wanted := by
  refine ((uniqueOf_fold wanted [] .nil).2 key).trans ?_
  rw [or_iff_right List.not_mem_nil]

/-- Chunks put together are the list, and none is empty or too long. -/
theorem chunks_spec {α : Type} {n : Nat} (hn : 0 < n) : ∀ (fuel : Nat) (xs : List α), xs.length ≤ fuel →
    (chunks n fuel xs).flatten = xs ∧ ∀ chunk ∈ chunks n fuel xs, chunk ≠ [] ∧ chunk.length ≤ n
  | _, [], _ => by simp [chunks]
  | 0, _ :: _, h => by simp at h
  | fuel + 1, x :: xs, h => by
    have hlength : ((x :: xs).drop n).length ≤ fuel := by
      simp only [List.length_drop, List.length_cons] at h ⊢
      omega
    obtain ⟨hflatten, hchunk⟩ := chunks_spec hn fuel ((x :: xs).drop n) hlength
    constructor
    · rw [chunks, List.flatten_cons, hflatten, List.take_append_drop]
    · intro chunk hmem
      rw [chunks] at hmem
      rcases List.mem_cons.mp hmem with rfl | hmem
      · refine ⟨?_, List.length_take_le n _⟩
        simp [Nat.pos_iff_ne_zero.mp hn]
      · exact hchunk chunk hmem

/-! ## What was found -/

namespace Described

theorem has_iff {found : Described} {key : Wanted} : found.has key = true ↔ key ∈ found.map Prod.fst := by
  simp [has]

/-- What has other keys is added. -/
theorem extend_eq_append {found other : Described}
    (h : ∀ key ∈ other.map Prod.fst, key ∉ found.map Prod.fst) : found.extend other = found ++ other := by
  have hkeep : ∀ entry ∈ found, (!Described.has other entry.1) = true := by
    intro entry hentry
    rw [Bool.not_eq_true', Bool.eq_false_iff, ne_eq, has_iff]
    exact fun hkey => h entry.1 hkey (List.mem_map_of_mem hentry)
  rw [extend, List.filter_eq_self.mpr hkeep]

end Described

/-! ## Windows -/

namespace DescribeWindow

/-- The first reply that the window heard for a registration. -/
def firstReply (lowercase : String → String) (window : DescribeWindow) (key : Wanted) : Option Event :=
  window.heard.find? fun event => window.replyKey lowercase event = some key

/-- A first reply that the window heard says something. -/
def heardUsable (lowercase : String → String) (window : DescribeWindow) : Bool :=
  window.unique.any fun key =>
    (window.firstReply lowercase key).any fun event => !(definitionsOf event).isEmpty

/-- What a window has found, each of its own registrations once, by the first reply for it. -/
structure Good (lowercase : String → String) (window : DescribeWindow) : Prop where
  nodup : (window.found.map Prod.fst).Nodup
  own : ∀ key ∈ window.found.map Prod.fst, key ∈ window.unique
  first : ∀ entry ∈ window.found, ∃ event,
    window.firstReply lowercase entry.1 = some event ∧ entry.2 = definitionsOf event
  /-- What is not found was not heard of. -/
  missing : ∀ key, window.found.has key = false → window.firstReply lowercase key = none
  byRequest : ∀ pair ∈ window.byRequest, pair.2 ∈ window.unique

variable {lowercase : String → String} {window : DescribeWindow}

theorem keyOf_mem {event : Event} {key : Wanted}
    (hown : ∀ pair ∈ window.byRequest, pair.2 ∈ window.unique)
    (h : window.keyOf lowercase event = some key) : key ∈ window.unique := by
  unfold keyOf at h
  split at h
  · next requestId _ =>
    obtain ⟨before, after, hsplit, -⟩ := List.lookup_eq_some_iff.mp h
    refine hown (requestId, key) ?_
    rw [hsplit]
    exact List.mem_append_right _ List.mem_cons_self
  · obtain ⟨first, -, hfind⟩ := Option.bind_eq_some_iff.mp h
    exact List.mem_of_find?_eq_some hfind

/-- A window is full if each of its registrations is answered. -/
theorem full_iff (hunique : window.unique.Nodup) (hgood : window.Good lowercase) :
    window.full = true ↔ ∀ key ∈ window.unique, window.found.has key = true := by
  rw [full, decide_eq_true_eq]
  have hle : window.found.length ≤ window.unique.length := by
    have hkeys := (List.subperm_of_subset hgood.nodup hgood.own).length_le
    rwa [List.length_map] at hkeys
  constructor
  · intro hlength key hkey
    rw [Described.has_iff]
    have hperm : (window.found.map Prod.fst).Perm window.unique :=
      (List.subperm_of_subset hgood.nodup hgood.own).perm_of_length_le (by simp [hlength])
    exact hperm.mem_iff.mpr hkey
  · intro hall
    have hge : window.unique.length ≤ (window.found.map Prod.fst).length :=
      (List.subperm_of_subset hunique fun key hkey => Described.has_iff.mp (hall key hkey)).length_le
    rw [List.length_map] at hge
    omega

theorem good_of_unique (unique : List Wanted) :
    ({ unique := unique } : DescribeWindow).Good lowercase where
  nodup := .nil
  own := by simp
  first := by simp
  missing := by simp [firstReply]
  byRequest := by simp

theorem Good.send (h : window.Good lowercase) (hheard : window.heard = []) {key : Wanted}
    (hkey : key ∈ window.unique) (requestId : String) :
    ({ window with byRequest := (requestId, key) :: window.byRequest } : DescribeWindow).Good
      lowercase where
  nodup := h.nodup
  own := h.own
  first := by
    intro entry hentry
    obtain ⟨event, hevent, -⟩ := h.first entry hentry
    simp [firstReply, hheard] at hevent
  missing := by simp [firstReply, hheard]
  byRequest := by
    intro pair hpair
    rcases List.mem_cons.mp hpair with rfl | hpair
    · exact hkey
    · exact h.byRequest pair hpair

/-- One event more: the first reply for a registration stays, if there was one. -/
theorem firstReply_heard (window : DescribeWindow) (event : Event) (found : Described) (key : Wanted) :
    ({ window with heard := window.heard ++ [event], found := found } : DescribeWindow).firstReply
        lowercase key
      = (window.firstReply lowercase key).or
        (if window.replyKey lowercase event = some key then some event else none) := by
  unfold firstReply
  rw [List.find?_append]
  congr 1
  by_cases hreply : window.replyKey lowercase event = some key
  · rw [if_pos hreply]
    exact List.find?_cons_of_pos (decide_eq_true hreply)
  · rw [if_neg hreply]
    exact List.find?_cons_of_neg (mt of_decide_eq_true hreply)

/-- An event that is no first reply changes nothing that was found. -/
theorem Good.heard (h : window.Good lowercase) {event : Event}
    (hevent : ∀ key, window.replyKey lowercase event = some key → window.found.has key = true) :
    ({ window with heard := window.heard ++ [event] } : DescribeWindow).Good lowercase where
  nodup := h.nodup
  own := h.own
  first := by
    intro entry hentry
    obtain ⟨reply, hreply, hdefinitions⟩ := h.first entry hentry
    refine ⟨reply, ?_, hdefinitions⟩
    rw [firstReply_heard window event window.found, hreply]
    rfl
  missing := by
    intro key hkey
    rw [firstReply_heard window event window.found, h.missing key hkey, Option.none_or]
    refine if_neg fun hreply => ?_
    rw [hevent key hreply] at hkey
    cases hkey
  byRequest := h.byRequest

/-- A first reply is kept. -/
theorem Good.accepted (h : window.Good lowercase) {event : Event} {key : Wanted}
    (hreply : window.replyKey lowercase event = some key) (hkey : window.found.has key = false) :
    ({ window with heard := window.heard ++ [event],
                   found := window.found ++ [(key, definitionsOf event)] } : DescribeWindow).Good
      lowercase where
  nodup := by
    -- the key was missing until now
    have hnot : key ∉ window.found.map Prod.fst := by
      rw [← Described.has_iff, hkey]
      simp
    simp only [List.map_append, List.map_cons, List.map_nil]
    rw [List.nodup_append]
    refine ⟨h.nodup, List.nodup_singleton key, ?_⟩
    rintro a ha b hb rfl
    exact hnot (List.mem_singleton.mp hb ▸ ha)
  own := by
    intro other hother
    simp only [List.map_append, List.map_cons, List.map_nil, List.mem_append,
      List.mem_singleton] at hother
    rcases hother with hother | rfl
    · exact h.own other hother
    · unfold replyKey at hreply
      split at hreply
      · cases hreply
      · exact keyOf_mem h.byRequest hreply
  first := by
    intro entry hentry
    rw [firstReply_heard window event]
    rcases List.mem_append.mp hentry with hentry | hentry
    · obtain ⟨reply, hfirst, hdefinitions⟩ := h.first entry hentry
      exact ⟨reply, by rw [hfirst]; rfl, hdefinitions⟩
    · rw [List.mem_singleton.mp hentry, h.missing key hkey]
      exact ⟨event, by rw [Option.none_or, if_pos hreply], rfl⟩
  missing := by
    intro other hother
    have hparts : window.found.has other = false ∧ key ≠ other := by
      simpa [Described.has] using hother
    rw [firstReply_heard window event, h.missing other hparts.1, Option.none_or]
    refine if_neg fun hreply' => hparts.2 ?_
    exact Option.some.inj (hreply.symm.trans hreply')
  byRequest := h.byRequest

/-- What is found is what was heard of. -/
theorem Good.has_eq (h : window.Good lowercase) (key : Wanted) :
    window.found.has key = (window.firstReply lowercase key).isSome := by
  cases hhas : window.found.has key with
  | false => rw [h.missing key hhas, Option.isSome_none]
  | true =>
    obtain ⟨entry, hentry, rfl⟩ := List.mem_map.mp (Described.has_iff.mp hhas)
    obtain ⟨event, hevent, -⟩ := h.first entry hentry
    rw [hevent, Option.isSome_some]

/-- What is found for a registration is what the first reply for it says. -/
theorem Good.mem_found_iff (h : window.Good lowercase) {key : Wanted}
    {definitions : List IntentDefinition} :
    (key, definitions) ∈ window.found ↔
      ∃ event, window.firstReply lowercase key = some event ∧ definitions = definitionsOf event := by
  constructor
  · exact fun hmem => h.first (key, definitions) hmem
  · rintro ⟨event, hevent, rfl⟩
    have hhas : window.found.has key = true := by rw [h.has_eq, hevent, Option.isSome_some]
    obtain ⟨⟨_, found⟩, hentry, rfl⟩ := List.mem_map.mp (Described.has_iff.mp hhas)
    obtain ⟨event', hevent', hfound⟩ := h.first _ hentry
    cases hevent.symm.trans hevent'
    cases hfound
    exact hentry

/-- Something usable is found if a first reply says something. -/
theorem Good.usable_eq (h : window.Good lowercase) :
    window.found.usable = window.heardUsable lowercase := by
  rw [Bool.eq_iff_iff, Described.usable, heardUsable, List.any_eq_true, List.any_eq_true]
  constructor
  · rintro ⟨⟨key, definitions⟩, hentry, husable⟩
    obtain ⟨event, hevent, rfl⟩ := h.mem_found_iff.mp hentry
    exact ⟨key, h.own key (List.mem_map_of_mem hentry), by rw [hevent]; exact husable⟩
  · rintro ⟨key, -, husable⟩
    rw [Option.any_eq_true] at husable
    obtain ⟨event, hevent, husable⟩ := husable
    exact ⟨_, h.mem_found_iff.mpr ⟨event, hevent, rfl⟩, husable⟩

variable (lowercase) in
/-- What reading an event does to a window. -/
theorem accept_cases (window : DescribeWindow) (event : Event) :
    (window.accept lowercase event = none ∧
      ∀ key, window.replyKey lowercase event = some key → window.found.has key = true) ∨
    ∃ key, window.replyKey lowercase event = some key ∧ window.found.has key = false ∧
      window.accept lowercase event
        = some { window with found := window.found ++ [(key, definitionsOf event)] } := by
  unfold accept
  cases hreply : window.replyKey lowercase event with
  | none => exact .inl ⟨rfl, nofun⟩
  | some key =>
    cases hhas : window.found.has key with
    | true =>
      refine .inl ⟨by simp [hhas], ?_⟩
      rintro _ ⟨⟩
      exact hhas
    | false => exact .inr ⟨key, rfl, hhas, by simp [hhas]⟩

end DescribeWindow

end Thalovant.Intents
