import Mathlib.Data.String.Basic
import Mathlib.Data.List.Lookmap
import Mathlib.Data.List.Perm.Basic
import Mathlib.Data.List.Sort

/-!
# Ordered maps as sorted association lists

A map ordered by its keys, as the standard library's ordered maps are: one entry for each key, the
entries in the order of the keys. `insert` replaces the value of a key that is there, and `ofList`
collects a list of entries, of which the last one for a key stays.

The entries are a plain list, so that the map may be nested in an inductive type. What makes the list
a map is `Sorted`, which every operation keeps.
-/

namespace SortedMap

variable {κ α β : Type} [LinearOrder κ]

/-! ## Operations -/

/-- Put a value under a key, in the place the order gives it. -/
def insert (k : κ) (a : α) : List (κ × α) → List (κ × α)
  | [] => [(k, a)]
  | e :: es =>
    if k < e.1 then (k, a) :: e :: es
    else if k = e.1 then (k, a) :: es
    else e :: insert k a es

/-- Collect entries one after the other: the last value given for a key is kept. -/
def ofList (es : List (κ × α)) : List (κ × α) :=
  es.foldl (fun m e => insert e.1 e.2 m) []

/-- The value under a key. -/
def get (k : κ) : List (κ × α) → Option α
  | [] => none
  | e :: es => if k = e.1 then some e.2 else get k es

/-- The map without a key. -/
def erase (k : κ) (es : List (κ × α)) : List (κ × α) :=
  es.filter (fun e => e.1 ≠ k)

/-- The keys increase: there is one entry a key, and its place is fixed. -/
def Sorted (es : List (κ × α)) : Prop := es.Pairwise (fun e f => e.1 < f.1)

/-! ## `get` -/

@[simp] theorem get_nil (k : κ) : get k ([] : List (κ × α)) = none := rfl

theorem get_cons (k : κ) (e : κ × α) (es : List (κ × α)) :
    get k (e :: es) = if k = e.1 then some e.2 else get k es := rfl

theorem get_eq_none_iff {k : κ} {es : List (κ × α)} :
    get k es = none ↔ ∀ e ∈ es, e.1 ≠ k := by
  induction es with
  | nil => simp
  | cons e es ih =>
    rw [get_cons]
    split
    · next h => simp [h]
    · next h => simp [ih, Ne.symm h]

theorem mem_of_get_eq_some {k : κ} {a : α} {es : List (κ × α)} (h : get k es = some a) :
    (k, a) ∈ es := by
  induction es with
  | nil => simp at h
  | cons e es ih =>
    rw [get_cons] at h
    split at h
    · next hk =>
      cases h
      exact hk ▸ List.mem_cons_self
    · exact List.mem_cons_of_mem _ (ih h)

@[simp] theorem get_insert_self (k : κ) (a : α) (es : List (κ × α)) :
    get k (insert k a es) = some a := by
  induction es with
  | nil => simp [insert, get]
  | cons e es ih =>
    rw [insert]
    split
    · simp [get_cons]
    · split
      · simp [get_cons]
      · next hne => rw [get_cons, if_neg hne, ih]

theorem get_insert_of_ne {k j : κ} (h : j ≠ k) (a : α) (es : List (κ × α)) :
    get j (insert k a es) = get j es := by
  induction es with
  | nil => simp [insert, get, h]
  | cons e es ih =>
    rw [insert]
    split
    · rw [get_cons, if_neg h]
    · split
      · next hk => rw [get_cons, if_neg h, get_cons, if_neg (hk ▸ h)]
      · rw [get_cons, get_cons, ih]

theorem get_insert (j k : κ) (a : α) (es : List (κ × α)) :
    get j (insert k a es) = if j = k then some a else get j es := by
  split
  · next h => rw [h, get_insert_self]
  · next h => exact get_insert_of_ne h a es

theorem get_erase (j k : κ) (es : List (κ × α)) :
    get j (erase k es) = if j = k then none else get j es := by
  induction es with
  | nil => simp [erase]
  | cons e es ih =>
    unfold erase at ih ⊢
    rw [List.filter_cons]
    by_cases he : e.1 = k
    · rw [if_neg (by simpa using he), ih, get_cons]
      split
      · rfl
      · next hj => rw [if_neg (fun h => hj (h.trans he))]
    · rw [if_pos (by simpa using he), get_cons, get_cons, ih]
      by_cases hj : j = e.1
      · rw [if_pos hj, if_pos hj, if_neg (hj ▸ he)]
      · rw [if_neg hj, if_neg hj]

/-! ## The order is kept -/

theorem mem_insert {k : κ} {a : α} {es : List (κ × α)} {e : κ × α} (h : e ∈ insert k a es) :
    e = (k, a) ∨ e ∈ es := by
  induction es with
  | nil => simpa [insert] using h
  | cons f es ih =>
    rw [insert] at h
    split at h
    · simpa using h
    · split at h
      · rcases List.mem_cons.mp h with h | h
        · exact Or.inl h
        · exact Or.inr (List.mem_cons_of_mem _ h)
      · rcases List.mem_cons.mp h with h | h
        · exact Or.inr (h ▸ List.mem_cons_self)
        · exact (ih h).imp id (List.mem_cons_of_mem _)

theorem Sorted.nil : Sorted ([] : List (κ × α)) := List.Pairwise.nil

theorem Sorted.insert {es : List (κ × α)} (h : Sorted es) (k : κ) (a : α) :
    Sorted (insert k a es) := by
  induction es with
  | nil => exact List.pairwise_singleton _ _
  | cons e es ih =>
    obtain ⟨hlt, hes⟩ := List.pairwise_cons.mp h
    rw [SortedMap.insert]
    split
    · next hk =>
      refine List.pairwise_cons.mpr ⟨fun f hf => ?_, h⟩
      rcases List.mem_cons.mp hf with hf | hf
      · exact hf ▸ hk
      · exact lt_trans hk (hlt f hf)
    · split
      · next hk => exact List.pairwise_cons.mpr ⟨fun f hf => hk ▸ hlt f hf, hes⟩
      · next hnlt hne =>
        refine List.pairwise_cons.mpr ⟨fun f hf => ?_, ih hes⟩
        rcases mem_insert hf with hf | hf
        · exact hf ▸ lt_of_le_of_ne (not_lt.mp hnlt) (Ne.symm hne)
        · exact hlt f hf

theorem Sorted.erase {es : List (κ × α)} (h : Sorted es) (k : κ) : Sorted (erase k es) :=
  List.Pairwise.sublist List.filter_sublist h

theorem sorted_foldl_insert (es : List (κ × α)) : ∀ {m : List (κ × α)}, Sorted m →
    Sorted (es.foldl (fun m e => insert e.1 e.2 m) m) := by
  induction es with
  | nil => exact id
  | cons e es ih => exact fun h => ih (h.insert e.1 e.2)

theorem sorted_ofList (es : List (κ × α)) : Sorted (ofList es) :=
  sorted_foldl_insert es Sorted.nil

theorem Sorted.nodup_keys {es : List (κ × α)} (h : Sorted es) : (es.map Prod.fst).Nodup :=
  List.pairwise_map.mpr (h.imp ne_of_lt)

/-! ## Collecting entries with different keys -/

/-- Every entry is the one its key gives. -/
theorem Sorted.get_eq_some_iff {k : κ} {a : α} : ∀ {es : List (κ × α)}, Sorted es →
    (get k es = some a ↔ (k, a) ∈ es)
  | [], _ => by simp
  | e :: es, h => by
    obtain ⟨hlt, hes⟩ := List.pairwise_cons.mp h
    refine ⟨mem_of_get_eq_some, fun hmem => ?_⟩
    rw [get_cons]
    rcases List.mem_cons.mp hmem with rfl | hmem
    · rw [if_pos rfl]
    · rw [if_neg (hlt (k, a) hmem).ne', Sorted.get_eq_some_iff hes]
      exact hmem

theorem insert_perm {k : κ} {a : α} {es : List (κ × α)} (h : k ∉ es.map Prod.fst) :
    (insert k a es).Perm ((k, a) :: es) := by
  induction es with
  | nil => exact List.Perm.refl _
  | cons e es ih =>
    have hne : k ≠ e.1 := fun hk => h (by simp [hk])
    have hes : k ∉ es.map Prod.fst := fun hk => h (List.mem_cons_of_mem _ hk)
    rw [insert]
    split
    · exact List.Perm.refl _
    · exact ((ih hes).cons e).trans (List.Perm.swap _ _ _)

theorem foldl_insert_perm (es : List (κ × α)) : ∀ m : List (κ × α),
    ((es ++ m).map Prod.fst).Nodup →
    (es.foldl (fun m e => insert e.1 e.2 m) m).Perm (es ++ m) := by
  induction es with
  | nil => exact fun m _ => List.Perm.refl m
  | cons e es ih =>
    intro m h
    rw [List.cons_append, List.map_cons, List.nodup_cons] at h
    have hm : e.1 ∉ m.map Prod.fst := fun hk => h.1 (by
      rw [List.map_append]; exact List.mem_append_right _ hk)
    have hperm : (es ++ insert e.1 e.2 m).Perm (e :: (es ++ m)) :=
      ((insert_perm hm).append_left es).trans List.perm_middle
    have hnd : ((es ++ insert e.1 e.2 m).map Prod.fst).Nodup :=
      (hperm.map Prod.fst).nodup_iff.mpr (List.nodup_cons.mpr h)
    exact (ih _ hnd).trans hperm

/-- Entries whose keys differ are all kept. -/
theorem ofList_perm {es : List (κ × α)} (h : (es.map Prod.fst).Nodup) : (ofList es).Perm es := by
  have := foldl_insert_perm es [] (by simpa using h)
  rwa [List.append_nil] at this

/-- Two sorted lists with the same entries are equal. -/
theorem Sorted.eq_of_perm {es fs : List (κ × α)} (hes : Sorted es) (hfs : Sorted fs)
    (h : es.Perm fs) : es = fs :=
  h.eq_of_pairwise (fun _ _ _ _ hlt hgt => absurd hgt (lt_asymm hlt)) hes hfs

/-- **The order in which entries with different keys are given does not matter.** -/
theorem ofList_eq_of_perm {es fs : List (κ × α)} (hp : es.Perm fs)
    (h : (es.map Prod.fst).Nodup) : ofList es = ofList fs := by
  have hfs : (fs.map Prod.fst).Nodup := (hp.map Prod.fst).nodup_iff.mp h
  exact (sorted_ofList es).eq_of_perm (sorted_ofList fs)
    ((ofList_perm h).trans (hp.trans (ofList_perm hfs).symm))

/-- Collecting a map again changes nothing. -/
theorem Sorted.ofList_eq {es : List (κ × α)} (h : Sorted es) : ofList es = es :=
  (sorted_ofList es).eq_of_perm h (ofList_perm h.nodup_keys)

/-- **Sorted maps that give the same under every key are equal.** -/
theorem Sorted.ext {es fs : List (κ × α)} (hes : Sorted es) (hfs : Sorted fs)
    (h : ∀ k, get k es = get k fs) : es = fs := by
  refine hes.eq_of_perm hfs ((List.perm_ext_iff_of_nodup ?_ ?_).mpr fun e => ?_)
  · exact List.Nodup.of_map _ hes.nodup_keys
  · exact List.Nodup.of_map _ hfs.nodup_keys
  · rw [← hes.get_eq_some_iff, ← hfs.get_eq_some_iff, h]

/-! ## Changing the values -/

theorem insert_map (f : α → β) (k : κ) (a : α) (es : List (κ × α)) :
    insert k (f a) (es.map (Prod.map id f)) = (insert k a es).map (Prod.map id f) := by
  induction es with
  | nil => rfl
  | cons e es ih =>
    rw [List.map_cons, insert, insert]
    simp only [Prod.map_fst, id_eq]
    split
    · rfl
    · split
      · rfl
      · rw [ih]; rfl

theorem foldl_insert_map (f : α → β) (es : List (κ × α)) : ∀ m : List (κ × α),
    (es.map (Prod.map id f)).foldl (fun m e => insert e.1 e.2 m) (m.map (Prod.map id f))
      = (es.foldl (fun m e => insert e.1 e.2 m) m).map (Prod.map id f) := by
  induction es with
  | nil => exact fun _ => rfl
  | cons e es ih =>
    intro m
    rw [List.map_cons, List.foldl_cons, List.foldl_cons, ← ih]
    congr 1
    exact insert_map f e.1 e.2 m

/-- The values may be changed before or after collecting. -/
theorem ofList_map (f : α → β) (es : List (κ × α)) :
    ofList (es.map (Prod.map id f)) = (ofList es).map (Prod.map id f) :=
  foldl_insert_map f es []

/-! ## Lists under keys -/

/-- Put one more item at the end of the list under a key. -/
def push (k : κ) (a : α) (es : List (κ × List α)) : List (κ × List α) :=
  insert k ((get k es).getD [] ++ [a]) es

theorem Sorted.push {es : List (κ × List α)} (h : Sorted es) (k : κ) (a : α) :
    Sorted (push k a es) := h.insert k _

/-- The items are those that were there and the new one. -/
theorem Sorted.mem_push {es : List (κ × List α)} (h : Sorted es) (k : κ) (a b : α) :
    (∃ e ∈ SortedMap.push k a es, b ∈ e.2) ↔ (∃ e ∈ es, b ∈ e.2) ∨ b = a := by
  have hget : ∀ {fs : List (κ × List α)}, Sorted fs →
      ((∃ e ∈ fs, b ∈ e.2) ↔ ∃ j l, get j fs = some l ∧ b ∈ l) := by
    intro fs hfs
    constructor
    · rintro ⟨⟨j, l⟩, hmem, hb⟩
      exact ⟨j, l, hfs.get_eq_some_iff.mpr hmem, hb⟩
    · rintro ⟨j, l, hjl, hb⟩
      exact ⟨(j, l), hfs.get_eq_some_iff.mp hjl, hb⟩
  rw [hget (h.push k a), hget h]
  unfold SortedMap.push
  constructor
  · rintro ⟨j, l, hjl, hb⟩
    rw [get_insert] at hjl
    split at hjl
    · cases hjl
      rcases List.mem_append.mp hb with hb | hb
      · cases hk : get k es with
        | none => simp [hk] at hb
        | some l => exact .inl ⟨k, l, hk, by simpa [hk] using hb⟩
      · exact .inr (List.mem_singleton.mp hb)
    · exact .inl ⟨j, l, hjl, hb⟩
  · rintro (⟨j, l, hjl, hb⟩ | rfl)
    · by_cases hjk : j = k
      · subst hjk
        exact ⟨j, _, get_insert_self j _ es, by simp [hjl, hb]⟩
      · exact ⟨j, l, by rw [get_insert_of_ne hjk, hjl], hb⟩
    · exact ⟨k, _, get_insert_self k _ es, by simp⟩

end SortedMap
