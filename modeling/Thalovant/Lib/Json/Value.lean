import Thalovant.Lib.SortedMap

/-!
# JSON values

A JSON value over an arbitrary type of numbers. An object is the list of its entries as they were
inserted: whether a program's maps keep that order or sort it, the value meant is the same.

* `WellFormed`: no object gives a key twice, at any depth
* `Reordered`: the same value with the entries of some objects in another order
* `sortKeys`: the value with every object's entries in the order of their keys

`Reordered` is the equality that matters; `sortKeys` picks one value of each class
(`reordered_iff_sortKeys`).
-/

namespace Json

/-- A JSON value. -/
inductive Value (N : Type) where
  | null
  | bool (b : Bool)
  | number (n : N)
  | string (s : String)
  | array (items : List (Value N))
  | object (entries : List (String × Value N))
  deriving Inhabited

/-- The entries of an object. -/
abbrev Entries (N : Type) := List (String × Value N)

variable {N : Type}

namespace Value

/-! ## Induction

An array's items and an object's values are reached through a list. The principle hides that: the
hypothesis is about every item, and every value of an entry.
-/

theorem inductOn {P : Value N → Prop} (null : P .null) (bool : ∀ b, P (.bool b))
    (number : ∀ n, P (.number n)) (string : ∀ s, P (.string s))
    (array : ∀ items, (∀ v ∈ items, P v) → P (.array items))
    (object : ∀ entries : Entries N, (∀ e ∈ entries, P e.2) → P (.object entries))
    (v : Value N) : P v :=
  @Value.rec N P (fun items => ∀ v ∈ items, P v) (fun entries => ∀ e ∈ entries, P e.2)
    (fun e => P e.2) null bool number string array object
    (fun _ h => nomatch h) (fun _ _ hv hitems => List.forall_mem_cons.mpr ⟨hv, hitems⟩)
    (fun _ h => nomatch h) (fun _ _ he hentries => List.forall_mem_cons.mpr ⟨he, hentries⟩)
    (fun _ _ hv => hv) v

attribute [elab_as_elim, induction_eliminator] inductOn

/-! ## Reading -/

/-- The text of a string. -/
def asStr : Value N → Option String
  | .string s => some s
  | _ => none

/-- The entries of an object. -/
def asObject : Value N → Option (Entries N)
  | .object entries => some entries
  | _ => none

/-- The items of an array. -/
def asArray : Value N → Option (List (Value N))
  | .array items => some items
  | _ => none

def isNull : Value N → Bool
  | .null => true
  | _ => false

/-! ## Equality -/

section

variable [DecidableEq N]

mutual

/-- The values are the same, with their entries in the same order. -/
def same : Value N → Value N → Bool
  | null, null => true
  | bool b, bool c => b = c
  | number n, number m => n = m
  | string s, string t => s = t
  | array items, array items' => sameItems items items'
  | object entries, object entries' => sameEntries entries entries'
  | _, _ => false

def sameItems : List (Value N) → List (Value N) → Bool
  | [], [] => true
  | v :: items, w :: items' => v.same w && sameItems items items'
  | _, _ => false

def sameEntries : Entries N → Entries N → Bool
  | [], [] => true
  | (k, v) :: entries, (j, w) :: entries' => (k = j && v.same w) && sameEntries entries entries'
  | _, _ => false

end

theorem sameItems_iff {items : List (Value N)} (ih : ∀ v ∈ items, ∀ w, v.same w = true ↔ v = w) :
    ∀ items' : List (Value N), sameItems items items' = true ↔ items = items' := by
  induction items with
  | nil =>
    intro items'
    cases items' <;> simp [sameItems]
  | cons v items ihl =>
    intro items'
    cases items' with
    | nil => simp [sameItems]
    | cons w items' =>
      simp [sameItems, ih v List.mem_cons_self, ihl fun u hu => ih u (List.mem_cons_of_mem v hu)]

theorem sameEntries_iff {entries : Entries N}
    (ih : ∀ e ∈ entries, ∀ w, e.2.same w = true ↔ e.2 = w) :
    ∀ entries' : Entries N, sameEntries entries entries' = true ↔ entries = entries' := by
  induction entries with
  | nil =>
    intro entries'
    cases entries' <;> simp [sameEntries]
  | cons e entries ihl =>
    intro entries'
    cases entries' with
    | nil => simp [sameEntries]
    | cons e' entries' =>
      have hhead := ih e List.mem_cons_self
      have htail := ihl fun e he => ih e (List.mem_cons_of_mem _ he)
      simp [sameEntries, hhead, htail, Prod.ext_iff]

theorem same_iff (v : Value N) : ∀ w, v.same w = true ↔ v = w := by
  induction v with
  | null | bool _ | number _ | string _ =>
    intro w
    cases w <;> simp [same]
  | array items ih =>
    intro w
    cases w with
    | array items' => simp [same, sameItems_iff ih]
    | _ => simp [same]
  | object entries ih =>
    intro w
    cases w with
    | object entries' => simp [same, sameEntries_iff ih]
    | _ => simp [same]

instance : DecidableEq (Value N) := fun v w => decidable_of_iff _ (same_iff v w)

end

/-! ## Sorting the keys -/

mutual

/-- The value with the entries of every object in the order of their keys. -/
def sortKeys : Value N → Value N
  | .array items => .array (sortItems items)
  | .object entries => .object (SortedMap.ofList (sortEntries entries))
  | v => v

def sortItems : List (Value N) → List (Value N)
  | [] => []
  | v :: items => v.sortKeys :: sortItems items

def sortEntries : Entries N → Entries N
  | [] => []
  | (k, v) :: entries => (k, v.sortKeys) :: sortEntries entries

end

theorem sortItems_eq_map : ∀ items : List (Value N), sortItems items = items.map sortKeys
  | [] => rfl
  | v :: items => by rw [sortItems, List.map_cons, sortItems_eq_map items]

theorem sortEntries_eq_map : ∀ entries : Entries N,
    sortEntries entries = entries.map (Prod.map id sortKeys)
  | [] => rfl
  | (k, v) :: entries => by rw [sortEntries, List.map_cons, sortEntries_eq_map entries]; rfl

@[simp] theorem sortKeys_array (items : List (Value N)) :
    (Value.array items).sortKeys = .array (items.map sortKeys) := by
  rw [sortKeys, sortItems_eq_map]

theorem sortKeys_object (entries : Entries N) :
    (Value.object entries).sortKeys
      = .object (SortedMap.ofList (entries.map (Prod.map id sortKeys))) := by
  rw [sortKeys, sortEntries_eq_map]

@[simp] theorem sortKeys_sortKeys (v : Value N) : v.sortKeys.sortKeys = v.sortKeys := by
  induction v with
  | null | bool _ | number _ | string _ => simp only [sortKeys]
  | array items ih =>
    rw [sortKeys_array, sortKeys_array, List.map_map]
    exact congrArg _ (List.map_congr_left ih)
  | object entries ih =>
    have hmap : (entries.map (Prod.map id sortKeys)).map (Prod.map id sortKeys)
        = entries.map (Prod.map id sortKeys) := by
      rw [List.map_map]
      exact List.map_congr_left fun e he => Prod.ext rfl (ih e he)
    rw [sortKeys_object, sortKeys_object, ← SortedMap.ofList_map, hmap,
      (SortedMap.sorted_ofList _).ofList_eq]

/-! ## Well-formed values -/

mutual

/-- No object gives a key twice, at any depth. -/
def WellFormed : Value N → Prop
  | .array items => WellFormedItems items
  | .object entries => (entries.map Prod.fst).Nodup ∧ WellFormedEntries entries
  | _ => True

def WellFormedItems : List (Value N) → Prop
  | [] => True
  | v :: items => v.WellFormed ∧ WellFormedItems items

def WellFormedEntries : Entries N → Prop
  | [] => True
  | (_, v) :: entries => v.WellFormed ∧ WellFormedEntries entries

end

theorem wellFormed_array {items : List (Value N)} :
    (Value.array items).WellFormed ↔ ∀ v ∈ items, v.WellFormed := by
  rw [WellFormed]
  induction items with
  | nil => simp [WellFormedItems]
  | cons v items ih => simp [WellFormedItems, ih]

theorem wellFormed_object {entries : Entries N} :
    (Value.object entries).WellFormed
      ↔ (entries.map Prod.fst).Nodup ∧ ∀ e ∈ entries, e.2.WellFormed := by
  have hentries : WellFormedEntries entries ↔ ∀ e ∈ entries, e.2.WellFormed := by
    induction entries with
    | nil => simp [WellFormedEntries]
    | cons e entries ih => simp only [WellFormedEntries, ih, List.forall_mem_cons]
  rw [WellFormed, hentries]

/-! ## The same value in another order -/

/--
`Reordered v w`: `w` is `v` with the entries of some of its objects in another order, at any depth.

The least equivalence that contains the permutations of an object's entries and goes under arrays
and objects.
-/
inductive Reordered : Value N → Value N → Prop
  | refl (v) : Reordered v v
  | symm {v w} : Reordered v w → Reordered w v
  | trans {u v w} : Reordered u v → Reordered v w → Reordered u w
  | perm {es fs : Entries N} : es.Perm fs → Reordered (.object es) (.object fs)
  | item {v w} (before after : List (Value N)) : Reordered v w →
      Reordered (.array (before ++ v :: after)) (.array (before ++ w :: after))
  | entry {v w} (before : Entries N) (k : String) (after : Entries N) : Reordered v w →
      Reordered (.object (before ++ (k, v) :: after)) (.object (before ++ (k, w) :: after))

theorem Reordered.wellFormed_iff {v w : Value N} (h : Reordered v w) :
    v.WellFormed ↔ w.WellFormed := by
  induction h with
  | refl => rfl
  | symm _ ih => exact ih.symm
  | trans _ _ ih₁ ih₂ => exact ih₁.trans ih₂
  | perm hp =>
    rw [wellFormed_object, wellFormed_object, (hp.map Prod.fst).nodup_iff]
    exact and_congr_right fun _ => forall_congr' fun e => by rw [hp.mem_iff]
  | item before after _ ih => simp only [wellFormed_array, List.forall_mem_append, List.forall_mem_cons, ih]
  | entry before k after _ ih =>
    simp only [wellFormed_object, List.map_append, List.map_cons, List.forall_mem_append,
      List.forall_mem_cons, ih]

/-- Values that differ in the order of entries have the same sorted form. -/
theorem Reordered.sortKeys_eq {v w : Value N} (h : Reordered v w) (hv : v.WellFormed) :
    v.sortKeys = w.sortKeys := by
  induction h with
  | refl => rfl
  | symm h ih => exact (ih (h.wellFormed_iff.mpr hv)).symm
  | trans h _ ih₁ ih₂ => exact (ih₁ hv).trans (ih₂ (h.wellFormed_iff.mp hv))
  | perm hp =>
    rw [sortKeys_object, sortKeys_object]
    refine congrArg _ (SortedMap.ofList_eq_of_perm (hp.map _) ?_)
    rw [List.map_map]
    exact (wellFormed_object.mp hv).1
  | item before after _ ih =>
    have hv := wellFormed_array.mp hv
    simp only [sortKeys_array, List.map_append, List.map_cons, ih (hv _ (by simp))]
  | entry before k after _ ih =>
    have hv := (wellFormed_object.mp hv).2
    simp only [sortKeys_object, List.map_append, List.map_cons, Prod.map_apply, id_eq,
      ih (hv (k, _) (by simp))]

/-- Values may be replaced in all items of an array at once. -/
theorem reordered_array_map {f : Value N → Value N} (after : List (Value N)) :
    ∀ before : List (Value N), (∀ v ∈ after, Reordered v (f v)) →
      Reordered (.array (before ++ after)) (.array (before ++ after.map f)) := by
  induction after with
  | nil => exact fun before _ => Reordered.refl _
  | cons v after ih =>
    intro before h
    have hhead := Reordered.item before after (h v List.mem_cons_self)
    have htail := ih (before ++ [f v]) fun w hw => h w (List.mem_cons_of_mem _ hw)
    rw [List.append_assoc, List.append_assoc, List.singleton_append, List.singleton_append] at htail
    exact hhead.trans htail

/-- Values may be replaced in all entries of an object at once. -/
theorem reordered_object_map {f : Value N → Value N} (after : Entries N) :
    ∀ before : Entries N, (∀ e ∈ after, Reordered e.2 (f e.2)) →
      Reordered (.object (before ++ after)) (.object (before ++ after.map (Prod.map id f))) := by
  induction after with
  | nil => exact fun before _ => Reordered.refl _
  | cons e after ih =>
    intro before h
    have hhead := Reordered.entry before e.1 after (h e List.mem_cons_self)
    have htail := ih (before ++ [(e.1, f e.2)]) fun w hw => h w (List.mem_cons_of_mem _ hw)
    rw [List.append_assoc, List.append_assoc, List.singleton_append, List.singleton_append] at htail
    exact hhead.trans htail

/-- Sorting the keys only reorders. -/
theorem reordered_sortKeys {v : Value N} (hv : v.WellFormed) : Reordered v v.sortKeys := by
  induction v with
  | null | bool _ | number _ | string _ => exact Reordered.refl _
  | array items ih =>
    rw [sortKeys_array]
    exact reordered_array_map items [] fun w hw => ih w hw (wellFormed_array.mp hv w hw)
  | object entries ih =>
    obtain ⟨hnd, hwf⟩ := wellFormed_object.mp hv
    rw [sortKeys_object]
    have hmap : Reordered (.object entries) (.object (entries.map (Prod.map id sortKeys))) :=
      reordered_object_map entries [] fun e he => ih e he (hwf e he)
    refine hmap.trans (Reordered.perm (SortedMap.ofList_perm ?_).symm)
    rw [List.map_map]
    exact hnd

/-- **Two well-formed values are the same value exactly when their sorted forms are equal.** -/
theorem reordered_iff_sortKeys {v w : Value N} (hv : v.WellFormed) (hw : w.WellFormed) :
    Reordered v w ↔ v.sortKeys = w.sortKeys := by
  constructor
  · exact fun h => h.sortKeys_eq hv
  · intro h
    exact (reordered_sortKeys hv).trans (h ▸ (reordered_sortKeys hw).symm)

end Value

end Json
