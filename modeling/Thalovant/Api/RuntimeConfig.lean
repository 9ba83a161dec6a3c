import Thalovant.Error
import Thalovant.Lib.Json.Path

/-!
# Merging runtime-group configurations

A delta is merged into a configuration object by object: what it names replaces what is there, and all
else is kept.

* `follow_merge_of_not_touches`: a path that the delta does not touch is kept
* `follow_merge_leaf`: what the delta names is set
* `merge_merge`: merging a second time changes nothing
-/

namespace Thalovant.Api

/-! ## The numbers of a configuration -/

/-- The magnitude of a float is more than `2 ^ 53 - 1`; beyond that its integers are not exact. -/
def beyondExact (bits : UInt64) : Bool := bits &&& 0x7FFFFFFFFFFFFFFF > 0x433FFFFFFFFFFFFF

def inexactNumbers : ThalovantError :=
  .api ("safe configuration merge refuses floating-point values outside the exact integer range; "
    ++ "use native integers or string identifiers")

mutual

def validateConfigNumbers : Value → Result Unit
  | .number (.float bits) => if beyondExact bits then .error inexactNumbers else .ok ()
  | .array values => validateItemNumbers values
  | .object values => validateEntryNumbers values
  | _ => .ok ()

def validateItemNumbers : List Value → Result Unit
  | [] => .ok ()
  | value :: values => do
    validateConfigNumbers value
    validateItemNumbers values

def validateEntryNumbers : Map → Result Unit
  | [] => .ok ()
  | (_, value) :: values => do
    validateConfigNumbers value
    validateEntryNumbers values

end

/-! ## Merging -/

mutual

def mergeRuntimeConfig (base : Value) : Value → Value
  | .object delta =>
    match base with
    | .object base => .object (mergeEntries base base delta)
    | _ => .object delta
  | delta => delta

/-- The entries of a delta are put into `result`, one after the other. -/
def mergeEntries (base result : Map) : Map → Map
  | [] => result
  | (key, value) :: delta =>
    mergeEntries base
      (result.insert key (match base.get key with
        | some old => mergeRuntimeConfig old value
        | none => value))
      delta

end

/-- What is under a key after the merge, for what was there. -/
def mergeAt (old : Option Value) (value : Value) : Value :=
  match old with
  | some old => mergeRuntimeConfig old value
  | none => value

theorem mergeEntries_cons (base result : Map) (e : String × Value) (delta : Map) :
    mergeEntries base result (e :: delta)
      = mergeEntries base (result.insert e.1 (mergeAt (base.get e.1) e.2)) delta := by
  rw [mergeEntries]
  rfl

/-- A delta that is no object replaces what is there. -/
theorem merge_of_asObject (base : Value) {delta : Value} (h : delta.asObject = none) :
    mergeRuntimeConfig base delta = delta := by
  cases delta with
  | object delta => cases h
  | _ => simp only [mergeRuntimeConfig]

theorem merge_object (base delta : Map) :
    mergeRuntimeConfig (.object base) (.object delta) = .object (mergeEntries base base delta) := by
  rw [mergeRuntimeConfig]

theorem merge_object_of_asObject {base : Value} (h : base.asObject = none) (delta : Map) :
    mergeRuntimeConfig base (.object delta) = .object delta := by
  cases base with
  | object base => cases h
  | _ => rw [mergeRuntimeConfig]; exact nofun

theorem get_mergeEntries (base : Map) (delta : Map) : ∀ result : Map, SortedMap.Sorted delta →
    ∀ key, (mergeEntries base result delta).get key = match delta.get key with
      | some value => some (mergeAt (base.get key) value)
      | none => result.get key := by
  induction delta with
  | nil => exact fun result _ key => by rw [mergeEntries]; rfl
  | cons e delta ih =>
    intro result hsorted key
    obtain ⟨hlt, hdelta⟩ := List.pairwise_cons.mp hsorted
    have hfresh : Map.get e.1 delta = none :=
      SortedMap.get_eq_none_iff.mpr fun f hf => (hlt f hf).ne'
    have hcons : Map.get key (e :: delta) = if key = e.1 then some e.2 else Map.get key delta :=
      SortedMap.get_cons key e delta
    rw [mergeEntries_cons, ih _ hdelta, hcons, Map.get_insert]
    by_cases hkey : key = e.1
    · rw [if_pos hkey, if_pos hkey, hkey, hfresh]
    · rw [if_neg hkey, if_neg hkey]

theorem sorted_mergeEntries (base : Map) (delta : Map) : ∀ result : Map, SortedMap.Sorted result →
    SortedMap.Sorted (mergeEntries base result delta) := by
  induction delta with
  | nil => exact fun result h => by rwa [mergeEntries]
  | cons e delta ih =>
    intro result h
    rw [mergeEntries_cons]
    exact ih _ (SortedMap.Sorted.insert h _ _)

/-! ## Paths -/

/-- The delta names the path, something below it, or replaces something that it leads through. -/
def Touches (delta : Value) : List String → Prop
  | [] => True
  | key :: path =>
    match delta with
    | .object delta =>
      match Map.get key delta with
      | some value => Touches value path
      | none => False
    | _ => True

theorem touches_object {delta : Map} {key : String} {path : List String} :
    Touches (.object delta) (key :: path)
      ↔ ∃ value, delta.get key = some value ∧ Touches value path := by
  simp only [Touches]
  cases delta.get key <;> simp

/-- A delta has nothing at a path that it does not touch. -/
theorem follow_of_not_touches {delta : Value} {path : List String} (h : ¬Touches delta path) :
    delta.follow path = none := by
  induction path generalizing delta with
  | nil => exact absurd trivial h
  | cons key path ih =>
    cases delta with
    | object delta =>
      rw [Json.Value.follow_object]
      cases hget : SortedMap.get key delta with
      | none => rfl
      | some value => exact ih fun htouches => h (touches_object.mpr ⟨value, hget, htouches⟩)
    | _ => exact absurd trivial h

theorem follow_mergeEntries {base delta : Map} (hsorted : SortedMap.Sorted delta) (key : String)
    (path : List String) :
    (mergeRuntimeConfig (.object base) (.object delta)).follow (key :: path)
      = match delta.get key with
        | some value => (mergeAt (base.get key) value).follow path
        | none => (Json.Value.object base).follow (key :: path) := by
  have hget := get_mergeEntries base delta base hsorted key
  rw [merge_object, Json.Value.follow_object]
  unfold Map.get at hget ⊢
  rw [hget]
  cases SortedMap.get key delta <;> rfl

/-- **A path that the delta does not touch is kept.** -/
theorem follow_merge_of_not_touches {base delta : Value} (hsorted : delta.IsSorted) {path : List String}
    (h : ¬Touches delta path) : (mergeRuntimeConfig base delta).follow path = base.follow path := by
  induction path generalizing base delta with
  | nil => exact absurd trivial h
  | cons key path ih =>
    cases delta with
    | object delta =>
      have hnone := follow_of_not_touches h
      cases base with
      | object base =>
        rw [follow_mergeEntries (Json.Value.isSorted_object.mp hsorted).1]
        cases hget : Map.get key delta with
        | none => rfl
        | some value =>
          have hvalue : ¬Touches value path := fun ht => h (touches_object.mpr ⟨value, hget, ht⟩)
          rw [Json.Value.follow_object]
          show (mergeAt (SortedMap.get key base) value).follow path = _
          cases SortedMap.get key base with
          | none => exact follow_of_not_touches hvalue
          | some old => exact ih (hsorted.get hget) hvalue
      | _ => rw [merge_object_of_asObject rfl, hnone, Json.Value.follow_cons_of_asObject rfl]
    | _ => exact absurd trivial h

/-- **A leaf that the delta names is set.** -/
theorem follow_merge_leaf {base delta leaf : Value} (hsorted : delta.IsSorted) {path : List String}
    (h : delta.follow path = some leaf) (hleaf : leaf.asObject = none) :
    (mergeRuntimeConfig base delta).follow path = some leaf := by
  induction path generalizing base delta with
  | nil =>
    rw [Json.Value.follow_nil, Option.some.injEq] at h
    rw [h, merge_of_asObject base hleaf, Json.Value.follow_nil]
  | cons key path ih =>
    cases delta with
    | object delta =>
      cases base with
      | object base =>
        rw [Json.Value.follow_object] at h
        obtain ⟨value, hget, hvalue⟩ := Option.bind_eq_some_iff.mp h
        have hmap : Map.get key delta = some value := hget
        rw [follow_mergeEntries (Json.Value.isSorted_object.mp hsorted).1, hmap]
        show (mergeAt (SortedMap.get key base) value).follow path = _
        cases SortedMap.get key base with
        | none => exact hvalue
        | some old => exact ih (hsorted.get hget) hvalue
      | _ => rwa [merge_object_of_asObject rfl]
    | _ => cases h

/-! ## Merging again -/

/-- Merging a configuration into itself changes nothing. -/
theorem merge_self (v : Value) : v.IsSorted → mergeRuntimeConfig v v = v := by
  induction v using Json.Value.inductOn with
  | object entries ih =>
    intro h
    have hsorted := (Json.Value.isSorted_object.mp h).1
    rw [merge_object, Json.Value.object.injEq]
    refine (sorted_mergeEntries entries entries entries hsorted).ext hsorted fun key => ?_
    have hget := get_mergeEntries entries entries entries hsorted key
    unfold Map.get at hget
    rw [hget]
    cases hkey : SortedMap.get key entries with
    | none => rfl
    | some value =>
      exact congrArg some (ih (key, value) (SortedMap.mem_of_get_eq_some hkey) (h.get hkey))
  | _ => exact fun _ => merge_of_asObject _ rfl

/-- **Merging a delta a second time changes nothing.** -/
theorem merge_merge (delta : Value) : ∀ base : Value, base.IsSorted → delta.IsSorted →
    mergeRuntimeConfig (mergeRuntimeConfig base delta) delta = mergeRuntimeConfig base delta := by
  induction delta using Json.Value.inductOn with
  | object delta ih =>
    intro base hbase hdelta
    have hsorted := (Json.Value.isSorted_object.mp hdelta).1
    cases base with
    | object base =>
      have hmerged := sorted_mergeEntries base delta base (Json.Value.isSorted_object.mp hbase).1
      rw [merge_object, merge_object, Json.Value.object.injEq]
      refine (sorted_mergeEntries _ delta _ hmerged).ext hmerged fun key => ?_
      have hagain := get_mergeEntries (mergeEntries base base delta) delta
        (mergeEntries base base delta) hsorted key
      have honce := get_mergeEntries base delta base hsorted key
      unfold Map.get at hagain honce
      rw [hagain, honce]
      cases hkey : SortedMap.get key delta with
      | none => rfl
      | some value =>
        refine congrArg some ?_
        have hvalue := hdelta.get hkey
        show mergeRuntimeConfig (mergeAt (SortedMap.get key base) value) value = _
        cases hold : SortedMap.get key base with
        | none => exact merge_self value hvalue
        | some old =>
          exact ih (key, value) (SortedMap.mem_of_get_eq_some hkey) old (hbase.get hold) hvalue
    | null | bool _ | number _ | string _ | array _ =>
      refine (congrArg (mergeRuntimeConfig · _) (merge_object_of_asObject rfl delta)).trans ?_
      exact (merge_self _ hdelta).trans (merge_object_of_asObject rfl delta).symm
  | _ =>
    intro base _ _
    rw [merge_of_asObject _ rfl, merge_of_asObject _ rfl]

end Thalovant.Api
