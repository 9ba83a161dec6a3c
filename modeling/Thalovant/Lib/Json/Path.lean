import Thalovant.Lib.Json.Value

/-!
# Paths into JSON values

A path is the keys on the way down through objects.

* `IsSorted`: every object is a map in the order of its keys, at any depth
* `follow`: what is at a path
-/

namespace Json.Value

variable {N : Type}

/-! ## Sorted values -/

mutual

/-- Every object is sorted by its keys, at any depth. -/
def IsSorted : Value N → Prop
  | .array items => IsSortedItems items
  | .object entries => SortedMap.Sorted entries ∧ IsSortedEntries entries
  | _ => True

def IsSortedItems : List (Value N) → Prop
  | [] => True
  | v :: items => v.IsSorted ∧ IsSortedItems items

def IsSortedEntries : Entries N → Prop
  | [] => True
  | (_, v) :: entries => v.IsSorted ∧ IsSortedEntries entries

end

theorem isSorted_object {entries : Entries N} :
    (Value.object entries).IsSorted
      ↔ SortedMap.Sorted entries ∧ ∀ e ∈ entries, e.2.IsSorted := by
  have hentries : IsSortedEntries entries ↔ ∀ e ∈ entries, e.2.IsSorted := by
    induction entries with
    | nil => simp [IsSortedEntries]
    | cons e entries ih => simp only [IsSortedEntries, ih, List.forall_mem_cons]
  rw [IsSorted, hentries]

/-- What a sorted object has under a key is sorted. -/
theorem IsSorted.get {entries : Entries N} (h : (Value.object entries).IsSorted) {k : String}
    {v : Value N} (hget : SortedMap.get k entries = some v) : v.IsSorted :=
  (isSorted_object.mp h).2 (k, v) (SortedMap.mem_of_get_eq_some hget)

/-! ## What is at a path -/

/-- What is at a path, if anything is. -/
def follow (v : Value N) : List String → Option (Value N)
  | [] => some v
  | k :: path =>
    match v with
    | .object entries => (SortedMap.get k entries).bind fun w => follow w path
    | _ => none

@[simp] theorem follow_nil (v : Value N) : v.follow [] = some v := by
  cases v <;> rfl

theorem follow_object (entries : Entries N) (k : String) (path : List String) :
    (Value.object entries).follow (k :: path)
      = (SortedMap.get k entries).bind fun w => w.follow path := rfl

/-- Nothing is below a value that is no object. -/
theorem follow_cons_of_asObject {v : Value N} (h : v.asObject = none) (k : String)
    (path : List String) : v.follow (k :: path) = none := by
  cases v with
  | object entries => cases h
  | _ => rfl

end Json.Value
