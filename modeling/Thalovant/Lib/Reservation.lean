import Mathlib.Data.Finset.Card
import Mathlib.Logic.Function.Basic

/-!
# Reservations

Holders, each with at most one key in hand, and the set of the keys in use. `Held` says that the set
is that of the keys in hand and that no two holders have one key: then the number of holders is the
number of keys. It is kept as a free key is taken (`Held.take`) and as one is given back
(`Held.release`).
-/

namespace Reservation

variable {ι κ : Type*}

/-- The keys in use are those in hand, each in one hand. -/
structure Held (active : Finset κ) (key : ι → Option κ) : Prop where
  mem_iff : ∀ k, k ∈ active ↔ ∃ i, key i = some k
  unique : ∀ {i j k}, key i = some k → key j = some k → i = j

namespace Held

variable {active : Finset κ} {key : ι → Option κ}

theorem empty : Held (∅ : Finset κ) fun _ : ι => none where
  mem_iff := by simp
  unique := by simp

/-- A holder is the only one exactly when its key is the only one. -/
theorem eq_singleton_iff (h : Held active key) {i : ι} {k : κ} (hi : key i = some k) :
    active = {k} ↔ ∀ j, j ≠ i → key j = none := by
  constructor
  · intro hone j hj
    cases hkey : key j with
    | none => rfl
    | some k' =>
      have hmem := (h.mem_iff k').mpr ⟨j, hkey⟩
      rw [hone, Finset.mem_singleton] at hmem
      subst hmem
      exact absurd (h.unique hkey hi) hj
  · intro hnone
    ext k'
    rw [h.mem_iff, Finset.mem_singleton]
    constructor
    · rintro ⟨j, hj⟩
      by_cases hji : j = i
      · subst hji
        exact Option.some.inj (hj.symm.trans hi)
      · rw [hnone j hji] at hj
        cases hj
    · rintro rfl
      exact ⟨i, hi⟩

variable [DecidableEq ι] [DecidableEq κ]

theorem take (h : Held active key) {i : ι} {k : κ} (hi : key i = none) (hfree : k ∉ active) :
    Held (insert k active) (Function.update key i (some k)) where
  mem_iff k' := by
    rw [Finset.mem_insert, h.mem_iff]
    constructor
    · rintro (rfl | ⟨j, hj⟩)
      · exact ⟨i, Function.update_self ..⟩
      · have hji : j ≠ i := by
          rintro rfl
          rw [hi] at hj
          cases hj
        exact ⟨j, by rw [Function.update_of_ne hji, hj]⟩
    · rintro ⟨j, hj⟩
      by_cases hji : j = i
      · subst hji
        rw [Function.update_self] at hj
        exact .inl (Option.some.inj hj).symm
      · rw [Function.update_of_ne hji] at hj
        exact .inr ⟨j, hj⟩
  unique {j j' k'} hj hj' := by
    -- no other has the key, since it was free
    have hnone : ∀ l, key l ≠ some k := fun l hl => hfree ((h.mem_iff k).mpr ⟨l, hl⟩)
    by_cases hji : j = i <;> by_cases hji' : j' = i
    · rw [hji, hji']
    · subst hji
      rw [Function.update_self, Option.some.injEq] at hj
      rw [Function.update_of_ne hji', ← hj] at hj'
      exact absurd hj' (hnone j')
    · subst hji'
      rw [Function.update_self, Option.some.injEq] at hj'
      rw [Function.update_of_ne hji, ← hj'] at hj
      exact absurd hj (hnone j)
    · rw [Function.update_of_ne hji] at hj
      rw [Function.update_of_ne hji'] at hj'
      exact h.unique hj hj'

theorem release (h : Held active key) {i : ι} {k : κ} (hi : key i = some k) :
    Held (active.erase k) (Function.update key i none) where
  mem_iff k' := by
    rw [Finset.mem_erase, h.mem_iff]
    constructor
    · rintro ⟨hne, j, hj⟩
      have hji : j ≠ i := by
        rintro rfl
        exact hne (Option.some.inj (hj.symm.trans hi))
      exact ⟨j, by rw [Function.update_of_ne hji, hj]⟩
    · rintro ⟨j, hj⟩
      by_cases hji : j = i
      · subst hji
        rw [Function.update_self] at hj
        cases hj
      · rw [Function.update_of_ne hji] at hj
        refine ⟨?_, j, hj⟩
        rintro rfl
        exact hji (h.unique hj hi)
  unique {j j' k'} hj hj' := by
    by_cases hji : j = i
    · subst hji
      rw [Function.update_self] at hj
      cases hj
    · by_cases hji' : j' = i
      · subst hji'
        rw [Function.update_self] at hj'
        cases hj'
      · rw [Function.update_of_ne hji] at hj
        rw [Function.update_of_ne hji'] at hj'
        exact h.unique hj hj'

end Held

end Reservation
