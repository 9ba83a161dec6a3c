import Mathlib.Algebra.Order.Ring.Nat

/-!
# Waiting on an ideal clock

Time passes only where a program waits, and a wait ends at its time. What is awaited is ready after a
delay, or never. Where two things are due at once either may be seen first: a choice of the scheduler.
-/

namespace Clock

variable {α : Type}

/-- A wait from `now` until something is ready, but not past a deadline: when it ends, and with what.
`first` says that what is ready when the deadline is due is seen before it. -/
def timeoutAt (first : Bool) (now deadline : Nat) (future : Option (Nat × α)) : Nat × Option α :=
  match future with
  | some (delay, a) =>
    if now + delay < max now deadline ∨ (now + delay = max now deadline ∧ first = true) then
      (now + delay, some a)
    else (max now deadline, none)
  | none => (max now deadline, none)

variable {first : Bool} {now deadline : Nat} {future : Option (Nat × α)}

theorem le_timeoutAt : now ≤ (timeoutAt first now deadline future).1 := by
  unfold timeoutAt
  split
  · split
    · exact Nat.le_add_right now _
    · exact le_max_left now deadline
  · exact le_max_left now deadline

variable (first now deadline future) in
theorem timeoutAt_le : (timeoutAt first now deadline future).1 ≤ max now deadline := by
  unfold timeoutAt
  split
  · split
    · dsimp only
      omega
    · exact le_rfl
  · exact le_rfl

/-- What is taken was ready by the deadline. -/
theorem timeoutAt_some {t : Nat} {a : α} (h : timeoutAt first now deadline future = (t, some a)) :
    ∃ delay, future = some (delay, a) ∧ t = now + delay ∧ now + delay ≤ max now deadline := by
  unfold timeoutAt at h
  split at h
  · next delay b =>
    split at h
    · next hle =>
      simp only [Prod.mk.injEq, Option.some.injEq] at h
      obtain ⟨rfl, rfl⟩ := h
      exact ⟨delay, rfl, rfl, by omega⟩
    · simp at h
  · simp at h

/-- What is not taken was not ready before the deadline. -/
theorem timeoutAt_none {t : Nat} (h : timeoutAt first now deadline future = (t, none)) :
    t = max now deadline ∧ ∀ delay a, future = some (delay, a) → max now deadline ≤ now + delay := by
  unfold timeoutAt at h
  split at h
  · next delay b =>
    split at h
    · simp at h
    · next hle =>
      simp only [Prod.mk.injEq, and_true] at h
      refine ⟨h.symm, fun delay' a' heq => ?_⟩
      simp only [Option.some.injEq, Prod.mk.injEq] at heq
      obtain ⟨rfl, -⟩ := heq
      omega
  · simp only [Prod.mk.injEq, and_true] at h
    refine ⟨h.symm, fun delay a heq => ?_⟩
    cases heq

variable (first) in
/-- What is ready before the deadline is taken. -/
theorem timeoutAt_of_lt {delay : Nat} (a : α) (h : now + delay < deadline) :
    timeoutAt first now deadline (some (delay, a)) = (now + delay, some a) := by
  unfold timeoutAt
  exact if_pos (.inl (by omega))

end Clock
