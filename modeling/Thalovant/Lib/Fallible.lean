import Mathlib.Logic.Basic

/-!
# Computations that may fail over a state they keep

A computation takes a state to a result, which may be an error, and the state it has reached: an
error ends it, and what it has done until then stays done.

* `Keeps P m`: the computation keeps the property, whether it fails or not
* `bind_ok`, `bind_error`: one step of a computation, executed
* `bind_eq_ok`, `bind_eq_error`: what a computation has done, read back from its result
-/

/-- A computation over a state `σ` that may fail with an `ε`. -/
def Fallible (ε σ α : Type) : Type := σ → Except ε α × σ

namespace Fallible

variable {ε σ τ α β : Type}

instance : Monad (Fallible ε σ) where
  pure a := fun s => (.ok a, s)
  bind m f := fun s =>
    match m s with
    | (.ok a, s') => f a s'
    | (.error err, s') => (.error err, s')

/-- Fail. -/
def fail (err : ε) : Fallible ε σ α := fun s => (.error err, s)

/-- Read the state. -/
def read (f : σ → α) : Fallible ε σ α := fun s => (.ok (f s), s)

/-- Change the state. -/
def modify (f : σ → σ) : Fallible ε σ Unit := fun s => (.ok (), f s)

/-- A result at hand. -/
def ofExcept (r : Except ε α) : Fallible ε σ α := fun s => (r, s)

/-- The result of a computation, whose failure is not one of the caller. -/
def attempt (m : Fallible ε σ α) : Fallible ε σ (Except ε α) := fun s => (.ok (m s).1, (m s).2)

/-- A computation over one part of the state. -/
def onSnd (m : Fallible ε τ α) : Fallible ε (σ × τ) α :=
  fun s => ((m s.2).1, (s.1, (m s.2).2))

/-! ## Execution -/

@[simp] theorem pure_apply (a : α) (s : σ) : (pure a : Fallible ε σ α) s = (.ok a, s) := rfl

@[simp] theorem fail_apply (err : ε) (s : σ) : (fail err : Fallible ε σ α) s = (.error err, s) := rfl

@[simp] theorem read_apply (f : σ → α) (s : σ) : (read f : Fallible ε σ α) s = (.ok (f s), s) := rfl

@[simp] theorem modify_apply (f : σ → σ) (s : σ) :
    (modify f : Fallible ε σ Unit) s = (.ok (), f s) := rfl

@[simp] theorem ofExcept_apply (r : Except ε α) (s : σ) :
    (ofExcept r : Fallible ε σ α) s = (r, s) := rfl

@[simp] theorem attempt_apply (m : Fallible ε σ α) (s : σ) :
    attempt m s = (.ok (m s).1, (m s).2) := rfl

@[simp] theorem onSnd_apply (m : Fallible ε τ α) (s : σ × τ) :
    onSnd m s = ((m s.2).1, (s.1, (m s.2).2)) := rfl

theorem bind_ok {m : Fallible ε σ α} {f : α → Fallible ε σ β} {s s' : σ} {a : α}
    (h : m s = (.ok a, s')) : (m >>= f) s = f a s' := by
  show (match m s with
    | (.ok a, s') => f a s'
    | (.error err, s') => (.error err, s')) = f a s'
  rw [h]

theorem bind_error {m : Fallible ε σ α} {f : α → Fallible ε σ β} {s s' : σ} {err : ε}
    (h : m s = (.error err, s')) : (m >>= f) s = (.error err, s') := by
  show (match m s with
    | (.ok a, s') => f a s'
    | (.error err, s') => (.error err, s')) = (.error err, s')
  rw [h]

@[simp] theorem pure_bind (a : α) (f : α → Fallible ε σ β) (s : σ) :
    ((pure a : Fallible ε σ α) >>= f) s = f a s := rfl

@[simp] theorem fail_bind (err : ε) (f : α → Fallible ε σ β) (s : σ) :
    ((fail err : Fallible ε σ α) >>= f) s = (.error err, s) := rfl

@[simp] theorem read_bind (g : σ → α) (f : α → Fallible ε σ β) (s : σ) :
    ((read g : Fallible ε σ α) >>= f) s = f (g s) s := rfl

@[simp] theorem modify_bind (g : σ → σ) (f : Unit → Fallible ε σ β) (s : σ) :
    ((modify g : Fallible ε σ Unit) >>= f) s = f () (g s) := rfl

@[simp] theorem attempt_bind (m : Fallible ε σ α) (f : Except ε α → Fallible ε σ β) (s : σ) :
    (attempt m >>= f) s = f (m s).1 (m s).2 := rfl

theorem onSnd_bind_ok {m : Fallible ε τ α} {f : α → Fallible ε (σ × τ) β} {s : σ} {t t' : τ}
    {a : α} (h : m t = (.ok a, t')) : (onSnd m >>= f) (s, t) = f a (s, t') :=
  bind_ok (by rw [onSnd_apply, h])

theorem onSnd_bind_error {m : Fallible ε τ α} {f : α → Fallible ε (σ × τ) β} {s : σ} {t t' : τ}
    {err : ε} (h : m t = (.error err, t')) : (onSnd m >>= f) (s, t) = (.error err, (s, t')) :=
  bind_error (by rw [onSnd_apply, h])

/-! ## What a computation has done -/

theorem bind_eq_ok {m : Fallible ε σ α} {f : α → Fallible ε σ β} {s s'' : σ} {b : β} :
    (m >>= f) s = (.ok b, s'') ↔ ∃ a s', m s = (.ok a, s') ∧ f a s' = (.ok b, s'') := by
  rcases hm : m s with ⟨err | a, s'⟩
  · rw [bind_error hm]
    constructor
    · intro h
      cases h
    · rintro ⟨a, s', h, -⟩
      cases h
  · rw [bind_ok hm]
    constructor
    · exact fun h => ⟨a, s', rfl, h⟩
    · rintro ⟨a, s', h, hf⟩
      cases h
      exact hf

/-- A computation that has succeeded has succeeded in its first step. -/
theorem bind_fst_ok {m : Fallible ε σ α} {f : α → Fallible ε σ β} {s : σ} {b : β}
    (h : ((m >>= f) s).1 = .ok b) :
    ∃ a s', m s = (.ok a, s') ∧ (m >>= f) s = f a s' ∧ (f a s').1 = .ok b := by
  rcases hm : m s with ⟨err | a, s'⟩
  · rw [bind_error hm] at h
    cases h
  · rw [bind_ok hm] at h
    exact ⟨a, s', rfl, bind_ok hm, h⟩

/-! ## Invariants -/

/-- The computation keeps the property, whether it fails or not. -/
def Keeps (P : σ → Prop) (m : Fallible ε σ α) : Prop := ∀ s, P s → P (m s).2

variable {P : σ → Prop}

theorem Keeps.pure (a : α) : Keeps P (pure a : Fallible ε σ α) := fun _ h => h

theorem Keeps.fail (err : ε) : Keeps P (fail err : Fallible ε σ α) := fun _ h => h

theorem Keeps.ofExcept (r : Except ε α) : Keeps P (ofExcept r : Fallible ε σ α) := fun _ h => h

theorem Keeps.read (f : σ → α) : Keeps P (read f : Fallible ε σ α) := fun _ h => h

theorem Keeps.modify {f : σ → σ} (h : ∀ s, P s → P (f s)) :
    Keeps P (modify f : Fallible ε σ Unit) := h

theorem Keeps.attempt {m : Fallible ε σ α} (h : Keeps P m) : Keeps P (attempt m) := h

theorem Keeps.bind {m : Fallible ε σ α} {f : α → Fallible ε σ β} (hm : Keeps P m)
    (hf : ∀ a, Keeps P (f a)) : Keeps P (m >>= f) := by
  intro s hs
  have hs' := hm s hs
  rcases h : m s with ⟨err | a, s'⟩
  · rw [bind_error h]
    rw [h] at hs'
    exact hs'
  · rw [bind_ok h]
    rw [h] at hs'
    exact hf a s' hs'

theorem Keeps.ite {c : Prop} [Decidable c] {m m' : Fallible ε σ α} (hm : Keeps P m)
    (hm' : Keeps P m') : Keeps P (if c then m else m') := by
  split
  · exact hm
  · exact hm'

/-- A computation over the other part of the state. -/
theorem Keeps.onSnd {P : σ × τ → Prop} {m : Fallible ε τ α} (h : ∀ s t, P s → P (s.1, t)) :
    Keeps P (onSnd m) := fun s hs => h s _ hs

end Fallible
