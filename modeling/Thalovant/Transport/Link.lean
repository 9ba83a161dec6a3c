import Thalovant.Transport.Control

/-!
# One connect

A connect is one attempt, and a second by XX where the first was one by KK that did not authenticate.
The marks are what the last link has said about itself; an attempt begins by forgetting them.
-/

namespace Thalovant.Transport

/-- What a failed handshake said about the credentials. -/
inductive HandshakeVerdict where
  | refused (message : String)
  | keyChanged (message : String)

structure LinkMarks where
  verdict : Option HandshakeVerdict
  heard : Bool
  completedXx : Bool
  keyRejected : Bool
  kkFailed : Bool
  forceXx : Bool

def LinkMarks.new : LinkMarks where
  verdict := none
  heard := false
  completedXx := false
  keyRejected := false
  kkFailed := false
  forceXx := false

/-- Forget what the last link said about itself. -/
def LinkMarks.resetLink (m : LinkMarks) : LinkMarks :=
  { m with heard := false, completedXx := false, keyRejected := false }

/-- A transport's own state, with the marks. -/
structure Marked (L : Type) where
  marks : LinkMarks
  link : L

variable {L R : Type} {B : R → Type}

def Marked.setMarks (f : LinkMarks → LinkMarks) (s : Marked L) : Marked L := { s with marks := f s.marks }

def Marked.setLink (f : L → L) (s : Marked L) : Marked L := { s with link := f s.link }

@[simp] theorem Marked.link_setMarks (f : LinkMarks → LinkMarks) (s : Marked L) :
    (s.setMarks f).link = s.link := rfl

@[simp] theorem Marked.link_setLink (f : L → L) (s : Marked L) : (s.setLink f).link = f s.link := rfl

variable (connectLocked : Async (Marked L) R B (Result Unit))

def connectAttempt : Async (Marked L) R B (Result Unit) := do
  Async.modify (Marked.setMarks fun m => { m with verdict := none })
  Async.modify (Marked.setMarks LinkMarks.resetLink)
  connectLocked

def connectKkThenXx : Async (Marked L) R B (Result Unit) := do
  Async.modify (Marked.setMarks fun m => { m with kkFailed := false, forceXx := false })
  let first ← connectAttempt connectLocked
  let s ← Async.get
  if first.isOk || !s.marks.kkFailed then return first
  else
    Async.modify (Marked.setMarks fun m => { m with kkFailed := false, forceXx := true })
    let second ← connectAttempt connectLocked
    Async.modify (Marked.setMarks fun m => { m with forceXx := false })
    return second

/-! ## What both attempts keep -/

section Runs

open Async

variable {connectLocked} {D : Discipline (Marked L) R B} {exit : Marked L → Marked L}
  {post : Marked L → Prop} {c : Cause R B} {s₀ s : Marked L}

/-- What each attempt keeps, whatever the mode, a connect keeps. -/
theorem runs_attempts (hmode : ∀ kkFailed forceXx s, post s →
      post (s.setMarks fun m => { m with kkFailed := kkFailed, forceXx := forceXx }))
    (hattempt : ∀ c s₀ s, post s →
      (connectAttempt connectLocked).Runs D exit (fun _ _ _ s => post s) c s₀ s)
    (h : post s) : (connectKkThenXx connectLocked).Runs D exit (fun _ _ _ s => post s) c s₀ s := by
  unfold connectKkThenXx
  rw [runs_modify_bind, runs_bind]
  refine (hattempt c s₀ _ (hmode _ _ _ h)).mono fun first c s₀ s h => ?_
  rw [runs_get_bind]
  split
  · exact h
  · rw [runs_modify_bind, runs_bind]
    refine (hattempt c s₀ _ (hmode _ _ _ h)).mono fun second c s₀ s h => ?_
    rw [runs_modify_bind]
    exact hmode s.marks.kkFailed false s h

/-- What the marks have no part in, and each attempt keeps, a connect keeps. -/
theorem runs_connectKkThenXx (hmarks : ∀ f s, post s → post (s.setMarks f))
    (hlocked : ∀ c s₀ s, post s → connectLocked.Runs D exit (fun _ _ _ s => post s) c s₀ s)
    (h : post s) : (connectKkThenXx connectLocked).Runs D exit (fun _ _ _ s => post s) c s₀ s := by
  refine runs_attempts (fun _ _ s h => hmarks _ s h) (fun c s₀ s h => ?_) h
  unfold connectAttempt
  rw [runs_modify_bind, runs_modify_bind]
  exact hlocked c s₀ _ (hmarks _ _ (hmarks _ _ h))

end Runs

end Thalovant.Transport
