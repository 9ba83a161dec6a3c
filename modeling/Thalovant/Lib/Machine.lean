import Mathlib.Data.List.Induction

/-!
# Machines that answer

A machine takes a state and an input to an output and the next state. `final` is the state after a
list of inputs and `outputs` what was answered on the way. An invariant is shown for one step and
holds at the end of every run (`final_invariant`); what each answer satisfies is shown for one step
from a state where the invariant holds (`outputs_forall`). What happens on the way is spoken of by
`Occurs`.
-/

namespace Machine

variable {σ α β : Type} (step : σ → α → β × σ)

/-- The state after a list of inputs. -/
def final : σ → List α → σ
  | s, [] => s
  | s, a :: as => final (step s a).2 as

/-- The answers to a list of inputs. -/
def outputs : σ → List α → List β
  | _, [] => []
  | s, a :: as => (step s a).1 :: outputs (step s a).2 as

/-- Somewhere in a run, an input meets a state with which it has the property. -/
def Occurs (P : σ → α → Prop) (s : σ) (as : List α) : Prop :=
  ∃ before a after, as = before ++ a :: after ∧ P (final step s before) a

@[simp] theorem final_nil (s : σ) : final step s [] = s := rfl

@[simp] theorem outputs_nil (s : σ) : outputs step s [] = [] := rfl

theorem final_cons (s : σ) (a : α) (as : List α) :
    final step s (a :: as) = final step (step s a).2 as := rfl

theorem outputs_cons (s : σ) (a : α) (as : List α) :
    outputs step s (a :: as) = (step s a).1 :: outputs step (step s a).2 as := rfl

theorem final_append : ∀ (s : σ) (as bs : List α),
    final step s (as ++ bs) = final step (final step s as) bs
  | _, [], _ => rfl
  | s, a :: as, bs => final_append (step s a).2 as bs

theorem outputs_append : ∀ (s : σ) (as bs : List α),
    outputs step s (as ++ bs) = outputs step s as ++ outputs step (final step s as) bs
  | _, [], _ => rfl
  | s, a :: as, bs => congrArg _ (outputs_append (step s a).2 as bs)

theorem final_concat (s : σ) (as : List α) (a : α) :
    final step s (as ++ [a]) = (step (final step s as) a).2 := final_append step s as [a]

theorem outputs_concat (s : σ) (as : List α) (a : α) :
    outputs step s (as ++ [a]) = outputs step s as ++ [(step (final step s as) a).1] :=
  outputs_append step s as [a]

variable {step}

theorem not_occurs_nil {P : σ → α → Prop} {s : σ} : ¬ Occurs step P s [] := by
  rintro ⟨before, a, after, has, -⟩
  exact List.cons_ne_nil a after (List.append_eq_nil_iff.mp has.symm).2

theorem occurs_concat {P : σ → α → Prop} {s : σ} {as : List α} {a : α} :
    Occurs step P s (as ++ [a]) ↔ Occurs step P s as ∨ P (final step s as) a := by
  constructor
  · rintro ⟨before, b, after, has, hb⟩
    rcases after.eq_nil_or_concat with rfl | ⟨after, last, rfl⟩
    · obtain ⟨rfl, heq⟩ := List.append_inj' has rfl
      exact .inr (List.singleton_inj.mp heq ▸ hb)
    · rw [List.concat_eq_append, ← List.cons_append, ← List.append_assoc] at has
      exact .inl ⟨before, b, after, List.append_inj_left' has rfl, hb⟩
  · rintro (⟨before, b, after, rfl, hb⟩ | hb)
    · exact ⟨before, b, after ++ [a], by rw [List.append_assoc]; rfl, hb⟩
    · exact ⟨as, a, [], rfl, hb⟩

/-- What happens once only, and then in one way. -/
theorem Occurs.unique {ι : Type} {P : ι → σ → α → Prop} {s : σ}
    (hfirst : ∀ as a i j, P i (final step s as) a → ¬ Occurs step (P j) s as)
    (hsame : ∀ as a i j, P i (final step s as) a → P j (final step s as) a → i = j) {i j : ι} {as : List α}
    (h : Occurs step (P i) s as) (h' : Occurs step (P j) s as) : i = j := by
  induction as using List.reverseRecOn with
  | nil => exact absurd h not_occurs_nil
  | append_singleton as a ih =>
    rcases occurs_concat.mp h with h | h <;> rcases occurs_concat.mp h' with h' | h'
    · exact ih h h'
    · exact absurd h (hfirst as a j i h')
    · exact absurd h' (hfirst as a i j h)
    · exact hsame as a i j h h'

/-- What one step preserves holds at the end of every run. -/
theorem final_invariant {P : σ → Prop} (hstep : ∀ s a, P s → P (step s a).2) :
    ∀ {s : σ} (as : List α), P s → P (final step s as)
  | _, [], h => h
  | s, a :: as, h => final_invariant hstep as (hstep s a h)

/-- What every input of the run preserves. -/
theorem final_invariant_of_mem {P : σ → Prop} : ∀ {s : σ} {as : List α},
    (∀ s, ∀ a ∈ as, P s → P (step s a).2) → P s → P (final step s as)
  | _, [], _, h => h
  | s, a :: as, hstep, h => by
    rw [final_cons]
    exact final_invariant_of_mem (fun s b hb => hstep s b (List.mem_cons_of_mem _ hb))
      (hstep s a List.mem_cons_self h)

/-- What an input of the run brings about, and every step preserves. -/
theorem final_of_mem {P : σ → Prop} {C : α → Prop} (hstep : ∀ s a, P s → P (step s a).2)
    (hcause : ∀ s a, C a → P (step s a).2) : ∀ {s : σ} {as : List α},
    (∃ a ∈ as, C a) → P (final step s as)
  | _, [], h => by
    obtain ⟨a, ha, -⟩ := h
    exact absurd ha List.not_mem_nil
  | s, a :: as, h => by
    obtain ⟨b, hb, hc⟩ := h
    rcases List.mem_cons.mp hb with rfl | hb
    · exact final_invariant hstep as (hcause s b hc)
    · rw [final_cons]
      exact final_of_mem hstep hcause ⟨b, hb, hc⟩

/-- What holds of the answer to one step, where the invariant holds, holds of every answer. -/
theorem outputs_forall {P : σ → Prop} {Q : β → Prop} (hstep : ∀ s a, P s → P (step s a).2)
    (hout : ∀ s a, P s → Q (step s a).1) :
    ∀ {s : σ} (as : List α), P s → ∀ b ∈ outputs step s as, Q b
  | _, [], _, _, hb => nomatch hb
  | s, a :: as, h, b, hb => by
    rcases List.mem_cons.mp hb with hb | hb
    · exact hb ▸ hout s a h
    · exact outputs_forall hstep hout as (hstep s a h) b hb

/-- What holds at the end of a run but not at its start came about in some step of it. -/
theorem exists_step_of_final {P : σ → Prop} : ∀ {s : σ} {as : List α}, ¬ P s → P (final step s as) →
    ∃ before a after, as = before ++ a :: after
      ∧ ¬ P (final step s before) ∧ P (step (final step s before) a).2
  | _, [], hs, h => absurd h hs
  | s, a :: as, hs, h => by
    by_cases ha : P (step s a).2
    · exact ⟨[], a, as, rfl, hs, ha⟩
    · obtain ⟨before, b, after, has, hb, hb'⟩ := exists_step_of_final ha h
      exact ⟨a :: before, b, after, by rw [has]; rfl, hb, hb'⟩

end Machine
