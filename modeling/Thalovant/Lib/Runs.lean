import Mathlib.Data.List.ModifyLast
import Mathlib.Data.List.SplitBy
import Mathlib.Order.Compare

/-!
# Lists cut into runs of one class

* `Split`: lists of one class each, the class changing from one to the next
* `Split.push`: cutting element by element
* `Split.flatten_inj`: a list is cut in one way only
* `Split.flatMap_inj`: rewriting each run within its class, the whole tells the runs
* `compareLex_eq_eq_iff`: when comparing two lists element by element finds no difference
-/

namespace Runs

variable {α : Type*} (p : α → Bool)

/-- Something, and all of it of one class. -/
def IsRun (run : List α) : Prop := run ≠ [] ∧ ∀ a ∈ run, ∀ b ∈ run, p a = p b

/-- Nothing of the one is of the class of the other. -/
def Apart (x y : List α) : Prop := ∀ a ∈ x, ∀ b ∈ y, p a ≠ p b

/-- Runs, the class changing from one to the next. -/
structure Split (runs : List (List α)) : Prop where
  isRun : ∀ run ∈ runs, IsRun p run
  apart : runs.IsChain (Apart p)

variable {p}

theorem split_nil : Split p [] := ⟨by simp, .nil⟩

theorem Split.of_cons {run : List α} {runs : List (List α)} (h : Split p (run :: runs)) :
    Split p runs :=
  ⟨fun x hx => h.isRun x (List.mem_cons_of_mem _ hx), h.apart.tail⟩

/-- What comes after the first run is not of its class. -/
theorem Split.ne_head_flatten {run : List α} {runs : List (List α)} (h : Split p (run :: runs))
    {a b : α} (ha : a ∈ run) (hb : b ∈ runs.flatten.head?) : p a ≠ p b := by
  cases runs with
  | nil => exact absurd hb (by simp)
  | cons next runs =>
    obtain ⟨hne, -⟩ := h.isRun next (List.mem_cons_of_mem _ List.mem_cons_self)
    rw [List.flatten_cons, List.head?_append_of_ne_nil _ hne] at hb
    exact (List.isChain_cons_cons.mp h.apart).1 a ha b (List.mem_of_mem_head? hb)

theorem split_append_singleton {runs : List (List α)} {run : List α} :
    Split p (runs ++ [run]) ↔
      Split p runs ∧ IsRun p run ∧ ∀ x ∈ runs.getLast?, Apart p x run := by
  constructor
  · intro h
    obtain ⟨hruns, -, hlast⟩ := List.isChain_append.mp h.apart
    refine ⟨⟨fun x hx => h.isRun x (List.mem_append_left _ hx), hruns⟩, ?_, ?_⟩
    · exact h.isRun run (List.mem_append_right _ List.mem_cons_self)
    · exact fun x hx => hlast x hx run rfl
  · rintro ⟨h, hrun, hlast⟩
    refine ⟨?_, List.isChain_append.mpr ⟨h.apart, .singleton _, ?_⟩⟩
    · intro x hx
      rcases List.mem_append.mp hx with hold | hnew
      · exact h.isRun x hold
      · rw [List.mem_singleton.mp hnew]
        exact hrun
    · intro x hx y hy
      rw [List.head?_cons, Option.mem_some_iff] at hy
      exact hy ▸ hlast x hx

theorem isRun_singleton (a : α) : IsRun p [a] := by
  refine ⟨List.cons_ne_nil _ _, fun x hx y hy => ?_⟩
  rw [List.mem_singleton.mp hx, List.mem_singleton.mp hy]

/-- The last run goes on with an element of its class. -/
theorem Split.push {runs : List (List α)} {run : List α} (h : Split p (runs ++ [run])) {a : α}
    (ha : ∀ b ∈ run, p b = p a) : Split p (runs ++ [run ++ [a]]) := by
  obtain ⟨hruns, hrun, hlast⟩ := split_append_singleton.mp h
  have hclass : ∀ b ∈ run ++ [a], p b = p a := by
    intro b hb
    rcases List.mem_append.mp hb with hold | hnew
    · exact ha b hold
    · rw [List.mem_singleton.mp hnew]
  refine split_append_singleton.mpr ⟨hruns, ⟨by simp, ?_⟩, ?_⟩
  · intro x hx y hy
    rw [hclass x hx, hclass y hy]
  · intro x hx b hb c hc
    obtain ⟨first, hfirst⟩ := List.exists_mem_of_ne_nil run hrun.1
    rw [hclass c hc, ← ha first hfirst]
    exact hlast x hx b hb first hfirst

/-! ## One way to cut -/

/-- Runs are what grouping their elements by class gives back. -/
theorem Split.splitBy_flatten {runs : List (List α)} (h : Split p runs) :
    runs.flatten.splitBy (fun a b => p a == p b) = runs := by
  refine List.splitBy_flatten ?_ ?_ ?_
  · intro hnil
    exact (h.isRun [] hnil).1 rfl
  · intro run hrun
    refine List.Pairwise.isChain (List.pairwise_iff_forall_sublist.mpr ?_)
    intro a b hab
    have ha := hab.subset List.mem_cons_self
    have hb := hab.subset (List.mem_cons_of_mem _ List.mem_cons_self)
    exact beq_iff_eq.mpr ((h.isRun run hrun).2 a ha b hb)
  · refine h.apart.imp_of_mem_imp ?_
    intro x y hx hy hapart
    have hxne := (h.isRun x hx).1
    have hyne := (h.isRun y hy).1
    exact ⟨hxne, hyne,
      beq_eq_false_iff_ne.mpr (hapart _ (List.getLast_mem hxne) _ (List.head_mem hyne))⟩

/-- A list is cut in one way only. -/
theorem Split.flatten_inj {as bs : List (List α)} (ha : Split p as) (hb : Split p bs) :
    as.flatten = bs.flatten ↔ as = bs := by
  constructor
  · intro h
    rw [← ha.splitBy_flatten, h, hb.splitBy_flatten]
  · exact fun h => h ▸ rfl

/-- Rewriting each run within its class leaves the list cut. -/
theorem Split.map {runs : List (List α)} (h : Split p runs) {f : List α → List α}
    (hne : ∀ run ∈ runs, f run ≠ []) (hclass : ∀ run ∈ runs, ∀ a ∈ f run, ∃ b ∈ run, p a = p b) :
    Split p (runs.map f) := by
  refine ⟨?_, ?_⟩
  · intro x hx
    obtain ⟨run, hrun, rfl⟩ := List.mem_map.mp hx
    refine ⟨hne run hrun, fun a ha b hb => ?_⟩
    obtain ⟨a', ha', haa⟩ := hclass run hrun a ha
    obtain ⟨b', hb', hbb⟩ := hclass run hrun b hb
    rw [haa, hbb, (h.isRun run hrun).2 a' ha' b' hb']
  · refine (List.isChain_map f).mpr (h.apart.imp_of_mem_imp ?_)
    intro x y hx hy hapart a ha b hb
    obtain ⟨a', ha', haa⟩ := hclass x hx a ha
    obtain ⟨b', hb', hbb⟩ := hclass y hy b hb
    rw [haa, hbb]
    exact hapart a' ha' b' hb'

/-- The rewritten whole tells the rewritten runs. -/
theorem Split.flatMap_inj {as bs : List (List α)} (ha : Split p as) (hb : Split p bs)
    {f : List α → List α}
    (hf : ∀ run, IsRun p run → f run ≠ [] ∧ ∀ a ∈ f run, ∃ b ∈ run, p a = p b) :
    as.flatMap f = bs.flatMap f ↔ as.map f = bs.map f := by
  have hsplit : ∀ {runs}, Split p runs → Split p (runs.map f) := fun h =>
    h.map (fun run hrun => (hf run (h.isRun run hrun)).1)
      (fun run hrun => (hf run (h.isRun run hrun)).2)
  rw [List.flatMap_def, List.flatMap_def]
  exact (hsplit ha).flatten_inj (hsplit hb)

/-! ## Comparing run by run -/

/-- Comparing element by element finds no difference if what is compared of them is the same. -/
theorem compareLex_eq_eq_iff {β : Type*} {cmp : α → α → Ordering} {f : α → β} {xs ys : List α}
    (h : ∀ x ∈ xs, ∀ y ∈ ys, cmp x y = .eq ↔ f x = f y) :
    List.compareLex cmp xs ys = .eq ↔ xs.map f = ys.map f := by
  induction xs generalizing ys with
  | nil => cases ys <;> simp [List.compareLex]
  | cons x xs ih =>
    cases ys with
    | nil => simp [List.compareLex]
    | cons y ys =>
      have htail : ∀ a ∈ xs, ∀ b ∈ ys, cmp a b = .eq ↔ f a = f b := fun a ha b hb =>
        h a (List.mem_cons_of_mem _ ha) b (List.mem_cons_of_mem _ hb)
      rw [List.compareLex_cons_cons, Ordering.then_eq_eq, ih htail,
        h x List.mem_cons_self y List.mem_cons_self, List.map_cons, List.map_cons, List.cons.injEq]

end Runs
