import Thalovant.Lib.Regex

/-!
# A scan of a list, and what it takes out

A scanner finds what stands at the head of a list. A scan goes through the list from the left: what is
found is replaced and the scan goes on behind it, and where nothing is found a character is kept.
Taking out what is found can bring characters together in which something is found again: exactly if
something can be read from a kept character past what is taken out behind it.
-/

namespace Regex

variable {α : Type}

/-- What is found at the head of a list: `find cs` is what is left behind it. -/
structure Scanner (α : Type) where
  find : List α → Option (List α)
  suffix : ∀ {cs rest}, find cs = some rest → rest <:+ cs
  shorter : ∀ {cs rest}, find cs = some rest → rest.length < cs.length

/-- The scanner of a pattern: what it reads by preference. -/
def Pattern.scanner (r : Pattern α) (hr : r.consumes = true) : Scanner α where
  find cs := (rests r cs).head?
  suffix h := (mem_rests.mp (List.mem_of_head? h)).suffix
  shorter h := (mem_rests.mp (List.mem_of_head? h)).length_lt hr

/-- A pattern is found where it can read. -/
theorem Pattern.find_ne_none {r : Pattern α} {hr : r.consumes = true} {cs : List α} :
    (r.scanner hr).find cs ≠ none ↔ ∃ rest, Reads next r cs rest := by
  rw [Pattern.scanner, Ne, List.head?_eq_none_iff, List.eq_nil_iff_forall_not_mem, not_forall]
  simp only [not_not, mem_rests]

variable (s : Scanner α) (f : List α → List α)

/-! ## The scan -/

/-- `replaceAll`, in a number of turns. -/
def replaceWithin : Nat → List α → List α
  | _, [] => []
  | 0, cs => cs
  | n + 1, c :: cs =>
    match s.find (c :: cs) with
    | some rest => f ((c :: cs).take ((c :: cs).length - rest.length)) ++ replaceWithin n rest
    | none => c :: replaceWithin n cs

/-- A list with what is found in it replaced. -/
def replaceAll (cs : List α) : List α := replaceWithin s f cs.length cs

/-- A list with what is found in it taken out. -/
def removeAll (cs : List α) : List α := replaceAll s (fun _ => []) cs

/-- The first character that is not taken out. -/
def nextKeptWithin : Nat → List α → Option (α × List α)
  | 0, cs => next cs
  | n + 1, cs =>
    match s.find cs with
    | some rest => nextKeptWithin n rest
    | none => next cs

/-- The reader of a list past what is found in it. -/
def nextKept (cs : List α) : Option (α × List α) := nextKeptWithin s cs.length cs

/-- Something is found in a list. -/
def Contains (cs : List α) : Prop := ∃ part, part <:+ cs ∧ s.find part ≠ none

/-- The scan of a list comes to `part`. -/
inductive Passes (cs : List α) : List α → Prop
  | start : Passes cs cs
  | kept {c : α} {rest : List α} : Passes cs (c :: rest) → s.find (c :: rest) = none → Passes cs rest
  | found {part rest : List α} : Passes cs part → s.find part = some rest → Passes cs rest

/-- The scan of a list keeps a character, with `after` behind it. -/
def Keeps (cs : List α) (c : α) (after : List α) : Prop :=
  Passes s cs (c :: after) ∧ s.find (c :: after) = none

/-- `out` is the list without parts that are found in it: each character is kept, in its place, or is
in one of the parts. -/
inductive Cleared : List α → List α → Prop
  | nil : Cleared [] []
  | kept {c : α} {cs out : List α} : s.find (c :: cs) = none → Cleared cs out → Cleared (c :: cs) (c :: out)
  | found {part rest out : List α} : s.find (part ++ rest) = some rest → Cleared rest out →
      Cleared (part ++ rest) out

variable {s f}

theorem Scanner.find_nil (s : Scanner α) : s.find [] = none := by
  cases h : s.find [] with
  | none => rfl
  | some rest => exact absurd (s.shorter h) (Nat.not_lt_zero _)

/-- Induction along the scan. -/
theorem Scanner.induction (s : Scanner α) {motive : List α → Prop} (nil : motive [])
    (kept : ∀ c cs, s.find (c :: cs) = none → motive cs → motive (c :: cs))
    (found : ∀ cs rest, s.find cs = some rest → motive rest → motive cs) (cs : List α) :
    motive cs := by
  induction h : cs.length using Nat.strongRecOn generalizing cs with
  | _ n ih =>
    subst h
    cases hf : s.find cs with
    | some rest => exact found cs rest hf (ih _ (s.shorter hf) rest rfl)
    | none =>
      cases cs with
      | nil => exact nil
      | cons c cs => exact kept c cs hf (ih _ (Nat.lt_succ_self _) cs rfl)

/-- Turns beyond the length change nothing. -/
theorem replaceWithin_of_le {n : Nat} {cs : List α} (hn : cs.length ≤ n) :
    replaceWithin s f n cs = replaceAll s f cs := by
  unfold replaceAll
  induction h : cs.length using Nat.strongRecOn generalizing cs n with
  | _ m ih =>
    subst h
    cases cs with
    | nil => cases n <;> rfl
    | cons c cs =>
      obtain ⟨n, rfl⟩ : ∃ k, n = k + 1 := ⟨n - 1, by simp at hn; omega⟩
      simp only [List.length_cons, replaceWithin]
      simp only [List.length_cons, Nat.add_le_add_iff_right] at hn
      cases hf : s.find (c :: cs) with
      | some rest =>
        have hlt : rest.length < cs.length + 1 := s.shorter hf
        dsimp only
        rw [ih _ hlt (by omega) rfl, ih rest.length hlt (n := cs.length) (by omega) rfl]
      | none =>
        dsimp only
        rw [ih cs.length (Nat.lt_succ_self _) hn rfl]

@[simp] theorem replaceAll_nil : replaceAll s f [] = [] := rfl

theorem replaceAll_kept {c : α} {cs : List α} (h : s.find (c :: cs) = none) :
    replaceAll s f (c :: cs) = c :: replaceAll s f cs := by
  rw [replaceAll, List.length_cons, replaceWithin, h]
  rfl

theorem replaceAll_found {cs rest : List α} (h : s.find cs = some rest) :
    replaceAll s f cs = f (cs.take (cs.length - rest.length)) ++ replaceAll s f rest := by
  cases cs with
  | nil => simp [s.find_nil] at h
  | cons c cs =>
    have hlt : rest.length < cs.length + 1 := s.shorter h
    rw [replaceAll, List.length_cons, replaceWithin, h]
    dsimp only
    rw [replaceWithin_of_le (by omega), List.length_cons]

@[simp] theorem removeAll_nil : removeAll s [] = [] := rfl

theorem removeAll_kept {c : α} {cs : List α} (h : s.find (c :: cs) = none) :
    removeAll s (c :: cs) = c :: removeAll s cs := replaceAll_kept h

theorem removeAll_found {cs rest : List α} (h : s.find cs = some rest) :
    removeAll s cs = removeAll s rest := replaceAll_found h

theorem nextKeptWithin_of_le {n : Nat} {cs : List α} (hn : cs.length ≤ n) :
    nextKeptWithin s n cs = nextKept s cs := by
  unfold nextKept
  induction h : cs.length using Nat.strongRecOn generalizing cs n with
  | _ m ih =>
    subst h
    cases hf : s.find cs with
    | some rest =>
      have hlt := s.shorter hf
      obtain ⟨n, rfl⟩ : ∃ k, n = k + 1 := ⟨n - 1, by omega⟩
      obtain ⟨m, hm⟩ : ∃ k, cs.length = k + 1 := ⟨cs.length - 1, by omega⟩
      rw [hm, nextKeptWithin, nextKeptWithin, hf]
      dsimp only
      rw [ih _ hlt (by omega) rfl, ih rest.length hlt (n := m) (by omega) rfl]
    | none => cases n <;> cases cs.length <;> simp [nextKeptWithin, hf]

theorem nextKept_found {cs rest : List α} (h : s.find cs = some rest) :
    nextKept s cs = nextKept s rest := by
  have hlt := s.shorter h
  obtain ⟨m, hm⟩ : ∃ k, cs.length = k + 1 := ⟨cs.length - 1, by omega⟩
  rw [nextKept, hm, nextKeptWithin, h]
  exact nextKeptWithin_of_le (by omega)

theorem nextKept_none {cs : List α} (h : s.find cs = none) : nextKept s cs = next cs := by
  rw [nextKept]
  cases cs.length <;> simp [nextKeptWithin, h]

/-! ## What is taken out -/

/-- **The scan takes out what it finds and keeps every other character, in order.** -/
theorem cleared_removeAll (s : Scanner α) (cs : List α) : Cleared s cs (removeAll s cs) := by
  induction cs using s.induction with
  | nil => exact .nil
  | kept c cs h ih => exact removeAll_kept h ▸ .kept h ih
  | found cs rest h ih =>
    obtain ⟨part, rfl⟩ := s.suffix h
    exact removeAll_found h ▸ .found h ih

/-- Where nothing is found, nothing is found in a suffix. -/
theorem Contains.mono {part cs : List α} (h : Contains s part) (hp : part <:+ cs) :
    Contains s cs := h.imp fun _ hs => ⟨hs.1.trans hp, hs.2⟩

theorem removeAll_length_le (s : Scanner α) (cs : List α) :
    (removeAll s cs).length ≤ cs.length := by
  induction cs using s.induction with
  | nil => exact le_rfl
  | kept c cs h ih => simpa [removeAll_kept h] using ih
  | found cs rest h ih => exact removeAll_found h ▸ ih.trans (s.shorter h).le

/-- **A list is left unchanged exactly if nothing is found in it.** -/
theorem removeAll_eq_self_iff {cs : List α} : removeAll s cs = cs ↔ ¬Contains s cs := by
  induction cs using s.induction with
  | nil =>
    refine iff_of_true rfl ?_
    rintro ⟨part, hp, hf⟩
    exact hf (List.suffix_nil.mp hp ▸ s.find_nil)
  | kept c cs h ih =>
    rw [removeAll_kept h, List.cons.injEq, and_iff_right rfl, ih, not_iff_not]
    refine ⟨fun hc => hc.mono (List.suffix_cons c cs), ?_⟩
    rintro ⟨part, hp, hf⟩
    rcases List.suffix_cons_iff.mp hp with rfl | hp
    · exact absurd h hf
    · exact ⟨part, hp, hf⟩
  | found cs rest h ih =>
    refine iff_of_false (fun heq => ?_) (not_not_intro ⟨cs, List.suffix_rfl, by simp [h]⟩)
    have hle := removeAll_length_le s rest
    rw [← removeAll_found h, heq] at hle
    exact absurd (s.shorter h) (Nat.not_lt.mpr hle)

/-! ## What is brought together -/

theorem Keeps.of_kept {c d : α} {cs after : List α} (h : s.find (c :: cs) = none)
    (hk : Keeps s cs d after) : Keeps s (c :: cs) d after := by
  refine ⟨?_, hk.2⟩
  have hpass : ∀ part, Passes s cs part → Passes s (c :: cs) part := by
    intro part hp
    induction hp with
    | start => exact .kept .start h
    | kept _ hf ih => exact .kept ih hf
    | found _ hf ih => exact .found ih hf
  exact hpass _ hk.1

theorem Keeps.of_found {d : α} {cs rest after : List α} (h : s.find cs = some rest)
    (hk : Keeps s rest d after) : Keeps s cs d after := by
  refine ⟨?_, hk.2⟩
  have hpass : ∀ part, Passes s rest part → Passes s cs part := by
    intro part hp
    induction hp with
    | start => exact .found .start h
    | kept _ hf ih => exact .kept ih hf
    | found _ hf ih => exact .found ih hf
  exact hpass _ hk.1

/-- What is left of the list where the scan passes is a suffix of what is left of the whole. -/
theorem Passes.suffix {cs part : List α} (h : Passes s cs part) :
    removeAll s part <:+ removeAll s cs := by
  induction h with
  | start => exact List.suffix_rfl
  | kept _ hf ih =>
    rw [removeAll_kept hf] at ih
    exact (List.suffix_cons _ _).trans ih
  | found _ hf ih => exact removeAll_found hf ▸ ih

/-- A character of what is left was kept, and what is behind it is what is left of what was. -/
theorem exists_keeps_of_suffix {cs part : List α} {c : α} (h : c :: part <:+ removeAll s cs) :
    ∃ after, Keeps s cs c after ∧ part = removeAll s after := by
  induction cs using s.induction with
  | nil => simp at h
  | kept d cs hf ih =>
    rw [removeAll_kept hf] at h
    rcases List.suffix_cons_iff.mp h with heq | h
    · obtain ⟨rfl, rfl⟩ := List.cons.inj heq
      exact ⟨cs, ⟨.start, hf⟩, rfl⟩
    · obtain ⟨after, hk, rfl⟩ := ih h
      exact ⟨after, hk.of_kept hf, rfl⟩
  | found cs rest hf ih =>
    rw [removeAll_found hf] at h
    obtain ⟨after, hk, rfl⟩ := ih h
    exact ⟨after, hk.of_found hf, rfl⟩

/-- Something is found in what is left exactly if it is found from a kept character. -/
theorem contains_removeAll_iff {cs : List α} :
    Contains s (removeAll s cs) ↔
      ∃ c after, Keeps s cs c after ∧ s.find (removeAll s (c :: after)) ≠ none := by
  constructor
  · rintro ⟨part, hp, hf⟩
    cases part with
    | nil => exact absurd s.find_nil hf
    | cons c part =>
      obtain ⟨after, hk, rfl⟩ := exists_keeps_of_suffix hp
      exact ⟨c, after, hk, removeAll_kept hk.2 ▸ hf⟩
  · rintro ⟨c, after, hk, hf⟩
    exact ⟨removeAll s (c :: after), hk.1.suffix, hf⟩

/-- Reading what is left is reading past what is taken out. -/
theorem next_removeAll (s : Scanner α) (cs : List α) :
    next (removeAll s cs) = (nextKept s cs).map (Prod.map id (removeAll s)) := by
  induction cs using s.induction with
  | nil => rw [nextKept_none s.find_nil]; rfl
  | kept c cs h ih => rw [removeAll_kept h, nextKept_none h]; rfl
  | found cs rest h ih => rw [removeAll_found h, nextKept_found h, ih]

/-- **A pattern is found in what is left exactly if it can be read from a kept character past what is
taken out behind it.** -/
theorem Pattern.contains_removeAll_iff {r : Pattern α} {hr : r.consumes = true} {cs : List α} :
    Contains (r.scanner hr) (removeAll (r.scanner hr) cs) ↔
      ∃ c after, Keeps (r.scanner hr) cs c after ∧
        ∃ rest, Reads (nextKept (r.scanner hr)) r (c :: after) rest := by
  rw [Regex.contains_removeAll_iff]
  simp only [Pattern.find_ne_none, reads_map (next_removeAll (r.scanner hr))]
  refine exists_congr fun c => exists_congr fun after => and_congr_right fun _ => ?_
  exact ⟨fun ⟨_, rest, h, _⟩ => ⟨rest, h⟩, fun ⟨rest, h⟩ => ⟨_, rest, h, rfl⟩⟩

end Regex
