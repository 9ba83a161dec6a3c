import Mathlib.Data.List.Infix
import Thalovant.Lib.Scan

/-!
# Replacing while something is found

What a scan finds can be replaced again and again, until nothing is found. If each part gives way to
a shorter one of its own characters there is an end to that, after as many turns as the list is long
at most (`exists_replaceWhile`).

* `replaceAll_sublist`, `filter_replaceAll`: what one scan keeps
* `contains_bracketed_iff`: something stands between two brackets exactly if the one comes before the
  other
-/

namespace Regex

variable {α : Type} {s : Scanner α} {f : List α → List α}

/-! ## One scan -/

theorem replaceAll_append {part rest : List α} (h : s.find (part ++ rest) = some rest) :
    replaceAll s f (part ++ rest) = f part ++ replaceAll s f rest := by
  rw [replaceAll_found h, List.length_append, Nat.add_sub_cancel, List.take_left]

/-- Where each part is replaced by some of its characters, so is the whole. -/
theorem replaceAll_sublist (hf : ∀ part rest, s.find (part ++ rest) = some rest → (f part).Sublist part)
    (cs : List α) : (replaceAll s f cs).Sublist cs := by
  induction cs using s.induction with
  | nil => exact List.Sublist.refl []
  | kept c cs h ih => exact replaceAll_kept h ▸ ih.cons_cons c
  | found cs rest h ih =>
    obtain ⟨part, rfl⟩ := s.suffix h
    exact replaceAll_append h ▸ (hf part rest h).append ih

/-- What a scan does not change of any part it does not change of the whole. -/
theorem filter_replaceAll {p : α → Bool}
    (hf : ∀ part rest, s.find (part ++ rest) = some rest → (f part).filter p = part.filter p)
    (cs : List α) : (replaceAll s f cs).filter p = cs.filter p := by
  induction cs using s.induction with
  | nil => rfl
  | kept c cs h ih => rw [replaceAll_kept h, List.filter_cons, List.filter_cons, ih]
  | found cs rest h ih =>
    obtain ⟨part, rfl⟩ := s.suffix h
    rw [replaceAll_append h, List.filter_append, List.filter_append, hf part rest h, ih]

/-! ## One scan after another -/

/-- `is_match`. -/
instance (cs : List α) : Decidable (Contains s cs) :=
  decidable_of_iff (∃ part ∈ cs.tails, (s.find part).isSome = true) <| by
    simp only [Contains, List.mem_tails, Option.isSome_iff_ne_none]

/-- The list once nothing is found any more, if that is so after so many turns. -/
def replaceWhile (s : Scanner α) (f : List α → List α) : Nat → List α → Option (List α)
  | turns, cs =>
    if Contains s cs then
      match turns with
      | 0 => none
      | turns + 1 => replaceWhile s f turns (replaceAll s f cs)
    else some cs

/-- Each part that is found is replaced by fewer of its characters. -/
def Shrinks (s : Scanner α) (f : List α → List α) : Prop :=
  ∀ part rest, s.find (part ++ rest) = some rest → (f part).Sublist part ∧ f part ≠ part

theorem Shrinks.replaceAll_sublist (h : Shrinks s f) (cs : List α) :
    (replaceAll s f cs).Sublist cs :=
  Regex.replaceAll_sublist (fun part rest hfind => (h part rest hfind).1) cs

/-- A turn takes something away. -/
theorem Shrinks.length_lt (h : Shrinks s f) {cs : List α} (hc : Contains s cs) :
    (replaceAll s f cs).length < cs.length := by
  induction cs using s.induction with
  | nil =>
    obtain ⟨part, hpart, hfind⟩ := hc
    exact absurd s.find_nil (List.suffix_nil.mp hpart ▸ hfind)
  | kept c cs hnone ih =>
    obtain ⟨part, hpart, hfind⟩ := hc
    rcases List.suffix_cons_iff.mp hpart with rfl | hpart
    · exact absurd hnone hfind
    · rw [replaceAll_kept hnone]
      exact Nat.succ_lt_succ (ih ⟨part, hpart, hfind⟩)
  | found cs rest hfind _ =>
    obtain ⟨part, rfl⟩ := s.suffix hfind
    obtain ⟨hsub, hne⟩ := h part rest hfind
    have hpart : (f part).length < part.length :=
      Nat.lt_of_le_of_ne hsub.length_le fun heq => hne (hsub.eq_of_length heq)
    have hrest := (h.replaceAll_sublist rest).length_le
    rw [replaceAll_append hfind, List.length_append, List.length_append]
    omega

/-- **There is an end to replacing.** What is left is some of the characters, and nothing is found in
it. -/
theorem exists_replaceWhile (h : Shrinks s f) (cs : List α) :
    ∃ out, (∀ turns, cs.length ≤ turns → replaceWhile s f turns cs = some out) ∧
      out.Sublist cs ∧ ¬Contains s out := by
  induction hlen : cs.length using Nat.strongRecOn generalizing cs with
  | _ n ih =>
    subst hlen
    by_cases hc : Contains s cs
    · have hlt := h.length_lt hc
      obtain ⟨out, hout, hsub, hnone⟩ := ih _ hlt (replaceAll s f cs) rfl
      refine ⟨out, ?_, hsub.trans (h.replaceAll_sublist cs), hnone⟩
      intro turns hturns
      cases turns with
      | zero => omega
      | succ turns =>
        rw [replaceWhile, if_pos hc]
        exact hout turns (by omega)
    · refine ⟨cs, ?_, List.Sublist.refl cs, hc⟩
      intro turns _
      cases turns <;> rw [replaceWhile, if_neg hc]

/-! ## Between brackets -/

variable [DecidableEq α]

/-- What stands between an opening bracket and a closing one, without either of them in it. -/
def Pattern.bracketed (o c : α) : Pattern α :=
  .seq (.one (· = o)) (.seq (.many (.one fun a => a ≠ o && a ≠ c)) (.one (· = c)))

theorem Pattern.bracketed_consumes (o c : α) : (Pattern.bracketed o c).consumes = true := rfl

/-- The scanner of what stands between brackets. -/
def bracketScanner (o c : α) : Scanner α :=
  (Pattern.bracketed o c).scanner (Pattern.bracketed_consumes o c)

theorem reads_bracketed_iff {o c : α} {cs rest : List α} :
    Reads next (.bracketed o c) cs rest ↔
      ∃ w, cs = o :: (w ++ c :: rest) ∧ ∀ a ∈ w, a ≠ o ∧ a ≠ c := by
  rw [Pattern.bracketed, reads_one_seq_iff]
  simp only [reads_seq_one_iff, reads_many_iff, decide_eq_true_eq, Bool.and_eq_true]
  constructor
  · rintro ⟨_, _, rfl, rfl, _, rfl, w, rfl, hw⟩
    exact ⟨w, rfl, hw⟩
  · rintro ⟨w, rfl, hw⟩
    exact ⟨o, _, rfl, rfl, c, rfl, w, rfl, hw⟩

/-- A part that is found stands between brackets. -/
theorem bracketScanner_find {o c : α} {part rest : List α}
    (h : (bracketScanner o c).find (part ++ rest) = some rest) :
    ∃ w, part = o :: (w ++ [c]) ∧ ∀ a ∈ w, a ≠ o ∧ a ≠ c := by
  obtain ⟨w, hpart, hw⟩ := reads_bracketed_iff.mp (mem_rests.mp (List.mem_of_head? h))
  refine ⟨w, (List.append_left_inj rest).mp ?_, hw⟩
  rw [hpart, List.cons_append, List.append_assoc, List.singleton_append]

/-- **Something stands between brackets exactly if an opening one comes before a closing one.** -/
theorem contains_bracketed_iff {o c : α} (hoc : o ≠ c) {cs : List α} :
    Contains (bracketScanner o c) cs ↔ [o, c].Sublist cs := by
  constructor
  · rintro ⟨part, hpart, hfind⟩
    obtain ⟨rest, hreads⟩ := Pattern.find_ne_none.mp hfind
    obtain ⟨w, rfl, -⟩ := reads_bracketed_iff.mp hreads
    have hsub : [o, c].Sublist (o :: (w ++ c :: rest)) :=
      (List.singleton_sublist.mpr (by simp)).cons_cons o
    exact hsub.trans hpart.sublist
  · intro h
    induction cs with
    | nil => exact absurd (List.sublist_nil.mp h) (List.cons_ne_nil _ _)
    | cons a cs ih =>
      by_cases hlater : [o, c].Sublist cs
      · exact (ih hlater).mono (List.suffix_cons a cs)
      · -- the opening bracket is the first character, and none follows before the closing one
        have hfirst : a = o ∧ c ∈ cs := by
          cases h with
          | cons _ h => exact absurd h hlater
          | cons_cons _ h => exact ⟨rfl, List.singleton_sublist.mp h⟩
        obtain ⟨rfl, hc⟩ := hfirst
        obtain ⟨w, rest, rfl, hw⟩ := List.eq_append_cons_of_mem hc
        refine ⟨_, List.suffix_rfl, Pattern.find_ne_none.mpr ⟨rest, ?_⟩⟩
        refine reads_bracketed_iff.mpr ⟨w, rfl, fun b hb => ⟨?_, ?_⟩⟩
        · rintro rfl
          refine hlater ?_
          exact (List.singleton_sublist.mpr hb).append (List.singleton_sublist.mpr List.mem_cons_self)
        · rintro rfl
          exact hw hb

end Regex
