import Mathlib.Logic.Relation
import Mathlib.Data.List.Infix

/-!
# Patterns, and what a scan replaces

A pattern reads characters, preferring its alternatives in the order they are written. What it can
read is said of any reader, so that reading a list and reading it past what is to be skipped are one
notion. A scan goes through a list once, from the left, and replaces each part that a pattern reads.
-/

namespace Regex

variable {α σ τ : Type}

/-! ## Patterns -/

/-- A pattern; a repetition takes as much as it can if it is greedy, else as little. -/
inductive Pattern (α : Type) where
  | empty
  | one (p : α → Bool)
  | seq (a b : Pattern α)
  | alt (a b : Pattern α)
  | star (greedy : Bool) (a : Pattern α)

/-- What a pattern can read: `s'` is left of `s`. -/
def Reads (read : σ → Option (α × σ)) : Pattern α → σ → σ → Prop
  | .empty, s, s' => s' = s
  | .one p, s, s' => ∃ c, read s = some (c, s') ∧ p c = true
  | .seq a b, s, s' => ∃ m, Reads read a s m ∧ Reads read b m s'
  | .alt a b, s, s' => Reads read a s s' ∨ Reads read b s s'
  | .star _ a, s, s' => Relation.ReflTransGen (Reads read a) s s'

/-- The repetition of what `f` leaves, at most `n` times; each time must leave less. -/
def starRests (greedy : Bool) (f : List α → List (List α)) : Nat → List α → List (List α)
  | 0, cs => [cs]
  | n + 1, cs =>
    let more := ((f cs).filter fun rest => rest.length < cs.length).flatMap (starRests greedy f n)
    if greedy then more ++ [cs] else cs :: more

/-- What a pattern can leave of a list, the preferred first. -/
def rests : Pattern α → List α → List (List α)
  | .empty, cs => [cs]
  | .one _, [] => []
  | .one p, c :: cs => if p c then [cs] else []
  | .seq a b, cs => (rests a cs).flatMap (rests b)
  | .alt a b, cs => rests a cs ++ rests b cs
  | .star greedy a, cs => starRests greedy (rests a) cs.length cs

namespace Pattern

/-- `a?` -/
def opt (a : Pattern α) : Pattern α := .alt a .empty

/-- `a*` -/
def many (a : Pattern α) : Pattern α := .star true a

/-- `a+` -/
def many1 (a : Pattern α) : Pattern α := .seq a a.many

/-- The characters themselves. -/
def literal [DecidableEq α] : List α → Pattern α
  | [] => .empty
  | [c] => .one (· = c)
  | c :: cs => .seq (.one (· = c)) (literal cs)

/-- One of some patterns. -/
def oneOf : List (Pattern α) → Pattern α
  | [] => .one fun _ => false
  | [a] => a
  | a :: as => .alt a (oneOf as)

/-- `a{0,n}` -/
def upTo (a : Pattern α) : Nat → Pattern α
  | 0 => .empty
  | n + 1 => opt (.seq a (upTo a n))

/-- `a{m,m+n}` -/
def between (a : Pattern α) (m n : Nat) : Pattern α :=
  match m with
  | 0 => upTo a n
  | m + 1 => .seq a (between a m n)

/-- Whether a pattern cannot read without taking a character. -/
def consumes : Pattern α → Bool
  | .empty => false
  | .one _ => true
  | .seq a b => a.consumes || b.consumes
  | .alt a b => a.consumes && b.consumes
  | .star _ _ => false

end Pattern

/-! ## Readers -/

/-- **What a pattern reads is kept by a map of readers**: `h` takes one to the other. -/
theorem reads_map {read : σ → Option (α × σ)} {read' : τ → Option (α × τ)} {h : σ → τ}
    (hread : ∀ s, read' (h s) = (read s).map (Prod.map id h)) (r : Pattern α) (s : σ) (t : τ) :
    Reads read' r (h s) t ↔ ∃ s', Reads read r s s' ∧ h s' = t := by
  induction r generalizing s t with
  | empty => simp [Reads, eq_comm]
  | one p =>
    simp only [Reads, hread, Option.map_eq_some_iff, Prod.exists, Prod.map_apply, id, Prod.mk.injEq]
    constructor
    · rintro ⟨c, ⟨_, s', hs, rfl, rfl⟩, hp⟩
      exact ⟨s', ⟨_, hs, hp⟩, rfl⟩
    · rintro ⟨s', ⟨c, hs, hp⟩, rfl⟩
      exact ⟨c, ⟨c, s', hs, rfl, rfl⟩, hp⟩
  | seq a b iha ihb =>
    simp only [Reads]
    constructor
    · rintro ⟨m, ha, hb⟩
      obtain ⟨m', ha', rfl⟩ := (iha s m).mp ha
      obtain ⟨s', hb', rfl⟩ := (ihb m' t).mp hb
      exact ⟨s', ⟨m', ha', hb'⟩, rfl⟩
    · rintro ⟨s', ⟨m', ha', hb'⟩, rfl⟩
      exact ⟨h m', (iha s _).mpr ⟨m', ha', rfl⟩, (ihb m' _).mpr ⟨s', hb', rfl⟩⟩
  | alt a b iha ihb => simp only [Reads, iha, ihb, or_and_right, exists_or]
  | star greedy a iha =>
    simp only [Reads]
    constructor
    · -- the steps of the one reader are those of the other, one by one
      intro hr
      induction hr with
      | refl => exact ⟨s, .refl, rfl⟩
      | tail _ step ih =>
        obtain ⟨m', hm, rfl⟩ := ih
        obtain ⟨s', hs, rfl⟩ := (iha m' _).mp step
        exact ⟨s', hm.tail hs, rfl⟩
    · rintro ⟨s', hr, rfl⟩
      exact hr.lift h fun m m' step => (iha m _).mpr ⟨m', step, rfl⟩

/-- The reader of a list. -/
def next : List α → Option (α × List α)
  | [] => none
  | c :: cs => some (c, cs)

theorem next_eq_some_iff {cs rest : List α} {c : α} :
    next cs = some (c, rest) ↔ cs = c :: rest := by
  cases cs <;> simp [next]

theorem Reads.suffix {r : Pattern α} {cs rest : List α} (h : Reads next r cs rest) :
    rest <:+ cs := by
  induction r generalizing cs rest with
  | empty => exact h ▸ List.suffix_rfl
  | one p =>
    obtain ⟨c, hc, _⟩ := h
    exact next_eq_some_iff.mp hc ▸ List.suffix_cons c rest
  | seq a b iha ihb =>
    obtain ⟨m, ha, hb⟩ := h
    exact (ihb hb).trans (iha ha)
  | alt a b iha ihb => exact h.elim iha ihb
  | star greedy a iha =>
    unfold Reads at h
    induction h with
    | refl => exact List.suffix_rfl
    | tail _ step ih => exact (iha step).trans ih

theorem Reads.length_lt {r : Pattern α} {cs rest : List α} (h : Reads next r cs rest)
    (hr : r.consumes = true) : rest.length < cs.length := by
  induction r generalizing cs rest with
  | empty | star => simp [Pattern.consumes] at hr
  | one p =>
    obtain ⟨c, hc, _⟩ := h
    simp [next_eq_some_iff.mp hc]
  | seq a b iha ihb =>
    obtain ⟨m, ha, hb⟩ := h
    have h₁ := ha.suffix.length_le
    have h₂ := hb.suffix.length_le
    rcases Bool.or_eq_true _ _ ▸ hr with hr | hr
    · exact lt_of_le_of_lt h₂ (iha ha hr)
    · exact lt_of_lt_of_le (ihb hb hr) h₁
  | alt a b iha ihb =>
    obtain ⟨h₁, h₂⟩ := Bool.and_eq_true _ _ ▸ hr
    exact h.elim (iha · h₁) (ihb · h₂)

/-! ## What the small patterns read -/

theorem reads_one_iff {p : α → Bool} {cs rest : List α} :
    Reads next (.one p) cs rest ↔ ∃ c, cs = c :: rest ∧ p c = true := by
  simp only [Reads, next_eq_some_iff]

/-- One character, and then what the rest of the pattern reads. -/
theorem reads_one_seq_iff {p : α → Bool} {r : Pattern α} {cs rest : List α} :
    Reads next (.seq (.one p) r) cs rest ↔ ∃ c m, cs = c :: m ∧ p c = true ∧ Reads next r m rest := by
  rw [Reads]
  simp only [reads_one_iff]
  constructor
  · rintro ⟨m, ⟨c, rfl, hc⟩, h⟩
    exact ⟨c, m, rfl, hc, h⟩
  · rintro ⟨c, m, rfl, hc, h⟩
    exact ⟨m, ⟨c, rfl, hc⟩, h⟩

/-- What the pattern reads, and then one character. -/
theorem reads_seq_one_iff {p : α → Bool} {r : Pattern α} {cs rest : List α} :
    Reads next (.seq r (.one p)) cs rest ↔ ∃ c, p c = true ∧ Reads next r cs (c :: rest) := by
  rw [Reads]
  simp only [reads_one_iff]
  constructor
  · rintro ⟨_, h, c, rfl, hc⟩
    exact ⟨c, hc, h⟩
  · rintro ⟨c, hc, h⟩
    exact ⟨c :: rest, h, c, rfl, hc⟩

theorem reads_literal_iff [DecidableEq α] {w cs rest : List α} :
    Reads next (.literal w) cs rest ↔ cs = w ++ rest := by
  induction w generalizing cs with
  | nil => exact eq_comm
  | cons c w ih =>
    cases w with
    | nil => simp [Pattern.literal, reads_one_iff]
    | cons d w =>
      rw [Pattern.literal.eq_3 c (d :: w) (List.cons_ne_nil d w), Reads]
      simp only [reads_one_iff, ih, decide_eq_true_eq]
      constructor
      · rintro ⟨_, ⟨_, rfl, rfl⟩, rfl⟩
        rfl
      · rintro rfl
        exact ⟨_, ⟨c, rfl, rfl⟩, rfl⟩

theorem reads_oneOf_iff {read : σ → Option (α × σ)} {as : List (Pattern α)} {s s' : σ} :
    Reads read (.oneOf as) s s' ↔ ∃ a ∈ as, Reads read a s s' := by
  induction as with
  | nil => simp [Pattern.oneOf, Reads]
  | cons a as ih =>
    cases as with
    | nil => simp [Pattern.oneOf]
    | cons b as =>
      rw [Pattern.oneOf.eq_3 a (b :: as) (List.cons_ne_nil b as), Reads, ih]
      simp only [List.mem_cons, exists_eq_or_imp]

/-- `p{0,n}` reads so many characters at most. -/
theorem reads_upTo_iff {p : α → Bool} {n : Nat} {cs rest : List α} :
    Reads next (Pattern.upTo (.one p) n) cs rest ↔
      ∃ w, cs = w ++ rest ∧ w.length ≤ n ∧ ∀ c ∈ w, p c = true := by
  induction n generalizing cs with
  | zero =>
    constructor
    · intro h
      exact ⟨[], h.symm, Nat.le_refl 0, List.forall_mem_nil _⟩
    · rintro ⟨w, rfl, hw, -⟩
      obtain rfl := List.length_eq_zero_iff.mp (Nat.le_zero.mp hw)
      rfl
  | succ n ih =>
    have hstep : Reads next (Pattern.upTo (.one p) (n + 1)) cs rest ↔
        (∃ m, Reads next (.one p) cs m ∧ Reads next (Pattern.upTo (.one p) n) m rest) ∨
          rest = cs := Iff.rfl
    simp only [hstep, reads_one_iff, ih]
    constructor
    · rintro (⟨_, ⟨c, rfl, hc⟩, w, rfl, hw, hall⟩ | rfl)
      · exact ⟨c :: w, rfl, Nat.succ_le_succ hw, List.forall_mem_cons.mpr ⟨hc, hall⟩⟩
      · exact ⟨[], rfl, Nat.zero_le _, List.forall_mem_nil _⟩
    · rintro ⟨w, rfl, hw, hall⟩
      cases w with
      | nil => exact .inr rfl
      | cons c w =>
        obtain ⟨hc, hall⟩ := List.forall_mem_cons.mp hall
        exact .inl ⟨w ++ rest, ⟨c, rfl, hc⟩, w, rfl, Nat.le_of_succ_le_succ hw, hall⟩

/-- `p{m,m+n}` -/
theorem reads_between_iff {p : α → Bool} {m n : Nat} {cs rest : List α} :
    Reads next (Pattern.between (.one p) m n) cs rest ↔
      ∃ w, cs = w ++ rest ∧ m ≤ w.length ∧ w.length ≤ m + n ∧ ∀ c ∈ w, p c = true := by
  induction m generalizing cs with
  | zero => simp [Pattern.between, reads_upTo_iff]
  | succ m ih =>
    rw [Pattern.between, Reads]
    simp only [reads_one_iff, ih]
    constructor
    · rintro ⟨_, ⟨c, rfl, hc⟩, w, rfl, hle, hge, hall⟩
      exact ⟨c :: w, rfl, Nat.succ_le_succ hle, by simp only [List.length_cons]; omega,
        List.forall_mem_cons.mpr ⟨hc, hall⟩⟩
    · rintro ⟨w, rfl, hle, hge, hall⟩
      cases w with
      | nil => exact absurd hle (Nat.not_succ_le_zero m)
      | cons c w =>
        obtain ⟨hc, hall⟩ := List.forall_mem_cons.mp hall
        simp only [List.length_cons] at hle hge
        exact ⟨w ++ rest, ⟨c, rfl, hc⟩, w, rfl, by omega, by omega, hall⟩

/-- `p*` -/
theorem reads_many_iff {p : α → Bool} {cs rest : List α} :
    Reads next (Pattern.many (.one p)) cs rest ↔ ∃ w, cs = w ++ rest ∧ ∀ c ∈ w, p c = true := by
  rw [Pattern.many, Reads]
  constructor
  · intro h
    induction h using Relation.ReflTransGen.head_induction_on with
    | refl => exact ⟨[], rfl, List.forall_mem_nil _⟩
    | head step _ ih =>
      obtain ⟨c, rfl, hc⟩ := reads_one_iff.mp step
      obtain ⟨w, rfl, hall⟩ := ih
      exact ⟨c :: w, rfl, List.forall_mem_cons.mpr ⟨hc, hall⟩⟩
  · rintro ⟨w, rfl, hall⟩
    induction w with
    | nil => exact .refl
    | cons c w ih =>
      obtain ⟨hc, hall⟩ := List.forall_mem_cons.mp hall
      exact .head (reads_one_iff.mpr ⟨c, rfl, hc⟩) (ih hall)

/-! ## What is computed -/

/-- A repetition leaves what its steps lead to, if it may take enough of them. -/
theorem mem_starRests {greedy : Bool} {f : List α → List (List α)}
    (hf : ∀ cs rest, rest ∈ f cs → rest <:+ cs) {n : Nat} {cs rest : List α}
    (hn : cs.length ≤ n) :
    rest ∈ starRests greedy f n cs ↔ Relation.ReflTransGen (fun cs rest => rest ∈ f cs) cs rest := by
  induction n generalizing cs with
  | zero =>
    have hcs : cs = [] := List.length_eq_zero_iff.mp (Nat.le_zero.mp hn)
    subst hcs
    simp only [starRests, List.mem_singleton]
    refine ⟨fun h => h ▸ .refl, fun h => ?_⟩
    induction h with
    | refl => rfl
    | tail _ step ih => exact List.suffix_nil.mp (ih ▸ hf _ _ step)
  | succ n ih =>
    have hmem : rest ∈ starRests greedy f (n + 1) cs ↔
        rest = cs ∨ ∃ m ∈ f cs, m.length < cs.length ∧ rest ∈ starRests greedy f n m := by
      cases greedy <;> simp [starRests, or_comm, and_assoc]
    rw [hmem]
    constructor
    · rintro (rfl | ⟨m, hm, hlt, hr⟩)
      · exact .refl
      · exact .head hm ((ih (by omega)).mp hr)
    · intro h
      induction h using Relation.ReflTransGen.head_induction_on with
      | refl => exact .inl rfl
      | head step tail ih' =>
        -- a step that takes nothing leads nowhere else
        rename_i c d
        rcases Nat.lt_or_ge d.length c.length with hlt | hge
        · exact .inr ⟨d, step, hlt, (ih (by omega)).mpr tail⟩
        · have hcd : d = c := (hf _ _ step).eq_of_length_le hge
          subst hcd
          exact ih' hn hmem

/-- **What is computed is what the pattern can read.** -/
theorem mem_rests {r : Pattern α} {cs rest : List α} :
    rest ∈ rests r cs ↔ Reads next r cs rest := by
  induction r generalizing cs rest with
  | empty => simp [rests, Reads]
  | one p =>
    cases cs with
    | nil => simp [rests, Reads, next]
    | cons c cs =>
      simp only [rests, Reads, next, Option.some.injEq, Prod.mk.injEq]
      by_cases hp : p c = true
      · rw [if_pos hp, List.mem_singleton]
        exact ⟨fun h => ⟨c, ⟨rfl, h.symm⟩, hp⟩, fun ⟨_, ⟨_, h⟩, _⟩ => h.symm⟩
      · rw [if_neg hp]
        refine ⟨fun h => absurd h List.not_mem_nil, ?_⟩
        rintro ⟨d, ⟨rfl, _⟩, hd⟩
        exact absurd hd hp
  | seq a b iha ihb => simp [rests, Reads, iha, ihb]
  | alt a b iha ihb => simp [rests, Reads, iha, ihb]
  | star greedy a iha =>
    have hsteps : (fun cs rest => rest ∈ rests a cs) = Reads next a := by
      funext cs rest
      exact propext iha
    rw [rests, mem_starRests (fun cs rest h => (iha.mp h).suffix) le_rfl, hsteps, Reads]

end Regex
