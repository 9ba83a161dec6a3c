import Mathlib.Data.List.Chain
import Mathlib.Data.List.DropRight

/-!
# Trimming a list, and its words

What a predicate takes off both ends of a list. The items in the middle stay, whatever they are. Words
between the items of a predicate, put together with one separator, need no trimming.
-/

namespace Trim

variable {α : Type} (p : α → Bool)

/-- The list without the items at its ends that the predicate is for. -/
def both (l : List α) : List α := (l.dropWhile p).rdropWhile p

/-- There is nothing to take off the end. -/
def EndSettled (l : List α) : Prop := ∀ a ∈ l.getLast?, p a = false

/-- There is nothing to take off the start. -/
def StartSettled (l : List α) : Prop := ∀ a ∈ l.head?, p a = false

instance (l : List α) : Decidable (EndSettled p l) :=
  inferInstanceAs (Decidable (∀ a ∈ l.getLast?, p a = false))

instance (l : List α) : Decidable (StartSettled p l) :=
  inferInstanceAs (Decidable (∀ a ∈ l.head?, p a = false))

variable {p} {l : List α}

/-! ## One end -/

theorem dropWhile_eq_self_iff : l.dropWhile p = l ↔ StartSettled p l := by
  cases l with
  | nil => simp [StartSettled]
  | cons a l =>
    simp only [StartSettled, List.head?_cons, Option.mem_def, Option.some.injEq, forall_eq',
      List.dropWhile_cons]
    split
    · next h =>
      have hne : l.dropWhile p ≠ a :: l := fun heq => by
        have := (List.dropWhile_suffix (l := l) p).length_le
        rw [heq, List.length_cons] at this
        omega
      simp [hne, h]
    · next h => simpa using h

theorem rdropWhile_eq_self_iff : l.rdropWhile p = l ↔ EndSettled p l := by
  rw [List.rdropWhile_eq_self_iff]
  constructor
  · intro h a ha
    obtain ⟨hne, rfl⟩ := List.mem_getLast?_eq_getLast ha
    simpa using h hne
  · intro h hne
    rw [h _ (List.getLast_mem_getLast? hne)]
    simp

theorem startSettled_dropWhile (l : List α) : StartSettled p (l.dropWhile p) :=
  dropWhile_eq_self_iff.mp (List.dropWhile_idempotent p l)

theorem endSettled_rdropWhile (l : List α) : EndSettled p (l.rdropWhile p) :=
  rdropWhile_eq_self_iff.mp (List.rdropWhile_idempotent p l)

/-- Taking something off the end leaves the start, if anything is left. -/
theorem StartSettled.rdropWhile {q : α → Bool} (h : StartSettled p l) :
    StartSettled p (l.rdropWhile q) := by
  intro a ha
  obtain ⟨t, ht⟩ := List.rdropWhile_prefix q l
  have hhead : l.head? = some a := by
    rw [← ht, List.head?_append, Option.mem_def.mp ha]
    rfl
  exact h a hhead

theorem EndSettled.dropWhile {q : α → Bool} (h : EndSettled p l) : EndSettled p (l.dropWhile q) := by
  intro a ha
  obtain ⟨t, ht⟩ := List.dropWhile_suffix (l := l) q
  have hlast : l.getLast? = some a := by
    rw [← ht, List.getLast?_append, Option.mem_def.mp ha]
    rfl
  exact h a hlast

theorem EndSettled.append {k : List α} (h : EndSettled p l) (hne : l ≠ []) : EndSettled p (k ++ l) := by
  intro a ha
  rw [List.getLast?_append, List.getLast?_eq_some_getLast hne] at ha
  exact h a (by rw [List.getLast?_eq_some_getLast hne]; exact ha)

theorem StartSettled.mono {q : α → Bool} (h : StartSettled p l) (hqp : ∀ a, q a = true → p a = true) :
    StartSettled q l :=
  fun a ha => by_contra fun hq => absurd (hqp a (by simpa using hq)) (by simp [h a ha])

theorem EndSettled.mono {q : α → Bool} (h : EndSettled p l) (hqp : ∀ a, q a = true → p a = true) :
    EndSettled q l :=
  fun a ha => by_contra fun hq => absurd (hqp a (by simpa using hq)) (by simp [h a ha])

/-! ## Both ends -/

theorem startSettled_both (l : List α) : StartSettled p (both p l) :=
  (startSettled_dropWhile l).rdropWhile

theorem endSettled_both (l : List α) : EndSettled p (both p l) := endSettled_rdropWhile _

theorem both_eq_self_iff : both p l = l ↔ StartSettled p l ∧ EndSettled p l := by
  constructor
  · intro h
    rw [← h]
    exact ⟨startSettled_both l, endSettled_both l⟩
  · rintro ⟨hstart, hend⟩
    rw [both, dropWhile_eq_self_iff.mpr hstart, rdropWhile_eq_self_iff.mpr hend]

@[simp] theorem both_both (l : List α) : both p (both p l) = both p l :=
  both_eq_self_iff.mpr ⟨startSettled_both l, endSettled_both l⟩

theorem both_sublist (l : List α) : (both p l).Sublist l :=
  (List.rdropWhile_prefix p _).sublist.trans (List.dropWhile_sublist p)

theorem both_eq_nil_iff : both p l = [] ↔ ∀ a ∈ l, p a = true := by
  rw [both, List.rdropWhile_eq_nil_iff]
  constructor
  · intro h a ha
    by_contra hp
    have hmem : a ∈ l.dropWhile p := by
      rw [← List.takeWhile_append_dropWhile (p := p) (l := l)] at ha
      rcases List.mem_append.mp ha with ha | ha
      · exact absurd (List.mem_takeWhile_imp ha) hp
      · exact ha
    exact hp (h a hmem)
  · exact fun h a ha => h a ((List.dropWhile_sublist p).mem ha)

/-- Where nothing is taken off the start, only the end is trimmed. -/
theorem both_of_startSettled (h : StartSettled p l) : both p l = l.rdropWhile p := by
  rw [both, dropWhile_eq_self_iff.mpr h]

/-- What is stripped off the end after trimming stays as it is where the trimming has nothing to take off
any more. -/
theorem rdropWhile_both_eq_self_iff {q : α → Bool} (hstart : StartSettled p l)
    (hstop : EndSettled q l) : (both p l).rdropWhile q = l ↔ EndSettled p l := by
  rw [both_of_startSettled hstart]
  constructor
  · intro h
    rw [← rdropWhile_eq_self_iff]
    refine (List.rdropWhile_prefix p l).eq_of_length_le ?_
    conv_lhs => rw [← h]
    exact (List.rdropWhile_prefix q _).length_le
  · intro h
    rw [rdropWhile_eq_self_iff.mpr h, rdropWhile_eq_self_iff.mpr hstop]

/-- The same where something is put before what was stripped at both ends, and stripped off again. -/
theorem strip_both_cons_eq_self_iff {q : α → Bool} {a : α} (hp : p a = false) (hq : q a = true)
    (hne : l ≠ []) (hstart : StartSettled q l) (hstop : EndSettled q l) :
    ((both p (a :: l)).rdropWhile q).dropWhile q = l ↔ EndSettled p l := by
  have hcons : StartSettled p (a :: l) := by simpa [StartSettled] using hp
  have hend : ∀ {r : α → Bool}, EndSettled r (a :: l) ↔ EndSettled r l := fun {r} => by
    rw [EndSettled, EndSettled, List.getLast?_cons, List.getLast?_eq_some_getLast hne]
    rfl
  rw [both_of_startSettled hcons]
  constructor
  · intro h
    -- taking off the first item again leaves less than there was
    have hlength : (((a :: l).rdropWhile p).rdropWhile q).length ≤ ((a :: l).rdropWhile p).length :=
      (List.rdropWhile_prefix q _).length_le
    have hprefix := (List.rdropWhile_prefix q _).trans (List.rdropWhile_prefix p (a :: l))
    rw [← hend, ← rdropWhile_eq_self_iff]
    refine (List.rdropWhile_prefix p _).eq_of_length_le ?_
    cases hstripped : ((a :: l).rdropWhile p).rdropWhile q with
    | nil =>
      rw [hstripped, List.dropWhile_nil] at h
      exact absurd h.symm hne
    | cons b rest =>
      rw [hstripped] at h hlength hprefix
      obtain ⟨tail, htail⟩ := hprefix
      obtain rfl : b = a := (List.cons.inj htail).1
      rw [List.dropWhile_cons_of_pos hq] at h
      have hrest := (List.dropWhile_suffix (l := rest) q).length_le
      rw [h] at hrest
      simp only [List.length_cons] at hlength ⊢
      omega
  · intro h
    rw [rdropWhile_eq_self_iff.mpr (hend.mpr h), rdropWhile_eq_self_iff.mpr (hend.mpr hstop),
      List.dropWhile_cons_of_pos hq, dropWhile_eq_self_iff.mpr hstart]

/-! ## Stripping between two trims -/

/-- Items of `p`, then of `q`, then of `p`, each of which there may be none of. -/
def OneRun (p q : α → Bool) (l : List α) : Prop :=
  ∃ a b c, l = a ++ b ++ c ∧ (∀ x ∈ a, p x = true) ∧ (∀ x ∈ b, q x = true) ∧ ∀ x ∈ c, p x = true

theorem OneRun.reverse {q : α → Bool} (h : OneRun p q l) : OneRun p q l.reverse := by
  obtain ⟨a, b, c, rfl, ha, hb, hc⟩ := h
  refine ⟨c.reverse, b.reverse, a.reverse, by simp, ?_, ?_, ?_⟩
  · simpa using hc
  · simpa using hb
  · simpa using ha

theorem oneRun_reverse {q : α → Bool} : OneRun p q l.reverse ↔ OneRun p q l := by
  refine ⟨fun h => ?_, OneRun.reverse⟩
  simpa using h.reverse

theorem dropWhile_append_of_all {k : List α} (h : ∀ a ∈ k, p a = true) (l : List α) :
    (k ++ l).dropWhile p = l.dropWhile p := by
  rw [List.dropWhile_append, List.dropWhile_eq_nil_iff.mpr h]
  rfl

theorem dropWhile_append_of_startSettled {k : List α} (h : StartSettled p l) :
    (k ++ l).dropWhile p = k.dropWhile p ++ l := by
  rw [List.dropWhile_append, dropWhile_eq_self_iff.mpr h]
  split
  · next hnil => rw [List.isEmpty_iff.mp hnil, List.nil_append]
  · rfl

theorem dropWhile_suffix_dropWhile {k : List α} (h : k <:+ l) : k.dropWhile p <:+ l.dropWhile p := by
  obtain ⟨t, rfl⟩ := h
  rw [List.dropWhile_append]
  split
  · exact List.suffix_rfl
  · exact (List.dropWhile_suffix p).trans (List.suffix_append _ _)

/-- One run is what is gone once its three parts are dropped. -/
theorem oneRun_iff {q : α → Bool} :
    OneRun p q l ↔ ((l.dropWhile p).dropWhile q).dropWhile p = [] := by
  constructor
  · rintro ⟨a, b, c, rfl, ha, hb, hc⟩
    have hp : (a ++ b ++ c).dropWhile p <:+ b ++ c := by
      rw [List.append_assoc, dropWhile_append_of_all ha]
      exact List.dropWhile_suffix p
    have hq : ((a ++ b ++ c).dropWhile p).dropWhile q <:+ c := by
      refine (dropWhile_suffix_dropWhile hp).trans ?_
      rw [dropWhile_append_of_all hb]
      exact List.dropWhile_suffix q
    have hnil := dropWhile_suffix_dropWhile (p := p) hq
    rw [List.dropWhile_eq_nil_iff.mpr hc] at hnil
    exact List.suffix_nil.mp hnil
  · intro h
    refine ⟨l.takeWhile p, (l.dropWhile p).takeWhile q, (l.dropWhile p).dropWhile q, ?_,
      fun x hx => List.mem_takeWhile_imp hx, fun x hx => List.mem_takeWhile_imp hx,
      List.dropWhile_eq_nil_iff.mp h⟩
    rw [List.append_assoc, List.takeWhile_append_dropWhile, List.takeWhile_append_dropWhile]

/-- Dropping from the start leaves something of `q` in front unless what stands there is one run. -/
theorem startSettled_drops_iff {q : α → Bool} :
    StartSettled q (((l.dropWhile p).dropWhile q).dropWhile p) ↔
      OneRun p q (l.takeWhile fun a => p a || q a) := by
  generalize hrun : l.takeWhile (fun a => p a || q a) = run
  generalize hrest : l.dropWhile (fun a => p a || q a) = rest
  have hl : l = run ++ rest := by rw [← hrun, ← hrest, List.takeWhile_append_dropWhile]
  have hstart : StartSettled (fun a => p a || q a) rest := hrest ▸ startSettled_dropWhile l
  have hp : StartSettled p rest := hstart.mono fun a ha => by simp [ha]
  have hq : StartSettled q rest := hstart.mono fun a ha => by simp [ha]
  rw [hl, dropWhile_append_of_startSettled hp, dropWhile_append_of_startSettled hq,
    dropWhile_append_of_startSettled hp, oneRun_iff]
  constructor
  · intro h
    cases hleft : ((run.dropWhile p).dropWhile q).dropWhile p with
    | nil => rfl
    | cons a left =>
      -- what is left in front of the rest is of the run, and not of `p`
      exfalso
      rw [hleft] at h
      have hnot : p a = false :=
        startSettled_dropWhile ((run.dropWhile p).dropWhile q) a (by rw [hleft]; rfl)
      have hmem : a ∈ run := by
        refine ((List.dropWhile_sublist p).trans ((List.dropWhile_sublist q).trans
          (List.dropWhile_sublist p))).mem ?_
        rw [hleft]
        exact List.mem_cons_self
      rw [← hrun] at hmem
      have hor := List.mem_takeWhile_imp hmem
      rw [hnot, h a rfl] at hor
      cases hor
  · intro h
    rw [h]
    exact hq

/-- A prefix that is not dropped altogether is a prefix of what is left. -/
theorem prefix_dropWhile {k : List α} (h : k <+: l) (hne : k.dropWhile p ≠ []) :
    k.dropWhile p <+: l.dropWhile p := by
  obtain ⟨t, rfl⟩ := h
  rw [List.dropWhile_append, if_neg (by simpa using hne)]
  exact List.prefix_append _ _

theorem suffix_rdropWhile {k : List α} (h : k <:+ l) (hne : k.rdropWhile p ≠ []) :
    k.rdropWhile p <:+ l.rdropWhile p := by
  rw [List.rdropWhile, List.rdropWhile, List.reverse_suffix]
  exact prefix_dropWhile (List.reverse_prefix.mpr h) (by simpa [List.rdropWhile] using hne)

/-- What is stripped off both ends, between two trims. -/
def stripBetween (p q : α → Bool) (l : List α) : List α :=
  both p (((both p l).rdropWhile q).dropWhile q)

theorem both_ne_nil_dropWhile (h : both p l ≠ []) : l.dropWhile p ≠ [] := by
  intro hnil
  rw [both, hnil] at h
  exact h rfl

theorem dropWhile_ne_nil_self (h : l.dropWhile p ≠ []) : l ≠ [] := by
  rintro rfl
  exact h rfl

theorem rdropWhile_ne_nil_self (h : l.rdropWhile p ≠ []) : l ≠ [] := by
  rintro rfl
  exact h rfl

/-- **What is left begins with something of `q` unless one run stands at the start.** -/
theorem startSettled_stripBetween_iff {q : α → Bool} (hne : stripBetween p q l ≠ []) :
    StartSettled q (stripBetween p q l) ↔ OneRun p q (l.takeWhile fun a => p a || q a) := by
  have hlast := both_ne_nil_dropWhile hne
  have hmid := dropWhile_ne_nil_self hlast
  have hfirst : both p l <+: l.dropWhile p := List.rdropWhile_prefix p _
  have hsecond : ((both p l).rdropWhile q).dropWhile q <+: (l.dropWhile p).dropWhile q :=
    prefix_dropWhile ((List.rdropWhile_prefix q _).trans hfirst) hmid
  have hthird : stripBetween p q l <+: ((l.dropWhile p).dropWhile q).dropWhile p :=
    (List.rdropWhile_prefix p _).trans (prefix_dropWhile hsecond hlast)
  rw [← startSettled_drops_iff]
  obtain ⟨t, ht⟩ := hthird
  rw [← ht, StartSettled, StartSettled, List.head?_append_of_ne_nil _ hne]

/-- **And it ends with something of `q` unless one run stands at the end.** -/
theorem endSettled_stripBetween_iff {q : α → Bool} (hne : stripBetween p q l ≠ []) :
    EndSettled q (stripBetween p q l) ↔ OneRun p q (l.rtakeWhile fun a => p a || q a) := by
  have hlast := both_ne_nil_dropWhile hne
  have hmid := dropWhile_ne_nil_self hlast
  have hstripped := dropWhile_ne_nil_self hmid
  have hboth := rdropWhile_ne_nil_self hstripped
  have hfirst : both p l <:+ l.rdropWhile p :=
    suffix_rdropWhile (List.dropWhile_suffix p) hboth
  have hsecond : ((both p l).rdropWhile q).dropWhile q <:+ (l.rdropWhile p).rdropWhile q :=
    (List.dropWhile_suffix q).trans (suffix_rdropWhile hfirst hstripped)
  have hthird : stripBetween p q l <:+ ((l.rdropWhile p).rdropWhile q).rdropWhile p :=
    suffix_rdropWhile ((List.dropWhile_suffix p).trans hsecond) hne
  have hreverse : ((l.rdropWhile p).rdropWhile q).rdropWhile p
      = (((l.reverse.dropWhile p).dropWhile q).dropWhile p).reverse := by
    simp [List.rdropWhile]
  rw [List.rtakeWhile, oneRun_reverse, ← startSettled_drops_iff]
  obtain ⟨t, ht⟩ := hthird
  have hend : EndSettled q (stripBetween p q l)
      ↔ EndSettled q (((l.rdropWhile p).rdropWhile q).rdropWhile p) := by
    rw [← ht, EndSettled, EndSettled, List.getLast?_append_of_ne_nil _ hne]
  rw [hend, hreverse, EndSettled, List.getLast?_reverse, StartSettled]

theorem both_infix (l : List α) : both p l <:+: l :=
  (List.rdropWhile_prefix p _).isInfix.trans (List.dropWhile_suffix p).isInfix

theorem filter_dropWhile (l : List α) :
    (l.dropWhile p).filter (fun a => !p a) = l.filter (fun a => !p a) := by
  induction l with
  | nil => rfl
  | cons a l ih =>
    rw [List.dropWhile_cons, List.filter_cons]
    split
    · next h => simpa [h] using ih
    · next h => simp [h]

theorem filter_rdropWhile (l : List α) :
    (l.rdropWhile p).filter (fun a => !p a) = l.filter (fun a => !p a) := by
  rw [List.rdropWhile, List.filter_reverse, filter_dropWhile, List.filter_reverse,
    List.reverse_reverse]

/-- What the predicate is not for is kept. -/
theorem filter_both (l : List α) :
    (both p l).filter (fun a => !p a) = l.filter (fun a => !p a) := by
  rw [both, filter_rdropWhile, filter_dropWhile]

/-! ## Words -/

/-- There is nothing to take off, and what the predicate is for is one separator at a time. -/
structure Collapsed (p : α → Bool) (sep : α) (l : List α) : Prop where
  start : StartSettled p l
  stop : EndSettled p l
  only : ∀ a ∈ l, p a = true → a = sep
  single : l.IsChain fun a b => ¬(p a = true ∧ p b = true)

/-- A word has nothing that the predicate is for. -/
theorem not_of_mem_splitOnP {l word : List α} (h : word ∈ l.splitOnP p) : ∀ a ∈ word, p a = false := by
  induction l generalizing word with
  | nil =>
    rw [List.splitOnP_nil, List.mem_singleton] at h
    simp [h]
  | cons b l ih =>
    rw [List.splitOnP_cons_eq_if_modifyHead] at h
    split at h
    · rcases List.mem_cons.mp h with rfl | h
      · simp
      · exact ih h
    · next hb =>
      cases hwords : l.splitOnP p with
      | nil => exact absurd hwords (List.splitOnP_ne_nil p l)
      | cons first words =>
        rw [hwords, List.modifyHead_cons] at h
        rcases List.mem_cons.mp h with rfl | h
        · have hfirst := ih (hwords ▸ List.mem_cons_self)
          simpa [List.forall_mem_cons] using ⟨by simpa using hb, hfirst⟩
        · exact ih (hwords ▸ List.mem_cons_of_mem _ h)

/-- A word is some of the list. -/
theorem sublist_of_mem_splitOnP {l word : List α} (h : word ∈ l.splitOnP p) : word.Sublist l := by
  induction l generalizing word with
  | nil =>
    rw [List.splitOnP_nil, List.mem_singleton] at h
    exact h ▸ List.Sublist.refl []
  | cons b l ih =>
    rw [List.splitOnP_cons_eq_if_modifyHead] at h
    split at h
    · rcases List.mem_cons.mp h with rfl | h
      · exact List.nil_sublist _
      · exact (ih h).cons b
    · cases hwords : l.splitOnP p with
      | nil => exact absurd hwords (List.splitOnP_ne_nil p l)
      | cons first words =>
        rw [hwords, List.modifyHead_cons] at h
        rcases List.mem_cons.mp h with rfl | h
        · exact (ih (hwords ▸ List.mem_cons_self)).cons_cons b
        · exact (ih (hwords ▸ List.mem_cons_of_mem _ h)).cons b

theorem isChain_of_forall_not (h : ∀ a ∈ l, p a = false) :
    l.IsChain fun a b => ¬(p a = true ∧ p b = true) := by
  refine List.Pairwise.isChain (List.pairwise_iff_forall_sublist.mpr fun {a b} hab hp => ?_)
  have ha := h a (hab.mem List.mem_cons_self)
  exact Bool.false_ne_true (ha.symm.trans hp.1)

/-- **Words with one separator between them are collapsed.** -/
theorem collapsed_intercalate {sep : α} {words : List (List α)}
    (h : ∀ word ∈ words, word ≠ [] ∧ ∀ a ∈ word, p a = false) :
    Collapsed p sep ([sep].intercalate words) := by
  induction words with
  | nil => exact ⟨by simp [StartSettled], by simp [EndSettled], by simp, .nil⟩
  | cons word words ih =>
    obtain ⟨hne, hword⟩ := h word List.mem_cons_self
    have hrest := ih fun w hw => h w (List.mem_cons_of_mem _ hw)
    cases words with
    | nil =>
      rw [List.intercalate_singleton]
      refine ⟨fun a ha => hword a (List.mem_of_mem_head? ha),
        fun a ha => hword a (List.mem_of_getLast? ha), fun a ha hp => ?_,
        isChain_of_forall_not hword⟩
      exact absurd (hword a ha) (by simp [hp])
    | cons second words =>
      rw [List.intercalate_cons_cons]
      generalize hl : [sep].intercalate (second :: words) = l at hrest ⊢
      have hlne : l ≠ [] := by
        rw [← hl]
        have hsecond := (h second (by simp)).1
        cases words <;> simp [List.intercalate_cons_cons, hsecond]
      refine ⟨?_, ?_, ?_, ?_⟩
      · intro a ha
        rw [List.append_assoc, List.head?_append_of_ne_nil _ hne] at ha
        exact hword a (List.mem_of_mem_head? ha)
      · exact hrest.stop.append hlne
      · intro a ha hp
        rcases List.mem_append.mp ha with ha | ha
        · rcases List.mem_append.mp ha with ha | ha
          · exact absurd (hword a ha) (by simp [hp])
          · exact List.mem_singleton.mp ha
        · exact hrest.only a ha hp
      · -- the separator stands between a word's last character and another word's first
        rw [List.append_assoc, List.singleton_append, List.isChain_append]
        refine ⟨isChain_of_forall_not hword, ?_, ?_⟩
        · rw [List.isChain_cons]
          exact ⟨fun b hb hp => by simp [hrest.start b hb] at hp, hrest.single⟩
        · intro a ha b _ hp
          exact absurd (hword a (List.mem_of_getLast? ha)) (by simp [hp.1])

end Trim
