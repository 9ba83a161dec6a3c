import Mathlib.Data.List.Induction
import Thalovant.Inventory.CacheSafety

/-!
# What the loads of the inventory cache answer

A load is followed through a run, from the call that opens its file to the one that answers
(`Opening`): the load that has opened a file is the one of the state (`Opening.loads`,
`opening_of_loads`).

* `cache_is_atomic`: a load answers what was held as it opened the file, and it does answer
-/

namespace Thalovant

namespace InventoryCache

variable {library : JsonLibrary} {cache : InventoryCache} {s : CacheState}

/-! ## A load in a run -/

/-- The load does not answer in the run. -/
def Silent (library : JsonLibrary) (cache : InventoryCache) (i : Nat) : CacheState → List CacheEvent → Prop
  | _, [] => True
  | s, e :: events => (e.ofLoad = some i → (cacheStep library cache s e).1 = none)
      ∧ Silent library cache i (cacheStep library cache s e).2 events

/-- In the run the load has opened the file of a key, as an inventory was held there, and has not answered
since. -/
def Opening (library : JsonLibrary) (cache : InventoryCache) (before : List CacheEvent) (i : Nat)
    (key : String) (node : Nat) (inventory : Inventory) : Prop :=
  ∃ earlier later name, before = earlier ++ .load i key :: later ∧ cache.path key = .ok name ∧
    let s := Machine.final (cacheStep library cache) .new earlier
    s.loads i = none ∧ s.files.entry name = .file node ∧ s.held name = some inventory ∧
    Silent library cache i (cacheStep library cache s (.load i key)).2 later

/-- The load is of the same file. -/
structure SameFile (ld ld' : Loading) : Prop where
  key : ld'.key = ld.key
  node : ld'.node = ld.node
  opened : ld'.opened = ld.opened

theorem SameFile.refl (ld : Loading) : SameFile ld ld := ⟨rfl, rfl, rfl⟩

theorem SameFile.trans {ld ld' ld'' : Loading} (h : SameFile ld ld') (h' : SameFile ld' ld'') :
    SameFile ld ld'' :=
  ⟨h'.key.trans h.key, h'.node.trans h.node, h'.opened.trans h.opened⟩

/-! ## One step -/

theorem loads_beginStore (i : Nat) (key : String) (inventory : Inventory) (uuid : String) :
    (s.beginStore cache i key inventory uuid).loads = s.loads := by
  unfold CacheState.beginStore
  split
  · rfl
  · split
    · rfl
    · dsimp only
      split <;> rfl

theorem loads_write (i count : Nat) : (s.write i count).loads = s.loads := by
  unfold CacheState.write
  split
  · rfl
  · split
    · rfl
    · split <;> rfl

theorem loads_rename (i : Nat) : (s.rename i).loads = s.loads := by
  unfold CacheState.rename
  split
  · rfl
  · split
    · split <;> rfl
    · rfl

theorem loads_endStore (i : Nat) : (s.endStore i).loads = s.loads := by
  unfold CacheState.endStore
  split <;> rfl

/-- What a call of a load does to a load: it is another's, the load goes on in silence, or it has
answered. -/
inductive Goes (s : CacheState) (i : Nat) (e : CacheEvent) (out : Option Loaded × CacheState) : Prop
  | other : e.ofLoad ≠ some i → out.2.loads i = s.loads i → Goes s i e out
  | idle : s.loads i = none → out.2.loads i = none → Goes s i e out
  | on {ld ld' : Loading} : s.loads i = some ld → out.1 = none → out.2.loads i = some ld' →
      SameFile ld ld' → Goes s i e out
  | ended {answer : Loaded} : e.ofLoad = some i → out.1 = some answer → out.2.loads i = none →
      Goes s i e out

theorem goes_failLoad (i j : Nat) : Goes s i (.failLoad j) (s.failLoad j) := by
  unfold CacheState.failLoad
  by_cases hij : j = i
  · subst hij
    cases hj : s.loads j with
    | none => exact .idle hj hj
    | some ld => exact .ended rfl rfl (setLoad_self j none)
  · have hother : (CacheEvent.failLoad j).ofLoad ≠ some i := fun h => hij (Option.some.inj h)
    cases hj : s.loads j with
    | none => exact .other hother rfl
    | some ld => exact .other hother (setLoad_of_ne (Ne.symm hij) none)

theorem goes_check (i j : Nat) : Goes s i (.check j) (s.check cache j) := by
  unfold CacheState.check
  by_cases hij : j = i
  · subst hij
    cases hj : s.loads j with
    | none => exact .idle hj hj
    | some ld =>
      dsimp only
      split
      · exact .on hj rfl hj (.refl ld)
      · split
        · exact .ended rfl rfl (setLoad_self j none)
        · split
          · rw [CacheState.failLoad, hj]
            exact .ended rfl rfl (setLoad_self j none)
          · exact .on hj rfl (setLoad_self j _) ⟨rfl, rfl, rfl⟩
  · have hother : (CacheEvent.check j).ofLoad ≠ some i := fun h => hij (Option.some.inj h)
    cases hj : s.loads j with
    | none => exact .other hother rfl
    | some ld =>
      dsimp only
      split
      · exact .other hother rfl
      · split
        · exact .other hother (setLoad_of_ne (Ne.symm hij) none)
        · split
          · rw [CacheState.failLoad, hj]
            exact .other hother (setLoad_of_ne (Ne.symm hij) none)
          · exact .other hother (setLoad_of_ne (Ne.symm hij) _)

theorem goes_read (i j count : Nat) : Goes s i (.read j count) (s.read library j count) := by
  unfold CacheState.read
  by_cases hij : j = i
  · subst hij
    cases hj : s.loads j with
    | none => exact .idle hj hj
    | some ld =>
      dsimp only
      split
      · exact .on hj rfl hj (.refl ld)
      · split
        · exact .ended rfl rfl (setLoad_self j none)
        · exact .on hj rfl (setLoad_self j _) ⟨rfl, rfl, rfl⟩
  · have hother : (CacheEvent.read j count).ofLoad ≠ some i := fun h => hij (Option.some.inj h)
    cases hj : s.loads j with
    | none => exact .other hother rfl
    | some ld =>
      dsimp only
      split
      · exact .other hother rfl
      · split
        · exact .other hother (setLoad_of_ne (Ne.symm hij) none)
        · exact .other hother (setLoad_of_ne (Ne.symm hij) _)

variable (library cache) in
/-- What a load opens, if it is the one that begins. -/
theorem goes_step (i : Nat) (e : CacheEvent) : Goes s i e (cacheStep library cache s e)
    ∨ ∃ key name node, e = .load i key ∧ s.loads i = none ∧ cache.path key = .ok name
      ∧ s.files.entry name = .file node ∧ (cacheStep library cache s e).1 = none
      ∧ (cacheStep library cache s e).2.loads i
        = some { key := key, node := node, opened := s.held name, checked := false, raw := [] } := by
  cases e with
  | tick | kill | clean => exact .inl (.other nofun rfl)
  | store j key inventory uuid => exact .inl (.other nofun (congrFun (loads_beginStore j key inventory uuid) i))
  | write j count => exact .inl (.other nofun (congrFun (loads_write j count) i))
  | rename j => exact .inl (.other nofun (congrFun (loads_rename j) i))
  | endStore j => exact .inl (.other nofun (congrFun (loads_endStore j) i))
  | failLoad j => exact .inl (goes_failLoad i j)
  | check j => exact .inl (goes_check i j)
  | read j count => exact .inl (goes_read i j count)
  | load j key =>
    rw [cacheStep, CacheState.beginLoad]
    cases hkey : cache.path key with
    | error err => exact .inl (.other nofun rfl)
    | ok name =>
      dsimp only
      split
      · exact .inl (.other nofun rfl)
      · next hfree =>
        cases hentry : s.files.entry name with
        | file node =>
          by_cases hij : i = j
          · subst hij
            exact .inr ⟨key, name, node, rfl, by simpa using hfree, hkey, hentry, rfl, setLoad_self i _⟩
          · exact .inl (.other nofun (setLoad_of_ne hij _))
        | _ => exact .inl (.other nofun rfl)

/-! ## A run -/

theorem Silent.concat : ∀ {events : List CacheEvent} {s : CacheState} {i : Nat} {e : CacheEvent},
    Silent library cache i s events →
    (e.ofLoad = some i → (cacheStep library cache (Machine.final (cacheStep library cache) s events) e).1
      = none) → Silent library cache i s (events ++ [e])
  | [], _, _, _, _, he => ⟨he, trivial⟩
  | _ :: _, _, _, _, h, he => ⟨h.1, h.2.concat he⟩

/-- A load that does not answer goes on. -/
theorem Silent.loads : ∀ {events : List CacheEvent} {s : CacheState} {i : Nat} {ld : Loading},
    Silent library cache i s events → s.loads i = some ld →
    ∃ ld', (Machine.final (cacheStep library cache) s events).loads i = some ld' ∧ SameFile ld ld'
  | [], _, _, ld, _, hi => ⟨ld, hi, .refl ld⟩
  | e :: events, s, i, ld, h, hi => by
    have hnext : ∃ ld', (cacheStep library cache s e).2.loads i = some ld' ∧ SameFile ld ld' := by
      rcases goes_step library cache i e with hgoes | ⟨_, _, _, -, hfree, -⟩
      · cases hgoes with
        | other _ hsame => exact ⟨ld, hsame.trans hi, .refl ld⟩
        | idle hfree _ => cases hi.symm.trans hfree
        | on hi' _ hon hsame =>
          cases hi.symm.trans hi'
          exact ⟨_, hon, hsame⟩
        | ended hof hanswer _ => cases (h.1 hof).symm.trans hanswer
      · cases hi.symm.trans hfree
    obtain ⟨ld₁, hi₁, hsame₁⟩ := hnext
    obtain ⟨ld', hi', hsame'⟩ := h.2.loads hi₁
    exact ⟨ld', hi', hsame₁.trans hsame'⟩

theorem sane_final (before : List CacheEvent) :
    Sane cache (Machine.final (cacheStep library cache) .new before) :=
  Machine.final_invariant (P := Sane cache) (fun _ e h => (@sane_step library cache _ h e).1) before sane_new

/-- The load that has opened a file in the run is there, with what was held. -/
theorem Opening.loads {before : List CacheEvent} {i : Nat} {key : String} {node : Nat}
    {inventory : Inventory} (h : Opening library cache before i key node inventory) :
    ∃ ld, (Machine.final (cacheStep library cache) .new before).loads i = some ld
      ∧ ld.key = key ∧ ld.node = node ∧ ld.opened = some inventory := by
  obtain ⟨earlier, later, name, rfl, hkey, hfree, hentry, hheld, hsilent⟩ := h
  have hbegun : (cacheStep library cache (Machine.final (cacheStep library cache) .new earlier)
      (.load i key)).2.loads i
        = some { key := key, node := node, opened := some inventory, checked := false, raw := [] } := by
    rw [cacheStep, CacheState.beginLoad, hkey]
    simp only [hfree, hentry, hheld, Option.isSome_none, Bool.false_eq_true, if_false]
    exact setLoad_self i _
  obtain ⟨ld, hld, hsame⟩ := hsilent.loads hbegun
  rw [Machine.final_append]
  exact ⟨ld, hld, hsame.key, hsame.node, hsame.opened⟩

/-- A load of the state has opened its file in the run. -/
theorem opening_of_loads (before : List CacheEvent) {i : Nat} {ld : Loading}
    (h : (Machine.final (cacheStep library cache) .new before).loads i = some ld) :
    ∃ inventory, Opening library cache before i ld.key ld.node inventory := by
  induction before using List.reverseRecOn generalizing ld with
  | nil => cases h
  | append_singleton before e ih =>
    rw [Machine.final_concat] at h
    have hlater : ∀ {key : String} {node : Nat} {inventory : Inventory},
        Opening library cache before i key node inventory →
        (e.ofLoad = some i → (cacheStep library cache
          (Machine.final (cacheStep library cache) .new before) e).1 = none) →
        Opening library cache (before ++ [e]) i key node inventory := by
      rintro key node inventory ⟨earlier, later, name, rfl, hkey, hfree, hentry, hheld, hsilent⟩ he
      rw [Machine.final_append] at he
      exact ⟨earlier, later ++ [e], name, by simp, hkey, hfree, hentry, hheld, hsilent.concat he⟩
    rcases goes_step library cache i e with hgoes | ⟨key, name, node, rfl, hfree, hkey, hentry, -, hnew⟩
    · cases hgoes with
      | other hof hsame =>
        obtain ⟨inventory, hopening⟩ := ih (hsame.symm.trans h)
        exact ⟨inventory, hlater hopening fun hof' => absurd hof' hof⟩
      | idle _ hfree => cases hfree.symm.trans h
      | on hi hnone hon hsame =>
        cases hon.symm.trans h
        obtain ⟨inventory, hopening⟩ := ih hi
        rw [hsame.key, hsame.node]
        exact ⟨inventory, hlater hopening fun _ => hnone⟩
      | ended _ _ hfree => cases hfree.symm.trans h
    · cases hnew.symm.trans h
      obtain ⟨inventory, hheld, -⟩ := ((sane_final before).named key name hkey).file node hentry
      exact ⟨inventory, before, [], name, rfl, hkey, hfree, hentry, hheld, trivial⟩

/-! ## Reading to the end -/

/-- A load that has looked at its file comes to the end of it. -/
theorem read_finishes {i : Nat} {inventory : Inventory} : ∀ (counts : List Nat) {s : CacheState}
    {ld : Loading}, Sane cache s → s.loads i = some ld → ld.checked = true →
    ld.opened = some inventory →
    (((s.files.node ld.node).content.take (MAX_SIZE + 1)).drop ld.raw.length).length < counts.length →
    some { key := ld.key, result := reload library inventory }
      ∈ Machine.outputs (cacheStep library cache) s (counts.map (.read i))
  | [], _, _, _, _, _, _, hleft => absurd hleft (Nat.not_lt_zero _)
  | count :: counts, s, ld, h, hi, hchecked, hopened, hleft => by
    rw [List.map_cons, Machine.outputs_cons]
    obtain ⟨hsane, hanswers⟩ := @sane_step library cache s h (.read i count)
    have hread : cacheStep library cache s (.read i count) = s.read library i count := rfl
    unfold CacheState.read at hread
    rw [hi] at hread
    simp only [hchecked, Bool.not_true, Bool.false_eq_true, if_false] at hread
    by_cases hend : ((s.files.node ld.node).content.take (MAX_SIZE + 1)).drop ld.raw.length = []
    · rw [if_pos hend] at hread
      rw [hread] at hanswers ⊢
      generalize hloaded : some (Loaded.mk ld.key (CacheState.parsed library ld.raw)) = loaded at hanswers
      cases hanswers with
      | silent => cases hloaded
      | absent hload => cases hload
      | opened hof hi' hopened' =>
        cases hof
        cases hi.symm.trans hi'
        cases hopened.symm.trans hopened'
        exact List.mem_cons_self
    · rw [if_neg hend] at hread
      rw [hread] at hsane ⊢
      refine List.mem_cons_of_mem _ (@read_finishes i inventory counts _ { ld with checked := true, raw := _ }
        hsane (setLoad_self i _) rfl hopened ?_)
      -- at least one byte is read
      have hpos := List.length_pos_iff.mpr hend
      show (((s.files.node ld.node).content.take (MAX_SIZE + 1)).drop (ld.raw
        ++ (((s.files.node ld.node).content.take (MAX_SIZE + 1)).drop ld.raw.length).take
          (max 1 count)).length).length < counts.length
      generalize (s.files.node ld.node).content.take (MAX_SIZE + 1) = content at hleft hpos ⊢
      simp only [List.length_drop, List.length_append, List.length_take, List.length_cons] at hleft hpos ⊢
      omega

/-- A load of a file that is not too old looks at it and reads it, and answers. -/
theorem check_finishes (h : Sane cache s) {i : Nat} {ld : Loading} {inventory : Inventory}
    (hi : s.loads i = some ld) (hopened : ld.opened = some inventory)
    (hfresh : s.now - s.modified ld.node ≤ cache.ttl.nanos) {counts : List Nat}
    (hcounts : MAX_SIZE + 1 < counts.length) :
    some { key := ld.key, result := reload library inventory }
      ∈ Machine.outputs (cacheStep library cache) s (.check i :: counts.map (.read i)) := by
  have hshort : ∀ ld' : Loading,
      (((s.files.node ld.node).content.take (MAX_SIZE + 1)).drop ld'.raw.length).length < counts.length := by
    intro ld'
    rw [List.length_drop, List.length_take]
    omega
  rw [Machine.outputs_cons]
  obtain ⟨hsane, hanswers⟩ := @sane_step library cache s h (.check i)
  have hcheck : cacheStep library cache s (.check i) = s.check cache i := rfl
  unfold CacheState.check at hcheck
  rw [hi] at hcheck
  dsimp only at hcheck
  by_cases hchecked : ld.checked = true
  · rw [if_pos hchecked] at hcheck
    rw [hcheck]
    exact List.mem_cons_of_mem _ (read_finishes counts h hi hchecked hopened (hshort ld))
  · rw [if_neg hchecked] at hcheck
    by_cases hlong : (s.files.node ld.node).content.length > MAX_SIZE
    · rw [if_pos hlong] at hcheck
      rw [hcheck] at hanswers ⊢
      generalize hloaded : some (Loaded.mk ld.key none) = loaded at hanswers
      cases hanswers with
      | silent => cases hloaded
      | absent hload => cases hload
      | opened hof hi' hopened' =>
        cases hof
        cases hi.symm.trans hi'
        cases hopened.symm.trans hopened'
        have hrefuses : refuses cache s ld.node (.check i) = false :=
          decide_eq_false (Nat.not_lt.mpr hfresh)
        rw [hrefuses, if_neg Bool.false_ne_true]
        exact List.mem_cons_self
    · rw [if_neg hlong, if_neg (Nat.not_lt.mpr hfresh)] at hcheck
      rw [hcheck] at hsane ⊢
      exact List.mem_cons_of_mem _ (@read_finishes library cache i inventory counts _
        { ld with checked := true } hsane (setLoad_self i _) rfl hopened (hshort ld))

/-! ## What a load answers -/

/-- What may be answered at the end of a run: that nothing is held, or what was held as the load opened
its file, as it is read, if it is not refused. -/
inductive Answered (library : JsonLibrary) (cache : InventoryCache) (before : List CacheEvent)
    (e : CacheEvent) : Loaded → Prop
  | absent {i : Nat} {key : String} : e = .load i key →
      (∀ name, cache.path key = .ok name →
        (Machine.final (cacheStep library cache) .new before).held name = none) →
      Answered library cache before e { key := key, result := none }
  | opened {i : Nat} {key : String} {node : Nat} {inventory : Inventory} : e.ofLoad = some i →
      Opening library cache before i key node inventory →
      Answered library cache before e
        { key := key
          result :=
            if refuses cache (Machine.final (cacheStep library cache) .new before) node e then none
            else reload library inventory }

theorem answered_step (before : List CacheEvent) {e : CacheEvent} {answer : Loaded}
    (h : (cacheStep library cache (Machine.final (cacheStep library cache) .new before) e).1 = some answer) :
    Answered library cache before e answer := by
  have hanswers := (@sane_step library cache _ (@sane_final library cache before) e).2
  rw [h] at hanswers
  cases hanswers with
  | absent hload hnone => exact .absent hload hnone
  | opened hof hi hopened =>
    obtain ⟨inventory, hopening⟩ := opening_of_loads before hi
    obtain ⟨ld, hi', -, -, hopened'⟩ := hopening.loads
    cases hi.symm.trans hi'
    cases hopened.symm.trans hopened'
    exact .opened hof hopening

/--
**The cache is one that holds its inventories whole.**

For every interleaving of loads and stores, of one process or of several, with stores that are killed,
files that are removed and calls that fail:

* the file under a key's name always has all that is written of an inventory that was stored under this
  key, the one whose file took the name last, and there is none where nothing is held;
* a load answers what was held as it opened the file, whatever has been stored, written or removed
  since, but for a call that fails or a file that is too old; where nothing is held, it answers nothing;
* a load whose key's inventory is held opens the file, and once it has looked at a file that is not too
  old and reads on, it answers.
-/
theorem cache_is_atomic (library : JsonLibrary) (cache : InventoryCache) (before : List CacheEvent) :
    let s := Machine.final (cacheStep library cache) .new before
    (∀ key name, cache.path key = .ok name → Shows s name
      ∧ ∀ inventory, s.held name = some inventory → (key, inventory) ∈ before.filterMap given)
    ∧ (∀ e answer, (cacheStep library cache s e).1 = some answer → Answered library cache before e answer)
    ∧ (∀ i key name inventory, cache.path key = .ok name → s.held name = some inventory →
      s.loads i = none → (cacheStep library cache s (.load i key)).1 = none
        ∧ ∃ node, Opening library cache (before ++ [.load i key]) i key node inventory)
    ∧ (∀ i key node inventory (counts : List Nat), Opening library cache before i key node inventory →
      s.now - s.modified node ≤ cache.ttl.nanos → MAX_SIZE + 1 < counts.length →
      some { key := key, result := reload library inventory }
        ∈ Machine.outputs (cacheStep library cache) s (.check i :: counts.map (.read i))) := by
  intro s
  have hsane : Sane cache s := sane_final before
  have hstored : ∀ p ∈ s.stored, p ∈ before.filterMap given := by
    refine Machine.final_invariant_of_mem (P := fun s : CacheState => ∀ p ∈ s.stored, p ∈ before.filterMap given)
      (fun s e he h p hp => ?_) (List.forall_mem_nil _)
    rcases stored_step e p hp with hp | hp
    · exact h p hp
    · exact List.mem_filterMap.mpr ⟨e, he, hp⟩
  refine ⟨fun key name hkey => ⟨hsane.shows hkey, fun inventory hheld => ?_⟩,
    fun e answer => answered_step before, fun i key name inventory hkey hheld hfree => ?_,
    fun i key node inventory counts hopening hfresh hcounts => ?_⟩
  · have hnamed := hsane.named key name hkey
    by_cases hfile : ∃ n, s.files.entry name = .file n
    · obtain ⟨n, hn⟩ := hfile
      obtain ⟨other, hother, -, hmem⟩ := hnamed.file n hn
      cases hother.symm.trans hheld
      exact hstored _ hmem
    · cases (hnamed.none (not_exists.mp hfile)).symm.trans hheld
  · have hfile : ∃ node, s.files.entry name = .file node := by
      by_contra hnone
      cases ((hsane.named key name hkey).none (not_exists.mp hnone)).symm.trans hheld
    obtain ⟨node, hentry⟩ := hfile
    refine ⟨?_, node, before, [], name, rfl, hkey, hfree, hentry, hheld, trivial⟩
    rw [cacheStep, CacheState.beginLoad, hkey]
    simp only [hfree, hentry, Option.isSome_none, Bool.false_eq_true, if_false]
  · obtain ⟨ld, hi, rfl, rfl, hopened⟩ := hopening.loads
    exact check_finishes hsane hi hopened hfresh hcounts

end InventoryCache

end Thalovant
