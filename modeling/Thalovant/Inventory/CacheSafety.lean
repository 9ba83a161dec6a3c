import Thalovant.Inventory.Cache
import Thalovant.Inventory.JsonRoundTrip
import Thalovant.Lib.Machine

/-!
# The inventory cache holds its inventories whole

A file that is open for writing has no name that a load opens, and it gets one when nobody writes to it
any more. So what a load has opened does not change.

* `sane_step`: what is under a name is whole, and what a load has opened stays so
* `reload_eq`: what is read of an inventory that is whole
-/

namespace Thalovant

namespace InventoryCache

/-! ## What stays -/

variable {library : JsonLibrary} {cache : InventoryCache} {s s' : CacheState}

/-- Nobody writes to the file any more. -/
def Closed (s : CacheState) (n : Nat) : Prop :=
  ∀ i st, s.stores i = some st → st.node = n → st.rest = none

/-- The file has all of an inventory, and stays so. -/
structure Whole (s : CacheState) (n : Nat) (inventory : Inventory) : Prop where
  content : ∃ text, inventory.asJson = .ok text ∧ (s.files.node n).content = utf8 text
  made : n < s.files.made
  closed : Closed s n

/-- What stays, whatever happens. -/
structure Grows (s s' : CacheState) : Prop where
  used : ∀ uuid ∈ s.used, uuid ∈ s'.used
  stored : ∀ p ∈ s.stored, p ∈ s'.stored
  made : s.files.made ≤ s'.files.made
  closed : ∀ n, n < s.files.made → Closed s n →
    (s'.files.node n).content = (s.files.node n).content ∧ Closed s' n

theorem Whole.grows {n : Nat} {inventory : Inventory} (h : Whole s n inventory) (hgrows : Grows s s') :
    Whole s' n inventory := by
  obtain ⟨text, htext, hcontent⟩ := h.content
  obtain ⟨hsame, hclosed⟩ := hgrows.closed n h.made h.closed
  exact ⟨⟨text, htext, hsame.trans hcontent⟩, Nat.lt_of_lt_of_le h.made hgrows.made, hclosed⟩

/-! ## The invariant -/

/-- What is under the name of a key is whole, and is what is held. -/
structure Named (s : CacheState) (key name : String) : Prop where
  file : ∀ n, s.files.entry name = .file n →
    ∃ inventory, s.held name = some inventory ∧ Whole s n inventory ∧ (key, inventory) ∈ s.stored
  none : (∀ n, s.files.entry name ≠ .file n) → s.held name = none

/-- How far a store has come. -/
structure Begun (cache : InventoryCache) (s : CacheState) (st : Storing) : Prop where
  scratch : ∃ uuid ∈ s.used, st.scratch = scratchPath uuid
  target : ∃ key, cache.path key = .ok st.target ∧ (key, st.inventory) ∈ s.stored
  made : st.node < s.files.made
  own : ∀ n, s.files.entry st.scratch = .file n → n = st.node
  rest : ∀ rest, st.rest = some rest →
    ∃ text, st.inventory.asJson = .ok text ∧ (s.files.node st.node).content ++ rest = utf8 text

/-- How far a load has come. -/
def Opened (s : CacheState) (ld : Loading) : Prop :=
  ∃ inventory, ld.opened = some inventory ∧ Whole s ld.node inventory ∧ (ld.key, inventory) ∈ s.stored
    ∧ ld.raw <+: (s.files.node ld.node).content.take (MAX_SIZE + 1)

structure Sane (cache : InventoryCache) (s : CacheState) : Prop where
  named : ∀ key name, cache.path key = .ok name → Named s key name
  stores : ∀ i st, s.stores i = some st → Begun cache s st
  alone : ∀ i j st st', s.stores i = some st → s.stores j = some st' → i ≠ j →
    st.node ≠ st'.node ∧ st.scratch ≠ st'.scratch
  loads : ∀ i ld, s.loads i = some ld → Opened s ld

theorem sane_new : Sane cache .new where
  named _ _ _ := ⟨nofun, fun _ => rfl⟩
  stores _ _ h := by cases h
  alone _ _ _ _ h := by cases h
  loads _ _ h := by cases h

theorem Opened.grows {ld : Loading} (h : Opened s ld) (hgrows : Grows s s') : Opened s' ld := by
  obtain ⟨inventory, hopened, hwhole, hstored, hraw⟩ := h
  have hsame := (hgrows.closed ld.node hwhole.made hwhole.closed).1
  exact ⟨inventory, hopened, hwhole.grows hgrows, hgrows.stored _ hstored, hsame ▸ hraw⟩

theorem Named.grows {key name : String} (h : Named s key name) (hgrows : Grows s s')
    (hentry : s'.files.entry name = s.files.entry name) (hheld : s'.held name = s.held name) :
    Named s' key name := by
  constructor
  · intro n hn
    obtain ⟨inventory, hinventory, hwhole, hstored⟩ := h.file n (hentry ▸ hn)
    exact ⟨inventory, hheld.trans hinventory, hwhole.grows hgrows, hgrows.stored _ hstored⟩
  · intro hnone
    rw [hheld]
    exact h.none fun n hn => hnone n (hentry.trans hn)

/-- A store that does nothing itself. -/
theorem Begun.grows {st : Storing} (h : Begun cache s st) (hgrows : Grows s s')
    (hentry : s'.files.entry st.scratch = s.files.entry st.scratch
      ∨ s'.files.entry st.scratch = .absent)
    (hnode : (s'.files.node st.node).content = (s.files.node st.node).content) :
    Begun cache s' st := by
  obtain ⟨⟨uuid, huuid, hscratch⟩, ⟨key, hkey, hstored⟩, hmade, hown, hrest⟩ := h
  refine ⟨⟨uuid, hgrows.used _ huuid, hscratch⟩, ⟨key, hkey, hgrows.stored _ hstored⟩,
    Nat.lt_of_lt_of_le hmade hgrows.made, fun n hn => ?_, fun rest hr => ?_⟩
  · rcases hentry with hentry | hentry
    · exact hown n (hentry ▸ hn)
    · rw [hentry] at hn
      cases hn
  · rw [hnode]
    exact hrest rest hr

/-! ## The stores -/

theorem setStore_self (i : Nat) (st : Option Storing) : (s.setStore i st).stores i = st :=
  Function.update_self _ _ _

theorem setStore_of_ne {i j : Nat} (h : j ≠ i) (st : Option Storing) :
    (s.setStore i st).stores j = s.stores j := Function.update_of_ne h _ _

/-- A store that ends, or that writes no more. -/
theorem closed_setStore {i n : Nat} {st : Option Storing} (h : Closed s n)
    (hst : ∀ st', st = some st' → st'.node = n → st'.rest = none) : Closed (s.setStore i st) n := by
  intro j st' hj hnode
  by_cases hji : j = i
  · subst hji
    rw [setStore_self] at hj
    exact hst st' hj hnode
  · rw [setStore_of_ne hji] at hj
    exact h j st' hj hnode

/-- The stores but for one, when it ends or writes no more. -/
theorem alone_setStore {i : Nat} {st : Option Storing} (h : Sane cache s)
    (hst : ∀ st', st = some st' →
      ∃ old, s.stores i = some old ∧ old.node = st'.node ∧ old.scratch = st'.scratch) :
    ∀ j k st' st'', (s.setStore i st).stores j = some st' → (s.setStore i st).stores k = some st'' →
      j ≠ k → st'.node ≠ st''.node ∧ st'.scratch ≠ st''.scratch := by
  have hold : ∀ j st', (s.setStore i st).stores j = some st' →
      ∃ old, s.stores j = some old ∧ old.node = st'.node ∧ old.scratch = st'.scratch := by
    intro j st' hj
    by_cases hji : j = i
    · subst hji
      rw [setStore_self] at hj
      exact hst st' hj
    · rw [setStore_of_ne hji] at hj
      exact ⟨st', hj, rfl, rfl⟩
  intro j k st' st'' hj hk hne
  obtain ⟨oldj, hoj, hnodej, hscratchj⟩ := hold j st' hj
  obtain ⟨oldk, hok, hnodek, hscratchk⟩ := hold k st'' hk
  have halone := h.alone j k oldj oldk hoj hok hne
  rw [hnodej, hnodek, hscratchj, hscratchk] at halone
  exact halone

theorem scratch_ne_path {st : Storing} (h : Begun cache s st) {key name : String}
    (hkey : cache.path key = .ok name) : name ≠ st.scratch := by
  obtain ⟨uuid, -, hscratch⟩ := h.scratch
  rw [hscratch]
  exact path_ne_scratchPath cache hkey uuid

/-! ## One step -/

theorem grows_setStore {i : Nat} {st : Option Storing}
    (hst : ∀ n, Closed s n → ∀ st', st = some st' → st'.node = n → st'.rest = none) :
    Grows s (s.setStore i st) :=
  ⟨fun _ h => h, fun _ h => h, Nat.le_refl _, fun n _ hclosed =>
    ⟨rfl, closed_setStore hclosed (hst n hclosed)⟩⟩

/-- A load goes on, or the clock. -/
theorem Sane.quiet (h : Sane cache s) (hfiles : s'.files = s.files) (hheld : s'.held = s.held)
    (hstores : s'.stores = s.stores) (hused : s'.used = s.used) (hstored : s'.stored = s.stored)
    (hloads : ∀ i ld, s'.loads i = some ld → Opened s ld) : Sane cache s' := by
  have hgrows : Grows s s' := by
    refine ⟨fun _ h => hused ▸ h, fun _ h => hstored ▸ h, by rw [hfiles], fun n _ hclosed => ?_⟩
    refine ⟨by rw [hfiles], ?_⟩
    unfold Closed
    rw [hstores]
    exact hclosed
  refine ⟨fun key name hkey => ?_, fun i st hi => ?_, ?_, fun i ld hi => (hloads i ld hi).grows hgrows⟩
  · exact (h.named key name hkey).grows hgrows (by rw [hfiles]) (by rw [hheld])
  · rw [hstores] at hi
    exact (h.stores i st hi).grows hgrows (.inl (by rw [hfiles])) (by rw [hfiles])
  · rw [hstores]
    exact h.alone

theorem setLoad_self (i : Nat) (ld : Option Loading) : (s.setLoad i ld).loads i = ld :=
  Function.update_self _ _ _

theorem setLoad_of_ne {i j : Nat} (h : j ≠ i) (ld : Option Loading) :
    (s.setLoad i ld).loads j = s.loads j := Function.update_of_ne h _ _

theorem Sane.setLoad {i : Nat} {ld : Option Loading} (h : Sane cache s)
    (hld : ∀ ld', ld = some ld' → Opened s ld') : Sane cache (s.setLoad i ld) := by
  refine h.quiet rfl rfl rfl rfl rfl fun j ld' hj => ?_
  by_cases hji : j = i
  · subst hji
    rw [setLoad_self] at hj
    exact hld ld' hj
  · rw [setLoad_of_ne hji] at hj
    exact h.loads j ld' hj

theorem Sane.kill (h : Sane cache s) (i : Nat) : Sane cache (s.setStore i none) := by
  have hgrows : Grows s (s.setStore i none) := grows_setStore fun _ _ _ h => by cases h
  refine ⟨fun key name hkey => (h.named key name hkey).grows hgrows rfl rfl, fun j st hj => ?_,
    alone_setStore h (fun _ h => by cases h), fun j ld hj => (h.loads j ld hj).grows hgrows⟩
  by_cases hji : j = i
  · subst hji
    rw [setStore_self] at hj
    cases hj
  · rw [setStore_of_ne hji] at hj
    exact (h.stores j st hj).grows hgrows (.inl rfl) rfl

/-- What is under a name is removed, and nothing is held there. -/
theorem Sane.remove (h : Sane cache s) (name : String) (held : String → Option Inventory)
    (hsame : ∀ other, other ≠ name → held other = s.held other)
    (hnone : ∀ key, cache.path key = .ok name → held name = none) :
    Sane cache { s with files := s.files.remove name, held := held } := by
  have hgrows : Grows s { s with files := s.files.remove name, held := held } :=
    ⟨fun _ h => h, fun _ h => h, Nat.le_refl _, fun _ _ hclosed => ⟨rfl, hclosed⟩⟩
  have habsent : (s.files.remove name).entry name = .absent := Function.update_self _ _ _
  refine ⟨fun key other hkey => ?_, fun i st hi => ?_, h.alone, fun i ld hi => (h.loads i ld hi).grows hgrows⟩
  · by_cases hother : other = name
    · subst hother
      refine ⟨fun n hn => ?_, fun _ => hnone key hkey⟩
      rw [habsent] at hn
      cases hn
    · exact (h.named key other hkey).grows hgrows (Directory.same_remove hother).entry (hsame other hother)
  · refine (h.stores i st hi).grows hgrows ?_ rfl
    by_cases hscratch : st.scratch = name
    · rw [hscratch]
      exact .inr habsent
    · exact .inl (Directory.same_remove hscratch).entry

theorem Sane.endStore (h : Sane cache s) (i : Nat) : Sane cache (s.endStore i) := by
  unfold CacheState.endStore
  cases hi : s.stores i with
  | none => exact h
  | some st =>
    exact (h.kill i).remove st.scratch s.held (fun _ _ => rfl) fun key hkey =>
      absurd rfl (scratch_ne_path (h.stores i st hi) hkey)

theorem Sane.clean (h : Sane cache s) (name : String) : Sane cache (s.clean name) :=
  h.remove name _ (fun _ hother => Function.update_of_ne hother _ _) fun _ _ => Function.update_self _ _ _

theorem Sane.write (h : Sane cache s) (i count : Nat) : Sane cache (s.write i count) := by
  unfold CacheState.write
  cases hi : s.stores i with
  | none => exact h
  | some st =>
    cases hrest : st.rest with
    | none => simpa only [hrest] using h
    | some rest =>
      simp only [hrest]
      split
      · exact h
      · set s' : CacheState := { s.setStore i (some { st with rest := some (rest.drop (max 1 count)) }) with
          files := s.files.append st.node (rest.take (max 1 count))
          modified := Function.update s.modified st.node s.now }
        have hbegun := h.stores i st hi
        -- the file is open, so it is none of those that are closed
        have hopen : ∀ n, Closed s n → n ≠ st.node := by
          rintro n hclosed rfl
          have := hclosed i st hi rfl
          rw [hrest] at this
          cases this
        have hgrows : Grows s s' := by
          refine ⟨fun _ h => h, fun _ h => h, Nat.le_refl _, fun n _ hclosed => ⟨?_, ?_⟩⟩
          · exact congrArg FileNode.content (Function.update_of_ne (hopen n hclosed) _ _)
          · exact closed_setStore hclosed fun st' hst' hnode => by
              cases hst'
              exact absurd hnode.symm (hopen n hclosed)
        refine ⟨fun key name hkey => (h.named key name hkey).grows hgrows rfl rfl, fun j st' hj => ?_,
          alone_setStore h (fun st' hst' => by cases hst'; exact ⟨st, hi, rfl, rfl⟩),
          fun j ld hj => (h.loads j ld hj).grows hgrows⟩
        by_cases hji : j = i
        · subst hji
          cases (setStore_self j _).symm.trans hj
          refine ⟨hbegun.scratch, hbegun.target, hbegun.made, hbegun.own, fun left hleft => ?_⟩
          obtain ⟨text, htext, hcontent⟩ := hbegun.rest rest hrest
          cases hleft
          refine ⟨text, htext, ?_⟩
          show (s'.files.node st.node).content ++ rest.drop (max 1 count) = utf8 text
          rw [show s'.files.node st.node = _ from Directory.node_append st.node _, List.append_assoc,
            List.take_append_drop]
          exact hcontent
        · have hother : s.stores j = some st' := (setStore_of_ne hji _).symm.trans hj
          have hnode := (h.alone j i st' st hother hi hji).1
          exact (h.stores j st' hother).grows hgrows (.inl rfl)
            (congrArg FileNode.content (Function.update_of_ne hnode _ _))

/-- A store that writes no more. -/
theorem Sane.ended (h : Sane cache s) {i : Nat} {st : Storing} (hi : s.stores i = some st) :
    Sane cache (s.setStore i (some { st with rest := none })) := by
  have hbegun := h.stores i st hi
  have hgrows : Grows s (s.setStore i (some { st with rest := none })) :=
    grows_setStore fun _ _ st' hst' _ => by cases hst'; rfl
  refine ⟨fun key name hkey => (h.named key name hkey).grows hgrows rfl rfl, fun j st' hj => ?_,
    alone_setStore h (fun st' hst' => by cases hst'; exact ⟨st, hi, rfl, rfl⟩),
    fun j ld hj => (h.loads j ld hj).grows hgrows⟩
  by_cases hji : j = i
  · subst hji
    cases (setStore_self j _).symm.trans hj
    exact ⟨hbegun.scratch, hbegun.target, hbegun.made, hbegun.own, fun _ hr => by cases hr⟩
  · exact (h.stores j st' ((setStore_of_ne hji _).symm.trans hj)).grows hgrows (.inl rfl) rfl

/-- Nobody writes to the file of a store that writes no more: no other store has it. -/
theorem closed_of_ended (h : Sane cache s) {i : Nat} {st : Storing} (hi : s.stores i = some st) :
    Closed (s.setStore i (some { st with rest := none })) st.node := by
  intro j st' hj hnode
  by_cases hji : j = i
  · subst hji
    cases (setStore_self j _).symm.trans hj
    rfl
  · have hother : s.stores j = some st' := (setStore_of_ne hji _).symm.trans hj
    exact absurd hnode (h.alone j i st' st hother hi hji).1

/-- A file that is whole takes its name. -/
theorem Sane.renamed (h : Sane cache s) {i m : Nat} {st : Storing} (hi : s.stores i = some st)
    (hwhole : st.rest = some []) (hm : s.files.entry st.scratch = .file m) :
    Sane cache { s.setStore i (some { st with rest := none }) with
      files := s.files.rename st.scratch st.target
      held := Function.update s.held st.target (some st.inventory) } := by
  have hbegun := h.stores i st hi
  obtain ⟨key, hkey, hstored⟩ := hbegun.target
  obtain ⟨text, htext, hcontent⟩ := hbegun.rest [] hwhole
  rw [List.append_nil] at hcontent
  have hne : st.target ≠ st.scratch := scratch_ne_path hbegun hkey
  set s' : CacheState := { s.setStore i (some { st with rest := none }) with
    files := s.files.rename st.scratch st.target
    held := Function.update s.held st.target (some st.inventory) }
  have hgrows : Grows s s' := by
    refine ⟨fun _ h => h, fun _ h => h, Nat.le_refl _, fun n _ hclosed => ⟨rfl, ?_⟩⟩
    exact closed_setStore hclosed fun st' hst' _ => by cases hst'; rfl
  refine ⟨fun other name hother => ?_, fun j st' hj => ?_,
    alone_setStore h (fun st' hst' => by cases hst'; exact ⟨st, hi, rfl, rfl⟩),
    fun j ld hj => (h.loads j ld hj).grows hgrows⟩
  · by_cases hname : name = st.target
    · subst hname
      have hentry : s'.files.entry st.target = .file st.node :=
        (Directory.entry_rename hne).trans (hbegun.own m hm ▸ hm)
      have hheld : s'.held st.target = some st.inventory := Function.update_self _ _ _
      refine ⟨fun n hn => ⟨st.inventory, hheld, ?_, ?_⟩, fun hnone => absurd hentry (hnone _)⟩
      · cases hentry.symm.trans hn
        exact ⟨⟨text, htext, hcontent⟩, hbegun.made, closed_of_ended h hi⟩
      · exact path_inj cache hother hkey ▸ hstored
    · refine (h.named other name hother).grows hgrows ?_ (Function.update_of_ne hname _ _)
      exact (Directory.same_rename (scratch_ne_path hbegun hother) hname).entry
  · by_cases hji : j = i
    · subst hji
      cases (setStore_self j _).symm.trans hj
      refine ⟨hbegun.scratch, hbegun.target, hbegun.made, fun n hn => ?_, fun _ hr => by cases hr⟩
      have habsent : s'.files.entry st.scratch = .absent := Function.update_self _ _ _
      cases habsent.symm.trans hn
    · have hother : s.stores j = some st' := (setStore_of_ne hji _).symm.trans hj
      have hscratch := (h.alone j i st' st hother hi hji).2
      have hbegun' := h.stores j st' hother
      refine hbegun'.grows hgrows (.inl ?_) rfl
      exact (Directory.same_rename hscratch (scratch_ne_path hbegun' hkey).symm).entry

theorem Sane.rename (h : Sane cache s) (i : Nat) : Sane cache (s.rename i) := by
  unfold CacheState.rename
  cases hi : s.stores i with
  | none => exact h
  | some st =>
    dsimp only
    split
    · next hwhole =>
      split
      · next m hm => exact h.renamed hi hwhole hm
      · exact h.ended hi
    · exact h

/-- A store makes its file, of a name that no other has had. -/
theorem Sane.create (h : Sane cache s) {i : Nat} {key target uuid : String} {inventory : Inventory}
    {modified : Nat → Nat} (hkey : cache.path key = .ok target) (hused : uuid ∈ s.used)
    (hstored : (key, inventory) ∈ s.stored)
    (hscratch : ∀ j st, s.stores j = some st → st.scratch ≠ scratchPath uuid) :
    Sane cache { s.setStore i (some
        { target := target
          scratch := scratchPath uuid
          node := s.files.made
          inventory := inventory
          rest := inventory.asJson.toOption.map utf8 }) with
      files := s.files.create (scratchPath uuid)
      modified := modified } := by
  set storing : Storing :=
    { target := target
      scratch := scratchPath uuid
      node := s.files.made
      inventory := inventory
      rest := inventory.asJson.toOption.map utf8 }
  set s' : CacheState := { s.setStore i (some storing) with
    files := s.files.create (scratchPath uuid)
    modified := modified }
  have hnode : ∀ n, n < s.files.made → s'.files.node n = s.files.node n := fun n hn =>
    Function.update_of_ne (Nat.ne_of_lt hn) _ _
  have hself : s'.stores i = some storing := setStore_self i _
  have hother : ∀ j, j ≠ i → s'.stores j = s.stores j := fun j hj => setStore_of_ne hj _
  have hgrows : Grows s s' := by
    refine ⟨fun _ h => h, fun _ h => h, Nat.le_succ _, fun n hn hclosed => ⟨?_, ?_⟩⟩
    · rw [hnode n hn]
    · exact closed_setStore hclosed fun st' hst' hst => by
        cases hst'
        exact absurd hst (Nat.ne_of_gt hn)
  refine ⟨fun other name hname => ?_, fun j st hj => ?_, fun j k st st' hj hk hne => ?_,
    fun j ld hj => (h.loads j ld hj).grows hgrows⟩
  · refine (h.named other name hname).grows hgrows ?_ rfl
    exact (Directory.same_create (path_ne_scratchPath cache hname uuid)).entry
  · by_cases hji : j = i
    · subst hji
      cases hself.symm.trans hj
      refine ⟨⟨uuid, hused, rfl⟩, ⟨key, hkey, hstored⟩, Nat.lt_succ_self _, fun n hn => ?_,
        fun rest hrest => ?_⟩
      · exact Entry.file.inj (hn.symm.trans Directory.entry_create)
      · obtain ⟨text, htext, rfl⟩ := Option.map_eq_some_iff.mp hrest
        refine ⟨text, ?_, ?_⟩
        · show inventory.asJson = .ok text
          cases hjson : inventory.asJson with
          | error err =>
            rw [hjson] at htext
            cases htext
          | ok written =>
            rw [hjson] at htext
            cases htext
            rfl
        · rw [show s'.files.node storing.node = _ from Directory.node_create]
          rfl
    · rw [hother j hji] at hj
      have hbegun := h.stores j st hj
      exact hbegun.grows hgrows (.inl (Directory.same_create (hscratch j st hj)).entry)
        (by rw [hnode _ hbegun.made])
  · by_cases hji : j = i
    · subst hji
      cases hself.symm.trans hj
      rw [hother k (Ne.symm hne)] at hk
      exact ⟨Nat.ne_of_gt (h.stores k st' hk).made, (hscratch k st' hk).symm⟩
    · rw [hother j hji] at hj
      by_cases hki : k = i
      · subst hki
        cases hself.symm.trans hk
        exact ⟨Nat.ne_of_lt (h.stores j st hj).made, hscratch j st hj⟩
      · rw [hother k hki] at hk
        exact h.alone j k st st' hj hk hne

theorem Sane.beginStore (h : Sane cache s) (i : Nat) (key : String) (inventory : Inventory)
    (uuid : String) : Sane cache (s.beginStore cache i key inventory uuid) := by
  unfold CacheState.beginStore
  cases hkey : cache.path key with
  | error err => exact h
  | ok target =>
    dsimp only
    split
    · exact h
    · next hnew =>
      rw [Bool.or_eq_true, not_or] at hnew
      have hunused : uuid ∉ s.used := by simpa using hnew.2
      -- no store has made a file of this name
      have hscratch : ∀ j st, s.stores j = some st → st.scratch ≠ scratchPath uuid := by
        intro j st hj heq
        obtain ⟨uuid', huuid', hst⟩ := (h.stores j st hj).scratch
        exact hunused (scratchPath_inj (hst.symm.trans heq) ▸ huuid')
      have hcalled : Sane cache
          { s with used := uuid :: s.used, stored := (key, inventory) :: s.stored } := by
        have hgrows : Grows s { s with used := uuid :: s.used, stored := (key, inventory) :: s.stored } :=
          ⟨fun _ h => List.mem_cons_of_mem _ h, fun _ h => List.mem_cons_of_mem _ h, Nat.le_refl _,
            fun _ _ hclosed => ⟨rfl, hclosed⟩⟩
        exact ⟨fun key name hkey => (h.named key name hkey).grows hgrows rfl rfl,
          fun j st hj => (h.stores j st hj).grows hgrows (.inl rfl) rfl, h.alone,
          fun j ld hj => (h.loads j ld hj).grows hgrows⟩
      split
      · next habsent =>
        exact hcalled.create hkey List.mem_cons_self List.mem_cons_self hscratch
      · exact hcalled.remove (scratchPath uuid) s.held (fun _ _ => rfl) fun other hother =>
          absurd rfl (path_ne_scratchPath cache hother uuid)

/-! ## One step of a load -/

/-- What an inventory is read as, once it has been stored. -/
def reload (library : JsonLibrary) (inventory : Inventory) : Option Inventory :=
  inventory.asJson.toOption.bind fun text => CacheState.parsed library (utf8 text)

/-- An inventory of this version whose phrases have no language twice is read with its languages put
right, unless it is too long. -/
theorem reload_eq (library : JsonLibrary) {inventory : Inventory}
    (hversion : inventory.cacheVersion = INVENTORY_CACHE_VERSION)
    (hdistinct : DistinctSkills inventory.skills) :
    ∃ text, inventory.asJson = .ok text
      ∧ reload library inventory = if (utf8 text).length > MAX_SIZE then none else some inventory.reread := by
  obtain ⟨text, htext, hread⟩ := Inventory.fromJson_asJson_reread library hversion hdistinct
  refine ⟨text, htext, ?_⟩
  unfold reload CacheState.parsed
  rw [htext]
  show (if _ then _ else _) = _
  rw [fromUtf8_utf8, Option.bind_some, hread]
  rfl

/-- A load of a file is refused: a call fails, or the file is too old. -/
def refuses (cache : InventoryCache) (s : CacheState) (node : Nat) : CacheEvent → Bool
  | .failLoad _ => true
  | .check _ => s.now - s.modified node > cache.ttl.nanos
  | _ => false

/-- What a call answers: nothing, where it is not the last; else that nothing was there, or what the load
has opened, as it is read, if it is not refused. -/
inductive Answers (library : JsonLibrary) (cache : InventoryCache) (s : CacheState) (e : CacheEvent) :
    Option Loaded → Prop
  | silent : Answers library cache s e none
  | absent {i : Nat} {key : String} : e = .load i key →
      (∀ name, cache.path key = .ok name → s.held name = none) →
      Answers library cache s e (some { key := key, result := none })
  | opened {i : Nat} {ld : Loading} {inventory : Inventory} : e.ofLoad = some i →
      s.loads i = some ld → ld.opened = some inventory →
      Answers library cache s e (some
        { key := ld.key
          result := if refuses cache s ld.node e then none else reload library inventory })

theorem reload_of_content {text : String} {inventory : Inventory} (h : inventory.asJson = .ok text) :
    reload library inventory = CacheState.parsed library (utf8 text) := by
  unfold reload
  rw [h]
  rfl

/-- One byte past the greatest size is as bad as more. -/
theorem parsed_take (bytes : Bytes) :
    CacheState.parsed library (bytes.take (MAX_SIZE + 1)) = CacheState.parsed library bytes := by
  by_cases hlong : bytes.length > MAX_SIZE
  · have htake : (bytes.take (MAX_SIZE + 1)).length > MAX_SIZE := by
      rw [List.length_take]
      omega
    rw [CacheState.parsed, CacheState.parsed, if_pos hlong, if_pos htake]
  · rw [List.take_of_length_le (by omega)]

theorem Sane.beginLoad (h : Sane cache s) (i : Nat) (key : String) :
    Sane cache (s.beginLoad cache i key).2
      ∧ Answers library cache s (.load i key) (s.beginLoad cache i key).1 := by
  unfold CacheState.beginLoad
  cases hkey : cache.path key with
  | error err => exact ⟨h, .absent rfl fun name hname => nomatch hkey.symm.trans hname⟩
  | ok name =>
    have hnamed := h.named key name hkey
    dsimp only
    split
    · exact ⟨h, .silent⟩
    · split
      · next n hn =>
        obtain ⟨inventory, hheld, hwhole, hstored⟩ := hnamed.file n hn
        refine ⟨h.setLoad fun ld' hld' => ?_, .silent⟩
        cases hld'
        exact ⟨inventory, hheld, hwhole, hstored, List.nil_prefix⟩
      · next hnone =>
        refine ⟨h, .absent rfl fun name' hname' => ?_⟩
        cases hkey.symm.trans hname'
        exact hnamed.none hnone

theorem Sane.failLoad (h : Sane cache s) (i : Nat) :
    Sane cache (s.failLoad i).2 ∧ Answers library cache s (.failLoad i) (s.failLoad i).1 := by
  unfold CacheState.failLoad
  cases hi : s.loads i with
  | none => exact ⟨h, .silent⟩
  | some ld =>
    obtain ⟨inventory, hopened, -⟩ := h.loads i ld hi
    exact ⟨h.setLoad nofun, .opened rfl hi hopened⟩

/-- A file that is too long, or too old, is not read. -/
theorem Sane.check (h : Sane cache s) (i : Nat) :
    Sane cache (s.check cache i).2 ∧ Answers library cache s (.check i) (s.check cache i).1 := by
  unfold CacheState.check
  cases hi : s.loads i with
  | none => exact ⟨h, .silent⟩
  | some ld =>
    have hopens := h.loads i ld hi
    obtain ⟨inventory, hopened, hwhole, -, -⟩ := h.loads i ld hi
    have hanswers := @Answers.opened library cache s (.check i) i ld inventory rfl hi hopened
    dsimp only
    split
    · exact ⟨h, .silent⟩
    · split
      · next hlong =>
        refine ⟨h.setLoad nofun, ?_⟩
        obtain ⟨text, htext, hcontent⟩ := hwhole.content
        rw [hcontent] at hlong
        have hnone : reload library inventory = none := by
          rw [reload_of_content htext, CacheState.parsed, if_pos hlong]
        rwa [hnone, ite_self] at hanswers
      · split
        · next hold =>
          rw [show refuses cache s ld.node (.check i) = true from decide_eq_true hold, if_pos rfl]
            at hanswers
          have hfail := @Sane.failLoad library cache s h i
          unfold CacheState.failLoad at hfail ⊢
          rw [hi] at hfail ⊢
          exact ⟨hfail.1, hanswers⟩
        · refine ⟨h.setLoad fun ld' hld' => ?_, .silent⟩
          cases hld'
          exact hopens

theorem Sane.read (h : Sane cache s) (i count : Nat) :
    Sane cache (s.read library i count).2
      ∧ Answers library cache s (.read i count) (s.read library i count).1 := by
  unfold CacheState.read
  cases hi : s.loads i with
  | none => exact ⟨h, .silent⟩
  | some ld =>
    obtain ⟨inventory, hopened, hwhole, hstored, hraw⟩ := h.loads i ld hi
    dsimp only
    split
    · exact ⟨h, .silent⟩
    · split
      · next hleft =>
        refine ⟨h.setLoad nofun, ?_⟩
        obtain ⟨text, htext, hcontent⟩ := hwhole.content
        rw [hcontent] at hraw hleft
        have hall : ld.raw = (utf8 text).take (MAX_SIZE + 1) :=
          hraw.eq_of_length_le (List.drop_eq_nil_iff.mp hleft)
        rw [hall, parsed_take, ← reload_of_content htext]
        exact .opened rfl hi hopened
      · refine ⟨h.setLoad fun ld' hld' => ?_, .silent⟩
        cases hld'
        refine ⟨inventory, hopened, hwhole, hstored, ?_⟩
        obtain ⟨rest, hrest⟩ := hraw
        show ld.raw ++ List.take _ (List.drop ld.raw.length _) <+: _
        rw [← hrest, List.drop_left]
        exact (List.prefix_append_right_inj ld.raw).mpr (List.take_prefix _ _)

theorem sane_step (h : Sane cache s) (e : CacheEvent) :
    Sane cache (cacheStep library cache s e).2
      ∧ Answers library cache s e (cacheStep library cache s e).1 := by
  cases e with
  | tick nanos => exact ⟨h.quiet rfl rfl rfl rfl rfl h.loads, .silent⟩
  | store i key inventory uuid => exact ⟨h.beginStore i key inventory uuid, .silent⟩
  | write i count => exact ⟨h.write i count, .silent⟩
  | rename i => exact ⟨h.rename i, .silent⟩
  | endStore i => exact ⟨h.endStore i, .silent⟩
  | kill i => exact ⟨h.kill i, .silent⟩
  | clean name => exact ⟨h.clean name, .silent⟩
  | load i key => exact h.beginLoad i key
  | failLoad i => exact h.failLoad i
  | check i => exact h.check i
  | read i count => exact h.read i count

/-! ## A run -/

/-- What a store is given. -/
def given : CacheEvent → Option (String × Inventory)
  | .store _ key inventory _ => some (key, inventory)
  | _ => none

/-- The file under a name has all that is held there, and there is none where nothing is held. -/
def Shows (s : CacheState) (name : String) : Prop :=
  match s.held name with
  | none => ∀ n, s.files.entry name ≠ .file n
  | some inventory => ∃ n text, s.files.entry name = .file n ∧ inventory.asJson = .ok text
    ∧ (s.files.node n).content = utf8 text

theorem Sane.shows (h : Sane cache s) {key name : String} (hkey : cache.path key = .ok name) :
    Shows s name := by
  have hnamed := h.named key name hkey
  unfold Shows
  by_cases hfile : ∃ n, s.files.entry name = .file n
  · obtain ⟨n, hn⟩ := hfile
    obtain ⟨inventory, hheld, hwhole, -⟩ := hnamed.file n hn
    obtain ⟨text, htext, hcontent⟩ := hwhole.content
    rw [hheld]
    exact ⟨n, text, hn, htext, hcontent⟩
  · have hnone := not_exists.mp hfile
    rw [hnamed.none hnone]
    exact hnone

theorem stored_write (i count : Nat) : (s.write i count).stored = s.stored := by
  unfold CacheState.write
  split
  · rfl
  · split
    · rfl
    · split <;> rfl

theorem stored_rename (i : Nat) : (s.rename i).stored = s.stored := by
  unfold CacheState.rename
  split
  · rfl
  · split
    · split <;> rfl
    · rfl

theorem stored_endStore (i : Nat) : (s.endStore i).stored = s.stored := by
  unfold CacheState.endStore
  split <;> rfl

theorem stored_beginLoad (i : Nat) (key : String) : (s.beginLoad cache i key).2.stored = s.stored := by
  unfold CacheState.beginLoad
  split
  · rfl
  · split
    · rfl
    · split <;> rfl

theorem stored_failLoad (i : Nat) : (s.failLoad i).2.stored = s.stored := by
  unfold CacheState.failLoad
  split <;> rfl

theorem stored_check (i : Nat) : (s.check cache i).2.stored = s.stored := by
  unfold CacheState.check
  split
  · rfl
  · split
    · rfl
    · split
      · rfl
      · split
        · exact stored_failLoad i
        · rfl

theorem stored_read (i count : Nat) : (s.read library i count).2.stored = s.stored := by
  unfold CacheState.read
  split
  · rfl
  · split
    · rfl
    · dsimp only
      split <;> rfl

theorem stored_beginStore (i : Nat) (key : String) (inventory : Inventory) (uuid : String) :
    ∀ p ∈ (s.beginStore cache i key inventory uuid).stored, p ∈ s.stored ∨ (key, inventory) = p := by
  intro p hp
  unfold CacheState.beginStore at hp
  split at hp
  · exact .inl hp
  · split at hp
    · exact .inl hp
    · have hcons : p ∈ (key, inventory) :: s.stored := by
        dsimp only at hp
        split at hp <;> exact hp
      exact (List.mem_cons.mp hcons).elim (fun heq => .inr heq.symm) .inl

/-- Only a store adds to what has been stored. -/
theorem stored_step (e : CacheEvent) : ∀ p ∈ (cacheStep library cache s e).2.stored,
    p ∈ s.stored ∨ given e = some p := by
  intro p hp
  cases e with
  | store i key inventory uuid =>
    exact (stored_beginStore i key inventory uuid p hp).imp_right fun heq => congrArg some heq
  | write i count => exact .inl (stored_write i count ▸ hp)
  | rename i => exact .inl (stored_rename i ▸ hp)
  | endStore i => exact .inl (stored_endStore i ▸ hp)
  | load i key => exact .inl (stored_beginLoad i key ▸ hp)
  | failLoad i => exact .inl (stored_failLoad i ▸ hp)
  | check i => exact .inl (stored_check i ▸ hp)
  | read i count => exact .inl (stored_read i count ▸ hp)
  | tick nanos => exact .inl hp
  | kill i => exact .inl hp
  | clean name => exact .inl hp

end InventoryCache

end Thalovant
