import Mathlib.Data.List.Induction
import Thalovant.Noise.StoreFilesSteps

/-!
# Every run over one store

What is so of the folder however the operations of all the processes interleave, wherever they die and
whatever the folder held at first: `store_transactions`.
-/

namespace Thalovant.Noise.StoreFiles

open Async

abbrev StorePool := Pool StoreState Request Answer

abbrev StoreEvent := PoolEvent Request Answer StoreOp Empty

variable (dir : String) (codec : PinCodec)

/-- A folder after these events. -/
def storeRun (files : Files) (events : List StoreEvent) : StorePool :=
  (Pool.new (StoreState.new files)).run (storeSystem dir codec) events

/-- The pin held for a node id. -/
def pinOf (nodeId : String) (files : Files) : Option String :=
  SortedMap.get nodeId (pinsOf codec files).entries

theorem sound_new (files : Files) : (cooperation codec dir).Sound (Pool.new (StoreState.new files)) :=
  .new (sane_new files) fun _ => nofun

theorem storeRun_sound (files : Files) (events : List StoreEvent) :
    (cooperation codec dir).Sound (storeRun dir codec files events) :=
  (sound_new dir codec files).run (cooperation_holds codec dir) events

variable {dir codec} {p p' : StorePool} {e : StoreEvent}

/-! ## From one state to the next -/

/-- Nothing has happened, or a task has run. -/
theorem stepped_guarantee (h : (cooperation codec dir).Stepped p e p') :
    p' = p ∨ ∃ i, e.task = some i ∧ Guarantee codec i p.state p'.state := by
  rcases h.cases with rfl | ⟨e', -⟩ | ⟨i, c, h, -, -, htask⟩
  · exact .inl rfl
  · cases e'
  · exact .inr ⟨i, htask, h⟩

/-- A key file that is there stays as it is. -/
theorem key_step (h : (cooperation codec dir).Stepped p e p')
    (hthere : p.state.files.entry (.state .key) ≠ .absent) :
    Directory.Same (.state .key) p.state.files p'.state.files := by
  rcases stepped_guarantee h with rfl | ⟨i, -, h⟩
  · exact .refl _ _
  · exact h.key hthere

/-- A pin file that no operation can read stays as it is. -/
theorem pins_step (h : (cooperation codec dir).Stepped p e p')
    (hread : (pinsOf codec p.state.files).readable = false) :
    Directory.Same (.state .pins) p.state.files p'.state.files := by
  rcases stepped_guarantee h with rfl | ⟨i, -, h⟩
  · exact .refl _ _
  · rcases h.pins with hsame | ⟨pins, hpins, -⟩
    · exact hsame
    · rcases hpins with hheld | ⟨habsent, -⟩
      · rw [hheld] at hread
        cases hread
      · rw [habsent] at hread
        cases hread

/-- The pin of a node id is set by a `pinHubKey` of it, and removed by a `forgetNoisePin` of it. -/
theorem pin_step (h : (cooperation codec dir).Stepped p e p') (nodeId : String) :
    pinOf codec nodeId p'.state.files = pinOf codec nodeId p.state.files
    ∨ ∃ i, e.task = some i
      ∧ ((∃ key, p'.state.seen.op i = some (.pinHubKey nodeId key)
          ∧ pinOf codec nodeId p.state.files = none ∧ pinOf codec nodeId p'.state.files = some key)
        ∨ p'.state.seen.op i = some (.forgetNoisePin nodeId)
          ∧ pinOf codec nodeId p.state.files ≠ none ∧ pinOf codec nodeId p'.state.files = none) := by
  rcases stepped_guarantee h with rfl | ⟨i, htask, h⟩
  · exact .inl rfl
  rcases h.pins with hsame | ⟨pins, hpins, hchange⟩
  · left
    unfold pinOf
    rw [pinsOf, storedOf_same _ hsame]
  · have hbefore : pinOf codec nodeId p.state.files = SortedMap.get nodeId pins := by
      unfold pinOf
      rcases hpins with hheld | ⟨habsent, rfl⟩
      · rw [hheld]
        rfl
      · rw [habsent]
        rfl
    have hafter : ∀ {pins'}, pinsOf codec p'.state.files = .held pins' →
        pinOf codec nodeId p'.state.files = SortedMap.get nodeId pins' := by
      intro pins' hheld
      unfold pinOf
      rw [hheld]
      rfl
    -- another node id's pin is what it was: only the one entry is set or removed
    rcases hchange with ⟨pinned, key, hop, hnone, hheld⟩ | ⟨forgotten, hop, hsome, hheld⟩
    · rw [hafter hheld, hbefore, SortedMap.get_insert]
      split
      · next heq =>
        subst heq
        exact .inr ⟨i, htask, .inl ⟨key, hop, hnone, rfl⟩⟩
      · exact .inl rfl
    · rw [hafter hheld, hbefore, SortedMap.get_erase]
      split
      · next heq =>
        subst heq
        exact .inr ⟨i, htask, .inr ⟨hop, hsome, rfl⟩⟩
      · exact .inl rfl

/-! ## Over a run -/

/-- What is under a trusted name stays, over a run, if it does over every step as long as it has. -/
theorem same_run {file : StateFile} (hsound : (cooperation codec dir).Sound p)
    {P : Files → Prop} (hsame : ∀ {files files'}, Directory.Same (.state file) files files' → P files → P files')
    (hstep : ∀ {p p' : StorePool} {e}, (cooperation codec dir).Stepped p e p' → P p.state.files →
      Directory.Same (.state file) p.state.files p'.state.files)
    (hp : P p.state.files) (events : List StoreEvent) :
    Directory.Same (.state file) p.state.files (p.run (storeSystem dir codec) events).state.files := by
  induction events generalizing p with
  | nil => exact .refl _ _
  | cons e events ih =>
    obtain ⟨hsound', hstepped⟩ := hsound.step (cooperation_holds codec dir) e
    have hfirst := hstep hstepped hp
    exact hfirst.trans (ih hsound' (hsame hfirst hp))

/-- A version has been under its name. -/
theorem versions_run (files : Files) (events : List StoreEvent) :
    ∀ v ∈ (storeRun dir codec files events).state.seen.versions, ∃ before, before <+: events
      ∧ contentOf v.1 (storeRun dir codec files before).state.files = some v.2 := by
  induction events using List.reverseRecOn with
  | nil =>
    intro v hv
    obtain ⟨file, -, hfile⟩ := List.mem_filterMap.mp hv
    obtain ⟨content, hcontent, rfl⟩ := Option.map_eq_some_iff.mp hfile
    exact ⟨[], List.prefix_rfl, hcontent⟩
  | append_singleton events e ih =>
    intro v hv
    have hlast : storeRun dir codec files (events ++ [e])
        = (storeRun dir codec files events).step (storeSystem dir codec) e := by
      unfold storeRun Pool.run
      rw [List.foldl_append]
      rfl
    obtain ⟨-, hstepped⟩ := (storeRun_sound dir codec files events).step (cooperation_holds codec dir) e
    rw [← hlast] at hstepped
    have hold : v ∈ (storeRun dir codec files events).state.seen.versions
        ∨ contentOf v.1 (storeRun dir codec files (events ++ [e])).state.files = some v.2 := by
      rcases stepped_guarantee hstepped with heq | ⟨i, -, h⟩
      · rw [heq] at hv
        exact .inl hv
      · exact h.versions v hv
    rcases hold with hold | hnow
    · obtain ⟨before, hbefore, hcontent⟩ := ih v hold
      exact ⟨before, hbefore.trans (List.prefix_append _ _), hcontent⟩
    · exact ⟨_, List.prefix_rfl, hnow⟩

/--
**Transactions on one noise store.** After any run of any number of processes, of which each may die
between any two calls of the file system:

* a key file stays as it is for ever, and it holds the key of every caller that has one
* the pin of a node id changes from none to a key by a `pinHubKey` of them, and from a key to none by a
  `forgetNoisePin` of it
* a pin file that cannot be read as pins stays as it is
* all that has been read of a trusted file is, as a whole, what had been published there, or was there
  at first
-/
theorem store_transactions (dir : String) (codec : PinCodec) (files : Files) (events : List StoreEvent) :
    let p := storeRun dir codec files events
    (p.state.files.entry (.state .key) ≠ .absent → ∀ later,
      Directory.Same (.state .key) p.state.files (p.run (storeSystem dir codec) later).state.files)
    ∧ (∀ key ∈ p.state.seen.keys, keyOf p.state.files = .held key)
    ∧ (∀ e nodeId,
      let p' := p.step (storeSystem dir codec) e
      pinOf codec nodeId p'.state.files = pinOf codec nodeId p.state.files
      ∨ ∃ i, e.task = some i
        ∧ ((∃ key, p'.state.seen.op i = some (.pinHubKey nodeId key)
            ∧ pinOf codec nodeId p.state.files = none ∧ pinOf codec nodeId p'.state.files = some key)
          ∨ p'.state.seen.op i = some (.forgetNoisePin nodeId)
            ∧ pinOf codec nodeId p.state.files ≠ none ∧ pinOf codec nodeId p'.state.files = none))
    ∧ ((pinsOf codec p.state.files).readable = false → ∀ later,
      Directory.Same (.state .pins) p.state.files (p.run (storeSystem dir codec) later).state.files)
    ∧ ∀ r ∈ p.state.seen.reads, r ∈ p.state.seen.versions
      ∧ ∃ before, before <+: events
        ∧ contentOf r.1 (storeRun dir codec files before).state.files = some r.2 := by
  have hsound := storeRun_sound dir codec files events
  refine ⟨fun hthere later => ?_, hsound.invariant.keys, fun e nodeId => ?_, fun hread later => ?_,
    fun r hr => ?_⟩
  · refine same_run hsound (P := fun files => files.entry (.state .key) ≠ .absent) (fun hsame h => ?_)
      key_step hthere later
    rwa [hsame.entry]
  · exact pin_step (hsound.step (cooperation_holds codec dir) e).2 nodeId
  · refine same_run hsound (P := fun files => (pinsOf codec files).readable = false) (fun hsame h => ?_)
      pins_step hread later
    rwa [pinsOf, storedOf_same _ hsame]
  · have hversion := hsound.invariant.reads r hr
    exact ⟨hversion, versions_run files events r hversion⟩

end Thalovant.Noise.StoreFiles
