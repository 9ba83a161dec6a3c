import Thalovant.Noise.Store

/-!
# What the store's operations do to the pins

Two operations write a pin file. `pin_hub_key` adds one pin, where there was none for the node id;
`adopt_legacy_key` fills a file that holds none. Every other operation leaves the pins as they are,
whether it fails or not.
-/

namespace Thalovant.Noise

/-- The pin files. -/
def Disk.pins (d : Disk) (dir : String) : Stored TextMap := (d.folders dir).pins

/-- The pins in a file that can be read. -/
def Stored.entries : Stored TextMap → TextMap
  | .held pins => pins
  | _ => []

/-- The pin held for a node id. -/
def Disk.pinOf (d : Disk) (dir nodeId : String) : Option String :=
  SortedMap.get nodeId (d.pins dir).entries

@[simp] theorem Disk.set_folders_self (d : Disk) (dir : String) (folder : Folder) :
    (d.set dir folder).folders dir = folder := if_pos rfl

theorem Disk.pins_set (d : Disk) (dir : String) (folder : Folder) :
    (d.set dir folder).pins = fun other => if other = dir then folder.pins else d.pins other := by
  funext other
  show Folder.pins (if other = dir then folder else d.folders other) = _
  split <;> rfl

/-- Writing another file of the folder. -/
theorem Disk.pins_set_of_eq {d : Disk} {dir : String} {folder : Folder}
    (h : folder.pins = d.pins dir) : (d.set dir folder).pins = d.pins := by
  rw [Disk.pins_set]
  funext other
  split
  · next hother => rw [hother, h]
  · rfl

namespace Store

open Fallible

variable (env : StoreEnv) {Q : String → Stored TextMap}

/-- The computation leaves all pins as they are. -/
abbrev KeepsPins (Q : String → Stored TextMap) {α : Type} (m : Store α) : Prop :=
  Keeps (fun d => d.pins = Q) m

theorem access_pins : KeepsPins Q (access env) := fun _ h => h

/-- Reading pins changes nothing. -/
theorem readPins_keeps {P : Disk → Prop} (dir : String) : Keeps P (readPins dir) := by
  refine .bind (.read _) fun folder => .bind (.ofExcept _) fun _ => ?_
  rcases folder.pins with _ | _ | _ | _ | pins
  · exact .pure _
  · exact .fail _
  · exact .fail _
  · exact .fail _
  · exact .bind (.ofExcept _) fun _ => .pure _

theorem put_pins (dir : String) {f : Folder → Folder} (hf : ∀ folder, (f folder).pins = folder.pins) :
    KeepsPins Q (put env dir f) := by
  refine .bind (access_pins env) fun _ => .modify fun d hd => ?_
  rw [Disk.pins_set_of_eq (hf _), hd]

theorem loadNoisePin_pins (dir : Option String) (nodeId : String) :
    KeepsPins Q (loadNoisePin env dir nodeId) :=
  .bind (.ofExcept _) fun dir => .bind (access_pins env) fun _ => .bind (readPins_keeps dir) fun _ =>
    .pure _

theorem loadOrCreateNoiseKey_pins (dir : Option String) :
    KeepsPins Q (loadOrCreateNoiseKey env dir) := by
  refine .bind (.ofExcept _) fun dir => .bind (access_pins env) fun _ => .bind (.read _)
    fun folder => ?_
  rcases folder.key with _ | _ | _ | _ | key
  · exact .bind (.read _) fun key => .bind (.modify fun _ h => h) fun _ =>
      .bind (put_pins env dir fun _ => rfl) fun _ => .pure _
  all_goals exact .ofExcept _

theorem readPskCache_pins (dir : String) : KeepsPins Q (readPskCache dir) := by
  refine .bind (.read _) fun folder => .bind (.ofExcept _) fun _ => ?_
  rcases folder.psks with _ | _ | _ | _ | psks <;> exact .pure _

theorem loadCachedPsk_pins (dir : Option String) (nodeId : String) :
    KeepsPins Q (loadCachedPsk env dir nodeId) :=
  .ite (.pure _) (.bind (.ofExcept _) fun dir => .bind (access_pins env) fun _ =>
    .bind (readPskCache_pins dir) fun _ => .pure _)

theorem saveCachedPsk_pins (dir : Option String) (nodeId : String) (psk : Bytes) :
    KeepsPins Q (saveCachedPsk env dir nodeId psk) :=
  .ite (.pure _) (.bind (.ofExcept _) fun dir => .bind (access_pins env) fun _ =>
    .bind (readPskCache_pins dir) fun _ => .ite (.pure _) (put_pins env dir fun _ => rfl))

theorem forgetCachedPsk_pins (dir : Option String) (nodeId : String) :
    KeepsPins Q (forgetCachedPsk env dir nodeId) :=
  .bind (.ofExcept _) fun dir => .bind (access_pins env) fun _ =>
    .bind (readPskCache_pins dir) fun _ => .ite (.pure _) (put_pins env dir fun _ => rfl)

/-! ## Reading pins -/

theorem readPins_state (dir : String) (d : Disk) : (readPins dir d).2 = d :=
  readPins_keeps (P := fun d' => d' = d) dir d rfl

theorem readPins_ok {dir : String} {d d' : Disk} {pins : TextMap}
    (h : readPins dir d = (.ok pins, d')) :
    d' = d ∧ pins = (d.pins dir).entries := by
  refine ⟨(congrArg Prod.snd h).symm.trans (readPins_state dir d), ?_⟩
  unfold readPins folder at h
  rw [read_bind] at h
  obtain ⟨_, d₁, -, h⟩ := bind_eq_ok.mp h
  unfold Disk.pins
  rcases hfile : (d.folders dir).pins with _ | _ | _ | _ | held <;> rw [hfile] at h
  · cases h
    rfl
  · cases h
  · cases h
  · cases h
  · obtain ⟨_, d₂, -, h⟩ := bind_eq_ok.mp h
    cases h
    rfl

/-! ## Writing pins -/

/-- The pins after a write to one file. -/
def pinsWith (pins : String → Stored TextMap) (dir : String) (entries : TextMap) :
    String → Stored TextMap := fun other => if other = dir then .held entries else pins other

theorem writePins_cases (dir : String) (pins : TextMap) (d : Disk) :
    (∃ err, (writePins env dir pins d).1 = .error err) ∧ (writePins env dir pins d).2.pins = d.pins
    ∨ (writePins env dir pins d).1 = .ok ()
      ∧ (writePins env dir pins d).2.pins = pinsWith d.pins dir pins := by
  unfold writePins put
  rcases h : access env d with ⟨err | ⟨⟩, d'⟩
  · rw [bind_error h]
    have hd' := access_pins env (Q := d.pins) d rfl
    rw [h] at hd'
    exact .inl ⟨⟨err, rfl⟩, hd'⟩
  · rw [bind_ok h]
    have hd' := access_pins env (Q := d.pins) d rfl
    rw [h] at hd'
    refine .inr ⟨rfl, ?_⟩
    rw [modify_apply, Disk.pins_set]
    funext other
    exact congrArg (fun pins : String → Stored TextMap => if other = dir then _ else pins other) hd'

/--
**`pin_hub_key` records the first key of a node id, and takes no other.** Where it succeeds the
pinned key is the key, or there was none and now it is; else no pin changes.
-/
theorem pinHubKey_cases (dir : Option String) (nodeId key : String) (d : Disk) :
    (∃ err, (pinHubKey env dir nodeId key d).1 = .error err)
      ∧ (pinHubKey env dir nodeId key d).2.pins = d.pins
    ∨ ∃ folder, resolveDir env dir = .ok folder ∧ (pinHubKey env dir nodeId key d).1 = .ok ()
      ∧ (d.pinOf folder nodeId = none
          ∧ (pinHubKey env dir nodeId key d).2.pins
            = pinsWith d.pins folder (SortedMap.insert nodeId key (d.pins folder).entries)
        ∨ ∃ pinned, d.pinOf folder nodeId = some pinned ∧ eqIgnoreAsciiCase pinned key = true
          ∧ (pinHubKey env dir nodeId key d).2.pins = d.pins) := by
  unfold pinHubKey
  rcases validatePin nodeId key with err | ⟨⟩
  · exact .inl ⟨⟨err, rfl⟩, rfl⟩
  rw [bind_ok (ofExcept_apply _ _)]
  rcases resolveDir env dir with err | folder
  · exact .inl ⟨⟨err, rfl⟩, rfl⟩
  rw [bind_ok (ofExcept_apply _ _)]
  unfold lockState
  have hlock := access_pins env (Q := d.pins) d rfl
  rcases h : access env d with ⟨err | ⟨⟩, d₁⟩ <;> rw [h] at hlock
  · rw [bind_error h]
    exact .inl ⟨⟨err, rfl⟩, hlock⟩
  rw [bind_ok h]
  replace hlock : d₁.pins = d.pins := hlock
  rcases hread : readPins folder d₁ with ⟨err | pins, d₂⟩
  · have hstate := readPins_state folder d₁
    rw [hread] at hstate
    rw [bind_error hread]
    exact .inl ⟨⟨err, rfl⟩, (congrArg Disk.pins hstate).trans hlock⟩
  obtain ⟨rfl, rfl⟩ := readPins_ok hread
  -- taking the lock and reading the file leave the pins
  have hpin : d₂.pinOf folder nodeId = d.pinOf folder nodeId := by
    rw [Disk.pinOf, Disk.pinOf, hlock]
  rw [bind_ok hread]
  rcases hget : SortedMap.get nodeId (d₂.pins folder).entries with _ | pinned
  · dsimp only
    rcases writePins_cases env folder
      (SortedMap.insert nodeId key (d₂.pins folder).entries) d₂ with ⟨herr, hsame⟩ | ⟨hok, hpins⟩
    · exact .inl ⟨herr, hsame.trans hlock⟩
    · exact .inr ⟨folder, rfl, hok, .inl ⟨hpin.symm.trans hget, by rw [hpins, hlock]⟩⟩
  · dsimp only
    rcases hkey : eqIgnoreAsciiCase pinned key with _ | _
    · exact .inl ⟨⟨_, rfl⟩, hlock⟩
    · exact .inr ⟨folder, rfl, rfl, .inr ⟨pinned, hpin.symm.trans hget, hkey, hlock⟩⟩

/-- The old folder is read as it is, and its pins hold the node id. -/
theorem readLegacy_ok {legacy nodeId : String} {d d' : Disk} {key : Bytes} {pins : TextMap}
    (h : readLegacy env legacy nodeId d = (.ok (key, pins), d')) :
    pins = (d.pins legacy).entries ∧ (d.pinOf legacy nodeId).isSome = true := by
  unfold readLegacy lockState at h
  obtain ⟨_, d₁, haccess, h⟩ := bind_eq_ok.mp h
  have hlock : d₁.pins = d.pins := by
    have := access_pins env (Q := d.pins) d rfl
    rwa [haccess] at this
  obtain ⟨pins', d₂, hread, h⟩ := bind_eq_ok.mp h
  obtain ⟨rfl, rfl⟩ := readPins_ok hread
  split at h
  · cases h
  · next hmet =>
    unfold folder at h
    rw [read_bind] at h
    obtain ⟨key', d₃, -, h⟩ := bind_eq_ok.mp h
    cases h
    rw [hlock] at hmet ⊢
    refine ⟨rfl, ?_⟩
    rcases hget : d.pinOf legacy nodeId with _ | pinned
    · exact absurd (show (d.pinOf legacy nodeId).isNone = true by rw [hget]; rfl) hmet
    · rfl

theorem readLegacy_pins (legacy nodeId : String) :
    KeepsPins Q (readLegacy env legacy nodeId) :=
  .bind (access_pins env) fun _ => .bind (readPins_keeps legacy) fun _ => .ite (.fail _)
    (.bind (.read _) fun _ => .bind (.ofExcept _) fun _ => .pure _)

/--
**`adopt_legacy_key` fills an empty pin file, or leaves the pins as they are.** It fills one in a
folder that holds no key, with pins that know the node id.
-/
theorem adoptLegacyKey_cases (target legacy nodeId : String) (d : Disk) :
    (adoptLegacyKey env target legacy nodeId d).2.pins = d.pins
    ∨ isThere (d.folders target).key = false ∧ (d.pins target).entries = []
      ∧ (d.pinOf legacy nodeId).isSome = true
      ∧ (adoptLegacyKey env target legacy nodeId d).2.pins
        = pinsWith d.pins target (d.pins legacy).entries := by
  unfold adoptLegacyKey folder
  rw [read_bind, read_bind]
  split
  · exact .inl rfl
  next hkey =>
  split
  · exact .inl rfl
  rw [attempt_bind]
  have hsame := readLegacy_pins env (Q := d.pins) legacy nodeId d rfl
  rcases hlegacy : readLegacy env legacy nodeId d with ⟨err | ⟨key, pins⟩, d₁⟩ <;>
    rw [hlegacy] at hsame
  · exact .inl hsame
  obtain ⟨rfl, hmet⟩ := readLegacy_ok env hlegacy
  dsimp only at hsame ⊢
  unfold lockState
  have hlock := access_pins env (Q := d.pins) d₁ hsame
  rcases haccess : access env d₁ with ⟨err | ⟨⟩, d₂⟩ <;> rw [haccess] at hlock
  · rw [bind_error haccess]
    exact .inl hlock
  rw [bind_ok haccess, read_bind]
  replace hlock : d₂.pins = d.pins := hlock
  split
  · exact .inl hlock
  rcases hread : readPins target d₂ with ⟨err | existing, d₃⟩
  · have hstate := readPins_state target d₂
    rw [hread] at hstate
    rw [bind_error hread]
    exact .inl ((congrArg Disk.pins hstate).trans hlock)
  obtain ⟨rfl, rfl⟩ := readPins_ok hread
  rw [bind_ok hread]
  -- the key alone is written after the pins, or where there are pins already
  have hput : ∀ Q, KeepsPins Q (put env target (fun folder => { folder with key := .held key })
      >>= fun _ => (pure true : Store Bool)) :=
    fun Q => .bind (put_pins env target fun _ => rfl) fun _ => .pure _
  split
  · next hempty =>
    rcases hwrite : writePins env target (d.pins legacy).entries d₃ with ⟨err | ⟨⟩, d₄⟩
    · rcases writePins_cases env target (d.pins legacy).entries d₃ with ⟨-, hpins⟩ | ⟨hok, -⟩
      · rw [hwrite] at hpins
        rw [bind_error hwrite]
        exact .inl (hpins.trans hlock)
      · rw [hwrite] at hok
        cases hok
    · rcases writePins_cases env target (d.pins legacy).entries d₃ with ⟨⟨err, herr⟩, -⟩ | ⟨-, hpins⟩
      · rw [hwrite] at herr
        cases herr
      · rw [hwrite, hlock] at hpins
        rw [hlock] at hempty
        rw [bind_ok hwrite]
        refine .inr ⟨?_, List.isEmpty_iff.mp hempty, hmet, hput _ d₄ hpins⟩
        rcases hthere : isThere (d.folders target).key with _ | _
        · rfl
        · simp [hthere] at hkey
  · exact .inl (hput _ d₃ hlock)

end Store

end Thalovant.Noise
