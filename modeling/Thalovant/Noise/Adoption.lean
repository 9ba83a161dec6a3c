import Thalovant.Noise.Pins

/-!
# Adopting a legacy key

`adopt_legacy_key` copies the pins first and the key last, so a failure on the way leaves no key. It
copies the pins only into a folder that pins no hub at all, though: a folder that pins other hubs gets
the key without the pin (`Strands`).
-/

namespace Thalovant.Noise

namespace Store

open Fallible

variable (env : StoreEnv)

/-! ## Folders that stay as they are -/

theorem access_folders (d : Disk) : (access env d).2.folders = d.folders := rfl

/-- Reading pins leaves the store as it is. -/
theorem readPins_eq (dir : String) (d : Disk) : readPins dir d = ((readPins dir d).1, d) :=
  Prod.ext rfl (readPins_state dir d)

theorem readLegacy_folders (legacy nodeId : String) (d : Disk) :
    (readLegacy env legacy nodeId d).2.folders = d.folders := by
  have hkeeps : Keeps (fun d' => d'.folders = d.folders) (readLegacy env legacy nodeId) :=
    .bind (fun _ h => h) fun _ => .bind (readPins_keeps legacy) fun _ => .ite (.fail _)
      (.bind (.read _) fun _ => .bind (.ofExcept _) fun _ => .pure _)
  exact hkeeps d rfl

/-- What reading pins gives depends on the pin file alone. -/
theorem readPins_congr {dir : String} {d d' : Disk} (h : d'.folders = d.folders) :
    (readPins dir d').1 = (readPins dir d).1 := by
  unfold readPins folder
  rw [read_bind, read_bind, h]
  generalize (d.folders dir).pins = pins
  generalize hcheck : validateStateFile _ _ pins = check
  rcases check with err | ⟨⟩
  · rfl
  · rcases pins with _ | _ | _ | _ | pins
    all_goals try rfl
    rw [bind_ok (ofExcept_apply _ _), bind_ok (ofExcept_apply _ _)]
    dsimp only
    generalize (pins.forM fun e => validatePin e.1 e.2) = valid
    rcases valid with err | ⟨⟩ <;> rfl

/-! ## What adopting can do -/

/-- The old folder has a key to adopt for a hub, and its pins. -/
structure Offers (legacy nodeId : String) (d : Disk) (key : Bytes) (pins : TextMap) : Prop where
  key_eq : (d.folders legacy).key = .held key
  pins_eq : (readPins legacy d).1 = .ok pins
  pinned : (SortedMap.get nodeId pins).isSome = true

theorem readKey_ok {dir : String} {stored : Stored Bytes} {key : Bytes} :
    readKey dir stored = .ok key ↔ stored = .held key := by
  cases stored <;> simp [readKey, validateStateFile, bind, Except.bind, pure, Except.pure, throw,
    throwThe, MonadExceptOf.throw]

theorem readLegacy_offers {legacy nodeId : String} {d d' : Disk} {key : Bytes} {pins : TextMap}
    (h : readLegacy env legacy nodeId d = (.ok (key, pins), d')) :
    Offers legacy nodeId d key pins := by
  unfold readLegacy lockState at h
  obtain ⟨_, d₁, haccess, h⟩ := bind_eq_ok.mp h
  have hfolders : d₁.folders = d.folders := by
    rw [← access_folders env d, haccess]
  obtain ⟨pins', d₂, hread, h⟩ := bind_eq_ok.mp h
  have hd₂ : d₂ = d₁ := (congrArg Prod.snd hread).symm.trans (readPins_state legacy d₁)
  have hpins : (readPins legacy d).1 = .ok pins' := by
    rw [← readPins_congr hfolders, hread]
  split at h
  · cases h
  · next hmet =>
    unfold folder at h
    rw [read_bind] at h
    obtain ⟨key', d₃, hkey, h⟩ := bind_eq_ok.mp h
    cases h
    have hread' := readKey_ok.mp (congrArg Prod.fst hkey)
    rw [hd₂, hfolders] at hread'
    rw [Option.isNone_iff_eq_none] at hmet
    exact ⟨hread', hpins, Option.isSome_iff_ne_none.mpr hmet⟩

theorem readLegacy_of_offers {legacy nodeId : String} {d : Disk} {key : Bytes} {pins : TextMap}
    (h : Offers legacy nodeId d key pins) (hfault : env.fault d.accesses = none) :
    readLegacy env legacy nodeId d = (.ok (key, pins), { d with accesses := d.accesses + 1 }) := by
  have haccess : access env d = (.ok (), { d with accesses := d.accesses + 1 }) := by
    simp only [access, hfault]
  have hread : readPins legacy { d with accesses := d.accesses + 1 }
      = (.ok pins, { d with accesses := d.accesses + 1 }) := by
    have hsame := @readPins_congr legacy d { d with accesses := d.accesses + 1 } rfl
    exact Prod.ext (hsame.trans h.pins_eq) (readPins_state legacy _)
  have hmet : ¬ (SortedMap.get nodeId pins).isNone = true := by
    rw [Option.isNone_iff_eq_none]
    exact Option.isSome_iff_ne_none.mp h.pinned
  unfold readLegacy lockState
  rw [bind_ok haccess, bind_ok hread, if_neg hmet]
  unfold folder
  rw [read_bind]
  dsimp only
  rw [h.key_eq]
  rfl

/-- Two paths to one folder. -/
def sameFolder (target legacy : String) : Bool :=
  (env.canonicalize target).isSome && env.canonicalize target = env.canonicalize legacy

/-- The folder with the key adopted, and the pins if it has none. -/
def Folder.adopt (folder : Folder) (key : Bytes) (pins existing : TextMap) : Folder where
  key := .held key
  pins := if existing.isEmpty then .held pins else folder.pins
  psks := folder.psks

/-- What adopting a key has done. -/
inductive Outcome (target legacy nodeId : String) (d : Disk) : Result Bool × Disk → Prop where
  /-- Nothing is written. -/
  | nothing {r d'} : r ≠ .ok true → d'.folders = d.folders → Outcome target legacy nodeId d (r, d')
  /-- The pins are written, then the key could not be. -/
  | halfway {key pins err d'} : (d.folders target).key = .absent → Offers legacy nodeId d key pins →
      (readPins target d).1 = .ok [] →
      d'.folders = (d.set target { d.folders target with pins := .held pins }).folders →
      Outcome target legacy nodeId d (.error err, d')
  | adopted {key pins existing d'} : (d.folders target).key = .absent →
      sameFolder env target legacy = false → Offers legacy nodeId d key pins →
      (readPins target d).1 = .ok existing →
      d'.folders = (d.set target (Folder.adopt (d.folders target) key pins existing)).folders →
      Outcome target legacy nodeId d (.ok true, d')

theorem put_cases (dir : String) (f : Folder → Folder) (d : Disk) :
    (∃ err d', put env dir f d = (.error err, d') ∧ d'.folders = d.folders)
    ∨ ∃ d', put env dir f d = (.ok (), d') ∧ d'.folders = (d.set dir (f (d.folders dir))).folders := by
  unfold put
  cases hfault : env.fault d.accesses with
  | some err =>
    have haccess : access env d = (.error err, { d with accesses := d.accesses + 1 }) := by
      simp only [access, hfault]
    rw [bind_error haccess]
    exact .inl ⟨err, _, rfl, rfl⟩
  | none =>
    have haccess : access env d = (.ok (), { d with accesses := d.accesses + 1 }) := by
      simp only [access, hfault]
    rw [bind_ok haccess, modify_apply]
    exact .inr ⟨_, rfl, rfl⟩

theorem adoptLegacyKey_outcome (target legacy nodeId : String) (d : Disk) :
    Outcome env target legacy nodeId d (adoptLegacyKey env target legacy nodeId d) := by
  unfold adoptLegacyKey folder
  rw [read_bind, read_bind]
  split
  · exact .nothing (by simp) rfl
  next hkey =>
  split
  · exact .nothing (by simp) rfl
  next hsame =>
  rw [attempt_bind]
  have hfolders := readLegacy_folders env legacy nodeId d
  rcases hlegacy : readLegacy env legacy nodeId d with ⟨err | ⟨key, pins⟩, d₁⟩ <;>
    rw [hlegacy] at hfolders
  · exact .nothing (by simp) hfolders
  have hoffers := readLegacy_offers env hlegacy
  replace hfolders : d₁.folders = d.folders := hfolders
  dsimp only
  unfold lockState
  rcases haccess : access env d₁ with ⟨err | ⟨⟩, d₂⟩
  · have hd₂ := access_folders env d₁
    rw [haccess] at hd₂
    rw [bind_error haccess]
    exact .nothing (by simp) (hd₂.trans hfolders)
  have hd₂ := access_folders env d₁
  rw [haccess] at hd₂
  replace hd₂ : d₂.folders = d.folders := hd₂.trans hfolders
  rw [bind_ok haccess, read_bind, hd₂]
  split
  · exact .nothing (by simp) hd₂
  next hthere =>
  have habsent : (d.folders target).key = .absent := by
    rcases hcase : (d.folders target).key with _ | _ | _ | _ | _ <;> simp [hcase, isThere] at hthere
    rfl
  have hread := readPins_eq target d₂
  rw [readPins_congr hd₂] at hread
  rcases hexisting : (readPins target d).1 with err | existing <;> rw [hexisting] at hread
  · rw [bind_error hread]
    exact .nothing (by simp) hd₂
  rw [bind_ok hread]
  -- the key is written last, over whatever pins are there by then
  have hkeyPut : ∀ d₃ : Disk,
      (∃ err d', (put env target (fun folder => { folder with key := .held key })
          >>= fun _ => (pure true : Store Bool)) d₃ = (.error err, d') ∧ d'.folders = d₃.folders)
      ∨ ∃ d', (put env target (fun folder => { folder with key := .held key })
          >>= fun _ => (pure true : Store Bool)) d₃ = (.ok true, d')
        ∧ d'.folders = (d₃.set target { d₃.folders target with key := .held key }).folders := by
    intro d₃
    rcases put_cases env target (fun folder => { folder with key := .held key }) d₃ with
      ⟨err, d', hput, hd'⟩ | ⟨d', hput, hd'⟩
    · exact .inl ⟨err, d', bind_error hput, hd'⟩
    · exact .inr ⟨d', bind_ok hput, hd'⟩
  -- the two folders differ, so what is written to the one leaves the other
  have hdirs : sameFolder env target legacy = false := by simpa [sameFolder] using hsame
  split
  · -- no hub was pinned: the pins are written first, and the key may then fail to be
    next hempty =>
    have hnil := List.isEmpty_iff.mp hempty
    unfold writePins
    rcases put_cases env target (fun folder => { folder with pins := .held pins }) d₂ with
      ⟨err, d', hput, hd'⟩ | ⟨d₃, hput, hd₃⟩
    · rw [bind_error hput]
      exact .nothing (by simp) (hd'.trans hd₂)
    · rw [bind_ok hput]
      rcases hkeyPut d₃ with ⟨err, d', hresult, hd'⟩ | ⟨d', hresult, hd'⟩ <;> rw [hresult]
      · refine .halfway habsent hoffers (hexisting.trans (by rw [hnil])) (hd'.trans (hd₃.trans ?_))
        simp [Disk.set, hd₂]
      · refine .adopted habsent hdirs hoffers hexisting (hd'.trans ?_)
        funext dir
        by_cases hdir : dir = target <;> simp [Disk.set, hd₃, hd₂, hdir, Folder.adopt, hempty]
  · next hempty =>
    rcases hkeyPut d₂ with ⟨err, d', hresult, hd'⟩ | ⟨d', hresult, hd'⟩ <;> rw [hresult]
    · exact .nothing (by simp) (hd'.trans hd₂)
    · refine .adopted habsent hdirs hoffers hexisting (hd'.trans ?_)
      funext dir
      by_cases hdir : dir = target <;> simp [Disk.set, hd₂, hdir, Folder.adopt, hempty]

/-! ## All or nothing -/

/-- What adopting a key is to be: the old folder stays as it is, a key that is there is kept, an error
leaves no key that was not there, and a success leaves the key with the hub's pin. -/
structure AllOrNothing (target legacy nodeId : String) (d : Disk) : Prop where
  legacy_kept :
    ((adoptLegacyKey env target legacy nodeId d).2.folders legacy).key = (d.folders legacy).key
    ∧ ((adoptLegacyKey env target legacy nodeId d).2.folders legacy).pins = (d.folders legacy).pins
  key_kept : (d.folders target).key ≠ .absent →
    ((adoptLegacyKey env target legacy nodeId d).2.folders target).key = (d.folders target).key
  error_keeps : ∀ err, (adoptLegacyKey env target legacy nodeId d).1 = .error err →
    ((adoptLegacyKey env target legacy nodeId d).2.folders target).key = (d.folders target).key
  adopts : (adoptLegacyKey env target legacy nodeId d).1 = .ok true →
    (∃ key, (d.folders legacy).key = .held key
      ∧ ((adoptLegacyKey env target legacy nodeId d).2.folders target).key = .held key)
    ∧ (∃ pin, (d.pinOf target nodeId <|> d.pinOf legacy nodeId) = some pin
      ∧ (adoptLegacyKey env target legacy nodeId d).2.pinOf target nodeId = some pin)
    ∧ ∀ other pin, other ≠ nodeId → d.pinOf target other = some pin →
      (adoptLegacyKey env target legacy nodeId d).2.pinOf target other = some pin

/-- There is a key to adopt, and the target pins hubs but not this one. -/
def Strands (target legacy nodeId : String) (d : Disk) : Prop :=
  (d.folders target).key = .absent ∧ sameFolder env target legacy = false
    ∧ (∃ key pins, Offers legacy nodeId d key pins)
    ∧ ∃ existing, (readPins target d).1 = .ok existing ∧ existing ≠ []
      ∧ SortedMap.get nodeId existing = none

theorem entries_of_readPins {dir : String} {d : Disk} {pins : TextMap}
    (h : (readPins dir d).1 = .ok pins) : (d.pins dir).entries = pins :=
  (readPins_ok (Prod.ext h (readPins_state dir d))).2.symm

theorem set_folders_of_ne (d : Disk) {dir other : String} (folder : Folder) (h : other ≠ dir) :
    (d.set dir folder).folders other = d.folders other := if_neg h

variable {env} {target legacy nodeId : String} {d : Disk}

/-- The folder that offers a key is not the one without. -/
theorem Offers.ne {key : Bytes} {pins : TextMap} (h : Offers legacy nodeId d key pins)
    (habsent : (d.folders target).key = .absent) : legacy ≠ target := by
  rintro rfl
  rw [h.key_eq] at habsent
  cases habsent

/-- Whatever fails, a folder is adopted into all or nothing unless its pins strand the key. -/
theorem allOrNothing_of_not_strands (h : ¬ Strands env target legacy nodeId d) :
    AllOrNothing env target legacy nodeId d := by
  have houtcome := adoptLegacyKey_outcome env target legacy nodeId d
  rcases hr : adoptLegacyKey env target legacy nodeId d with ⟨r, d'⟩
  rw [hr] at houtcome
  cases houtcome with
  | nothing hno hfolders =>
    refine ⟨?_, ?_, ?_, ?_⟩ <;> rw [hr] <;> dsimp only
    · exact ⟨by rw [hfolders], by rw [hfolders]⟩
    · exact fun _ => by rw [hfolders]
    · exact fun _ _ => by rw [hfolders]
    · exact fun htrue => absurd htrue hno
  -- the pins were copied and the key was not, in a folder that held neither
  | halfway habsent hoffers hread hfolders =>
    have hne := hoffers.ne habsent
    refine ⟨?_, ?_, ?_, ?_⟩ <;> rw [hr] <;> dsimp only
    · rw [hfolders, set_folders_of_ne d _ hne]
      exact ⟨rfl, rfl⟩
    · exact fun hkey => absurd habsent hkey
    · intro _ _
      rw [hfolders, Disk.set_folders_self]
    · exact fun htrue => nomatch htrue
  | @adopted key pins existing _ habsent hdirs hoffers hread hfolders =>
    have hne := hoffers.ne habsent
    have htarget : (d.pins target).entries = existing := entries_of_readPins hread
    have hlegacy : (d.pins legacy).entries = pins := entries_of_readPins hoffers.pins_eq
    have hpins : (d'.pins target) = (Folder.adopt (d.folders target) key pins existing).pins := by
      unfold Disk.pins
      rw [hfolders, Disk.set_folders_self]
    refine ⟨?_, ?_, ?_, ?_⟩ <;> rw [hr] <;> dsimp only
    · rw [hfolders, set_folders_of_ne d _ hne]
      exact ⟨rfl, rfl⟩
    · exact fun hkey => absurd habsent hkey
    · exact fun _ herr => nomatch herr
    · intro _
      refine ⟨⟨key, hoffers.key_eq, by rw [hfolders, Disk.set_folders_self]; rfl⟩, ?_⟩
      by_cases hempty : existing = []
      · -- no hub was pinned: the pins are those of the old folder
        have hnone : ∀ n, d.pinOf target n = none := fun n => by
          rw [Disk.pinOf, htarget, hempty]
          rfl
        have hpinned : d'.pinOf target nodeId = d.pinOf legacy nodeId := by
          rw [Disk.pinOf, Disk.pinOf, hpins, hlegacy]
          simp [Folder.adopt, hempty, Stored.entries]
        obtain ⟨pin, hpin⟩ := Option.isSome_iff_exists.mp hoffers.pinned
        have hlegacyPin : d.pinOf legacy nodeId = some pin := by rw [Disk.pinOf, hlegacy, hpin]
        refine ⟨⟨pin, by rw [hnone, hlegacyPin]; rfl, hpinned.trans hlegacyPin⟩, ?_⟩
        intro other pin' _ hother
        rw [hnone] at hother
        cases hother
      · -- hubs were pinned, this one among them, or the key would be stranded
        have hkept : ∀ n, d'.pinOf target n = d.pinOf target n := fun n => by
          rw [Disk.pinOf, Disk.pinOf, hpins]
          simp [Folder.adopt, hempty, Disk.pins]
        cases hpin : d.pinOf target nodeId with
        | none =>
          refine absurd ⟨habsent, hdirs, ⟨key, pins, hoffers⟩, existing, hread, hempty, ?_⟩ h
          rw [← htarget]
          exact hpin
        | some pin =>
          refine ⟨⟨pin, rfl, (hkept nodeId).trans hpin⟩, ?_⟩
          intro other pin' _ hother
          rw [hkept, hother]

/-- A run in which nothing fails adopts the key, and strands it. -/
theorem adoptLegacyKey_of_strands (hfault : ∀ n, env.fault n = none)
    (h : Strands env target legacy nodeId d) :
    (adoptLegacyKey env target legacy nodeId d).1 = .ok true
    ∧ (adoptLegacyKey env target legacy nodeId d).2.pins target = d.pins target := by
  obtain ⟨habsent, hdirs, ⟨key, pins, hoffers⟩, existing, hread, hne, -⟩ := h
  have haccess : ∀ d : Disk, access env d = (.ok (), { d with accesses := d.accesses + 1 }) := by
    intro d
    simp only [access, hfault]
  have hfile : (isThere (d.folders target).key || !isFile (d.folders legacy).key) = false := by
    rw [habsent, hoffers.key_eq]
    rfl
  have hsame : ¬ ((env.canonicalize target).isSome
      && decide (env.canonicalize target = env.canonicalize legacy)) = true := by
    simpa [sameFolder] using hdirs
  have hread' : ∀ d' : Disk, d'.folders = d.folders → readPins target d' = (.ok existing, d') := by
    intro d' hd'
    rw [readPins_eq, readPins_congr hd', hread]
  unfold adoptLegacyKey folder
  rw [read_bind, read_bind, hfile, if_neg (by simp), if_neg hsame, attempt_bind,
    readLegacy_of_offers env hoffers (hfault _)]
  dsimp only
  unfold lockState
  rw [bind_ok (haccess _), read_bind]
  dsimp only
  rw [habsent, if_neg (by simp [isThere]),
    bind_ok (hread' { d with accesses := d.accesses + 1 + 1 } rfl), if_neg (by simpa using hne)]
  unfold put
  -- the pins of other hubs are there, so the key alone is written
  have hput : (access env >>= fun _ => modify fun d => d.set target
      { d.folders target with key := .held key }) { d with accesses := d.accesses + 1 + 1 }
        = (.ok (), { d with accesses := d.accesses + 1 + 1 + 1 }.set target
          { d.folders target with key := .held key }) := by
    rw [bind_ok (haccess _)]
    rfl
  rw [bind_ok hput]
  refine ⟨rfl, ?_⟩
  simp [Disk.pins, Disk.set]

/-- **Adopting a legacy key.** Whatever the folders hold, adopting is all or nothing at whatever step
it fails, exactly unless a key to adopt meets a target that pins other hubs and not this one. -/
theorem adopt_all_or_nothing (env : StoreEnv) (target legacy nodeId : String) (d : Disk) :
    (∀ fault, AllOrNothing { env with fault := fault } target legacy nodeId d)
      ↔ ¬ Strands env target legacy nodeId d := by
  constructor
  · intro hall hstrands
    have hnone := hall fun _ => none
    obtain ⟨hrun, hpins⟩ := @adoptLegacyKey_of_strands { env with fault := fun _ => none } target legacy
      nodeId d (fun _ => rfl) hstrands
    obtain ⟨-, -, -, existing, hread, -, hget⟩ := hstrands
    obtain ⟨-, ⟨pin, -, hpin⟩, -⟩ := hnone.adopts hrun
    rw [Disk.pinOf, hpins, entries_of_readPins hread, hget] at hpin
    cases hpin
  · intro hstrands fault
    exact allOrNothing_of_not_strands hstrands

/-! ## A key without its pin -/

/-- A store where nothing fails. -/
def calmStore : StoreEnv where
  noiseStateDir := .ok "default"
  fault _ := none
  randomKey _ := List.replicate 32 0
  canonicalize := some

def hubKey : String := "abababababababababababababababababababababababababababababababab"

/-- The old folder has met one hub, the new one another. -/
def twoHubs : Disk where
  folders dir :=
    if dir = "legacy" then
      { key := .held (List.replicate 32 1), pins := .held [("hub-a", hubKey)], psks := .absent }
    else { key := .absent, pins := .held [("hub-b", hubKey)], psks := .absent }
  accesses := 0
  draws := 0

theorem strands_twoHubs : Strands calmStore "target" "legacy" "hub-a" twoHubs := by
  have hlegacy : (readPins "legacy" twoHubs).1 = .ok [("hub-a", hubKey)] := by decide +kernel
  have htarget : (readPins "target" twoHubs).1 = .ok [("hub-b", hubKey)] := by decide +kernel
  refine ⟨rfl, by decide, ⟨List.replicate 32 1, _, ⟨rfl, hlegacy, by decide⟩⟩, _, htarget, by simp,
    by decide⟩

/-- The key is adopted, and the hub it belongs to is not pinned. -/
theorem adopt_all_or_nothing_fails :
    ¬ ∀ env target legacy nodeId d, AllOrNothing env target legacy nodeId d := by
  intro h
  obtain ⟨hrun, hpins⟩ := adoptLegacyKey_of_strands (fun _ => rfl) strands_twoHubs
  obtain ⟨-, ⟨pin, -, hpin⟩, -⟩ := (h calmStore "target" "legacy" "hub-a" twoHubs).adopts hrun
  have hnone : (adoptLegacyKey calmStore "target" "legacy" "hub-a" twoHubs).2.pinOf "target" "hub-a"
      = none := by
    rw [Disk.pinOf, hpins]
    decide
  rw [hnone] at hpin
  cases hpin

end Store

end Thalovant.Noise
