import Thalovant.Noise.Pins

/-!
# What the store's operations do to the cached keys

Three operations touch the cache of pre-shared keys: `load_cached_psk` reads an entry,
`save_cached_psk` replaces it and `forget_cached_psk` removes it, and each leaves the entries of other
node ids as they are. Every other operation leaves the cache alone.

That an operation does what it is for is shown of a store that works (`Works`): its files can be read
and written.
-/

namespace Thalovant

/-! ## Hexadecimal text reads back -/

theorem hexPairs_flatMap : ∀ bytes : Bytes, hexPairs (bytes.flatMap fun byte =>
    [Json.hexDigit (byte.toNat / 16), Json.hexDigit (byte.toNat % 16)]) = some bytes
  | [] => rfl
  | byte :: bytes => by
    have hbyte := byte.toNat_lt
    rw [List.flatMap_cons, List.cons_append, List.cons_append, List.nil_append, hexPairs,
      Json.hexValue_hexDigit (by omega), Json.hexValue_hexDigit (by omega), hexPairs_flatMap bytes]
    have hsplit : 16 * (byte.toNat / 16) + byte.toNat % 16 = byte.toNat := Nat.div_add_mod _ _
    simp [hsplit]

theorem hexDecode_hexEncode (bytes : Bytes) : hexDecode (hexEncode bytes) = some bytes := by
  unfold hexDecode hexEncode
  rw [String.toList_ofList]
  exact hexPairs_flatMap bytes

theorem hexDigit_not_white {d : Nat} (h : d < 16) : isWhitespace (Json.hexDigit d) = false := by
  have hall : ∀ e ∈ List.range 16, isWhitespace (Json.hexDigit e) = false := by decide
  exact hall d (List.mem_range.mpr h)

theorem dropWhile_white {l : List Char} (h : ∀ c ∈ l, isWhitespace c = false) :
    l.dropWhile isWhitespace = l := by
  cases l with
  | nil => rfl
  | cons c l => rw [List.dropWhile_cons_of_neg (by simp [h c])]

theorem trim_hexEncode (bytes : Bytes) : trim (hexEncode bytes) = hexEncode bytes := by
  have hwhite : ∀ c ∈ (hexEncode bytes).toList, isWhitespace c = false := by
    intro c hc
    unfold hexEncode at hc
    rw [String.toList_ofList, List.mem_flatMap] at hc
    obtain ⟨byte, -, hc⟩ := hc
    have hbyte := byte.toNat_lt
    rcases List.mem_cons.mp hc with rfl | hc
    · exact hexDigit_not_white (by omega)
    · rw [List.mem_singleton.mp hc]
      exact hexDigit_not_white (by omega)
  unfold trim
  rw [dropWhile_white hwhite, dropWhile_white (fun c hc => hwhite c (List.mem_reverse.mp hc)),
    List.reverse_reverse, String.ofList_toList]

namespace Noise

/-! ## The cache -/

/-- The cache files. -/
def Disk.psks (d : Disk) (dir : String) : Stored TextMap := (d.folders dir).psks

/-- The text cached for a node id. -/
def Disk.cached (d : Disk) (dir nodeId : String) : Option String :=
  SortedMap.get nodeId (d.psks dir).entries

/-- What is under the name can be read, if anything is. -/
def Stored.readable {α : Type} : Stored α → Bool
  | .irregular | .insecure => false
  | _ => true

/-- A cached text that reads back as a key reads back as the one it was written from. -/
theorem Store.decodePsk_hexEncode {psk psk' : Bytes} (h : decodePsk (hexEncode psk) = some psk') :
    psk' = psk := by
  unfold decodePsk at h
  rw [trim_hexEncode, hexDecode_hexEncode] at h
  exact (Option.some.inj (Option.filter_eq_some_iff.mp h).1).symm

theorem Disk.psks_set (d : Disk) (dir : String) (folder : Folder) :
    (d.set dir folder).psks = fun other => if other = dir then folder.psks else d.psks other := by
  funext other
  show Folder.psks (if other = dir then folder else d.folders other) = _
  split <;> rfl

/-- Writing another file of the folder. -/
theorem Disk.psks_set_of_eq {d : Disk} {dir : String} {folder : Folder}
    (h : folder.psks = d.psks dir) : (d.set dir folder).psks = d.psks := by
  rw [Disk.psks_set]
  funext other
  split
  · next hother => rw [hother, h]
  · rfl

namespace Store

open Fallible

/-! ## Operations that leave the cache alone -/

section Keeps

variable (env : StoreEnv) {Q : String → Stored TextMap}

/-- The computation leaves all caches as they are. -/
abbrev KeepsPsks (Q : String → Stored TextMap) {α : Type} (m : Store α) : Prop :=
  Keeps (fun d => d.psks = Q) m

theorem access_psks : KeepsPsks Q (access env) := fun _ h => h

theorem put_psks (dir : String) {f : Folder → Folder} (hf : ∀ folder, (f folder).psks = folder.psks) :
    KeepsPsks Q (put env dir f) := by
  refine .bind (access_psks env) fun _ => .modify fun d hd => ?_
  rw [Disk.psks_set_of_eq (hf _), hd]

theorem loadNoisePin_psks (dir : Option String) (nodeId : String) :
    KeepsPsks Q (loadNoisePin env dir nodeId) :=
  .bind (.ofExcept _) fun dir => .bind (access_psks env) fun _ => .bind (readPins_keeps dir) fun _ =>
    .pure _

theorem pinHubKey_psks (dir : Option String) (nodeId key : String) :
    KeepsPsks Q (pinHubKey env dir nodeId key) := by
  refine .bind (.ofExcept _) fun _ => .bind (.ofExcept _) fun dir => .bind (access_psks env) fun _ =>
    .bind (readPins_keeps dir) fun pins => ?_
  rcases SortedMap.get nodeId pins with _ | pinned
  · exact put_psks env dir fun _ => rfl
  · exact .ite (.pure _) (.fail _)

theorem loadOrCreateNoiseKey_psks (dir : Option String) :
    KeepsPsks Q (loadOrCreateNoiseKey env dir) := by
  refine .bind (.ofExcept _) fun dir => .bind (access_psks env) fun _ => .bind (.read _)
    fun folder => ?_
  rcases folder.key with _ | _ | _ | _ | key
  · exact .bind (.read _) fun key => .bind (.modify fun _ h => h) fun _ =>
      .bind (put_psks env dir fun _ => rfl) fun _ => .pure _
  all_goals exact .ofExcept _

theorem readLegacy_psks (legacy nodeId : String) : KeepsPsks Q (readLegacy env legacy nodeId) :=
  .bind (access_psks env) fun _ => .bind (readPins_keeps legacy) fun _ => .ite (.fail _)
    (.bind (.read _) fun _ => .bind (.ofExcept _) fun _ => .pure _)

theorem adoptLegacyKey_psks (target legacy nodeId : String) :
    KeepsPsks Q (adoptLegacyKey env target legacy nodeId) := by
  refine .bind (.read _) fun folder => .bind (.read _) fun folder' => .ite (.pure _)
    (.ite (.pure _) (.bind (.attempt (readLegacy_psks env legacy nodeId)) fun r => ?_))
  rcases r with err | ⟨key, pins⟩
  · exact .pure _
  · refine .bind (access_psks env) fun _ => .bind (.read _) fun _ => .ite (.pure _)
      (.bind (readPins_keeps target) fun existing => ?_)
    have hkey : KeepsPsks Q (put env target (fun folder => { folder with key := .held key })
        >>= fun _ => (pure true : Store Bool)) :=
      .bind (put_psks env target fun _ => rfl) fun _ => .pure _
    exact .ite (.bind (put_psks env target fun _ => rfl) fun _ => hkey) hkey

end Keeps

/-! ## Operations on the cache -/

/-- The store works: nothing fails, and the folder is known. -/
structure Works (env : StoreEnv) (dir : Option String) (folder : String) : Prop where
  fault : ∀ n, env.fault n = none
  resolved : resolveDir env dir = .ok folder

variable {env : StoreEnv} {dir : Option String} {folder : String}

theorem Works.access (h : Works env dir folder) (d : Disk) :
    access env d = (.ok (), { d with accesses := d.accesses + 1 }) := by
  simp only [Store.access, h.fault]

/-- A corrupt cache is an empty one. -/
theorem readPskCache_eq {d : Disk} (h : (d.psks folder).readable = true) :
    readPskCache folder d = (.ok (d.psks folder).entries, d) := by
  unfold readPskCache Store.folder
  rw [read_bind]
  unfold Disk.psks at h ⊢
  rcases hfile : (d.folders folder).psks with _ | _ | _ | _ | psks <;> rw [hfile] at h
  · rfl
  · cases h
  · cases h
  · rfl
  · rfl

/-- Under the lock, the cache is read. -/
theorem Works.readCache (h : Works env dir folder) {d : Disk}
    (hread : (d.psks folder).readable = true) {α : Type} (f : TextMap → Store α) :
    (lockState env >>= fun _ => readPskCache folder >>= f) d
      = f (d.psks folder).entries { d with accesses := d.accesses + 1 } := by
  have hcache : readPskCache folder { d with accesses := d.accesses + 1 }
      = (.ok (d.psks folder).entries, { d with accesses := d.accesses + 1 }) := readPskCache_eq hread
  unfold lockState
  rw [bind_ok (h.access d), bind_ok hcache]

/-- What is cached for a node id, as `load_cached_psk` gives it. -/
def pskFor (d : Disk) (folder nodeId : String) : Option Bytes :=
  if isBlank nodeId then none else (d.cached folder nodeId).bind decodePsk

theorem Works.loadCachedPsk (h : Works env dir folder) {d : Disk}
    (hread : (d.psks folder).readable = true) (nodeId : String) :
    ∃ d', loadCachedPsk env dir nodeId d = (.ok (pskFor d folder nodeId), d')
      ∧ d'.folders = d.folders := by
  unfold Store.loadCachedPsk pskFor
  split
  · exact ⟨d, rfl, rfl⟩
  · rw [h.resolved, bind_ok (ofExcept_apply _ _)]
    rw [h.readCache hread]
    exact ⟨_, rfl, rfl⟩

/-- The disk with one entry of the cache replaced or removed. -/
structure Recached (folder nodeId : String) (entry : Option String) (d d' : Disk) : Prop where
  readable : (d'.psks folder).readable = true
  self : d'.cached folder nodeId = entry
  others : ∀ n, n ≠ nodeId → d'.cached folder n = d.cached folder n
  pins : d'.pins = d.pins

theorem Works.writePskCache (h : Works env dir folder) (cache : TextMap) (d : Disk) :
    ∃ d', writePskCache env folder cache d = (.ok (), d')
      ∧ d'.psks folder = .held cache ∧ d'.pins = d.pins := by
  unfold Store.writePskCache put
  rw [bind_ok (h.access d), modify_apply]
  refine ⟨_, rfl, ?_, ?_⟩
  · rw [Disk.psks_set]
    exact if_pos rfl
  · exact Disk.pins_set_of_eq rfl

theorem Works.saveCachedPsk (h : Works env dir folder) {d : Disk}
    (hread : (d.psks folder).readable = true) (nodeId : String) (psk : Bytes) :
    ∃ d', saveCachedPsk env dir nodeId psk d = (.ok (), d')
      ∧ Recached folder nodeId
        (if isBlank nodeId then d.cached folder nodeId else some (hexEncode psk)) d d' := by
  unfold Store.saveCachedPsk
  by_cases hblank : isBlank nodeId
  · rw [if_pos hblank, if_pos hblank]
    exact ⟨d, rfl, hread, rfl, fun _ _ => rfl, rfl⟩
  · rw [if_neg hblank, if_neg hblank, h.resolved, bind_ok (ofExcept_apply _ _)]
    rw [h.readCache hread]
    split
    · next hsame => exact ⟨_, rfl, hread, hsame, fun _ _ => rfl, rfl⟩
    · obtain ⟨d', hwrite, hpsks, hpins⟩ := h.writePskCache
        (SortedMap.insert nodeId (hexEncode psk) (d.psks folder).entries)
        { d with accesses := d.accesses + 1 }
      refine ⟨d', hwrite, by rw [hpsks]; rfl, ?_, ?_, hpins⟩
      · rw [Disk.cached, hpsks]
        exact SortedMap.get_insert_self _ _ _
      · intro n hn
        rw [Disk.cached, hpsks]
        exact SortedMap.get_insert_of_ne hn _ _

theorem Works.forgetCachedPsk (h : Works env dir folder) {d : Disk}
    (hread : (d.psks folder).readable = true) (nodeId : String) :
    ∃ d', forgetCachedPsk env dir nodeId d = (.ok (), d') ∧ Recached folder nodeId none d d' := by
  unfold Store.forgetCachedPsk
  rw [h.resolved, bind_ok (ofExcept_apply _ _)]
  rw [h.readCache hread]
  split
  · next hnone =>
    exact ⟨_, rfl, hread, Option.isNone_iff_eq_none.mp hnone, fun _ _ => rfl, rfl⟩
  · obtain ⟨d', hwrite, hpsks, hpins⟩ := h.writePskCache
      (SortedMap.erase nodeId (d.psks folder).entries) { d with accesses := d.accesses + 1 }
    refine ⟨d', hwrite, by rw [hpsks]; rfl, ?_, ?_, hpins⟩
    · rw [Disk.cached, hpsks]
      show SortedMap.get nodeId (SortedMap.erase nodeId _) = none
      rw [SortedMap.get_erase, if_pos rfl]
    · intro n hn
      rw [Disk.cached, hpsks]
      show SortedMap.get n (SortedMap.erase nodeId _) = _
      rw [SortedMap.get_erase, if_neg hn]
      rfl

end Store

end Noise

end Thalovant
