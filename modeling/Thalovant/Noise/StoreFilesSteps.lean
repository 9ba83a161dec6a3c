import Thalovant.Noise.PskCache
import Thalovant.Noise.Pins
import Thalovant.Noise.StoreFiles

/-!
# What the operations on the noise store do to its files

Only the task that has the lock changes files. Under a trusted name it changes what is there by one call,
which puts a file there that has been written whole; all that it writes before is under a name of its
own.
-/

namespace Thalovant.Noise.StoreFiles

open Async

/-! ## What the folder holds -/

/-- What a content is, read as a static key. -/
def keyIn (content : Bytes) : Option Bytes := (fromUtf8 content).bind Store.decodePsk

/-- What a content is, read as pins. -/
def pinsIn (codec : PinCodec) (content : Bytes) : Option TextMap :=
  (fromUtf8 content).bind fun text => (parsePins "" codec text).toOption

/-- What is under a trusted name, as its readers take it. -/
def storedOf {α : Type} (read : Bytes → Option α) (file : StateFile) (files : Files) : Stored α :=
  match stat file files with
  | .absent => .absent
  | .irregular => .irregular
  | .insecure => .insecure
  | .malformed => .malformed
  | .held n =>
    match read (files.node n).content with
    | some a => .held a
    | none => .malformed

abbrev keyOf (files : Files) : Stored Bytes := storedOf keyIn .key files

abbrev pinsOf (codec : PinCodec) (files : Files) : Stored TextMap := storedOf (pinsIn codec) .pins files

section Same

variable {file : StateFile} {files files' : Files}

theorem stat_same (h : Directory.Same (.state file) files files') : stat file files' = stat file files := by
  unfold stat
  rw [h.entry]
  cases hentry : files.entry (.state file) with
  | absent | irregular => rfl
  | file n =>
    dsimp only
    rw [h.node n hentry]

theorem contentOf_same (h : Directory.Same (.state file) files files') :
    contentOf file files' = contentOf file files := by
  unfold contentOf
  rw [h.entry]
  cases hentry : files.entry (.state file) with
  | absent | irregular => rfl
  | file n =>
    dsimp only
    rw [h.node n hentry]

theorem entry_of_stat {n : Nat} (h : stat file files = .held n) :
    files.entry (.state file) = .file n ∧ (files.node n).secure = true := by
  unfold stat at h
  split at h
  · cases h
  · cases h
  · next m hentry =>
    split at h
    · next hsecure =>
      cases h
      exact ⟨hentry, hsecure⟩
    · cases h

theorem absent_of_stat (h : stat file files = .absent) : files.entry (.state file) = .absent := by
  unfold stat at h
  split at h
  · next hentry => exact hentry
  · cases h
  · split at h <;> cases h

theorem storedOf_same {α : Type} (read : Bytes → Option α)
    (h : Directory.Same (.state file) files files') :
    storedOf read file files' = storedOf read file files := by
  unfold storedOf
  rw [stat_same h]
  cases hstat : stat file files with
  | absent | irregular | insecure | malformed => rfl
  | held n =>
    dsimp only
    rw [h.node n (entry_of_stat hstat).1]

/-- A file that only its owner may read, under a trusted name. -/
theorem storedOf_file {α : Type} {read : Bytes → Option α} {n : Nat} {a : α}
    (hentry : files.entry (.state file) = .file n) (hsecure : (files.node n).secure = true)
    (hread : read (files.node n).content = some a) : storedOf read file files = .held a := by
  have hstat : stat file files = .held n := by
    unfold stat
    rw [hentry]
    dsimp only
    rw [if_pos hsecure]
  unfold storedOf
  rw [hstat]
  dsimp only
  rw [hread]

theorem contentOf_file {n : Nat} (hentry : files.entry (.state file) = .file n) :
    contentOf file files = some (files.node n).content := by
  unfold contentOf
  rw [hentry]

theorem file_of_contentOf {content : Bytes} (h : contentOf file files = some content) :
    ∃ n, files.entry (.state file) = .file n ∧ (files.node n).content = content := by
  unfold contentOf at h
  split at h
  · next n hentry =>
    cases h
    exact ⟨n, hentry, rfl⟩
  · cases h

theorem storedOf_absent {α : Type} {read : Bytes → Option α} (hentry : files.entry (.state file) = .absent) :
    storedOf read file files = .absent := by
  have hstat : stat file files = .absent := by
    unfold stat
    rw [hentry]
  unfold storedOf
  rw [hstat]

/-- A content that has been read of a file that its readers take. -/
theorem storedOf_content {α : Type} {read : Bytes → Option α} {content : Bytes} {a : α}
    (hstat : stat file files = .absent ∨ ∃ n, stat file files = .held n)
    (hcontent : contentOf file files = some content) (hread : read content = some a) :
    storedOf read file files = .held a := by
  obtain ⟨n, hentry, rfl⟩ := file_of_contentOf hcontent
  rcases hstat with habsent | ⟨m, hheld⟩
  · rw [absent_of_stat habsent] at hentry
    cases hentry
  · obtain ⟨hentry', hsecure⟩ := entry_of_stat hheld
    rw [hentry'] at hentry
    cases hentry
    exact storedOf_file hentry' hsecure hread

end Same

/-! ## Cooperation -/

variable (codec : PinCodec)

/-- How the pins may change, by a task with this operation. -/
def PinChange (op : Option StoreOp) (files files' : Files) : Prop :=
  Directory.Same (.state .pins) files files'
  ∨ ∃ pins, (pinsOf codec files = .held pins ∨ pinsOf codec files = .absent ∧ pins = [])
    ∧ ((∃ nodeId key, op = some (.pinHubKey nodeId key) ∧ SortedMap.get nodeId pins = none
        ∧ pinsOf codec files' = .held (SortedMap.insert nodeId key pins))
      ∨ ∃ nodeId, op = some (.forgetNoisePin nodeId) ∧ SortedMap.get nodeId pins ≠ none
        ∧ pinsOf codec files' = .held (SortedMap.erase nodeId pins))

/-- What is under a trusted name has been published or was there, and so has all that was read; and the
keys that callers had are the one that is there. -/
structure Sane (s : StoreState) : Prop where
  versions : ∀ file content, contentOf file s.files = some content → (file, content) ∈ s.seen.versions
  reads : ∀ r ∈ s.seen.reads, r ∈ s.seen.versions
  keys : ∀ key ∈ s.seen.keys, keyOf s.files = .held key

/-- What a task guarantees of a section. -/
structure Guarantee (i : Nat) (s₀ s : StoreState) : Prop where
  lock : s₀.lock ≠ some i → s₀.lock ≠ none → s.lock = s₀.lock ∧ s.files = s₀.files
  owner : ∀ j, s.lock = some j → j = i ∨ s₀.lock = some j
  op : ∀ j, j ≠ i → s.seen.op j = s₀.seen.op j
  key : s₀.files.entry (.state .key) ≠ .absent → Directory.Same (.state .key) s₀.files s.files
  pins : PinChange codec (s.seen.op i) s₀.files s.files
  versions : ∀ v ∈ s.seen.versions, v ∈ s₀.seen.versions ∨ contentOf v.1 s.files = some v.2

/-- What a task relies on. -/
structure Rely (i : Nat) (s s' : StoreState) : Prop where
  lock : s.lock = some i → s'.lock = some i ∧ s'.files = s.files
  free : s.lock ≠ some i → s'.lock ≠ some i
  op : s'.seen.op i = s.seen.op i

variable {codec} {i : Nat} {s₀ s s' s'' : StoreState}

theorem Rely.refl (i : Nat) (s : StoreState) : Rely i s s := ⟨fun h => ⟨h, rfl⟩, fun h => h, rfl⟩

theorem Rely.trans (h : Rely i s s') (h' : Rely i s' s'') : Rely i s s'' where
  lock hi := by
    obtain ⟨hi', hfiles⟩ := h.lock hi
    obtain ⟨hi'', hfiles'⟩ := h'.lock hi'
    exact ⟨hi'', hfiles'.trans hfiles⟩
  free hi := h'.free (h.free hi)
  op := h'.op.trans h.op

theorem Guarantee.rely {j : Nat} (hij : i ≠ j) (h : Guarantee codec j s s') : Rely i s s' where
  lock hi := by
    obtain ⟨hlock, hfiles⟩ := h.lock (by rw [hi]; simpa using hij) (by rw [hi]; simp)
    exact ⟨hlock.trans hi, hfiles⟩
  free hi hi' := (h.owner i hi').elim hij hi
  op := h.op i hij

/-- A section that leaves the files and the lock. -/
theorem guarantee_same (hlock : s.lock = s₀.lock) (hfiles : s.files = s₀.files)
    (hop : ∀ j, j ≠ i → s.seen.op j = s₀.seen.op j) (hversions : s.seen.versions = s₀.seen.versions) :
    Guarantee codec i s₀ s where
  lock _ _ := ⟨hlock, hfiles⟩
  owner _ hj := .inr (hlock ▸ hj)
  op := hop
  key _ := hfiles ▸ .refl _ _
  pins := .inl (hfiles ▸ .refl _ _)
  versions _ hv := .inl (hversions ▸ hv)

theorem Guarantee.refl (i : Nat) (s : StoreState) : Guarantee codec i s s :=
  guarantee_same rfl rfl (fun _ _ => rfl) rfl

variable (dir : String)

variable (codec) in
/-- How the processes over one folder cooperate. -/
def cooperation : Cooperation (storeSystem dir codec) where
  invariant := Sane
  rely := Rely
  guarantee i _ s₀ _ s := Guarantee codec i s₀ s
  unborn i s := s.lock ≠ some i
  rely_refl := Rely.refl
  rely_trans := Rely.trans
  others hij _ h := h.rely hij
  world {e} := nomatch e
  unborn_rely hrely h := hrely.free h

/-! ## Under the lock -/

/-- A task in a section, with the lock. -/
structure Locked (codec : PinCodec) (i : Nat) (op : StoreOp) (s₀ s : StoreState) : Prop where
  sane : Sane s
  lock : s.lock = some i
  op : s.seen.op i = some op
  done : Guarantee codec i s₀ s
  came : s₀.lock = some i ∨ s₀.lock = none

variable {op : StoreOp}

/-- The lock is kept across a call. -/
theorem Locked.resumed (h : Locked codec i op s₀ s) (hs : Sane s') (hrely : Rely i s s') :
    Locked codec i op s' s' ∧ s'.files = s.files := by
  obtain ⟨hlock, hfiles⟩ := hrely.lock h.lock
  exact ⟨⟨hs, hlock, hrely.op.trans h.op, .refl i s', .inl hlock⟩, hfiles⟩

/-- The guard gives the lock back. -/
theorem Locked.release (h : Locked codec i op s₀ s) :
    Sane (release s) ∧ Guarantee codec i s₀ (release s) :=
  ⟨⟨h.sane.versions, h.sane.reads, h.sane.keys⟩,
    fun hi hnone => absurd h.came (by simp [hi, hnone]), (fun _ hj => nomatch hj), h.done.op,
    h.done.key, h.done.pins, h.done.versions⟩

/-- What is under the trusted names is the same. -/
def Beside (files files' : Files) : Prop := ∀ file, Directory.Same (.state file) files files'

theorem Beside.refl (files : Files) : Beside files files := fun _ => .refl _ _

theorem Beside.trans {files files' files'' : Files} (h : Beside files files')
    (h' : Beside files' files'') : Beside files files'' := fun file => (h file).trans (h' file)

theorem PinChange.beside {op : Option StoreOp} {files files' files'' : Files}
    (h : PinChange codec op files files') (h' : Directory.Same (.state .pins) files' files'') :
    PinChange codec op files files'' := by
  rcases h with h | ⟨pins, hpins, hchange⟩
  · exact .inl (h.trans h')
  · refine .inr ⟨pins, hpins, ?_⟩
    rw [pinsOf, storedOf_same _ h']
    exact hchange

/-- Files are changed beside the trusted ones. -/
theorem Locked.beside (h : Locked codec i op s₀ s) {f : Files → Files} (hf : Beside s.files (f s.files)) :
    Locked codec i op s₀ { s with files := f s.files } where
  sane := by
    refine ⟨fun file content hcontent => ?_, h.sane.reads, fun key hkey => ?_⟩
    · exact h.sane.versions file content ((contentOf_same (hf file)).symm.trans hcontent)
    · exact (storedOf_same _ (hf .key)).trans (h.sane.keys key hkey)
  lock := h.lock
  op := h.op
  done := ⟨fun hi hnone => absurd h.came (by simp [hi, hnone]), h.done.owner, h.done.op,
    fun hthere => (h.done.key hthere).trans (hf .key), h.done.pins.beside (hf .pins),
    fun v hv => (h.done.versions v hv).imp_right ((contentOf_same (hf v.1)).trans ·)⟩
  came := h.came

section Runs

variable {α β : Type} {c : Cause Request Answer} {files : Files}

variable (codec i op) in
/-- What a task leaves when it returns, with the lock. -/
def Does (t : StoreTask α) (post : α → Files → Prop) (c : Cause Request Answer)
    (s₀ s : StoreState) : Prop :=
  t.Runs ((cooperation codec dir).discipline i) release
    (fun a _ s₀ s => Locked codec i op s₀ s ∧ post a s.files) c s₀ s

variable {dir} {post : α → Files → Prop}

theorem does_return {a : α} (h : Locked codec i op s₀ s) (hpost : post a s.files) :
    Does codec i dir op (pure a) post c s₀ s := ⟨h, hpost⟩

theorem Does.mono {t : StoreTask α} {mid : α → Files → Prop} (ht : Does codec i dir op t mid c s₀ s)
    (hpost : ∀ a files, mid a files → post a files) : Does codec i dir op t post c s₀ s :=
  Runs.mono (fun a _ _ s h => ⟨h.1, hpost a s.files h.2⟩) ht

theorem does_bind {t : StoreTask β} {f : β → StoreTask α} {mid : β → Files → Prop}
    (ht : Does codec i dir op t mid c s₀ s)
    (hnext : ∀ b c s₀ s, Locked codec i op s₀ s → mid b s.files → Does codec i dir op (f b) post c s₀ s) :
    Does codec i dir op (t >>= f) post c s₀ s :=
  runs_bind.mpr (Runs.mono (fun b c s₀ s h => hnext b c s₀ s h.1 h.2) ht)

theorem does_get {f : StoreState → StoreTask α} :
    Does codec i dir op (Async.get >>= f) post c s₀ s ↔ Does codec i dir op (f s) post c s₀ s :=
  runs_get_bind

theorem does_modify {g : StoreState → StoreState} {f : Unit → StoreTask α} :
    Does codec i dir op (Async.modify g >>= f) post c s₀ s ↔ Does codec i dir op (f ()) post c s₀ (g s) :=
  runs_modify_bind

theorem does_ask {q : Request} {f : Answer q → StoreTask α} (h : Locked codec i op s₀ s)
    (hnext : ∀ a c s', Locked codec i op s' s' → s'.files = s.files → enabled q a s' = true →
      Does codec i dir op (f a) post c s' s') :
    Does codec i dir op (Async.ask q >>= f) post c s₀ s := by
  refine runs_ask_bind.mpr ⟨⟨h.sane, h.done⟩, fun s' hs' hrely => ?_⟩
  obtain ⟨h', hfiles⟩ := h.resumed hs' hrely
  exact ⟨h'.release, fun a ha => hnext a _ s' h' hfiles ha⟩

/-- One task after the other, as long as they succeed. -/
theorem does_andThen {t : StoreTask (Result β)} {f : β → StoreTask (Result α)}
    {mid : Result β → Files → Prop} {post : Result α → Files → Prop}
    (ht : Does codec i dir op t mid c s₀ s)
    (hfail : ∀ err files, mid (.error err) files → post (.error err) files)
    (hnext : ∀ b c s₀ s, Locked codec i op s₀ s → mid (.ok b) s.files →
      Does codec i dir op (f b) post c s₀ s) :
    Does codec i dir op (andThen t f) post c s₀ s := by
  refine does_bind ht fun r c s₀ s h hr => ?_
  cases r with
  | ok b => exact hnext b c s₀ s h hr
  | error err => exact does_return h (hfail err _ hr)

/-- A call, with what is done in the section that it begins. -/
theorem does_call {f : Nat → StoreTask (Result α)} {post : Result α → Files → Prop}
    (h : Locked codec i op s₀ s) (hfail : ∀ err, post (.error err) s.files)
    (hnext : ∀ n c s', Locked codec i op s' s' → s'.files = s.files →
      Does codec i dir op (f n) post c s' s') :
    Does codec i dir op (andThen call f) post c s₀ s := by
  refine does_ask h fun a c s' h' hfiles _ => ?_
  cases a with
  | error err => exact does_return h' (hfiles ▸ hfail err)
  | ok n => exact hnext n c s' h' hfiles

/-! ### Reading -/

theorem does_validateStateFile (file : StateFile) (h : Locked codec i op s₀ s) :
    Does codec i dir op (validateStateFile dir file) (fun r files => files = s.files
      ∧ (r = .ok () → stat file files = .absent ∨ ∃ n, stat file files = .held n)) c s₀ s := by
  refine does_call h (fun err => ⟨rfl, nofun⟩) fun _ c s' h' hfiles => ?_
  refine does_get.mpr (does_return h' ⟨hfiles, fun hok => ?_⟩)
  cases hstat : stat file s'.files with
  | absent => exact .inl rfl
  | held n => exact .inr ⟨n, rfl⟩
  | irregular | insecure =>
    rw [hstat] at hok
    cases hok
  | malformed =>
    unfold stat at hstat
    split at hstat
    · cases hstat
    · cases hstat
    · split at hstat <;> cases hstat

variable (dir) in
/-- What is read of a file, part by part, is its content: the file does not change meanwhile. By induction
on how many parts there may be. -/
theorem does_readRest (n fuel : Nat) (acc : Bytes) (h : Locked codec i op s₀ s)
    (hacc : acc <+: (s.files.node n).content)
    (hfuel : (s.files.node n).content.length < acc.length + fuel) :
    Does codec i dir op (readRest n fuel acc) (fun r files => files = s.files
      ∧ ∀ bytes, r = .ok bytes → bytes = (files.node n).content) c s₀ s := by
  induction fuel generalizing c s₀ s acc with
  | zero =>
    have hlength := hacc.length_le
    omega
  | succ fuel ih =>
    refine does_call h (fun err => ⟨rfl, nofun⟩) fun count c s' h' hfiles => ?_
    refine does_get.mpr ?_
    rw [← hfiles] at hacc hfuel ⊢
    dsimp only
    split
    · next hend =>
      refine does_return h' ⟨rfl, fun bytes hbytes => ?_⟩
      cases hbytes
      exact hacc.eq_of_length_le hend
    · next hmore =>
      refine ih _ h' ?_ ?_
      · obtain ⟨rest, hrest⟩ := hacc
        rw [← hrest, List.drop_left]
        exact ⟨rest.drop (max 1 count), by rw [List.append_assoc, List.take_append_drop]⟩
      · rw [List.length_append, List.length_take, List.length_drop]
        omega

/-- Reading a trusted file gives the whole of a version of it. -/
theorem does_readToString (file : StateFile) (h : Locked codec i op s₀ s) :
    Does codec i dir op (readToString file) (fun r files => files = s.files
      ∧ (r = .ok none → files.entry (.state file) = .absent)
      ∧ ∀ text, r = .ok (some text) →
        ∃ content, contentOf file files = some content ∧ fromUtf8 content = some text) c s₀ s := by
  refine does_call h (fun err => ⟨rfl, nofun, nofun⟩) fun _ c s' h' hfiles => ?_
  refine does_get.mpr ?_
  rw [← hfiles]
  split
  · next hentry => exact does_return h' ⟨rfl, fun _ => hentry, nofun⟩
  · exact does_return h' ⟨rfl, nofun, nofun⟩
  · next n hentry =>
    have hrest := does_readRest dir (c := c) n ((s'.files.node n).content.length + 1) [] h'
      List.nil_prefix (by simp)
    refine does_andThen hrest (fun err files hread => ⟨hread.1, nofun, nofun⟩) ?_
    rintro bytes c s₀ s'' h'' ⟨hfiles', hbytes⟩
    have hcontent : contentOf file s''.files = some bytes := by
      rw [hbytes bytes rfl]
      exact contentOf_file (hfiles' ▸ hentry)
    refine does_modify.mpr ?_
    -- what was read is noted, being a version of the file
    have hread : Locked codec i op s₀
        { s'' with seen := { s''.seen with reads := (file, bytes) :: s''.seen.reads } } := by
      refine ⟨⟨h''.sane.versions, fun r hr => ?_, h''.sane.keys⟩, h''.lock, h''.op,
        ⟨h''.done.lock, h''.done.owner, h''.done.op, h''.done.key, h''.done.pins,
          h''.done.versions⟩, h''.came⟩
      rcases List.mem_cons.mp hr with rfl | hr
      · exact h''.sane.versions file bytes hcontent
      · exact h''.sane.reads r hr
    split
    · exact does_return hread ⟨hfiles', nofun, nofun⟩
    · next text htext =>
      refine does_return hread ⟨hfiles', nofun, fun text' hok => ?_⟩
      cases hok
      exact ⟨bytes, hcontent, htext⟩

/-! ### Writing -/

/-- Nothing is under a trusted name that is under another. -/
theorem Locked.append (h : Locked codec i op s₀ s) {n : Nat} (bytes : Bytes)
    (hn : ∀ file, s.files.entry (.state file) ≠ .file n) :
    Locked codec i op s₀ { s with files := s.files.append n bytes } :=
  h.beside fun file => Directory.same_append bytes (hn file)

variable (dir) in
/-- What is written, part by part, is all of it in the end. By induction on how many parts there may be. -/
theorem does_writeAll (n fuel : Nat) (rest : Bytes) (h : Locked codec i op s₀ s)
    (hn : ∀ file, s.files.entry (.state file) ≠ .file n) (hfuel : rest.length ≤ fuel) :
    Does codec i dir op (writeAll n fuel rest) (fun r files => Beside s.files files
      ∧ files.entry = s.files.entry ∧ (files.node n).secure = (s.files.node n).secure
      ∧ (r = .ok () → (files.node n).content = (s.files.node n).content ++ rest)) c s₀ s := by
  induction fuel generalizing c s₀ s rest with
  | zero =>
    have hnil : rest = [] := List.length_eq_zero_iff.mp (by omega)
    subst hnil
    exact does_return h ⟨.refl _, rfl, rfl, fun _ => (List.append_nil _).symm⟩
  | succ fuel ih =>
    unfold writeAll
    split
    · next hnil =>
      subst hnil
      exact does_return h ⟨.refl _, rfl, rfl, fun _ => (List.append_nil _).symm⟩
    · next hmore =>
      refine does_call h (fun err => ⟨.refl _, rfl, rfl, nofun⟩) fun count c s' h' hfiles => ?_
      refine does_modify.mpr ?_
      rw [← hfiles] at hn ⊢
      have hlength := List.length_pos_iff.mpr hmore
      have hnext := ih (c := c) (rest.drop (max 1 count)) (h'.append (rest.take (max 1 count)) hn) hn
        (by rw [List.length_drop]; omega)
      refine hnext.mono fun r files hdone => ?_
      obtain ⟨hbeside, hentry, hsecure, hcontent⟩ := hdone
      refine ⟨.trans (fun file => Directory.same_append _ (hn file)) hbeside, hentry, ?_,
        fun hok => ?_⟩
      · rw [hsecure, Directory.node_append]
      · rw [hcontent hok, Directory.node_append, List.append_assoc, List.take_append_drop]

/-- A new file is under no trusted name. -/
theorem beside_create (files : Files) (unique : Nat) : Beside files (files.create (.temporary unique)) :=
  fun _ => Directory.same_create nofun

theorem beside_remove (files : Files) (unique : Nat) : Beside files (files.remove (.temporary unique)) :=
  fun _ => Directory.same_remove nofun

theorem does_writePrivateAt (unique : Nat) (contents : Bytes) (h : Locked codec i op s₀ s) :
    Does codec i dir op (writePrivateAt (.temporary unique) contents) (fun r files =>
      Beside s.files files ∧ (r = .ok true → ∃ n, files.entry (.temporary unique) = .file n
        ∧ files.node n = ⟨contents, true⟩)) c s₀ s := by
  refine does_call h (fun err => ⟨.refl _, nofun⟩) fun _ c s' h' hfiles => ?_
  refine does_get.mpr ?_
  rw [← hfiles]
  split
  · refine does_modify.mpr ?_
    have hmade := h'.beside (beside_create s'.files unique)
    have hwritten := does_writeAll dir (c := c) s'.files.made contents.length contents hmade
      (fun file => Directory.entry_create_ne nofun) (Nat.le_refl _)
    refine does_andThen hwritten (fun err files hdone => ?_) fun _ c s₀ s'' h'' hdone => ?_
    · exact ⟨(beside_create _ _).trans hdone.1, nofun⟩
    · obtain ⟨hbeside, hentry, hsecure, hcontent⟩ := hdone
      have hbeside := (beside_create s'.files unique).trans hbeside
      have hcontent := hcontent rfl
      rw [Directory.node_create] at hsecure hcontent
      refine does_call h'' (fun err => ⟨hbeside, nofun⟩) fun _ c s₁ h₁ hfiles => ?_
      refine does_return h₁ ⟨hfiles ▸ hbeside, fun _ => ⟨s'.files.made, ?_, ?_⟩⟩
      · rw [hfiles, hentry]
        exact Directory.entry_create
      · rw [hfiles]
        exact congrArg₂ FileNode.mk hcontent hsecure
  · exact does_return h' ⟨.refl _, nofun⟩

theorem does_removeFile (unique : Nat) (h : Locked codec i op s₀ s) :
    Does codec i dir op (removeFile (.temporary unique)) (fun _ files => Beside s.files files) c s₀ s := by
  refine does_ask h fun a c s' h' hfiles _ => ?_
  rw [← hfiles]
  cases a with
  | error err => exact does_return h' (.refl _)
  | ok n => exact ⟨h'.beside (beside_remove _ unique), beside_remove _ unique⟩

/-- A publication: the file is written beside, put under the trusted name by one call, and its own name
removed. -/
theorem does_publishPrivate {file : StateFile} {contents : Bytes} {exclusive : Bool}
    {post : Result Bool → Files → Prop} (h : Locked codec i op s₀ s)
    (hfail : ∀ err files, Beside s.files files → post (.error err) files)
    (hbeside : ∀ r files files', post r files → Beside files files' → post r files')
    (hcommit : ∀ unique n c s₀' s', Locked codec i op s₀' s' → Beside s.files s'.files →
      s'.files.entry (.temporary unique) = .file n → s'.files.node n = ⟨contents, true⟩ →
      Does codec i dir op (if exclusive then hardLink (.temporary unique) file contents
        else rename (.temporary unique) file contents) post c s₀' s') :
    Does codec i dir op (publishPrivate file contents exclusive) post c s₀ s := by
  refine does_ask h fun unique c s' h' hfiles _ => ?_
  rw [← hfiles] at hfail hcommit
  refine does_bind (does_writePrivateAt unique contents h') fun r c s₀ s'' h'' hwritten => ?_
  rcases r with err | _ | _
  · refine does_bind (does_removeFile unique h'') fun _ c s₀ s h hremoved => ?_
    exact does_return h (hfail err _ (hwritten.1.trans hremoved))
  · exact does_return h'' (hfail _ _ hwritten.1)
  · obtain ⟨n, hentry, hnode⟩ := hwritten.2 rfl
    have hcommit := hcommit unique n c s₀ s'' h'' hwritten.1 hentry hnode
    have hfinish : ∀ t, Does codec i dir op t post c s₀ s'' → Does codec i dir op (do
        let result ← t
        removeFile (.temporary unique)
        return result) post c s₀ s'' := by
      intro t ht
      refine does_bind ht fun r c s₀ s h hdone => ?_
      refine does_bind (does_removeFile unique h) fun _ c s₀ s h hremoved => ?_
      exact does_return h (hbeside r _ _ hdone hremoved)
    cases exclusive <;> exact hfinish _ hcommit

/-- A file that is published is a version of what is there. -/
theorem published_versions {file : StateFile} {contents : Bytes} {versions : List (StateFile × Bytes)}
    (h : contentOf file files = some contents) :
    ∀ v ∈ (file, contents) :: versions, v ∈ versions ∨ contentOf v.1 files = some v.2 := by
  intro v hv
  rcases List.mem_cons.mp hv with rfl | hv
  · exact .inr h
  · exact .inl hv

/-- The first static key is published. -/
theorem does_hardLink {unique n : Nat} {contents : Bytes} (h : Locked codec i op s₀ s)
    (hentry : s.files.entry (.temporary unique) = .file n) (hnode : s.files.node n = ⟨contents, true⟩) :
    Does codec i dir op (hardLink (.temporary unique) .key contents) (fun r files =>
      r = .ok true → ∀ key, keyIn contents = some key → keyOf files = .held key) c s₀ s := by
  refine does_ask h fun a c s' h' hfiles _ => ?_
  rw [← hfiles] at hentry hnode
  rcases a with err | _
  · cases err <;> exact does_return h' nofun
  · refine does_get.mpr ?_
    split
    · next habsent =>
      refine does_modify.mpr ?_
      have hlink : (s'.files.link (.temporary unique) (.state .key)).entry (.state .key) = .file n :=
        (Directory.entry_link _ _).trans hentry
      have hcontent : contentOf .key (s'.files.link (.temporary unique) (.state .key))
          = some contents := by
        rw [contentOf_file hlink]
        show some (s'.files.node n).content = _
        rw [hnode]
      have hpins : Directory.Same (.state .pins) s'.files
          (s'.files.link (.temporary unique) (.state .key)) := Directory.same_link nofun
      refine does_return ⟨⟨fun file content hfound => ?_, fun r hr => ?_, fun key hkey => ?_⟩, h'.lock,
        h'.op, ⟨fun hi => absurd h'.lock hi, fun _ hj => .inr hj, fun _ _ => rfl,
          fun hthere => absurd habsent hthere, .inl hpins, published_versions hcontent⟩, h'.came⟩
        fun _ key hread => storedOf_file hlink ?_ ?_
      · cases file with
        | key =>
          have heq := hcontent.symm.trans hfound
          cases heq
          exact List.mem_cons_self
        | pins =>
          exact List.mem_cons_of_mem _
            (h'.sane.versions .pins content ((contentOf_same hpins).symm.trans hfound))
      · exact List.mem_cons_of_mem _ (h'.sane.reads r hr)
      · -- no caller has a key where there is none
        have hheld := h'.sane.keys key hkey
        rw [keyOf, storedOf_absent habsent] at hheld
        cases hheld
      · show (s'.files.node n).secure = true
        rw [hnode]
      · show keyIn (s'.files.node n).content = some key
        rw [hnode]
        exact hread
    · exact does_return h' nofun

/-- Pins are published. -/
theorem does_rename {unique n : Nat} {contents : Bytes} (h : Locked codec i op s₀ s)
    (hentry : s.files.entry (.temporary unique) = .file n) (hnode : s.files.node n = ⟨contents, true⟩)
    (hchange : PinChange codec (some op) s.files
      (s.files.rename (.temporary unique) (.state .pins))) :
    Does codec i dir op (rename (.temporary unique) .pins contents) (fun _ _ => True) c s₀ s := by
  refine does_call h (fun err => trivial) fun _ c s' h' hfiles => ?_
  rw [← hfiles] at hentry hnode hchange
  refine does_modify.mpr ?_
  have hne : Name.state .pins ≠ .temporary unique := nofun
  have hrename : (s'.files.rename (.temporary unique) (.state .pins)).entry (.state .pins) = .file n :=
    (Directory.entry_rename hne).trans hentry
  have hcontent : contentOf .pins (s'.files.rename (.temporary unique) (.state .pins))
      = some contents := by
    rw [contentOf_file hrename]
    show some (s'.files.node n).content = _
    rw [hnode]
  have hkey : Directory.Same (.state .key) s'.files
      (s'.files.rename (.temporary unique) (.state .pins)) := Directory.same_rename nofun nofun
  refine does_return ⟨⟨fun file content hfound => ?_, fun r hr => ?_, fun key hkeys => ?_⟩, h'.lock,
    h'.op, ⟨fun hi => absurd h'.lock hi, fun _ hj => .inr hj, fun _ _ => rfl, fun _ => hkey,
      h'.op ▸ hchange, published_versions hcontent⟩, h'.came⟩ trivial
  · cases file with
    | key =>
      exact List.mem_cons_of_mem _
        (h'.sane.versions .key content ((contentOf_same hkey).symm.trans hfound))
    | pins =>
      have heq := hcontent.symm.trans hfound
      cases heq
      exact List.mem_cons_self
  · exact List.mem_cons_of_mem _ (h'.sane.reads r hr)
  · exact (storedOf_same _ hkey).trans (h'.sane.keys key hkeys)

/-! ### The static key -/

/-- A text that is read as a key is the key's. -/
theorem parseKey_ok {text : String} {key content : Bytes} (h : parseKey dir text = .ok key)
    (htext : fromUtf8 content = some text) : keyIn content = some key := by
  unfold keyIn
  rw [htext, Option.bind_some]
  unfold parseKey at h
  split at h
  · next key' hread =>
    cases h
    exact hread
  · cases h

/-- What is written for a key is read as it. -/
theorem keyIn_hexEncode {key : Bytes} (h : key.length = 32) : keyIn (utf8 (hexEncode key)) = some key := by
  unfold keyIn
  rw [fromUtf8_utf8, Option.bind_some]
  unfold Store.decodePsk
  rw [trim_hexEncode, hexDecode_hexEncode, Option.filter_some_pos (by simp [h])]

theorem does_loadExistingNoiseKey (h : Locked codec i op s₀ s) :
    Does codec i dir op (loadExistingNoiseKey dir)
      (fun r files => ∀ key, r = .ok key → keyOf files = .held key) c s₀ s := by
  unfold loadExistingNoiseKey
  refine does_andThen (does_validateStateFile .key h) (fun err files _ _ h => nomatch h) ?_
  intro _ c s₀ s h hvalidated
  refine does_andThen (does_readToString .key h) (fun err files _ _ h => nomatch h) ?_
  intro read c s₀ s' h' hread
  cases read with
  | none => exact does_return h' nofun
  | some text =>
    obtain ⟨content, hcontent, htext⟩ := hread.2.2 text rfl
    exact does_return h' fun key hkey =>
      storedOf_content (hread.1 ▸ hvalidated.2 rfl) hcontent (parseKey_ok hkey htext)

/-- The key that a caller has is the one in the file. -/
theorem does_loadOrCreateNoiseKey (h : Locked codec i op s₀ s) :
    Does codec i dir op (loadOrCreateNoiseKey dir)
      (fun r files => ∀ key, r = .ok key → keyOf files = .held key) c s₀ s := by
  unfold loadOrCreateNoiseKey
  refine does_andThen (does_validateStateFile .key h) (fun err files _ _ h => nomatch h) ?_
  intro _ c s₀ s h hvalidated
  refine does_andThen (does_readToString .key h) (fun err files _ _ h => nomatch h) ?_
  intro read c s₀ s h hread
  cases read with
  | some text =>
    obtain ⟨content, hcontent, htext⟩ := hread.2.2 text rfl
    exact does_return h fun key hkey =>
      storedOf_content (hread.1 ▸ hvalidated.2 rfl) hcontent (parseKey_ok hkey htext)
  | none =>
    refine does_ask h fun key c s h _ hlength => ?_
    have hlength : key.length = 32 := by simpa [enabled] using hlength
    refine does_call h (fun err => nofun) fun _ c s h _ => ?_
    have hpublished : Does codec i dir op (publishPrivate .key (utf8 (hexEncode key)) true)
        (fun r files => r = .ok true → keyOf files = .held key) c s s := by
      refine does_publishPrivate h (fun err files _ => nofun) (fun r files files' hdone hbeside hok =>
        (storedOf_same _ (hbeside .key)).trans (hdone hok)) fun unique n c s₀' s' h' _ hentry hnode => ?_
      exact (does_hardLink h' hentry hnode).mono fun r files hdone hok =>
        hdone hok key (keyIn_hexEncode hlength)
    refine does_andThen hpublished (fun err files _ => nofun) fun created c s₀ s h hdone => ?_
    cases created with
    | true =>
      refine does_return h fun key' hkey => ?_
      cases hkey
      exact hdone rfl
    | false => exact does_loadExistingNoiseKey h

/-! ### Pins -/

theorem forM_ok {f : β → Result Unit} {l : List β} : l.forM f = .ok () ↔ ∀ b ∈ l, f b = .ok () := by
  induction l with
  | nil => simp [pure, Except.pure]
  | cons b l ih =>
    rw [List.forall_mem_cons, ← ih]
    show (f b >>= fun _ => l.forM f) = .ok () ↔ _
    rcases f b with err | ⟨⟩
    · exact ⟨nofun, fun h => nomatch h.1⟩
    · exact ⟨fun h => ⟨rfl, h⟩, And.right⟩

theorem parsePins_ok {dir text : String} {pins : TextMap} : parsePins dir codec text = .ok pins
    ↔ codec.fromStr text = .ok pins ∧ ∀ e ∈ pins, Store.validatePin e.1 e.2 = .ok () := by
  unfold parsePins
  split
  · next err hread => simp [hread]
  · next pins' hread =>
    show ((pins'.forM fun e => Store.validatePin e.1 e.2) >>= fun _ => .ok pins') = .ok pins ↔ _
    rw [hread, ← forM_ok]
    constructor
    · intro h
      rcases hvalid : (pins'.forM fun e => Store.validatePin e.1 e.2) with err | ⟨⟩
      · rw [hvalid] at h
        cases h
      · rw [hvalid] at h
        cases h
        exact ⟨rfl, hvalid⟩
    · rintro ⟨heq, hvalid⟩
      cases heq
      rw [hvalid]
      rfl

/-- A content that holds valid pins. -/
theorem pinsIn_eq_some {content : Bytes} {pins : TextMap} : pinsIn codec content = some pins
    ↔ ∃ text, fromUtf8 content = some text ∧ codec.fromStr text = .ok pins
      ∧ ∀ e ∈ pins, Store.validatePin e.1 e.2 = .ok () := by
  unfold pinsIn
  rw [Option.bind_eq_some_iff]
  refine exists_congr fun text => and_congr_right fun _ => ?_
  rw [← @parsePins_ok codec ""]
  rcases parsePins "" codec text with err | pins' <;> simp [Except.toOption]

/-- The pins that a task has read, under the lock. -/
structure HasPins (codec : PinCodec) (files : Files) (pins : TextMap) : Prop where
  sorted : SortedMap.Sorted pins
  valid : ∀ e ∈ pins, Store.validatePin e.1 e.2 = .ok ()
  held : pinsOf codec files = .held pins ∨ pinsOf codec files = .absent ∧ pins = []

theorem does_readPins (h : Locked codec i op s₀ s) :
    Does codec i dir op (readPins dir codec)
      (fun r files => files = s.files ∧ ∀ pins, r = .ok pins → HasPins codec files pins) c s₀ s := by
  unfold readPins
  refine does_andThen (does_validateStateFile .pins h) (fun err files hdone => ⟨hdone.1, nofun⟩) ?_
  intro _ c s₀ s' h' hvalidated
  obtain ⟨hfiles, hstat⟩ := hvalidated
  rw [← hfiles]
  refine does_andThen (does_readToString .pins h') (fun err files hdone => ⟨hdone.1, nofun⟩) ?_
  intro read c s₀ s'' h'' hread
  obtain ⟨hfiles', habsent, htext⟩ := hread
  rw [← hfiles'] at hstat ⊢
  cases read with
  | none =>
    refine does_return h'' ⟨rfl, fun pins hpins => ?_⟩
    cases hpins
    exact ⟨.nil, (fun _ h => nomatch h), .inr ⟨storedOf_absent (habsent rfl), rfl⟩⟩
  | some text =>
    obtain ⟨content, hcontent, htext⟩ := htext text rfl
    refine does_return h'' ⟨rfl, fun pins hpins => ?_⟩
    obtain ⟨hread, hvalid⟩ := parsePins_ok.mp hpins
    exact ⟨codec.sorted text pins hread, hvalid, .inl (storedOf_content (hstat rfl) hcontent
      (pinsIn_eq_some.mpr ⟨text, htext, hread, hvalid⟩))⟩

/-- Pins are replaced as a whole. -/
theorem does_writePins {pins : TextMap} (h : Locked codec i op s₀ s) (hsorted : SortedMap.Sorted pins)
    (hvalid : ∀ e ∈ pins, Store.validatePin e.1 e.2 = .ok ())
    (hchange : ∀ files files', Beside s.files files → pinsOf codec files' = .held pins →
      PinChange codec (some op) files files') :
    Does codec i dir op (writePins codec pins) (fun _ _ => True) c s₀ s := by
  unfold writePins
  refine does_call h (fun err => trivial) fun _ c s' h' hfiles => ?_
  rw [← hfiles] at hchange
  have hread : pinsIn codec (utf8 (codec.toStringPretty pins ++ "\n")) = some pins :=
    pinsIn_eq_some.mpr ⟨_, fromUtf8_utf8 _, codec.roundTrip pins hsorted, hvalid⟩
  have hpublished : Does codec i dir op
      (publishPrivate .pins (utf8 (codec.toStringPretty pins ++ "\n")) false) (fun _ _ => True) c s' s' := by
    refine does_publishPrivate h' (fun _ _ _ => trivial) (fun _ _ _ _ _ => trivial) ?_
    intro unique n c s₀ s'' h'' hbeside hentry hnode
    have hne : Name.state .pins ≠ .temporary unique := nofun
    refine does_rename h'' hentry hnode (hchange _ _ hbeside (storedOf_file
      ((Directory.entry_rename hne).trans hentry) ?_ ?_))
    · show (s''.files.node n).secure = true
      rw [hnode]
    · show pinsIn codec (s''.files.node n).content = some pins
      rw [hnode]
      exact hread
  exact does_andThen hpublished (fun _ _ _ => trivial) fun _ c s₀ s h _ => does_return h trivial

theorem HasPins.beside {files files' : Files} {pins : TextMap} (h : HasPins codec files pins)
    (hbeside : Beside files files') :
    pinsOf codec files' = .held pins ∨ pinsOf codec files' = .absent ∧ pins = [] := by
  rw [pinsOf, storedOf_same _ (hbeside .pins)]
  exact h.held

theorem does_pinHubKey {nodeId key : String} (h : Locked codec i (.pinHubKey nodeId key) s₀ s)
    (hvalid : Store.validatePin nodeId key = .ok ()) :
    Does codec i dir (.pinHubKey nodeId key) (pinHubKey dir codec nodeId key) (fun _ _ => True) c s₀ s := by
  unfold pinHubKey
  refine does_andThen (does_readPins h) (fun _ _ _ => trivial) fun pins c s₀ s h hread => ?_
  have hpins := hread.2 pins rfl
  split
  · next hnone =>
    refine does_writePins h (hpins.sorted.insert nodeId key) (fun e he => ?_) ?_
    · rcases SortedMap.mem_insert he with rfl | he
      · exact hvalid
      · exact hpins.valid e he
    · intro files files' hbeside hheld
      exact .inr ⟨pins, hpins.beside hbeside, .inl ⟨nodeId, key, rfl, hnone, hheld⟩⟩
  · split <;> exact does_return h trivial

theorem does_forgetNoisePin {nodeId : String} (h : Locked codec i (.forgetNoisePin nodeId) s₀ s) :
    Does codec i dir (.forgetNoisePin nodeId) (forgetNoisePin dir codec nodeId) (fun _ _ => True)
      c s₀ s := by
  unfold forgetNoisePin
  refine does_andThen (does_readPins h) (fun _ _ _ => trivial) fun pins c s₀ s h hread => ?_
  have hpins := hread.2 pins rfl
  split
  · exact does_return h trivial
  · next hsome =>
    refine does_writePins h (hpins.sorted.erase nodeId) (fun e he => ?_) ?_
    · exact hpins.valid e (List.mem_of_mem_filter he)
    · intro files files' hbeside hheld
      refine .inr ⟨pins, hpins.beside hbeside, .inr ⟨nodeId, rfl, fun hnone => hsome ?_, hheld⟩⟩
      rw [hnone]
      rfl

theorem does_loadNoisePin {nodeId : String} (h : Locked codec i op s₀ s) :
    Does codec i dir op (loadNoisePin dir codec nodeId) (fun _ _ => True) c s₀ s := by
  unfold loadNoisePin
  exact does_andThen (does_readPins h) (fun _ _ _ => trivial) fun _ c s₀ s h _ => does_return h trivial

/-! ## The operations -/

/-- A task that has the lock no more, or never had it. -/
structure Free (codec : PinCodec) (i : Nat) (s₀ s : StoreState) : Prop where
  sane : Sane s
  done : Guarantee codec i s₀ s

/-- A task waits for the lock, and gives it back however it ends. -/
theorem runs_locked {t : StoreTask (Result α)} {P : Result α → Files → Prop} (hs : Sane s)
    (hdone : Guarantee codec i s₀ s) (hop : s.seen.op i = some op)
    (hfail : ∀ err files, P (.error err) files)
    (ht : ∀ c s₀ s, Locked codec i op s₀ s → Does codec i dir op t P c s₀ s) :
    (locked i t).Runs ((cooperation codec dir).discipline i) id
      (fun r _ s₀ s => Free codec i s₀ s ∧ P r s.files) c s₀ s := by
  unfold locked
  refine runs_andThen ?_
  refine ⟨⟨hs, hdone⟩, fun s' hs' hrely => ⟨⟨hs', .refl i s'⟩, fun a ha => ?_⟩⟩
  cases a with
  | error err => exact ⟨⟨hs', .refl i s'⟩, hfail err _⟩
  | ok _ =>
    have hfree : s'.lock = none := Option.isNone_iff_eq_none.mp ha
    refine runs_modify_bind.mpr (runs_guarded.mpr ?_)
    have htaken : Locked codec i op s' (take i s') :=
      ⟨⟨hs'.versions, hs'.reads, hs'.keys⟩, rfl, hrely.op.trans hop,
        ⟨fun _ hnone => absurd hfree hnone, fun _ hj => .inl (Option.some.inj hj).symm,
          fun _ _ => rfl, fun _ => .refl _ _, .inl (.refl _ _), fun _ hv => .inl hv⟩, .inr hfree⟩
    refine Runs.mono (fun r c s₀ s h => ?_) (ht _ s' _ htaken)
    exact ⟨⟨h.1.release.1, h.1.release.2⟩, h.2⟩

/-- A task that ends its operation. -/
theorem runs_locked_done {t : StoreTask (Result α)} (hs : Sane s) (hdone : Guarantee codec i s₀ s)
    (hop : s.seen.op i = some op)
    (ht : ∀ c s₀ s, Locked codec i op s₀ s → Does codec i dir op t (fun _ _ => True) c s₀ s) :
    (do let _ ← locked i t : StoreTask Unit).Runs ((cooperation codec dir).discipline i) id
      ((cooperation codec dir).Ends i) c s₀ s :=
  runs_bind.mpr (Runs.mono (fun _ _ _ _ h => ⟨h.1.sane, h.1.done⟩)
    (runs_locked hs hdone hop (fun _ _ => trivial) ht))

theorem runs_program (op : StoreOp) (hs : Sane s) :
    (program dir codec i op).Runs ((cooperation codec dir).discipline i) id
      ((cooperation codec dir).Ends i) c s s := by
  unfold program
  rw [runs_modify_bind]
  have hs' : Sane (begin i op s) := ⟨hs.versions, hs.reads, hs.keys⟩
  have hdone : Guarantee codec i s (begin i op s) :=
    guarantee_same rfl rfl (fun j hj => Function.update_of_ne hj _ _) rfl
  have hop : (begin i op s).seen.op i = some op := Function.update_self _ _ _
  cases op with
  | loadOrCreateNoiseKey =>
    refine runs_bind.mpr (Runs.mono (fun r c s₀ s h => ?_) (runs_locked hs' hdone hop
      (P := fun r files => ∀ key, r = .ok key → keyOf files = .held key) (fun err files => nofun)
      fun c s₀ s h => does_loadOrCreateNoiseKey h))
    cases r with
    | error err => exact ⟨h.1.sane, h.1.done⟩
    | ok key =>
      refine ⟨⟨h.1.sane.versions, h.1.sane.reads, fun key' hkey => ?_⟩, h.1.done.lock, h.1.done.owner,
        h.1.done.op, h.1.done.key, h.1.done.pins, h.1.done.versions⟩
      rcases List.mem_cons.mp hkey with rfl | hkey
      · exact h.2 key' rfl
      · exact h.1.sane.keys key' hkey
  | pinHubKey nodeId key =>
    dsimp only
    split
    · exact ⟨hs', hdone⟩
    · next hvalid => exact runs_locked_done hs' hdone hop fun c s₀ s h => does_pinHubKey h hvalid
  | forgetNoisePin nodeId =>
    exact runs_locked_done hs' hdone hop fun c s₀ s h => does_forgetNoisePin h
  | loadNoisePin nodeId => exact runs_locked_done hs' hdone hop fun c s₀ s h => does_loadNoisePin h

end Runs

variable (codec) in
/-- **The processes over one folder cooperate.** -/
theorem cooperation_holds : (cooperation codec dir).Holds := by
  intro i op s s' hs _ hstart
  cases hstart
  exact runs_program op hs

theorem sane_new (files : Files) : Sane (StoreState.new files) where
  versions file content hcontent := by
    refine List.mem_filterMap.mpr ⟨file, by cases file <;> simp, ?_⟩
    show (contentOf file files).map _ = _
    have hcontent : contentOf file files = some content := hcontent
    rw [hcontent]
    rfl
  reads _ h := nomatch h
  keys _ h := nomatch h

end Thalovant.Noise.StoreFiles
