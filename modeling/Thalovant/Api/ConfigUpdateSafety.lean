import Thalovant.Api.ConfigUpdate

/-!
# Every run of configuration updates

However the calls and the other programs' writes interleave, a call writes its delta over the
configuration that it replaces: `config_updates`.
-/

namespace Thalovant.Api

open Async

variable {updates : Nat → ConfigUpdate}

/-! ## The log -/

/-- What a call has written is its delta, merged into what was there. -/
def Chained (updates : Nat → ConfigUpdate) (first : Version) : List Written → Prop
  | [] => True
  | w :: log =>
    (∀ put, w.put = some put → expectedOf put.body = some (lastOf first log).revision
      ∧ w.version.config = mergeRuntimeConfig (lastOf first log).config (updates put.call).config)
    ∧ Chained updates first log

theorem Chained.of_append {first : Version} {later : List Written} {log : List Written}
    (h : Chained updates first (later ++ log)) : Chained updates first log := by
  induction later with
  | nil => exact h
  | cons w later ih => exact ih h.2

/-- A write that does not change what is at a path, over what was there. -/
def Keeps (updates : Nat → ConfigUpdate) (path : List String) (before : Version) (w : Written) :
    Prop :=
  match w.put with
  | some put => ¬Touches (updates put.call).config path
  | none => w.version.config.follow path = before.config.follow path

/-- None of the `later` writes touches the path. -/
def Untouched (updates : Nat → ConfigUpdate) (first : Version) (path : List String) :
    List Written → List Written → Prop
  | [], _ => True
  | w :: later, log =>
    Keeps updates path (lastOf first (later ++ log)) w ∧ Untouched updates first path later log

theorem Chained.follow_eq {first : Version} {later log : List Written} {path : List String}
    (h : Chained updates first (later ++ log)) (huntouched : Untouched updates first path later log) :
    (lastOf first (later ++ log)).config.follow path = (lastOf first log).config.follow path := by
  induction later with
  | nil => rfl
  | cons w later ih =>
    rw [← ih h.2 huntouched.2]
    have hkeeps := huntouched.1
    unfold Keeps at hkeeps
    cases hput : w.put with
    | none =>
      rw [hput] at hkeeps
      exact hkeeps
    | some put =>
      rw [hput] at hkeeps
      obtain ⟨-, hconfig⟩ := h.1 put hput
      show w.version.config.follow path = _
      rw [hconfig]
      exact follow_merge_of_not_touches (updates put.call).sorted hkeeps

/-! ## The invariant -/

/-- How far a call has come. -/
structure Progress (i : Nat) (s : GroupConfig) : Prop where
  three : s.gets i ≤ 3
  puts : (s.puts i).length ≤ s.gets i
  gets : s.gets i ≤ (s.puts i).length + 1
  earlier : ∀ put ∈ (s.puts i).tail, put ∈ s.refused
  again : s.gets i = (s.puts i).length + 1 → ∀ put ∈ s.puts i, put ∈ s.refused

structure Sane (updates : Nat → ConfigUpdate) (s : GroupConfig) : Prop where
  named : ∀ v ∈ s.versions, ∀ w ∈ s.versions, v.revision = w.revision → v.config = w.config
  sent : ∀ i, ∀ put ∈ s.puts i, put.call = i ∧ put.attempt < (s.puts i).length
    ∧ ∃ v ∈ s.versions, isRevision v.revision = true ∧ put.body = putBody v.config v.revision (updates i)
  flight : ∀ put ∈ s.flight,
    put ∈ s.puts put.call ∧ put ∉ s.refused ∧ ∀ w ∈ s.log, w.put ≠ some put
  refused : ∀ put ∈ s.refused, put ∈ s.puts put.call ∧ ∀ w ∈ s.log, w.put ≠ some put
  written : ∀ w ∈ s.log, ∀ put, w.put = some put → put ∈ s.puts put.call
  chained : Chained updates s.first s.log
  progress : ∀ i, Progress i s
  ok : ∀ i value, s.results i = some (.ok value) → ∃ w ∈ s.log, ∃ put, w.put = some put ∧ put.call = i

theorem sane_new (first : Version) : Sane updates (GroupConfig.new first) where
  named v hv w hw _ := by
    rw [List.mem_singleton.mp hv, List.mem_singleton.mp hw]
  sent _ _ h := nomatch h
  flight _ h := nomatch h
  refused _ h := nomatch h
  written _ h := nomatch h
  chained := trivial
  progress _ := ⟨Nat.zero_le 3, Nat.le_refl 0, Nat.zero_le 1, nofun, fun h => nomatch h⟩
  ok _ _ h := nomatch h

/-! ## The API -/

/-- What becomes of a PUT that the API processes. -/
theorem process_cases (put : Put) (revision : String) (s : GroupConfig) :
    s.process put revision = s
    ∨ put ∈ s.flight ∧ (s.process put revision = s.arrive put
      ∨ expectedOf put.body ≠ some s.current.revision
        ∧ s.process put revision = { s.arrive put with refused := put :: s.refused }
      ∨ ∃ config, member "config" put.body = some config
        ∧ expectedOf put.body = some s.current.revision ∧ s.names ⟨revision, config⟩ = true
        ∧ s.process put revision
          = { s.arrive put with log := ⟨⟨revision, config⟩, some put⟩ :: s.log }) := by
  unfold GroupConfig.process
  split
  · next hflight =>
    split
    · next config hconfig =>
      split
      · next hexpected =>
        split
        · next hnames => exact .inr ⟨hflight, .inr (.inr ⟨config, hconfig, hexpected, hnames, rfl⟩)⟩
        · exact .inl rfl
      · next hstale => exact .inr ⟨hflight, .inr (.inl ⟨hstale, rfl⟩)⟩
    · exact .inr ⟨hflight, .inl rfl⟩
  · exact .inl rfl

theorem current_mem_versions (s : GroupConfig) : s.current ∈ s.versions := by
  unfold GroupConfig.current GroupConfig.versions
  cases s.log with
  | nil => exact List.mem_singleton.mpr rfl
  | cons w log => exact List.mem_cons_self

/-- A version is added. -/
theorem named_cons {s : GroupConfig} (h : Sane updates s) {v : Version} (hv : s.names v = true) :
    ∀ u ∈ v :: s.versions, ∀ w ∈ v :: s.versions, u.revision = w.revision → u.config = w.config := by
  have hold : ∀ w ∈ s.versions, w.revision = v.revision → w.config = v.config := by
    intro w hw hrev
    have := List.all_eq_true.mp hv w hw
    simpa [hrev] using this
  intro u hu w hw hrev
  rcases List.mem_cons.mp hu with hu | hu <;> rcases List.mem_cons.mp hw with hw | hw
  · rw [hu, hw]
  · rw [hu]
    exact (hold w hw (hu ▸ hrev.symm)).symm
  · rw [hw]
    exact hold u hu (hw ▸ hrev)
  · exact h.named u hu w hw hrev

theorem Progress.of_refused {i : Nat} {s s' : GroupConfig} (h : Progress i s)
    (hgets : s'.gets i = s.gets i) (hputs : s'.puts i = s.puts i)
    (hrefused : ∀ put ∈ s.refused, put ∈ s'.refused) : Progress i s' := by
  constructor
  · exact hgets ▸ h.three
  · exact hputs ▸ hgets ▸ h.puts
  · exact hputs ▸ hgets ▸ h.gets
  · exact hputs ▸ fun put hput => hrefused put (h.earlier put hput)
  · exact hputs ▸ hgets ▸ fun hagain put hput => hrefused put (h.again hagain put hput)

theorem Sane.arrive {s : GroupConfig} (h : Sane updates s) (put : Put) :
    Sane updates (s.arrive put) :=
  ⟨h.named, h.sent, fun p hp => h.flight p (List.mem_filter.mp hp).1, h.refused, h.written, h.chained,
    fun i => (h.progress i).of_refused rfl rfl fun _ hp => hp, h.ok⟩

/-- A write is added to the log: of a PUT on its way, or of another program. -/
theorem Sane.log {s : GroupConfig} (h : Sane updates s) {w : Written} (hnames : s.names w.version = true)
    (hput : ∀ put, w.put = some put → put ∈ s.puts put.call ∧ put ∉ s.refused ∧ put ∉ s.flight
      ∧ expectedOf put.body = some s.current.revision
      ∧ w.version.config = mergeRuntimeConfig s.current.config (updates put.call).config) :
    Sane updates { s with log := w :: s.log } where
  named := named_cons h hnames
  sent i p hp := by
    obtain ⟨hcall, hattempt, v, hv, hbody⟩ := h.sent i p hp
    exact ⟨hcall, hattempt, v, List.mem_cons_of_mem _ hv, hbody⟩
  flight p hp := by
    obtain ⟨hputs, hrefused, hlog⟩ := h.flight p hp
    refine ⟨hputs, hrefused, List.forall_mem_cons.mpr ⟨fun hw => ?_, hlog⟩⟩
    exact (hput p hw).2.2.1 hp
  refused p hp := by
    obtain ⟨hputs, hlog⟩ := h.refused p hp
    refine ⟨hputs, List.forall_mem_cons.mpr ⟨fun hw => ?_, hlog⟩⟩
    exact (hput p hw).2.1 hp
  written := List.forall_mem_cons.mpr ⟨fun p hp => (hput p hp).1, h.written⟩
  chained := ⟨fun p hp => (hput p hp).2.2.2, h.chained⟩
  progress i := (h.progress i).of_refused rfl rfl fun _ hp => hp
  ok i value hvalue := by
    obtain ⟨w', hw', hcall⟩ := h.ok i value hvalue
    exact ⟨w', List.mem_cons_of_mem _ hw', hcall⟩

theorem Sane.process {s : GroupConfig} (h : Sane updates s) (put : Put) (revision : String) :
    Sane updates (s.process put revision) := by
  rcases process_cases put revision s with hstill | ⟨hflight, hlost | ⟨-, hrefused⟩ | hwrite⟩
  · rwa [hstill]
  · rw [hlost]
    exact h.arrive put
  · obtain ⟨hputs, -, hlog⟩ := h.flight put hflight
    have h' := h.arrive put
    rw [hrefused]
    refine ⟨h'.named, h'.sent, fun p hp => ?_, List.forall_mem_cons.mpr ⟨⟨hputs, hlog⟩, h'.refused⟩,
      h'.written, h'.chained, fun i => (h'.progress i).of_refused rfl rfl fun p hp =>
        List.mem_cons_of_mem _ hp, h'.ok⟩
    obtain ⟨hp', hold, hplog⟩ := h'.flight p hp
    have hne : p ≠ put := by simpa using (List.mem_filter.mp hp).2
    refine ⟨hp', fun hmem => ?_, hplog⟩
    exact (List.mem_cons.mp hmem).elim hne hold
  · obtain ⟨config, hconfig, hexpected, hnames, hwrite⟩ := hwrite
    obtain ⟨hputs, hrefused, -⟩ := h.flight put hflight
    obtain ⟨-, -, v, hv, -, hbody⟩ := h.sent put.call put hputs
    rw [hbody, expectedOf_putBody, Option.some.injEq] at hexpected
    rw [hbody, config_putBody, Option.some.injEq] at hconfig
    have hcurrent : v.config = s.current.config :=
      h.named v hv s.current (current_mem_versions s) hexpected
    rw [hwrite]
    refine (h.arrive put).log (w := ⟨⟨revision, config⟩, some put⟩) hnames fun p hp => ?_
    cases hp
    refine ⟨hputs, hrefused, fun hmem => ?_, ?_, ?_⟩
    · simpa using (List.mem_filter.mp hmem).2
    · rw [hbody, expectedOf_putBody, hexpected]
      rfl
    · show config = mergeRuntimeConfig s.current.config _
      rw [← hconfig, hcurrent]

theorem Sane.write {s : GroupConfig} (h : Sane updates s) (v : Version) :
    Sane updates (s.write v) := by
  unfold GroupConfig.write
  split
  · next hnames => exact h.log hnames (fun _ hp => nomatch hp)
  · exact h

theorem Sane.world {s : GroupConfig} (h : Sane updates s) : ∀ e, Sane updates (apiWorld e s)
  | .process put revision => h.process put revision
  | .lose put => h.arrive put
  | .write v => h.write v

/-! ## The calls -/

/-- What a call relies on: what it has done stays, and its refused PUTs stay refused. -/
structure Rely (i : Nat) (s s' : GroupConfig) : Prop where
  gets : s'.gets i = s.gets i
  puts : s'.puts i = s.puts i
  results : s'.results i = s.results i
  refused : ∀ put ∈ s.refused, put ∈ s'.refused

/-- What a call guarantees: it does nothing for another call. -/
structure Guarantee (i : Nat) (s s' : GroupConfig) : Prop where
  gets : ∀ j, j ≠ i → s'.gets j = s.gets j
  puts : ∀ j, j ≠ i → s'.puts j = s.puts j
  results : ∀ j, j ≠ i → s'.results j = s.results j
  refused : s'.refused = s.refused
  first : s'.first = s.first

theorem Guarantee.refl (i : Nat) (s : GroupConfig) : Guarantee i s s :=
  ⟨fun _ _ => rfl, fun _ _ => rfl, fun _ _ => rfl, rfl, rfl⟩

theorem Guarantee.trans {i : Nat} {s s' s'' : GroupConfig} (h : Guarantee i s s')
    (h' : Guarantee i s' s'') : Guarantee i s s'' :=
  ⟨fun j hj => (h'.gets j hj).trans (h.gets j hj), fun j hj => (h'.puts j hj).trans (h.puts j hj),
    fun j hj => (h'.results j hj).trans (h.results j hj), h'.refused.trans h.refused,
    h'.first.trans h.first⟩

theorem rely_world (i : Nat) (e : ApiEvent) (s : GroupConfig) : Rely i s (apiWorld e s) := by
  cases e with
  | lose put => exact ⟨rfl, rfl, rfl, fun _ hp => hp⟩
  | write v =>
    show Rely i s (s.write v)
    unfold GroupConfig.write
    split <;> exact ⟨rfl, rfl, rfl, fun _ hp => hp⟩
  | process put revision =>
    show Rely i s (s.process put revision)
    rcases process_cases put revision s with h | ⟨-, h | ⟨-, h⟩ | ⟨config, -, -, -, h⟩⟩
    · rw [h]
      exact ⟨rfl, rfl, rfl, fun _ hp => hp⟩
    · rw [h]
      exact ⟨rfl, rfl, rfl, fun _ hp => hp⟩
    · rw [h]
      exact ⟨rfl, rfl, rfl, fun _ hp => List.mem_cons_of_mem _ hp⟩
    · rw [h]
      exact ⟨rfl, rfl, rfl, fun _ hp => hp⟩

/-- How the calls of one configuration work together. -/
def cooperation (updates : Nat → ConfigUpdate) : Cooperation (configSystem updates) where
  invariant := Sane updates
  rely := Rely
  guarantee i _ s _ s' := Guarantee i s s'
  unborn i s := s.gets i = 0
  rely_refl _ _ := ⟨rfl, rfl, rfl, fun _ hp => hp⟩
  rely_trans h h' :=
    ⟨h'.gets.trans h.gets, h'.puts.trans h.puts, h'.results.trans h.results,
      fun put hp => h'.refused put (h.refused put hp)⟩
  others hij _ h := ⟨h.gets _ hij, h.puts _ hij, h.results _ hij, fun _ hp => h.refused ▸ hp⟩
  world h := ⟨h.world _, fun i => rely_world i _ _⟩
  unborn_rely h h0 := h.gets.trans h0

/-- A call is to begin its next attempt: all its PUTs so far have been refused. -/
structure Ready (i k : Nat) (s : GroupConfig) : Prop where
  gets : s.gets i = k
  puts : (s.puts i).length = k
  refused : ∀ put ∈ s.puts i, put ∈ s.refused

theorem Ready.rely {i k : Nat} {s s' : GroupConfig} (h : Ready i k s) (hrely : Rely i s s') :
    Ready i k s' :=
  ⟨hrely.gets.trans h.gets, hrely.puts ▸ h.puts,
    fun put hp => hrely.refused put (h.refused put (hrely.puts ▸ hp))⟩

/-- The call reads the configuration. -/
theorem Sane.countGet {i k : Nat} {s : GroupConfig} (h : Sane updates s) (hready : Ready i k s)
    (hk : k < 3) : Sane updates (countGet i s) where
  named := h.named
  sent := h.sent
  flight := h.flight
  refused := h.refused
  written := h.written
  chained := h.chained
  progress j := by
    by_cases hj : j = i
    · subst hj
      have hgets : (Api.countGet j s).gets j = k + 1 := by
        rw [← hready.gets]
        exact Function.update_self _ _ _
      have hputs : ((Api.countGet j s).puts j).length = k := hready.puts
      exact ⟨by omega, by omega, by omega, fun p hp => hready.refused p (List.mem_of_mem_tail hp),
        fun _ => hready.refused⟩
    · exact (h.progress j).of_refused (Function.update_of_ne hj _ _) rfl fun _ hp => hp
  ok := h.ok

/-- The call sends a PUT over a configuration that has been current. -/
theorem Sane.sendPut {i k : Nat} {s : GroupConfig} {put : Put} {v : Version} (h : Sane updates s)
    (hgets : s.gets i = k + 1) (hputs : (s.puts i).length = k)
    (hrefused : ∀ put ∈ s.puts i, put ∈ s.refused) (hv : v ∈ s.versions)
    (hrevision : isRevision v.revision = true)
    (hput : put = ⟨i, (s.puts i).length, putBody v.config v.revision (updates i)⟩) :
    Sane updates (sendPut put s) := by
  have hcall : put.call = i := by rw [hput]
  have hself : (Api.sendPut put s).puts i = put :: s.puts i := by
    rw [← hcall]
    exact Function.update_self _ _ _
  have hother : ∀ j, j ≠ i → (Api.sendPut put s).puts j = s.puts j := fun j hj =>
    Function.update_of_ne (hcall ▸ hj) _ _
  have hold : ∀ j, ∀ p ∈ s.puts j, p ∈ (Api.sendPut put s).puts j := by
    intro j p hp
    by_cases hj : j = i
    · subst hj
      exact hself ▸ List.mem_cons_of_mem _ hp
    · exact hother j hj ▸ hp
  -- the attempts of a call are numbered, so no earlier PUT is this one
  have hfresh : put ∉ s.puts put.call := by
    intro hmem
    rw [hcall] at hmem
    have hattempt := (h.sent i put hmem).2.1
    rw [hput] at hattempt
    exact absurd hattempt (Nat.lt_irrefl _)
  refine ⟨h.named, fun j p hp => ?_, List.forall_mem_cons.mpr ⟨⟨?_, ?_, ?_⟩, fun p hp => ?_⟩,
    fun p hp => ⟨hold _ p (h.refused p hp).1, (h.refused p hp).2⟩,
    fun w hw p hp => hold _ p (h.written w hw p hp), h.chained, fun j => ?_, h.ok⟩
  · by_cases hj : j = i
    · subst hj
      rw [hself] at hp ⊢
      rw [List.length_cons]
      rcases List.mem_cons.mp hp with rfl | hp
      · exact ⟨hcall, by rw [hput]; exact Nat.lt_succ_self _, v, hv, hrevision, by rw [hput]⟩
      · obtain ⟨hpcall, hattempt, hbody⟩ := h.sent j p hp
        exact ⟨hpcall, Nat.lt_succ_of_lt hattempt, hbody⟩
    · rw [hother j hj] at hp ⊢
      exact h.sent j p hp
  · rw [hcall, hself]
    exact List.mem_cons_self
  · exact fun hmem => hfresh (h.refused put hmem).1
  · exact fun w hw hwput => hfresh (h.written w hw put hwput)
  · obtain ⟨hputs', hrefused', hlog⟩ := h.flight p hp
    exact ⟨hold _ p hputs', hrefused', hlog⟩
  · by_cases hj : j = i
    · subst hj
      have hthree := (h.progress j).three
      have hgets' : (Api.sendPut put s).gets j = k + 1 := hgets
      constructor
      · omega
      · rw [hself, List.length_cons]
        omega
      · rw [hself, List.length_cons]
        omega
      · rw [hself]
        exact hrefused
      · rw [hself, List.length_cons]
        intro hagain
        omega
    · exact (h.progress j).of_refused rfl (hother j hj) fun _ hp => hp

/-- The call returns; `Ok` only after one of its PUTs was written. -/
theorem Sane.finish {i : Nat} {result : Result Value} {s : GroupConfig} (h : Sane updates s)
    (hok : ∀ value, result = .ok value → ∃ w ∈ s.log, ∃ put, w.put = some put ∧ put.call = i) :
    Sane updates (finish i result s) where
  named := h.named
  sent := h.sent
  flight := h.flight
  refused := h.refused
  written := h.written
  chained := h.chained
  progress j := (h.progress j).of_refused rfl rfl fun _ hp => hp
  ok j value hvalue := by
    by_cases hj : j = i
    · subst hj
      exact hok value (Option.some.inj ((Function.update_self j _ s.results).symm.trans hvalue))
    · exact h.ok j value ((Function.update_of_ne hj _ s.results).symm.trans hvalue)

/-! ## One attempt after the other -/

variable {i k : Nat} {c : Cause ConfigRequest ConfigResponse} {s₀ s : GroupConfig}

/-- Where a call is to return: nothing is amiss, and `Ok` is the answer to a write. -/
def Returns (updates : Nat → ConfigUpdate) (i : Nat) (result : Result Value)
    (_ : Cause ConfigRequest ConfigResponse) (s₀ s : GroupConfig) : Prop :=
  Sane updates s ∧ Guarantee i s₀ s
  ∧ ∀ value, result = .ok value → ∃ w ∈ s.log, ∃ put, w.put = some put ∧ put.call = i

theorem returns_error {err : ThalovantError} (hs : Sane updates s) (hdone : Guarantee i s₀ s) :
    Returns updates i (.error err) c s₀ s := ⟨hs, hdone, nofun⟩

/-- A snapshot that the call can use is of a configuration that has been current. -/
theorem snapshot_mem_versions {snapshot base : Value} {revision : String}
    (h : configEnabled .snapshot (.ok snapshot) s = true) (hrevision : revisionOf snapshot = some revision)
    (hbase : baseOf snapshot = some base) : ⟨revision, base⟩ ∈ s.versions := by
  simp only [configEnabled, hrevision, hbase] at h
  simpa using h

theorem isRevision_of_revisionOf {snapshot : Value} {revision : String}
    (h : revisionOf snapshot = some revision) : isRevision revision = true :=
  (Option.filter_eq_some_iff.mp h).2

theorem runs_attempt {again : Result Value → ConfigTask (Result Value)} (hs : Sane updates s)
    (hdone : Guarantee i s₀ s) (hready : Ready i k s) (hk : k < 3)
    (hagain : ∀ result c s₀ s, Sane updates s → Guarantee i s₀ s → Ready i (k + 1) s →
      isConflict result = true →
      (again result).Runs ((cooperation updates).discipline i) id (Returns updates i) c s₀ s) :
    (attempt i (updates i) again).Runs ((cooperation updates).discipline i) id (Returns updates i)
      c s₀ s := by
  unfold attempt
  refine runs_modify_bind.mpr (runs_ask_bind.mpr ?_)
  have hget := hs.countGet hready hk
  have hguarantee : Guarantee i s (countGet i s) :=
    ⟨fun j hj => Function.update_of_ne hj _ _, fun _ _ => rfl, fun _ _ => rfl, rfl, rfl⟩
  refine ⟨⟨hget, hdone.trans hguarantee⟩, fun s₁ hs₁ hrely₁ => ⟨⟨hs₁, .refl i s₁⟩, fun answer ha => ?_⟩⟩
  have hgets₁ : s₁.gets i = k + 1 := by
    rw [hrely₁.gets, ← hready.gets]
    exact Function.update_self _ _ _
  have hputs₁ : s₁.puts i = s.puts i := hrely₁.puts
  have hlength₁ : (s₁.puts i).length = k := hputs₁ ▸ hready.puts
  have hrefused₁ : ∀ put ∈ s₁.puts i, put ∈ s₁.refused := fun put hp =>
    hrely₁.refused put (hready.refused put (hputs₁ ▸ hp))
  -- the attempt has read a version: it sends a PUT over it, or returns
  cases answer with
  | error err => exact returns_error hs₁ (.refl i s₁)
  | ok snapshot =>
    dsimp only
    split
    · next revision base hrevision hbase =>
      split
      · exact returns_error hs₁ (.refl i s₁)
      · refine runs_get_bind.mpr (runs_modify_bind.mpr (runs_ask_bind.mpr ?_))
        have hsend := hs₁.sendPut hgets₁ hlength₁ hrefused₁
          (snapshot_mem_versions ha hrevision hbase) (isRevision_of_revisionOf hrevision) rfl
        refine ⟨⟨hsend, ⟨fun _ _ => rfl, fun j hj => Function.update_of_ne hj _ _, fun _ _ => rfl, rfl,
          rfl⟩⟩, fun s₂ hs₂ hrely₂ => ⟨⟨hs₂, .refl i s₂⟩, fun result hresult => ?_⟩⟩
        have hgets₂ : s₂.gets i = k + 1 := hrely₂.gets.trans hgets₁
        have hputs₂ := hrely₂.puts
        rw [show ∀ put, put.call = i → (sendPut put s₁).puts i = put :: s₁.puts i from
          fun put hcall => hcall ▸ Function.update_self _ _ _] at hputs₂
        · -- a conflict leaves another attempt, which has seen that the PUT was refused
          cases result with
          | ok value =>
            refine ⟨hs₂, .refl i s₂, fun _ _ => ?_⟩
            obtain ⟨w, hw, hput⟩ := List.any_eq_true.mp hresult
            exact ⟨w, hw, _, of_decide_eq_true hput, rfl⟩
          | error err =>
            by_cases hconflict : isConflict (.error err) = true
            · rw [if_pos hconflict]
              have h412 : err.statusCode = some 412 := of_decide_eq_true hconflict
              refine hagain _ _ _ s₂ hs₂ (.refl i s₂) ⟨hgets₂, ?_, ?_⟩ hconflict
              · rw [hputs₂, List.length_cons, hlength₁]
              · rw [hputs₂]
                refine List.forall_mem_cons.mpr ⟨?_, fun put hp => hrely₂.refused put (hrefused₁ put hp)⟩
                have hrefused : configEnabled (.put _) (.error err) s₂ = true := hresult
                simpa [configEnabled, h412] using hrefused
            · rw [if_neg hconflict]
              exact returns_error hs₂ (.refl i s₂)
        · rfl
    · exact returns_error hs₁ (.refl i s₁)

theorem runs_attempts (left : Nat) : ∀ {k : Nat} {c} {s₀ s : GroupConfig}, Sane updates s →
    Guarantee i s₀ s → Ready i k s → k + left < 3 →
    (attempts i (updates i) left).Runs ((cooperation updates).discipline i) id (Returns updates i)
      c s₀ s := by
  induction left with
  | zero =>
    intro k c s₀ s hs hdone hready hk
    refine runs_attempt hs hdone hready hk fun result c s₀ s hs hdone _ hconflict => ?_
    cases result with
    | ok value => cases hconflict
    | error err => exact returns_error hs hdone
  | succ left ih =>
    intro k c s₀ s hs hdone hready hk
    refine runs_attempt hs hdone hready (by omega) fun result c s₀ s hs hdone hready _ => ?_
    exact ih hs hdone hready (by omega)

theorem runs_updateRuntimeGroupConfig (hs : Sane updates s) (hready : Ready i 0 s) :
    (updateRuntimeGroupConfig i (updates i)).Runs ((cooperation updates).discipline i) id
      (Returns updates i) c s s := by
  unfold updateRuntimeGroupConfig
  split
  · exact returns_error hs (.refl i s)
  · split
    · exact returns_error hs (.refl i s)
    · split
      · exact returns_error hs (.refl i s)
      · exact runs_attempts 2 hs (.refl i s) hready (by omega)

variable (updates) in
/-- **The calls cooperate.** -/
theorem cooperation_holds : (cooperation updates).Holds := by
  intro i _ s s' hs hunborn hstart
  cases hstart
  have hempty : s.puts i = [] := by
    have := (hs.progress i).puts
    exact List.eq_nil_of_length_eq_zero (by rw [hunborn] at this; omega)
  have hready : Ready i 0 s := ⟨hunborn, by rw [hempty]; rfl, by rw [hempty]; exact nofun⟩
  refine runs_bind.mpr (Runs.mono (fun result c s₀ s h => ?_)
    (runs_updateRuntimeGroupConfig hs hready))
  obtain ⟨hs, hdone, hok⟩ := h
  refine runs_modify_bind.mpr ⟨hs.finish hok, hdone.trans ?_⟩
  exact ⟨fun _ _ => rfl, fun _ _ => rfl, fun j hj => Function.update_of_ne hj _ _, rfl, rfl⟩

/-! ## Every run -/

/-- A configuration after these events. -/
def configRun (updates : Nat → ConfigUpdate) (first : Version)
    (events : List (PoolEvent ConfigRequest ConfigResponse Unit ApiEvent)) : GroupConfig :=
  ((Pool.new (GroupConfig.new first)).run (configSystem updates) events).state

theorem configRun_sane (updates : Nat → ConfigUpdate) (first : Version)
    (events : List (PoolEvent ConfigRequest ConfigResponse Unit ApiEvent)) :
    Sane updates (configRun updates first events) :=
  (Cooperation.Sound.run (cooperation_holds updates) (.new (sane_new first) fun _ => rfl) events).invariant

theorem first_apiWorld (e : ApiEvent) (s : GroupConfig) : (apiWorld e s).first = s.first := by
  cases e with
  | lose put => rfl
  | write v =>
    show (s.write v).first = _
    unfold GroupConfig.write
    split <;> rfl
  | process put revision =>
    show (s.process put revision).first = _
    rcases process_cases put revision s with h | ⟨-, h | ⟨-, h⟩ | ⟨config, -, -, -, h⟩⟩ <;>
      rw [h] <;> rfl

theorem configRun_first (updates : Nat → ConfigUpdate) (first : Version)
    (events : List (PoolEvent ConfigRequest ConfigResponse Unit ApiEvent)) :
    (configRun updates first events).first = first := by
  refine Cooperation.Sound.run_invariant (P := fun p => p.state.first = first)
    (cooperation_holds updates) (fun p e p' _ _ hstep hp => ?_)
    (.new (sane_new first) fun _ => rfl) rfl events
  rcases hstep.cases with rfl | ⟨e', rfl⟩ | ⟨i, c, h, -⟩
  · exact hp
  · exact (first_apiWorld e' p.state).trans hp
  · exact h.first.trans hp

/-- The PUTs of a call that were refused. -/
def conflicts (i : Nat) (s : GroupConfig) : List Put := (s.puts i).filter (· ∈ s.refused)

theorem Sane.gets_le_conflicts (h : Sane updates s) (i : Nat) :
    s.gets i ≤ (conflicts i s).length + 1 := by
  have hprogress := h.progress i
  by_cases hagain : s.gets i = (s.puts i).length + 1
  · have hall : conflicts i s = s.puts i :=
      List.filter_eq_self.mpr fun put hp => decide_eq_true (hprogress.again hagain put hp)
    rw [hall, hagain]
  · have hgets := hprogress.gets
    have htail : (s.puts i).tail.length ≤ (conflicts i s).length := by
      refine List.Sublist.length_le (List.Sublist.trans ?_ ((List.tail_sublist _).filter _))
      rw [List.filter_eq_self.mpr fun _ hp => decide_eq_true (hprogress.earlier _ hp)]
    rw [List.length_tail] at htail
    omega

theorem Sane.write_eq (h : Sane updates s) {later earlier : List Written} {w : Written}
    (hlog : s.log = later ++ w :: earlier) {put : Put} (hput : w.put = some put) :
    expectedOf put.body = some (lastOf s.first earlier).revision
    ∧ w.version.config
      = mergeRuntimeConfig (lastOf s.first earlier).config (updates put.call).config := by
  have hchained : Chained updates s.first (w :: earlier) := .of_append (hlog ▸ h.chained)
  exact hchained.1 put hput

/-- A leaf of a delta that was written stays as long as nothing touches it. -/
theorem Sane.leaf (h : Sane updates s) {later earlier : List Written} {w : Written}
    (hlog : s.log = later ++ w :: earlier) {put : Put} (hput : w.put = some put) {path : List String}
    {leaf : Value} (hnames : (updates put.call).config.follow path = some leaf)
    (hleaf : leaf.asObject = none) (huntouched : Untouched updates s.first path later (w :: earlier)) :
    s.current.config.follow path = some leaf := by
  have hchained := h.chained
  rw [hlog] at hchained
  unfold GroupConfig.current
  rw [hlog, hchained.follow_eq huntouched]
  show w.version.config.follow path = some leaf
  rw [(h.write_eq hlog hput).2]
  exact follow_merge_leaf (updates put.call).sorted hnames hleaf

/-- **No concurrent write is lost**: what a call writes is its delta over the configuration that the
revision it expects names. It makes three attempts at most, one more only after a conflict, and expects
a revision always. So a leaf of a delta stays until another write touches it, and what no write touches
stays as it was. -/
theorem config_updates (updates : Nat → ConfigUpdate) (first : Version)
    (events : List (PoolEvent ConfigRequest ConfigResponse Unit ApiEvent)) :
    (let s := configRun updates first events;
      (∀ later w earlier put, s.log = later ++ w :: earlier → w.put = some put →
        expectedOf put.body = some (lastOf first earlier).revision
        ∧ w.version.config
          = mergeRuntimeConfig (lastOf first earlier).config (updates put.call).config
        ∧ ∀ v ∈ s.versions, v.revision = (lastOf first earlier).revision →
          v.config = (lastOf first earlier).config)
      ∧ (∀ i, s.gets i ≤ 3 ∧ (s.puts i).length ≤ s.gets i
        ∧ s.gets i ≤ (conflicts i s).length + 1
        ∧ (∀ put ∈ conflicts i s, ∀ w ∈ s.log, w.put ≠ some put)
        ∧ ∀ put ∈ s.puts i, ∃ revision, isRevision revision = true
          ∧ expectedOf put.body = some revision)
      ∧ (∀ i value path leaf, s.results i = some (.ok value) →
        (updates i).config.follow path = some leaf → leaf.asObject = none →
        ∃ later w earlier put, s.log = later ++ w :: earlier ∧ w.put = some put ∧ put.call = i
          ∧ (Untouched updates first path later (w :: earlier) →
            s.current.config.follow path = some leaf))
      ∧ ∀ path, Untouched updates first path s.log [] →
        s.current.config.follow path = first.config.follow path)
    ∧ ∀ base delta : Value, base.IsSorted → delta.IsSorted →
      (∀ path, ¬Touches delta path →
        (mergeRuntimeConfig base delta).follow path = base.follow path)
      ∧ (∀ path leaf, delta.follow path = some leaf → leaf.asObject = none →
        (mergeRuntimeConfig base delta).follow path = some leaf)
      ∧ mergeRuntimeConfig (mergeRuntimeConfig base delta) delta = mergeRuntimeConfig base delta := by
  refine ⟨?_, fun base delta hbase hdelta => ⟨fun path => follow_merge_of_not_touches hdelta,
    fun path leaf => follow_merge_leaf hdelta, merge_merge delta base hbase hdelta⟩⟩
  intro s
  have h : Sane updates s := configRun_sane updates first events
  have hfirst : s.first = first := configRun_first updates first events
  refine ⟨fun later w earlier put hlog hput => ?_, fun i => ?_,
    fun i value path leaf hvalue hnames hleaf => ?_, fun path huntouched => ?_⟩
  · -- a write is over the version before it, which its revision names
    obtain ⟨hexpected, hconfig⟩ := h.write_eq hlog hput
    rw [hfirst] at hexpected hconfig
    refine ⟨hexpected, hconfig, fun v hv hrevision => h.named v hv _ ?_ hrevision⟩
    unfold GroupConfig.versions
    rw [hlog, hfirst]
    cases earlier <;> simp [lastOf]
  · refine ⟨(h.progress i).three, (h.progress i).puts, h.gets_le_conflicts i, fun put hp => ?_,
      fun put hp => ?_⟩
    · exact (h.refused put (of_decide_eq_true (List.mem_filter.mp hp).2)).2
    · obtain ⟨-, -, v, -, hrevision, hbody⟩ := h.sent i put hp
      exact ⟨v.revision, hrevision, by rw [hbody, expectedOf_putBody]⟩
  · -- a call that succeeded has its write in the log, and its leaf is kept since
    obtain ⟨w, hw, put, hput, rfl⟩ := h.ok i value hvalue
    obtain ⟨later, earlier, hlog⟩ := List.append_of_mem hw
    refine ⟨later, w, earlier, put, hlog, hput, rfl, fun huntouched => ?_⟩
    exact h.leaf hlog hput hnames hleaf (hfirst ▸ huntouched)
  · have hchained := h.chained
    rw [← List.append_nil s.log, hfirst] at hchained
    have hkept := hchained.follow_eq huntouched
    rw [List.append_nil] at hkept
    show (lastOf s.first s.log).config.follow path = _
    rw [hfirst, hkept]
    rfl

end Thalovant.Api
