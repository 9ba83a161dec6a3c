import Mathlib.Data.List.Nodup
import Thalovant.Session.Handlers

/-!
# The life of an event handler

* `handlers_law`: the running entries of a handler are its live tasks, no task of a handler is started
  once an `off` of it has returned, and none at all once a `close` has returned `Ok`
* `handlers_law_fails`: the last may be broken by an `on` and a dispatch that have found the session
  open before the `close`

The law holds of the runs in which what returns leaves no dispatch with a copy of what it has removed
(`Orderly`).
-/

namespace Thalovant.Session.Handlers

variable {s s' : Registry} {i : Nat} {id : Nat} {number : UInt64} {ok : Bool}

/-! ## Copies -/

/-- A dispatch has yet to start a task of its copy of the handler. -/
def Copied (s : Registry) (id : Nat) (number : UInt64) : Prop :=
  ∃ i left, s.threads i = .starting left ∧ (id, number) ∈ left

theorem threads_goto_self (s : Registry) (i : Nat) (thread : Thread) :
    (s.goto i thread).threads i = thread := Function.update_self _ _ _

theorem threads_goto_of_ne (s : Registry) {i j : Nat} (thread : Thread) (h : j ≠ i) :
    (s.goto i thread).threads j = s.threads j := Function.update_of_ne h _ _

theorem copied_goto {thread : Thread} (h : Copied (s.goto i thread) id number) :
    Copied s id number ∨ ∃ left, thread = .starting left ∧ (id, number) ∈ left := by
  obtain ⟨j, left, hj, hmem⟩ := h
  by_cases hji : j = i
  · subst hji
    rw [threads_goto_self] at hj
    exact .inr ⟨left, hj, hmem⟩
  · rw [threads_goto_of_ne s thread hji] at hj
    exact .inl ⟨j, left, hj, hmem⟩

theorem id_mem_of_numbered {last : UInt64} {ids : List Nat} (h : (id, number) ∈ numbered last ids) :
    id ∈ ids := by
  induction ids generalizing last with
  | nil => cases h
  | cons first ids ih =>
    rcases List.mem_cons.mp h with heq | h
    · cases heq
      exact List.mem_cons_self
    · exact List.mem_cons_of_mem _ (ih h)

theorem registered_iff : s.registered id = true ↔ ∃ r ∈ s.events, r.id = id := by
  simp [Registry.registered]

theorem registered_of_matching {name : String} (h : id ∈ matching name s) : s.registered id = true := by
  obtain ⟨r, hr, rfl⟩ := List.mem_map.mp h
  exact registered_iff.mpr ⟨r, (List.mem_filter.mp hr).1, rfl⟩

/-! ## Orderly runs -/

/-- Every copy of the handler that a dispatch still has is of no use. -/
def Spent (s : Registry) (id : Nat) : Prop :=
  ∀ number, Copied s id number → (s.tasks id).retired = true

/--
What returns leaves no dispatch with a copy of what has been removed: an `off` that finds nothing, and a
`close` that returns `Ok`. No dispatch finds a handler after that. No task is started under the number
of another of the same handler that still runs, as it would be after 2 ^ 64 tasks.
-/
def Orderly (s : Registry) : Act → Prop
  | .call _ (.off id) => s.registered id = false → Spent s id
  | .go i ok =>
    match s.threads i with
    | .dispatching name => s.shutDown = true → matching name s = []
    | .starting ((id, number) :: _) =>
      ok = true → (s.tasks id).retired = false → ∀ task, (number, task) ∉ (s.tasks id).running
    | .forgetting true [] => ∀ id, Spent s id
    | _ => True
  | _ => True

def OrderlyRun : Registry → List Act → Prop
  | _, [] => True
  | s, act :: acts => Orderly s act ∧ OrderlyRun (step s act) acts

theorem OrderlyRun.append : ∀ {s : Registry} {before later : List Act},
    OrderlyRun s (before ++ later) → OrderlyRun s before ∧ OrderlyRun (run s before) later
  | _, [], _, h => ⟨trivial, h⟩
  | _, _ :: _, _, h => by
    obtain ⟨hbefore, hlater⟩ := h.2.append
    exact ⟨⟨h.1, hbefore⟩, hlater⟩

/-- What every orderly step preserves holds at the end of every orderly run. -/
theorem OrderlyRun.invariant {P : Registry → Prop}
    (hstep : ∀ s act, Orderly s act → P s → P (step s act)) : ∀ {s : Registry} {acts : List Act},
    OrderlyRun s acts → P s → P (run s acts)
  | _, [], _, h => h
  | _, _ :: _, horderly, h => horderly.2.invariant hstep (hstep _ _ horderly.1 h)

/-! ## Identifiers -/

theorem nextId_returned (id : Nat) (s : Registry) : (returned id s).nextId = s.nextId := by
  unfold returned
  split <;> rfl

theorem nextId_startTask (id : Nat) (number : UInt64) (s : Registry) :
    (startTask id number s).nextId = s.nextId := by
  unfold startTask
  split <;> rfl

theorem nextId_begin (i : Nat) (s : Registry) (call : Call) : (begin i s call).nextId ≤ s.nextId + 1 := by
  cases call with
  | on eventType =>
    simp only [begin, on]
    split <;> exact Nat.le_succ _
  | onStateChange => exact Nat.le_refl _
  | off id =>
    simp only [begin, off]
    split
    · exact Nat.le_succ _
    · rw [nextId_returned]
      exact Nat.le_succ _
  | relay generation name =>
    simp only [begin, relay]
    split <;> exact Nat.le_succ _
  | close => exact Nat.le_succ _

theorem nextId_go (i : Nat) (ok : Bool) (s : Registry) : (go i ok s).nextId ≤ s.nextId + 1 := by
  unfold go
  cases s.threads i with
  | registering eventType => exact Nat.le_refl _
  | removing id =>
    show (returned id (retire id s)).nextId ≤ _
    rw [nextId_returned]
    exact Nat.le_succ _
  | starting left =>
    cases left with
    | nil => exact Nat.le_succ _
    | cons first left =>
      cases ok with
      | false => exact Nat.le_succ _
      | true =>
        show (startTask first.1 first.2 s).nextId ≤ _
        rw [nextId_startTask]
        exact Nat.le_succ _
  | forgetting ok' left => cases left <;> exact Nat.le_succ _
  | idle | dispatching _ | closing | dropping | taking _ => exact Nat.le_succ _

theorem nextId_step (s : Registry) (act : Act) : (step s act).nextId ≤ s.nextId + 1 := by
  cases act with
  | call i call =>
    simp only [step]
    split
    · exact nextId_begin i s call
    · exact Nat.le_succ _
  | go i ok => exact nextId_go i ok s
  | finish task =>
    simp only [step, finish]
    split <;> exact Nat.le_succ _
  | renew => exact Nat.le_succ _

theorem nextId_run (s : Registry) (acts : List Act) :
    (run s acts).nextId ≤ s.nextId + acts.length := by
  induction acts generalizing s with
  | nil => exact Nat.le_refl _
  | cons act acts ih =>
    have hstep := nextId_step s act
    have hrest : (run s (act :: acts)).nextId ≤ (step s act).nextId + acts.length := ih (step s act)
    rw [List.length_cons]
    omega

/-- The identifiers of fewer than 2 ^ 64 steps are those of a `u64`. -/
theorem nextId_lt {acts : List Act} (h : acts.length < UInt64.size) :
    (run .new acts).nextId < UInt64.size := by
  have hrun := nextId_run .new acts
  rw [show Registry.new.nextId = 0 from rfl, Nat.zero_add] at hrun
  exact Nat.lt_of_le_of_lt hrun h

/-! ## Removed handlers -/

/-- What has been removed is not started again. -/
structure Final (s : Registry) : Prop where
  fresh : ∀ id, s.registered id = true → id ≤ s.nextId
  unique : (s.events.map Registration.id).Nodup
  removing : ∀ i id, s.threads i = .removing id → s.registered id = false ∧ id ≤ s.nextId
  offs : ∀ id ∈ s.offs, s.registered id = false ∧ id ≤ s.nextId ∧ Spent s id
  shutDown : s.shutDown = true → ∀ id, Spent s id

/-- A thread goes on. -/
theorem Final.goto {thread : Thread} (h : Final s)
    (hcopies : ∀ left id number, thread = .starting left → (id, number) ∈ left →
      Copied s id number ∨ s.registered id = true ∧ s.shutDown = false)
    (hremoving : ∀ id, thread = .removing id → s.registered id = false ∧ id ≤ s.nextId) :
    Final (s.goto i thread) where
  fresh := h.fresh
  unique := h.unique
  removing j id hj := by
    by_cases hji : j = i
    · subst hji
      rw [threads_goto_self] at hj
      exact hremoving id hj
    · rw [threads_goto_of_ne s thread hji] at hj
      exact h.removing j id hj
  offs id hid := by
    obtain ⟨hnot, hle, hspent⟩ := h.offs id hid
    refine ⟨hnot, hle, fun number hcopied => ?_⟩
    rcases copied_goto hcopied with hcopied | ⟨left, hthread, hmem⟩
    · exact hspent number hcopied
    · rcases hcopies left id number hthread hmem with hcopied | ⟨hregistered, -⟩
      · exact hspent number hcopied
      · rw [hnot] at hregistered
        cases hregistered
  shutDown hdown id number hcopied := by
    rcases copied_goto hcopied with hcopied | ⟨left, hthread, hmem⟩
    · exact h.shutDown hdown id number hcopied
    · rcases hcopies left id number hthread hmem with hcopied | ⟨-, hup⟩
      · exact h.shutDown hdown id number hcopied
      · exact absurd (hup.symm.trans hdown) (by simp)

/-- A thread goes on, to where it has no copies and has removed nothing. -/
theorem Final.goto_plain {thread : Thread} (h : Final s)
    (hplain : (∀ left, thread ≠ .starting left) ∧ ∀ id, thread ≠ .removing id) :
    Final (s.goto i thread) :=
  h.goto (fun left _ _ hthread => absurd hthread (hplain.1 left))
    fun id hthread => absurd hthread (hplain.2 id)

/-- What is retired stays so, and nothing else of the registry changes. -/
theorem Final.tasks (h : Final s) (hevents : s'.events = s.events) (hnextId : s'.nextId = s.nextId)
    (hthreads : s'.threads = s.threads) (hoffs : s'.offs = s.offs) (hshut : s'.shutDown = s.shutDown)
    (hretired : ∀ id, (s.tasks id).retired = true → (s'.tasks id).retired = true) : Final s' := by
  have hregistered : ∀ id, s'.registered id = s.registered id := fun id => by
    unfold Registry.registered
    rw [hevents]
  have hspent : ∀ id, Spent s id → Spent s' id := fun id hspent number hcopied => by
    refine hretired id (hspent number ?_)
    unfold Copied at hcopied ⊢
    rwa [hthreads] at hcopied
  refine ⟨fun id hid => ?_, hevents ▸ h.unique, fun i id hi => ?_, fun id hid => ?_, fun hdown id => ?_⟩
  · rw [hnextId]
    exact h.fresh id (hregistered id ▸ hid)
  · rw [hregistered, hnextId]
    exact h.removing i id (hthreads ▸ hi)
  · obtain ⟨hnot, hle, hid⟩ := h.offs id (hoffs ▸ hid)
    rw [hregistered, hnextId]
    exact ⟨hnot, hle, hspent id hid⟩
  · exact hspent id (h.shutDown (hshut ▸ hdown) id)

theorem retired_setTasks {tasks : Tasks} (htasks : (s.tasks id).retired = true → tasks.retired = true)
    (j : Nat) (h : (s.tasks j).retired = true) : ((s.setTasks id tasks).tasks j).retired = true := by
  show (Function.update s.tasks id tasks j).retired = true
  by_cases hj : j = id
  · subst hj
    rw [Function.update_self]
    exact htasks h
  · rwa [Function.update_of_ne hj]

theorem Final.retire (h : Final s) (id : Nat) : Final (retire id s) :=
  h.tasks rfl rfl rfl rfl rfl (retired_setTasks fun _ => rfl)

theorem retired_retire (id : Nat) (s : Registry) : ((retire id s).tasks id).retired = true := by
  show (Function.update s.tasks id _ id).retired = true
  rw [Function.update_self]

theorem startTask_threads (id : Nat) (number : UInt64) (s : Registry) :
    (startTask id number s).threads = s.threads := by
  unfold startTask
  split <;> rfl

theorem Final.startTask (h : Final s) (id : Nat) (number : UInt64) : Final (startTask id number s) := by
  unfold Handlers.startTask
  split
  · exact h
  · exact h.tasks rfl rfl rfl rfl rfl (retired_setTasks fun h => h)

theorem Final.finish (h : Final s) (task : Nat) : Final (finish task s) := by
  unfold Handlers.finish
  split
  · exact h
  · exact h.tasks rfl rfl rfl rfl rfl (retired_setTasks fun h => h)

/-- An identifier is handed out. -/
theorem Final.register (h : Final s) (eventType : String) : Final (register eventType s) := by
  have hregistered : ∀ id, (Handlers.register eventType s).registered id = true →
      s.registered id = true ∨ id = s.nextId + 1 := by
    intro id hid
    obtain ⟨r, hr, rfl⟩ := registered_iff.mp hid
    rcases List.mem_append.mp hr with hr | hr
    · exact .inl (registered_iff.mpr ⟨r, hr, rfl⟩)
    · rw [List.mem_singleton.mp hr]
      exact .inr rfl
  have hkept : ∀ id, s.registered id = false ∧ id ≤ s.nextId →
      (Handlers.register eventType s).registered id = false := by
    rintro id ⟨hnot, hle⟩
    refine Bool.eq_false_iff.mpr fun hid => ?_
    rcases hregistered id hid with hid | rfl
    · rw [hnot] at hid
      cases hid
    · exact Nat.lt_irrefl _ hle
  refine ⟨fun id hid => ?_, ?_, fun i id hi => ?_, fun id hid => ?_, h.shutDown⟩
  · rcases hregistered id hid with hid | rfl
    · exact Nat.le_succ_of_le (h.fresh id hid)
    · exact Nat.le_refl _
  · show ((s.events ++ [_]).map Registration.id).Nodup
    rw [List.map_append, List.map_singleton, ← List.concat_eq_append]
    refine h.unique.concat fun hmem => ?_
    obtain ⟨r, hr, hid⟩ := List.mem_map.mp hmem
    exact Nat.lt_irrefl _ (h.fresh _ (registered_iff.mpr ⟨r, hr, hid⟩))
  · obtain ⟨hnot, hle⟩ := h.removing i id hi
    exact ⟨hkept id ⟨hnot, hle⟩, Nat.le_succ_of_le hle⟩
  · obtain ⟨hnot, hle, hspent⟩ := h.offs id hid
    exact ⟨hkept id ⟨hnot, hle⟩, Nat.le_succ_of_le hle, hspent⟩

theorem Final.onStateChange (h : Final s) : Final (onStateChange s) where
  fresh id hid := Nat.le_succ_of_le (h.fresh id hid)
  unique := h.unique
  removing i id hi := ⟨(h.removing i id hi).1, Nat.le_succ_of_le (h.removing i id hi).2⟩
  offs id hid := ⟨(h.offs id hid).1, Nat.le_succ_of_le (h.offs id hid).2.1, (h.offs id hid).2.2⟩
  shutDown := h.shutDown

/-- Fewer handlers are registered. -/
theorem Final.fewer (h : Final s) {events : List Registration} {states : List Nat}
    (hsub : events.Sublist s.events) : Final { s with states := states, events := events } := by
  have hkept : ∀ id, s.registered id = false →
      Registry.registered { s with states := states, events := events } id = false := by
    intro id hnot
    refine Bool.eq_false_iff.mpr fun hid => ?_
    obtain ⟨r, hr, hid⟩ := registered_iff.mp hid
    rw [registered_iff.mpr ⟨r, hsub.subset hr, hid⟩] at hnot
    cases hnot
  refine ⟨fun id hid => ?_, (hsub.map _).nodup h.unique, fun i id hi => ?_, fun id hid => ?_, h.shutDown⟩
  · obtain ⟨r, hr, rfl⟩ := registered_iff.mp hid
    exact h.fresh r.id (registered_iff.mpr ⟨r, hsub.subset hr, rfl⟩)
  · obtain ⟨hnot, hle⟩ := h.removing i id hi
    exact ⟨hkept id hnot, hle⟩
  · obtain ⟨hnot, hle, hspent⟩ := h.offs id hid
    exact ⟨hkept id hnot, hle, hspent⟩

/-- An `off` returns. -/
theorem Final.returned (h : Final s) (hnot : s.registered id = false) (hspent : Spent s id) :
    Final (returned id s) := by
  unfold Handlers.returned
  split
  · next hle =>
    refine ⟨h.fresh, h.unique, h.removing, fun j hj => ?_, h.shutDown⟩
    rcases List.mem_cons.mp hj with rfl | hj
    · exact ⟨hnot, hle, hspent⟩
    · exact h.offs j hj
  · exact h

theorem Final.off (h : Final s) (hspent : s.registered id = false → Spent s id) :
    Final (off i id s) := by
  unfold Handlers.off
  split
  · next hregistered =>
    refine (h.fewer List.eraseP_sublist).goto (fun _ _ _ hthread => nomatch hthread) ?_
    rintro id ⟨⟩
    refine ⟨Bool.eq_false_iff.mpr fun hid => ?_, h.fresh id hregistered⟩
    -- the identifiers are distinct, so none is left
    obtain ⟨r, hr, hid⟩ := registered_iff.mp hid
    obtain ⟨r', hr', hid'⟩ := registered_iff.mp hregistered
    obtain ⟨a, l₁, l₂, hbefore, ha, hevents, herase⟩ :=
      List.exists_of_eraseP hr' (p := (·.id == id)) (by simpa using hid')
    have hnodup := h.unique
    rw [show (s.events.eraseP (·.id == id)) = l₁ ++ l₂ from herase] at hr
    rw [hevents, List.map_append, List.map_cons] at hnodup
    have hmem : a.id ∈ l₁.map Registration.id ++ l₂.map Registration.id := by
      rw [← List.map_append, eq_of_beq ha, ← hid]
      exact List.mem_map_of_mem hr
    exact (List.nodup_middle.mp hnodup).notMem hmem
  · next hnot =>
    have hnot := Bool.eq_false_iff.mpr hnot
    have hstates : Final { s with states := s.states.filter (· != id) } :=
      h.tasks rfl rfl rfl rfl rfl fun _ hid => hid
    exact hstates.returned hnot (hspent hnot)

theorem Final.begin (h : Final s) {call : Call} (horderly : Orderly s (.call i call)) :
    Final (begin i s call) := by
  cases call with
  | on eventType =>
    simp only [Handlers.begin, on]
    split
    · exact h
    · exact h.goto_plain ⟨(fun _ h => nomatch h), fun _ h => nomatch h⟩
  | onStateChange => exact h.onStateChange
  | off id => exact h.off horderly
  | relay generation name =>
    simp only [Handlers.begin, relay]
    split
    · exact h
    · exact h.goto_plain ⟨(fun _ h => nomatch h), fun _ h => nomatch h⟩
  | close =>
    have hclosed : Final { s with closed := true } := h.tasks rfl rfl rfl rfl rfl fun _ hid => hid
    exact hclosed.goto_plain ⟨(fun _ h => nomatch h), fun _ h => nomatch h⟩

theorem Final.go (h : Final s) (horderly : Orderly s (.go i ok)) : Final (go i ok s) := by
  simp only [Orderly] at horderly
  unfold Handlers.go
  cases hthread : s.threads i with
  | idle => exact h
  | registering eventType =>
    exact (h.register eventType).goto_plain ⟨(fun _ h => nomatch h), fun _ h => nomatch h⟩
  | removing id =>
    have hreturned : Final (Handlers.returned id (Handlers.retire id s)) :=
      (h.retire id).returned (h.removing i id hthread).1 fun _ _ => retired_retire id s
    exact hreturned.goto_plain ⟨(fun _ h => nomatch h), fun _ h => nomatch h⟩
  -- the numbers are given before the tasks are started, one by one
  | dispatching name =>
    rw [hthread] at horderly
    have hnumbers : Final { s with nextTask := s.nextTask + UInt64.ofNat (matching name s).length } :=
      h.tasks rfl rfl rfl rfl rfl fun _ hid => hid
    refine hnumbers.goto ?_ fun _ h => nomatch h
    rintro left id number ⟨⟩ hmem
    have hid := id_mem_of_numbered hmem
    refine .inr ⟨registered_of_matching hid, Bool.eq_false_iff.mpr fun hdown => ?_⟩
    rw [horderly hdown] at hid
    cases hid
  | starting left =>
    cases left with
    | nil => exact h.goto_plain ⟨(fun _ h => nomatch h), fun _ h => nomatch h⟩
    | cons first left =>
      obtain ⟨id, number⟩ := first
      have hstarted : ∀ {s₁ : Registry}, Final s₁ → s₁.threads = s.threads →
          Final (s₁.goto i (.starting left)) := by
        intro s₁ h₁ hthreads
        refine h₁.goto ?_ fun _ h => nomatch h
        rintro left id' number' ⟨⟩ hmem
        exact .inl ⟨i, _, hthreads ▸ hthread, List.mem_cons_of_mem _ hmem⟩
      cases ok with
      | false => exact hstarted h rfl
      | true => exact hstarted (h.startTask id number) (startTask_threads id number s)
  | closing =>
    have hsender : Final { s with sender := false } := h.tasks rfl rfl rfl rfl rfl fun _ hid => hid
    exact hsender.goto_plain ⟨(fun _ h => nomatch h), fun _ h => nomatch h⟩
  | dropping =>
    have hgeneration : Final { s with generation := s.generation + 1 } :=
      h.tasks rfl rfl rfl rfl rfl fun _ hid => hid
    exact hgeneration.goto_plain ⟨(fun _ h => nomatch h), fun _ h => nomatch h⟩
  | taking ok =>
    exact (h.fewer (List.nil_sublist _)).goto_plain ⟨(fun _ h => nomatch h), fun _ h => nomatch h⟩
  | forgetting ok' left =>
    rw [hthread] at horderly
    cases left with
    | nil =>
      have hdown : Final { s with shutDown := s.shutDown || ok' } := by
        refine ⟨h.fresh, h.unique, h.removing, h.offs, fun hdown => ?_⟩
        cases ok' with
        | true => exact horderly
        | false => exact h.shutDown ((Bool.or_false _).symm.trans hdown)
      exact hdown.goto_plain ⟨(fun _ h => nomatch h), fun _ h => nomatch h⟩
    | cons id left =>
      exact (h.retire id).goto_plain ⟨(fun _ h => nomatch h), fun _ h => nomatch h⟩

theorem Final.step (h : Final s) {act : Act} (horderly : Orderly s act) : Final (step s act) := by
  cases act with
  | call i call =>
    simp only [Handlers.step]
    split
    · exact h.begin horderly
    · exact h
  | go i ok => exact h.go horderly
  | finish task => exact h.finish task
  | renew => exact h.tasks rfl rfl rfl rfl rfl fun _ hid => hid

theorem final_new : Final .new where
  fresh _ hid := nomatch hid
  unique := List.nodup_nil
  removing _ _ hi := nomatch hi
  offs _ hid := nomatch hid
  shutDown hdown := nomatch hdown

/-! ## Running entries -/

/-- The running entries of a handler that has not been removed are its live tasks. -/
structure Entries (s : Registry) : Prop where
  keys : ∀ {id number task task'}, (number, task) ∈ (s.tasks id).running →
    (number, task') ∈ (s.tasks id).running → task = task'
  live : ∀ {id number task}, (number, task) ∈ (s.tasks id).running → ⟨task, id, number⟩ ∈ s.live
  entry : ∀ t ∈ s.live, (s.tasks t.handler).retired = false →
    (t.number, t.task) ∈ (s.tasks t.handler).running
  retired : ∀ id, (s.tasks id).retired = true → (s.tasks id).running = []
  counted : ∀ t ∈ s.live, t.task < s.started.length
  unique : ∀ t ∈ s.live, ∀ t' ∈ s.live, t.task = t'.task → t = t'

theorem Entries.same (h : Entries s) (htasks : s'.tasks = s.tasks) (hlive : s'.live = s.live)
    (hstarted : s'.started = s.started) : Entries s' := by
  refine ⟨?_, ?_, ?_, ?_, ?_, ?_⟩ <;> simp only [htasks, hlive, hstarted]
  · exact h.keys
  · exact h.live
  · exact h.entry
  · exact h.retired
  · exact h.counted
  · exact h.unique

theorem mem_insert {tasks : Tasks} {n : UInt64} {task task' : Nat} :
    (n, task') ∈ (tasks.insert number task).running
    ↔ n = number ∧ task' = task ∨ (n, task') ∈ tasks.running ∧ n ≠ number := by
  simp [Tasks.insert]

theorem mem_remove {tasks : Tasks} {n : UInt64} {task : Nat} :
    (n, task) ∈ (tasks.remove number).running ↔ (n, task) ∈ tasks.running ∧ n ≠ number := by
  simp [Tasks.remove]

theorem tasks_setTasks (s : Registry) (id : Nat) (tasks : Tasks) (j : Nat) :
    (s.setTasks id tasks).tasks j = if j = id then tasks else s.tasks j := by
  show Function.update s.tasks id tasks j = _
  rw [Function.update_apply]

theorem Entries.startTask (h : Entries s) (hfree : (s.tasks id).retired = false →
    ∀ task, (number, task) ∉ (s.tasks id).running) : Entries (startTask id number s) := by
  unfold Handlers.startTask
  split
  · exact h
  next hretired =>
  have hretired := Bool.eq_false_iff.mpr hretired
  have hfree := hfree hretired
  generalize htask : s.started.length = task
  have hnew : ∀ t ∈ s.live, t.task ≠ task := fun t ht heq =>
    Nat.lt_irrefl _ (htask ▸ heq ▸ h.counted t ht)
  -- the number is free, so nothing is replaced
  have hmem : ∀ j n t, (n, t) ∈ ((s.setTasks id ((s.tasks id).insert number task)).tasks j).running ↔
      (j = id ∧ n = number ∧ t = task) ∨ (n, t) ∈ (s.tasks j).running := by
    intro j n t
    rw [tasks_setTasks]
    split
    · next hj =>
      subst hj
      rw [mem_insert]
      constructor
      · rintro (⟨rfl, rfl⟩ | ⟨hold, -⟩)
        · exact .inl ⟨rfl, rfl, rfl⟩
        · exact .inr hold
      · rintro (⟨-, rfl, rfl⟩ | hold)
        · exact .inl ⟨rfl, rfl⟩
        · exact .inr ⟨hold, fun hn => hfree t (hn ▸ hold)⟩
    · next hj =>
      refine ⟨.inr, ?_⟩
      rintro (⟨hj', -⟩ | hold)
      · exact absurd hj' hj
      · exact hold
  -- inserting a task retires no handler
  have hkept : ∀ j, ((s.setTasks id ((s.tasks id).insert number task)).tasks j).retired
      = (s.tasks j).retired := by
    intro j
    rw [tasks_setTasks]
    split
    · next hj =>
      rw [hj]
      rfl
    · rfl
  refine ⟨?_, ?_, ?_, ?_, ?_, ?_⟩
  · intro j n t t' ht ht'
    rcases (hmem j n t).mp ht with ⟨hj, hn, heq⟩ | hold <;>
      rcases (hmem j n t').mp ht' with ⟨hj', hn', heq'⟩ | hold'
    · exact heq.trans heq'.symm
    · exact absurd (hj ▸ hn ▸ hold') (hfree t')
    · exact absurd (hj' ▸ hn' ▸ hold) (hfree t)
    · exact h.keys hold hold'
  · intro j n t ht
    rcases (hmem j n t).mp ht with ⟨rfl, rfl, rfl⟩ | ht
    · exact List.mem_cons_self
    · exact List.mem_cons_of_mem _ (h.live ht)
  · intro t ht hkeep
    refine (hmem _ _ _).mpr ?_
    rcases List.mem_cons.mp ht with rfl | ht
    · exact .inl ⟨rfl, rfl, rfl⟩
    · exact .inr (h.entry t ht ((hkept _).symm.trans hkeep))
  · -- a retired handler has no task, and this one is not retired
    intro j hj
    have hold : (s.tasks j).retired = true := (hkept j).symm.trans hj
    have hne : j ≠ id := fun heq => by
      rw [heq, hretired] at hold
      cases hold
    show ((s.setTasks id _).tasks j).running = []
    rw [tasks_setTasks, if_neg hne]
    exact h.retired j hold
  · intro t ht
    show t.task < (s.started ++ [id]).length
    rw [List.length_append, List.length_singleton, htask]
    rcases List.mem_cons.mp ht with rfl | ht
    · exact Nat.lt_succ_self _
    · exact Nat.lt_succ_of_lt (htask ▸ h.counted t ht)
  · -- the new task's number is that of no task before it
    intro t ht t' ht' heq
    rcases List.mem_cons.mp ht with rfl | ht <;> rcases List.mem_cons.mp ht' with rfl | ht'
    · rfl
    · exact absurd heq.symm (hnew t' ht')
    · exact absurd heq (hnew t ht)
    · exact h.unique t ht t' ht' heq

theorem Entries.retire (h : Entries s) (id : Nat) : Entries (retire id s) := by
  have htasks : ∀ j, (Handlers.retire id s).tasks j
      = if j = id then { retired := true, running := [] } else s.tasks j := tasks_setTasks s id _
  refine ⟨?_, ?_, ?_, ?_, h.counted, h.unique⟩
  · intro j n t t' ht ht'
    rw [htasks] at ht ht'
    split at ht
    · cases ht
    · next hj =>
      rw [if_neg hj] at ht'
      exact h.keys ht ht'
  · intro j n t ht
    rw [htasks] at ht
    split at ht
    · cases ht
    · exact h.live ht
  · intro t ht hkeep
    rw [htasks] at hkeep ⊢
    split at hkeep
    · cases hkeep
    · next hj =>
      rw [if_neg hj]
      exact h.entry t ht hkeep
  · intro j hj
    rw [htasks] at hj ⊢
    by_cases hid : j = id
    · rw [if_pos hid]
    · rw [if_neg hid] at hj ⊢
      exact h.retired j hj

theorem finish_live (task : Nat) (s : Registry) :
    (finish task s).live = s.live.filter (·.task != task) := by
  unfold finish
  split
  · next hnone =>
    symm
    rw [List.filter_eq_self]
    intro t ht
    simpa using List.find?_eq_none.mp hnone t ht
  · rfl

theorem Entries.finish (h : Entries s) (task : Nat) : Entries (finish task s) := by
  unfold Handlers.finish
  split
  · exact h
  next t hfind =>
  have hlive : t ∈ s.live := List.mem_of_find?_eq_some hfind
  have htask : t.task = task := by simpa using List.find?_some hfind
  have hmem : ∀ {j n t'}, (n, t') ∈
      ((s.setTasks t.handler ((s.tasks t.handler).remove t.number)).tasks j).running ↔
      (n, t') ∈ (s.tasks j).running ∧ (j = t.handler → n ≠ t.number) := by
    intro j n t'
    rw [tasks_setTasks]
    split
    · next hj =>
      rw [mem_remove, hj]
      exact and_congr_right fun _ => ⟨fun hn _ => hn, fun hn => hn rfl⟩
    · next hj => exact ⟨fun hold => ⟨hold, fun hj' => absurd hj' hj⟩, fun hold => hold.1⟩
  have hkept : ∀ j, ((s.setTasks t.handler ((s.tasks t.handler).remove t.number)).tasks j).retired
      = (s.tasks j).retired := by
    intro j
    rw [tasks_setTasks]
    split
    · next hj =>
      rw [hj]
      rfl
    · rfl
  have hleft : ∀ t', t' ∈ s.live.filter (·.task != task) ↔ t' ∈ s.live ∧ t'.task ≠ task := by
    intro t'
    simp
  refine ⟨fun ht ht' => h.keys (hmem.mp ht).1 (hmem.mp ht').1, ?_, ?_, ?_, ?_, ?_⟩
  · intro j n t' ht'
    obtain ⟨hold, hother⟩ := hmem.mp ht'
    refine (hleft _).mpr ⟨h.live hold, fun heq => ?_⟩
    -- the entry would be that of the task that has ended
    have hself := h.unique _ (h.live hold) t hlive (heq.trans htask.symm)
    subst hself
    exact hother rfl rfl
  · intro t' ht' hkeep
    obtain ⟨hlive', hne⟩ := (hleft t').mp ht'
    have hretired := (hkept _).symm.trans hkeep
    refine hmem.mpr ⟨h.entry t' hlive' hretired, fun hj hn => ?_⟩
    have hentry := h.entry t hlive (hj ▸ hretired)
    rw [← hj, ← hn] at hentry
    exact hne ((h.keys (h.entry t' hlive' hretired) hentry).trans htask)
  · intro j hj
    refine List.eq_nil_iff_forall_not_mem.mpr ?_
    rintro ⟨n, t'⟩ ht'
    have hold := (hmem.mp ht').1
    rw [h.retired j ((hkept j).symm.trans hj)] at hold
    cases hold
  · exact fun t' ht' => h.counted t' ((hleft t').mp ht').1
  · exact fun a ha b hb => h.unique a ((hleft a).mp ha).1 b ((hleft b).mp hb).1

theorem Entries.returned (h : Entries s) (id : Nat) : Entries (returned id s) := by
  unfold Handlers.returned
  split <;> exact h.same rfl rfl rfl

theorem Entries.begin (h : Entries s) (call : Call) : Entries (begin i s call) := by
  cases call with
  | on eventType =>
    simp only [Handlers.begin, on]
    split <;> exact h.same rfl rfl rfl
  | onStateChange | close => exact h.same rfl rfl rfl
  | off id =>
    simp only [Handlers.begin, off]
    split
    · exact h.same rfl rfl rfl
    · have hstates : Entries { s with states := s.states.filter (· != id) } := h.same rfl rfl rfl
      exact hstates.returned id
  | relay generation name =>
    simp only [Handlers.begin, relay]
    split <;> exact h.same rfl rfl rfl

theorem Entries.go (h : Entries s) (horderly : Orderly s (.go i ok)) : Entries (go i ok s) := by
  simp only [Orderly] at horderly
  unfold Handlers.go
  cases hthread : s.threads i with
  | idle => exact h
  | removing id => exact ((h.retire id).returned id).same rfl rfl rfl
  | starting left =>
    cases left with
    | nil => exact h.same rfl rfl rfl
    | cons first left =>
      obtain ⟨id, number⟩ := first
      rw [hthread] at horderly
      cases ok with
      | false => exact h.same rfl rfl rfl
      | true => exact (h.startTask (horderly rfl)).same rfl rfl rfl
  | forgetting ok' left =>
    cases left with
    | nil => exact h.same rfl rfl rfl
    | cons id left => exact (h.retire id).same rfl rfl rfl
  | registering _ | dispatching _ | closing | dropping | taking _ => exact h.same rfl rfl rfl

theorem Entries.step (h : Entries s) {act : Act} (horderly : Orderly s act) : Entries (step s act) := by
  cases act with
  | call i call =>
    simp only [Handlers.step]
    split
    · exact h.begin call
    · exact h
  | go i ok => exact h.go horderly
  | finish task => exact h.finish task
  | renew => exact h.same rfl rfl rfl

theorem entries_new : Entries .new where
  keys h := nomatch h
  live h := nomatch h
  entry _ h := nomatch h
  retired _ h := nomatch h
  counted _ h := nomatch h
  unique _ h := nomatch h

/-! ## What is started -/

/-- What a step adds: at most one task, from a copy of a handler that has not been retired. -/
structure Grows (s s' : Registry) : Prop where
  offs : s.offs ⊆ s'.offs
  shutDown : s.shutDown = true → s'.shutDown = true
  started : s'.started = s.started
    ∨ ∃ id number, Copied s id number ∧ (s.tasks id).retired = false ∧ s'.started = s.started ++ [id]

theorem Grows.same (hoffs : s'.offs = s.offs) (hdown : s'.shutDown = s.shutDown)
    (hstarted : s'.started = s.started) : Grows s s' :=
  ⟨hoffs ▸ List.Subset.refl _, fun h => hdown.trans h, .inl hstarted⟩

theorem grows_returned (h : Grows s s') (id : Nat) : Grows s (returned id s') := by
  unfold returned
  split
  · exact ⟨fun j hj => List.mem_cons_of_mem _ (h.offs hj), h.shutDown, h.started⟩
  · exact h

theorem begin_grows (s : Registry) (i : Nat) (call : Call) : Grows s (begin i s call) := by
  cases call with
  | on eventType =>
    simp only [begin, on]
    split <;> exact .same rfl rfl rfl
  | onStateChange | close => exact .same rfl rfl rfl
  | off id =>
    simp only [begin, off]
    split
    · exact .same rfl rfl rfl
    · have hstates : Grows s { s with states := s.states.filter (· != id) } := .same rfl rfl rfl
      exact grows_returned hstates id
  | relay generation name =>
    simp only [begin, relay]
    split <;> exact .same rfl rfl rfl

theorem go_grows (s : Registry) (i : Nat) (ok : Bool) : Grows s (go i ok s) := by
  unfold go
  cases hthread : s.threads i with
  | removing id =>
    have hretire : Grows s (retire id s) := .same rfl rfl rfl
    have hreturned := grows_returned hretire id
    exact ⟨hreturned.offs, hreturned.shutDown, hreturned.started⟩
  | starting left =>
    cases left with
    | nil => exact .same rfl rfl rfl
    | cons first left =>
      obtain ⟨id, number⟩ := first
      cases ok with
      | false => exact .same rfl rfl rfl
      | true =>
        show Grows s ((startTask id number s).goto i (.starting left))
        unfold startTask
        split
        · exact .same rfl rfl rfl
        · next hretired =>
          refine ⟨List.Subset.refl _, fun h => h, .inr ⟨id, number, ?_, ?_, rfl⟩⟩
          · exact ⟨i, _, hthread, List.mem_cons_self⟩
          · exact Bool.eq_false_iff.mpr hretired
  | forgetting ok' left =>
    cases left with
    | nil =>
      refine ⟨List.Subset.refl _, fun h => ?_, .inl rfl⟩
      show (s.shutDown || ok') = true
      rw [h, Bool.true_or]
    | cons id left => exact .same rfl rfl rfl
  | idle | registering _ | dispatching _ | closing | dropping | taking _ => exact .same rfl rfl rfl

theorem step_grows (s : Registry) (act : Act) : Grows s (step s act) := by
  cases act with
  | call i call =>
    simp only [step]
    split
    · exact begin_grows s i call
    · exact .same rfl rfl rfl
  | go i ok => exact go_grows s i ok
  | finish task =>
    simp only [step, finish]
    split <;> exact .same rfl rfl rfl
  | renew => exact .same rfl rfl rfl

/-- No task of a handler is started once an `off` of it has returned. -/
theorem count_started {later : List Act} (h : Final s) (horderly : OrderlyRun s later)
    (hid : id ∈ s.offs) : (run s later).started.count id = s.started.count id := by
  induction later generalizing s with
  | nil => rfl
  | cons act later ih =>
    have hgrows := step_grows s act
    refine (ih (h.step horderly.1) horderly.2 (hgrows.offs hid)).trans ?_
    rcases hgrows.started with hsame | ⟨id', number, hcopied, hretired, hstarted⟩
    · rw [hsame]
    · have hne : id' ≠ id := by
        rintro rfl
        rw [(h.offs id' hid).2.2 number hcopied] at hretired
        cases hretired
      rw [hstarted, List.count_append, List.count_singleton, if_neg (by simpa using hne), Nat.add_zero]

/-- No task is started once a `close` has returned `Ok`. -/
theorem started_shutDown {later : List Act} (h : Final s) (horderly : OrderlyRun s later)
    (hdown : s.shutDown = true) : (run s later).started = s.started := by
  induction later generalizing s with
  | nil => rfl
  | cons act later ih =>
    have hgrows := step_grows s act
    refine (ih (h.step horderly.1) horderly.2 (hgrows.shutDown hdown)).trans ?_
    rcases hgrows.started with hsame | ⟨id', number, hcopied, hretired, -⟩
    · exact hsame
    · rw [h.shutDown hdown id' number hcopied] at hretired
      cases hretired

/-! ## The law of the handlers -/

/--
**In every orderly run the running entries of a handler are its live tasks, no task of a handler is
started once an `off` of it has returned, and none is once a `close` has returned `Ok`.**
-/
theorem handlers_law (acts : List Act) (horderly : OrderlyRun .new acts) :
    (∀ id number task, (number, task) ∈ ((run .new acts).tasks id).running →
      ⟨task, id, number⟩ ∈ (run .new acts).live)
    ∧ (∀ task id number, (number, task) ∉ ((step (run .new acts) (.finish task)).tasks id).running)
    ∧ (∀ t ∈ (run .new acts).live, ((run .new acts).tasks t.handler).retired = false →
      (t.number, t.task) ∈ ((run .new acts).tasks t.handler).running)
    ∧ ∀ before later, acts = before ++ later →
      (∀ id ∈ (run .new before).offs,
        (run .new acts).started.count id = (run .new before).started.count id)
      ∧ ((run .new before).shutDown = true → (run .new acts).started = (run .new before).started) := by
  have hentries : Entries (run .new acts) :=
    horderly.invariant (fun _ _ horderly h => h.step horderly) entries_new
  refine ⟨fun _ _ _ h => hentries.live h, fun task id number h => ?_, hentries.entry, ?_⟩
  · have hlive := (hentries.finish task).live h
    rw [finish_live] at hlive
    simp at hlive
  · rintro before later rfl
    obtain ⟨hbefore, hlater⟩ := horderly.append
    have hfinal : Final (run .new before) :=
      hbefore.invariant (fun _ _ horderly h => h.step horderly) final_new
    rw [show run .new (before ++ later) = run (run .new before) later from List.foldl_append]
    exact ⟨fun id hid => count_started hfinal hlater hid, started_shutDown hfinal hlater⟩

/-- A handler is registered, started, removed; then the session is closed. -/
def offThenClose : List Act :=
  [.renew, .call 0 (.on "speak"), .go 0 true, .call 1 (.relay 1 "speak"), .go 1 true, .go 1 true,
    .go 1 true, .call 0 (.off 1), .go 0 true, .finish 0, .call 0 .close, .go 0 true, .go 0 true,
    .go 0 true, .go 0 true, .call 1 (.relay 2 "speak")]

theorem offThenClose_orderly : OrderlyRun .new offThenClose := by
  refine ⟨trivial, trivial, trivial, trivial, ?_, ?_, trivial, ?_, trivial, trivial, trivial, trivial,
    trivial, trivial, ?_, trivial, trivial⟩
  · rintro ⟨⟩
  · rintro - - task ⟨⟩
  · rintro ⟨⟩
  · rintro id number ⟨i, left, hi, -⟩
    match i with
    | 0 => cases hi
    | 1 => cases hi
    | i + 2 => cases hi

theorem handlers_law_offThenClose :
    (run .new offThenClose).started.count 1 = 1 ∧ (run .new offThenClose).started = [1] := by
  have hlaw := (handlers_law offThenClose offThenClose_orderly).2.2.2
    (offThenClose.take 15) (offThenClose.drop 15) rfl
  exact ⟨(hlaw.1 1 (by decide)).trans rfl, (hlaw.2 rfl).trans rfl⟩

/-- An `on` and a dispatch that have found the session open, and then a `close`. -/
def lateOn : List Act :=
  [.renew, .call 0 (.on "speak"), .call 1 (.relay 1 "speak"), .call 2 .close, .go 2 true, .go 2 true,
    .go 2 true, .go 2 true]

/-- The handler is registered, and a task of it started, after the `close` has returned `Ok`. -/
theorem handlers_law_fails :
    (run .new lateOn).shutDown = true ∧ (run .new lateOn).started = []
    ∧ (run .new (lateOn ++ [.go 0 true, .go 1 true, .go 1 true])).started = [1] := by
  decide

end Thalovant.Session.Handlers
