import Thalovant.Intents.DescribeEnds

/-!
# Every run of a describe call

Whatever replies come, in whatever order, each registration is asked for once, no more than `batch` of
them are unanswered at a time, and each is described by the first reply for it. A call that nothing
else ended is a timeout exactly if its time is up with a registration unanswered and nothing usable
found. It ends once its time is up, and before that only with everything answered: `describe_many_law`.

That holds in every run in which the call goes from one window to the next only after an answer to
everything, and stops between two windows only with something usable. In the code neither is so: an
error that the transport itself calls a timeout is taken for the end of a window before its time, and a
call whose time is up between two windows is a success even if all it has are empty answers.
-/

namespace Thalovant.Intents

namespace DescribeMany

variable {link : DescribeLink} {batch : Nat} {wanted : List Wanted} {s : DescribeMany}

/-! ## What is shown of a call -/

/-- Every input of the run is. -/
def RegularRun (link : DescribeLink) : DescribeMany → List DescribeInput → Prop
  | _, [] => True
  | s, input :: inputs => s.Regular link input ∧ RegularRun link (s.step link input).2 inputs

/-- The call, but for the time and what its window heard. -/
def unheard (s : DescribeMany) : DescribeMany :=
  { s with now := 0, window := { s.window with heard := [] } }

/--
What holds of a call that has come to `s` after a run. What was sent is what the run published, what
the windows heard is what the run read, and what counts as an answer is a first reply among that.
-/
structure Law (link : DescribeLink) (batch : Nat) (wanted : List Wanted) (finish : Option Nat)
    (published : List (String × Data × Context)) (heard : List Event) (broken gaveUp : Bool)
    (s : DescribeMany) : Prop where
  deadline : s.finish = finish
  published : published = s.sent.map fun request => describeMessage link request.1 request.2
  heard : (s.windows.flatMap fun window => window.heard) = heard
  /-- The requests of each window, the windows in the order in which they went out. -/
  ids : (s.windows.flatMap fun window => window.byRequest.reverse) = s.sent.map Prod.swap
  /-- The windows are what is wanted, each registration once, cut in pieces. -/
  windows : s.asked <+: uniqueOf wanted
  sent_once : (s.sent.map Prod.fst).Nodup
  sent_wanted : ∀ key ∈ s.sent.map Prod.fst, key ∈ wanted
  unanswered_le : (s.unanswered link.lowercase).length ≤ batch
  found_iff : ∀ window ∈ s.windows, ∀ key definitions, (key, definitions) ∈ window.found ↔
    ∃ event, window.firstReply link.lowercase key = some event ∧ definitions = definitionsOf event
  /-- A reply to someone else is not read. -/
  foreign : ∀ (time : Nat) (event : Event) (requestId : String), event.requestId = some requestId →
    s.window.byRequest.lookup requestId = none →
    (s.step link ⟨time, .event event⟩).1 = none ∧
      (s.step link ⟨time, .event event⟩).2.unheard = s.unheard
  result_only : ∀ found, s.phase = .done (.ok found) → ∀ entry ∈ found, ∃ window ∈ s.windows,
    ∃ event, window.firstReply link.lowercase entry.1 = some event ∧ entry.2 = definitionsOf event
  result_all : ∀ found, s.phase = .done (.ok found) → ∀ window ∈ s.windows, ∀ key event,
    window.firstReply link.lowercase key = some event → definitionsOf event ≠ [] →
    (key, definitionsOf event) ∈ found
  timeout_iff : ∀ result, s.phase = .done result → broken = false →
    ((∃ message, result = .error (.timeout message)) ↔
      s.timeUp = true ∧ (∃ key ∈ wanted, s.heardOf link.lowercase key = false) ∧
        s.heardUsable link.lowercase = false)
  /-- What nothing else ended is a timeout or a success. -/
  error_only : ∀ err, s.phase = .done (.error err) → broken = false →
    finish = none ∨ ∃ message, err = .timeout message
  /-- A success before the time is up has an answer to everything, if the transport gave up on no
  request by itself. -/
  complete : ∀ found, s.phase = .done (.ok found) → gaveUp = false →
    s.timeUp = true ∨ ∀ key ∈ wanted, s.heardOf link.lowercase key = true
  /-- Once the time is up, a wait elapses and the clock is read, and the call is over. -/
  ends : ∀ time, s.now ≤ time → s.finish.any (· ≤ time) = true →
    (Machine.final (step link) s
      [⟨time, .clock⟩, ⟨time, .elapsed⟩, ⟨time, .clock⟩]).isDone = true
  attends : ∀ time, s.now ≤ time → s.finish.any (· ≤ time) = false →
    s.Regular link ⟨time, .clock⟩ → s.Attends link time

/-- What holds of a call after a run from `s₀`. -/
def LawAfter (link : DescribeLink) (batch : Nat) (wanted : List Wanted) (s₀ : DescribeMany)
    (inputs : List DescribeInput) : Prop :=
  Law link batch wanted s₀.finish ((Machine.outputs (step link) s₀ inputs).reduceOption)
    (heardIn link s₀ inputs) (brokenIn link s₀ inputs) (gaveUpIn inputs)
    (Machine.final (step link) s₀ inputs)

/-! ## A run -/

theorem inv_run (h : Inv link batch wanted s) {inputs : List DescribeInput}
    (hregular : RegularRun link s inputs) : Inv link batch wanted (Machine.final (step link) s inputs) := by
  induction inputs generalizing s with
  | nil => exact h
  | cons input inputs ih => exact ih (inv_step h input hregular.1) hregular.2

theorem earned_run {gaveUp : Bool} (h : Inv link batch wanted s) (he : s.Earned wanted gaveUp)
    {inputs : List DescribeInput} (hregular : RegularRun link s inputs) :
    (Machine.final (step link) s inputs).Earned wanted (gaveUp || gaveUpIn inputs) := by
  induction inputs generalizing s gaveUp with
  | nil => exact he.mono fun hgave => by simp [hgave]
  | cons input inputs ih =>
    have hstep := ih (inv_step h input hregular.1) (earned_step h hregular.1 he) hregular.2
    rw [Bool.or_assoc] at hstep
    exact hstep

variable (link) in
/-- A call that has a deadline starts with the invariant. -/
theorem inv_start {now deadline : Nat} (hbatch : 0 < batch)
    (hfinish : Client.checkedAdd now deadline ≠ none) :
    Inv link batch wanted (start now deadline batch wanted) ∧
      (start now deadline batch wanted).Earned wanted false := by
  have hsome : (Client.checkedAdd now deadline).isNone ≠ true := by
    simpa using hfinish
  unfold start
  extract_lets unique s
  rw [if_neg hsome]
  split
  · next hlong =>
    obtain ⟨hflatten, hchunk⟩ := chunks_spec hbatch unique.length unique (Nat.le_refl _)
    have hlonger : batch < unique.length := by simpa [hbatch] using hlong
    split
    · next hnone =>
      rw [hnone, List.flatten_nil] at hflatten
      rw [← hflatten] at hlonger
      cases hlonger
    · next first later hcons =>
      rw [hcons] at hflatten hchunk
      obtain ⟨hfirst, hsize⟩ := hchunk first List.mem_cons_self
      refine ⟨inv_begin [] rfl hflatten (by simp) rfl hsize ?_ nofun rfl rfl ?_, earned_begin _ ?_⟩
      · exact fun other hother => hchunk other (List.mem_cons_of_mem first hother)
      · exact fun hempty => absurd hempty hfirst
      · exact fun hempty => absurd hempty hfirst
  · next hshort =>
    have hsize : unique.length ≤ batch := by simpa [hbatch] using hshort
    refine ⟨inv_begin [] rfl (List.append_nil unique) (by simp) rfl hsize (by simp [s])
      (fun _ => ⟨rfl, rfl⟩) rfl rfl fun _ => ⟨rfl, rfl⟩, earned_begin _ fun hempty => ?_⟩
    refine List.eq_nil_iff_forall_not_mem.mpr fun key hkey => ?_
    rw [← mem_uniqueOf, show uniqueOf wanted = [] from hempty] at hkey
    cases hkey

variable (link) in
/-- A call that is over only sees time go on. -/
theorem final_of_done {result : Result Described} (hdone : s.phase = .done result)
    (inputs : List DescribeInput) :
    ∃ time, Machine.final (step link) s inputs = { s with now := time } := by
  induction inputs generalizing s with
  | nil => exact ⟨s.now, rfl⟩
  | cons input inputs ih =>
    have hstep : ∃ time, (s.step link input).2 = { s with now := time } := by
      unfold step
      split
      · exact ⟨s.now, rfl⟩
      · exact ⟨input.time, by simp [react, hdone]⟩
    obtain ⟨time, htime⟩ := hstep
    rw [Machine.final_cons, htime]
    exact ih (s := { s with now := time }) hdone

/-- An event with the id of no request of the window is only heard. -/
theorem step_foreign (link : DescribeLink) (s : DescribeMany) (time : Nat) {event : Event}
    {requestId : String} (hid : event.requestId = some requestId)
    (hlookup : s.window.byRequest.lookup requestId = none) :
    (s.step link ⟨time, .event event⟩).1 = none ∧
      (s.step link ⟨time, .event event⟩).2.unheard = s.unheard := by
  have hcorrelates : s.window.correlates event = false := by
    simp [DescribeWindow.correlates, hid, hlookup]
  have haccept : ({ s.window with heard := s.window.heard ++ [event] } : DescribeWindow).accept
      link.lowercase event = none := by
    simp [DescribeWindow.accept, DescribeWindow.replyKey, DescribeWindow.keyOf, hid, hlookup]
  unfold step
  split
  · exact ⟨rfl, rfl⟩
  · cases hphase : s.phase with
    | waiting within =>
      refine ⟨by simp [published], ?_⟩
      simp [react, hphase, hear, hcorrelates, haccept, unheard]
    | _ => exact ⟨by simp [published], by simp [react, hphase, unheard]⟩

/-- A call starts with nothing sent, heard or failed. -/
theorem start_fresh (link : DescribeLink) (now deadline batch : Nat) (wanted : List Wanted) :
    (start now deadline batch wanted).requests link = [] ∧
      (start now deadline batch wanted).allHeard = [] ∧
      (start now deadline batch wanted).failed = false := by
  unfold start
  dsimp only
  split
  · exact ⟨rfl, rfl, rfl⟩
  · split
    · split <;> exact ⟨rfl, rfl, rfl⟩
    · exact ⟨rfl, rfl, rfl⟩

/-- A call whose deadline the clock cannot represent does nothing. -/
theorem law_of_too_large {now deadline : Nat} (hfinish : Client.checkedAdd now deadline = none)
    (inputs : List DescribeInput) :
    LawAfter link batch wanted (start now deadline batch wanted) inputs := by
  have hstart : start now deadline batch wanted =
      { now := now, finish := none, windowed := false, later := [], total := [],
        window := { unique := uniqueOf wanted },
        phase := .done (.error (.runtime "intent describe timeout is too large")) } := by
    simp [start, hfinish]
  obtain ⟨time, htime⟩ := final_of_done link (s := start now deadline batch wanted)
    (by rw [hstart]) inputs
  obtain ⟨hpublished, hheard⟩ := final_keeps link (start now deadline batch wanted) inputs
  unfold LawAfter
  rw [htime] at hpublished hheard ⊢
  rw [hstart] at hpublished hheard ⊢
  refine ⟨rfl, hpublished.symm, hheard, rfl, ?_, .nil, fun _ hkey => absurd hkey List.not_mem_nil,
    Nat.zero_le _, ?_,
    fun time event requestId hid hlookup => step_foreign link _ time hid hlookup,
    ?_, ?_, ?_, fun _ _ _ => .inl rfl, nofun, fun _ htime hup => ends_in_time link htime hup,
    fun _ _ _ _ => attends_of_done rfl⟩
  · simp [asked, windows]
  · intro window hwindow key definitions
    rcases mem_windows.mp hwindow with hpast | rfl
    · cases hpast
    · simp [DescribeWindow.firstReply]
  · rintro found ⟨⟩
  · rintro found ⟨⟩
  · rintro result ⟨⟩ -
    constructor
    · rintro ⟨message, hmessage⟩
      cases hmessage
    · rintro ⟨htimeUp, -⟩
      cases htimeUp

/-- What the invariant says of the call. -/
theorem Inv.law (h : Inv link batch wanted s) {finish : Option Nat}
    {published : List (String × Data × Context)} {heard : List Event} {broken gaveUp : Bool}
    (hfinish : s.finish = finish) (hpublished : published = s.requests link)
    (hheard : s.allHeard = heard) (hbroken : broken = false → s.failed = false)
    (hearned : s.Earned wanted gaveUp) :
    Law link batch wanted finish published heard broken gaveUp s := by
  have hbase := h.base
  have hsent : ∀ key ∈ s.sent.map Prod.fst, key ∈ s.asked := fun key hkey => hbase.sent.subset hkey
  refine ⟨hfinish, hpublished, hheard, hbase.ids, hbase.cover ▸ List.prefix_append _ _,
    (nodup_asked hbase).sublist hbase.sent.sublist,
    fun key hkey => mem_wanted_of_asked hbase (hsent key hkey), ?_,
    fun window hwindow key definitions => (hbase.good window hwindow).mem_found_iff,
    fun time event requestId hid hlookup => step_foreign link s time hid hlookup, ?_, ?_, ?_, ?_, ?_,
    fun time htime hup => ends_in_time link htime hup,
    fun time htime hleft hregular => DescribeMany.attends ⟨h, htime, hleft⟩ hregular⟩
  · have hunanswered : s.unanswered link.lowercase
        = (s.sent.map Prod.fst).filter fun key => !s.answered key :=
      List.filter_congr fun key _ => by rw [answered_eq hbase]
    rw [hunanswered]
    calc ((s.sent.map Prod.fst).filter fun key => !s.answered key).length
        ≤ (s.asked.filter fun key => !s.answered key).length :=
          (hbase.sent.sublist.filter _).length_le
      _ ≤ s.window.unique.length := by
          have hbefore : (s.past.flatMap fun window => window.unique).filter
              (fun key => !s.answered key) = [] := by
            refine List.filter_eq_nil_iff.mpr fun key hkey => ?_
            obtain ⟨window, hwindow, hmem⟩ := List.mem_flatMap.mp hkey
            rw [answered_of_full hbase (mem_windows.mpr (.inl hwindow))
              (hbase.past_full window hwindow) hmem]
            decide
          rw [asked_eq, List.filter_append, hbefore, List.nil_append]
          exact List.length_filter_le _ _
      _ ≤ batch := hbase.size
  · intro found hdone entry hentry
    have hphase := h.phase
    rw [hdone] at hphase
    obtain ⟨window, hwindow, hfound⟩ := (hphase.1 found rfl).only entry hentry
    exact ⟨window, hwindow, (hbase.good window hwindow).mem_found_iff.mp hfound⟩
  · intro found hdone window hwindow key event hevent husable
    have hphase := h.phase
    rw [hdone] at hphase
    exact (hphase.1 found rfl).all window hwindow _
      ((hbase.good window hwindow).mem_found_iff.mpr ⟨event, hevent, rfl⟩) husable
  · intro result hdone hunbroken
    have hphase := h.phase
    rw [hdone] at hphase
    simp only [← answered_eq hbase, ← foundUsable_eq_heard hbase]
    rcases hphase.2 (hbroken hunbroken) with ⟨hresult, hrest⟩ | ⟨hresult, hrest⟩
    · exact ⟨fun _ => hrest, fun _ => hresult⟩
    · refine ⟨fun ⟨message, hmessage⟩ => absurd hmessage (hresult message), ?_⟩
      rintro ⟨hup, ⟨key, hkey, hunanswered⟩, hunusable⟩
      rcases hrest with hnone | hall | husable
      · simp [timeUp, hnone] at hup
      · rw [hall key hkey] at hunanswered
        cases hunanswered
      · rw [husable] at hunusable
        cases hunusable
  · intro err hdone hunbroken
    rw [Earned, hdone] at hearned
    rcases hearned with hfailed | hnone | htimeout
    · rw [hbroken hunbroken] at hfailed
      cases hfailed
    · exact .inl (hfinish.symm.trans hnone)
    · exact .inr htimeout
  · intro found hdone hkept
    rw [Earned, hdone] at hearned
    simp only [← answered_eq hbase]
    rcases hearned with hgave | hwhy
    · rw [hkept] at hgave
      cases hgave
    · exact hwhy

/-- **A describe call asks for each registration once and for at most `batch` at a time, believes the
first reply for each, and is a timeout exactly if its time is up with nothing usable.** It waits until
then for what is not answered. -/
theorem describe_many_law (link : DescribeLink) (wanted : List Wanted) (now deadline batch : Nat)
    (inputs : List DescribeInput) (hbatch : 0 < batch)
    (hregular : RegularRun link (start now deadline batch wanted) inputs) :
    LawAfter link batch wanted (start now deadline batch wanted) inputs := by
  by_cases hfinish : Client.checkedAdd now deadline = none
  · exact law_of_too_large hfinish inputs
  · obtain ⟨hpublished, hheard⟩ := final_keeps link (start now deadline batch wanted) inputs
    obtain ⟨hnothing, hsilent, hwhole⟩ := start_fresh link now deadline batch wanted
    rw [hnothing, List.nil_append] at hpublished
    rw [hsilent, List.nil_append] at hheard
    obtain ⟨hstart, hearned⟩ := inv_start link hbatch hfinish
    refine (inv_run hstart hregular).law (final_finish link _ inputs) hpublished.symm hheard
      (fun hunbroken => ?_) (earned_run hstart hearned hregular)
    rw [Bool.eq_false_iff]
    intro hfailed
    rcases brokenIn_of_failed link hfailed with hfailed | hbroken
    · rw [hwhole] at hfailed
      cases hfailed
    · rw [hunbroken] at hbroken
      cases hbroken

/-! ## Two calls that are not regular -/

def sampleLink : DescribeLink where
  siteId := none
  newRequestId n := ["r0", "r1", "r2", "r3", "r4", "r5"].getD n ""
  lowercase := id

def sampleKey (intentName : String) : Wanted := ("weather", intentName, "en-us")

/-- A reply by its request id: nothing, or one sentence. -/
def sampleReply (time : Nat) (requestId : String) (definitions : List Value) : DescribeInput where
  time := time
  happening := .event
    { name := EVENT_INTENT_DESCRIBE_RESPONSE
      data := [("definitions", .array definitions), ("ok", .bool true)]
      context := [("request_id", .string requestId)] }

def sampleDefinition (intentName : String) : Value :=
  .object [("definition", .object [("intent_name", .string intentName), ("lang", .string "en-us"),
    ("samples", .array [.string "what is the weather"]), ("skill_id", .string "weather")]),
    ("method", .string "template")]

/-- The clock is read, a request goes out, and its publication ends so. -/
def sampleSend (time : Nat) (result : Result Unit) : List DescribeInput :=
  [⟨time, .clock⟩, ⟨time, .emitted result⟩]

/-- The only reply so far is an empty one, and it comes as the time is up. -/
def emptyAtTheEnd : List DescribeInput :=
  sampleSend 1 (.ok ()) ++ [⟨2, .clock⟩, sampleReply 5 "r0" [], ⟨5, .clock⟩]

/-- The transport gives up on a request by itself, long before the time is up. -/
def givenUpEarly : List DescribeInput :=
  sampleSend 1 (.ok ()) ++ sampleSend 2 (.ok ())
    ++ [⟨3, .clock⟩, sampleReply 4 "r0" [sampleDefinition "a"],
      sampleReply 4 "r1" [sampleDefinition "b"], ⟨5, .clock⟩]
    ++ sampleSend 6 (.ok ())
    ++ sampleSend 7 (.error (.timeout "HTTP transport request timed out")) ++ [⟨8, .clock⟩]
    ++ sampleSend 9 (.ok ()) ++ sampleSend 10 (.ok ())

def sixKeys : List Wanted := ["a", "b", "c", "d", "e", "f"].map sampleKey

/-- A call whose time is up is a success with nothing in it, and one has more requests out than
`batch`. -/
theorem describe_many_fails :
    ((Machine.final (step sampleLink) (start 0 5 1 [sampleKey "today", sampleKey "tomorrow"])
        emptyAtTheEnd).phase = .done (.ok [(sampleKey "today", [])]) ∧
      ¬LawAfter sampleLink 1 [sampleKey "today", sampleKey "tomorrow"]
        (start 0 5 1 [sampleKey "today", sampleKey "tomorrow"]) emptyAtTheEnd) ∧
    ((Machine.final (step sampleLink) (start 0 1000 2 sixKeys) givenUpEarly).unanswered id
        = [sampleKey "c", sampleKey "d", sampleKey "e", sampleKey "f"] ∧
      ¬LawAfter sampleLink 2 sixKeys (start 0 1000 2 sixKeys) givenUpEarly) := by
  have hdone : (Machine.final (step sampleLink)
      (start 0 5 1 [sampleKey "today", sampleKey "tomorrow"]) emptyAtTheEnd).phase
      = .done (.ok [(sampleKey "today", [])]) := by rfl
  have hout : (Machine.final (step sampleLink) (start 0 1000 2 sixKeys) givenUpEarly).unanswered id
      = [sampleKey "c", sampleKey "d", sampleKey "e", sampleKey "f"] := by
    decide +kernel
  refine ⟨⟨hdone, fun hlaw => ?_⟩, hout, fun hlaw => ?_⟩
  · obtain ⟨message, hmessage⟩ := (hlaw.timeout_iff _ hdone (by decide +kernel)).mpr
      ⟨by decide +kernel, ⟨sampleKey "tomorrow", by decide, by decide +kernel⟩, by decide +kernel⟩
    cases hmessage
  · have hle := hlaw.unanswered_le
    rw [show sampleLink.lowercase = id from rfl, hout] at hle
    exact absurd hle (by decide)

/-- Two windows, both answered. -/
theorem describe_many_sample :
    LawAfter sampleLink 1 [sampleKey "a", sampleKey "b"] (start 0 1000 1 [sampleKey "a", sampleKey "b"])
        (sampleSend 1 (.ok ()) ++ [⟨2, .clock⟩, sampleReply 3 "r0" [sampleDefinition "a"], ⟨4, .clock⟩]
          ++ sampleSend 5 (.ok ())) := by
  refine describe_many_law sampleLink [sampleKey "a", sampleKey "b"] 0 1000 1 _ (by decide) ?_
  refine ⟨nofun, nofun, nofun, nofun, ?_, nofun, nofun, trivial⟩
  intro _ _ _ _
  decide +kernel

end DescribeMany

end Thalovant.Intents
