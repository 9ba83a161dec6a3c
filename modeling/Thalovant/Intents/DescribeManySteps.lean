import Thalovant.Intents.DescribeWindow

/-!
# The steps of a describe call

The invariant of a call (`Inv`): what was asked for and found, window by window, and in which phase
which of it is complete. Every happening keeps it (`inv_step`), if between two windows it is `Regular`.
-/

namespace Thalovant.Intents

/-! ## A call -/

namespace DescribeMany

/-- The windows so far. -/
def windows (s : DescribeMany) : List DescribeWindow := s.past ++ [s.window]

/-- The registrations of the windows so far. -/
def asked (s : DescribeMany) : List Wanted := s.windows.flatMap fun window => window.unique

def answered (s : DescribeMany) (key : Wanted) : Bool :=
  s.windows.any fun window => window.found.has key

/-- Something other than an empty answer was found. -/
def foundUsable (s : DescribeMany) : Bool := s.windows.any fun window => window.found.usable

/-- A reply for the registration was heard. -/
def heardOf (lowercase : String → String) (s : DescribeMany) (key : Wanted) : Bool :=
  s.windows.any fun window => (window.firstReply lowercase key).isSome

/-- The registrations that were asked for and that no reply was heard of. -/
def unanswered (lowercase : String → String) (s : DescribeMany) : List Wanted :=
  (s.sent.map Prod.fst).filter fun key => !s.heardOf lowercase key

/-- A first reply that was heard says something. -/
def heardUsable (lowercase : String → String) (s : DescribeMany) : Bool :=
  s.windows.any fun window => window.heardUsable lowercase

/-- The call goes on to the next window only if there was a reply for everything in this one, and stops
before it only if some reply said something. -/
def Regular (link : DescribeLink) (s : DescribeMany) (input : DescribeInput) : Prop :=
  s.phase = .checkEnd → s.later ≠ [] → input.happening = .clock → s.now ≤ input.time →
    if s.finish.any (· ≤ input.time) then s.heardUsable link.lowercase = true
    else ∀ key ∈ s.window.unique, (s.window.firstReply link.lowercase key).isSome = true

/-- A window that is not answered in full, before what it found is added. -/
structure Open (s : DescribeMany) : Prop where
  full : s.window.full = false
  total : s.total = s.past.flatMap fun window => window.found

/-- A window that is still being asked for. -/
structure Quiet (s : DescribeMany) : Prop extends Open s where
  found : s.window.found = []
  heard : s.window.heard = []

/-- What a result is right to be. -/
def Settled (wanted : List Wanted) (s : DescribeMany) (result : Result Described) : Prop :=
  ((∃ message, result = .error (.timeout message)) ∧ s.timeUp = true ∧
    (∃ key ∈ wanted, s.answered key = false) ∧ s.foundUsable = false) ∨
  ((∀ message, result ≠ .error (.timeout message)) ∧
    (s.finish = none ∨ (∀ key ∈ wanted, s.answered key = true) ∨ s.foundUsable = true))

/-- What a result is made of: what the windows found, and all of it that is usable. -/
structure Collected (s : DescribeMany) (found : Described) : Prop where
  only : ∀ entry ∈ found, ∃ window ∈ s.windows, entry ∈ window.found
  all : ∀ window ∈ s.windows, ∀ entry ∈ window.found, entry.2 ≠ [] → entry ∈ found

/-- What holds in each phase. -/
def AtPhase (wanted : List Wanted) (s : DescribeMany) : DescribePhase → Prop
  | .checkSend key unsent => s.Quiet ∧ s.sent.map Prod.fst ++ key :: unsent = s.asked
  | .emitting unsent => s.Quiet ∧ s.sent.map Prod.fst ++ unsent = s.asked
  | .startWait => s.Quiet ∧ s.sent.map Prod.fst = s.asked
  | .waiting _ => s.Open ∧ s.sent.map Prod.fst = s.asked
  | .checkEnd =>
    (s.total = (s.windows.flatMap fun window => window.found) ∧
      (s.window.full = true ∨ s.window.found.usable = true)) ∨
    (s.Open ∧ s.total.usable = true ∧ s.window.found.usable = false)
  | .done result =>
    (∀ found, result = .ok found → s.Collected found) ∧ (s.failed = false → s.Settled wanted result)

/-- What holds in every phase. -/
structure Base (link : DescribeLink) (batch : Nat) (wanted : List Wanted) (s : DescribeMany) :
    Prop where
  cover : s.asked ++ s.later.flatten = uniqueOf wanted
  good : ∀ window ∈ s.windows, window.Good link.lowercase
  size : s.window.unique.length ≤ batch
  later : ∀ unique ∈ s.later, unique ≠ [] ∧ unique.length ≤ batch
  past_full : ∀ window ∈ s.past, window.full = true
  single : s.windowed = false → s.later = [] ∧ s.past = []
  sent : s.sent.map Prod.fst <+: s.asked
  sent_past : (s.past.flatMap fun window => window.unique) <+: s.sent.map Prod.fst
  sent_full : s.window.full = true → s.sent.map Prod.fst = s.asked
  /-- The ids of the windows, each window's last first, are what was sent. -/
  ids : (s.windows.flatMap fun window => window.byRequest.reverse) = s.sent.map Prod.swap

/-- The invariant of a call. -/
structure Inv (link : DescribeLink) (batch : Nat) (wanted : List Wanted) (s : DescribeMany) :
    Prop where
  base : Base link batch wanted s
  phase : AtPhase wanted s s.phase

variable {link : DescribeLink} {batch : Nat} {wanted : List Wanted} {s : DescribeMany}

/-- The time, the total, the phase and what failed are no part of it. -/
theorem Base.of_eq {s' : DescribeMany} (h : Base link batch wanted s) (hpast : s'.past = s.past)
    (hwindow : s'.window = s.window) (hlater : s'.later = s.later)
    (hwindowed : s'.windowed = s.windowed) (hsent : s'.sent = s.sent) : Base link batch wanted s' := by
  have hwindows : s'.windows = s.windows := by rw [windows, windows, hpast, hwindow]
  have hasked : s'.asked = s.asked := by rw [asked, asked, hwindows]
  constructor
  · rw [hasked, hlater]
    exact h.cover
  · rw [hwindows]
    exact h.good
  · rw [hwindow]
    exact h.size
  · rw [hlater]
    exact h.later
  · rw [hpast]
    exact h.past_full
  · rw [hwindowed, hlater, hpast]
    exact h.single
  · rw [hsent, hasked]
    exact h.sent
  · rw [hpast, hsent]
    exact h.sent_past
  · rw [hwindow, hsent, hasked]
    exact h.sent_full
  · rw [hwindows, hsent]
    exact h.ids

/-! ## What the windows say of the call -/

theorem nodup_asked (h : Base link batch wanted s) : s.asked.Nodup := by
  have hnodup := nodup_uniqueOf wanted
  rw [← h.cover] at hnodup
  exact (List.nodup_append.mp hnodup).1

theorem mem_wanted_of_asked (h : Base link batch wanted s) {key : Wanted} (hkey : key ∈ s.asked) :
    key ∈ wanted := by
  rw [← mem_uniqueOf, ← h.cover]
  exact List.mem_append_left _ hkey

theorem asked_eq (s : DescribeMany) :
    s.asked = (s.past.flatMap fun window => window.unique) ++ s.window.unique := by
  simp [asked, windows]

/-- Only the registrations of the windows matter. -/
theorem asked_congr {s s' : DescribeMany} (hpast : s'.past = s.past)
    (hunique : s'.window.unique = s.window.unique) : s'.asked = s.asked := by
  rw [asked_eq, asked_eq, hpast, hunique]

theorem mem_windows {window : DescribeWindow} :
    window ∈ s.windows ↔ window ∈ s.past ∨ window = s.window := by
  simp [windows]

theorem nodup_unique (h : Base link batch wanted s) {window : DescribeWindow}
    (hwindow : window ∈ s.windows) : window.unique.Nodup := by
  have hasked := nodup_asked h
  rw [asked, List.nodup_flatMap] at hasked
  exact hasked.1 window hwindow

theorem answered_eq_true {key : Wanted} :
    s.answered key = true ↔ ∃ window ∈ s.windows, window.found.has key = true := List.any_eq_true

theorem foundUsable_eq_true :
    s.foundUsable = true ↔ ∃ window ∈ s.windows, window.found.usable = true := List.any_eq_true

/-- What is found is what was heard of. -/
theorem answered_eq (h : Base link batch wanted s) (key : Wanted) :
    s.answered key = s.heardOf link.lowercase key := by
  rw [Bool.eq_iff_iff, answered_eq_true, heardOf, List.any_eq_true]
  refine exists_congr fun window => and_congr_right fun hwindow => ?_
  rw [(h.good window hwindow).has_eq]

theorem foundUsable_eq_heard (h : Base link batch wanted s) :
    s.foundUsable = s.heardUsable link.lowercase := by
  rw [Bool.eq_iff_iff, foundUsable_eq_true, heardUsable, List.any_eq_true]
  refine exists_congr fun window => and_congr_right fun hwindow => ?_
  rw [(h.good window hwindow).usable_eq]

/-- A registration of the last window is answered in no window before. -/
theorem answered_iff (h : Base link batch wanted s) {key : Wanted} (hkey : key ∈ s.window.unique) :
    s.answered key = true ↔ s.window.found.has key = true := by
  rw [answered_eq_true]
  refine ⟨?_, fun hhas => ⟨s.window, mem_windows.mpr (.inr rfl), hhas⟩⟩
  rintro ⟨other, hother, hhas⟩
  rcases mem_windows.mp hother with hpast | rfl
  · have hown := (h.good other hother).own key (Described.has_iff.mp hhas)
    have hnodup := nodup_asked h
    rw [asked_eq, List.nodup_append] at hnodup
    exact absurd rfl (hnodup.2.2 key (List.mem_flatMap.mpr ⟨other, hpast, hown⟩) key hkey)
  · exact hhas

/-- A registration of a full window is answered. -/
theorem answered_of_full (h : Base link batch wanted s) {window : DescribeWindow}
    (hwindow : window ∈ s.windows) (hfull : window.full = true) {key : Wanted}
    (hkey : key ∈ window.unique) : s.answered key = true :=
  answered_eq_true.mpr ⟨window, hwindow,
    (DescribeWindow.full_iff (nodup_unique h hwindow) (h.good window hwindow)).mp hfull key hkey⟩

/-- If no window is left and the last one is full, all that was wanted is answered. -/
theorem answered_of_last (h : Base link batch wanted s) (hlater : s.later = [])
    (hfull : s.window.full = true) {key : Wanted} (hkey : key ∈ wanted) : s.answered key = true := by
  rw [← mem_uniqueOf, ← h.cover, hlater, List.flatten_nil, List.append_nil, asked,
    List.mem_flatMap] at hkey
  obtain ⟨window, hwindow, hmem⟩ := hkey
  rcases mem_windows.mp hwindow with hpast | rfl
  · exact answered_of_full h hwindow (h.past_full window hpast) hmem
  · exact answered_of_full h hwindow hfull hmem

/-- A window that is not full has a registration that is not answered. -/
theorem exists_unanswered (h : Base link batch wanted s) (hfull : s.window.full = false) :
    ∃ key ∈ s.asked, s.answered key = false := by
  have hmem : s.window ∈ s.windows := mem_windows.mpr (.inr rfl)
  by_contra hall
  have hanswered : ∀ key ∈ s.window.unique, s.window.found.has key = true := by
    intro key hkey
    have hasked : key ∈ s.asked := by
      rw [asked_eq]
      exact List.mem_append_right _ hkey
    rw [← answered_iff h hkey, ← Bool.not_eq_false]
    exact fun hnot => hall ⟨key, hasked, hnot⟩
  rw [(DescribeWindow.full_iff (nodup_unique h hmem) (h.good _ hmem)).mpr hanswered] at hfull
  cases hfull

/-- What the windows before found is not of this window. -/
theorem extend_total (h : Base link batch wanted s)
    (htotal : s.total = s.past.flatMap fun window => window.found) :
    s.total.extend s.window.found = s.windows.flatMap fun window => window.found := by
  have hdisjoint : ∀ key ∈ s.window.found.map Prod.fst, key ∉ s.total.map Prod.fst := by
    intro key hkey hbefore
    rw [htotal, List.mem_map] at hbefore
    obtain ⟨entry, hentry, rfl⟩ := hbefore
    obtain ⟨other, hother, hentry⟩ := List.mem_flatMap.mp hentry
    have hown := (h.good other (mem_windows.mpr (.inl hother))).own entry.1
      (List.mem_map_of_mem hentry)
    have hown' := (h.good s.window (mem_windows.mpr (.inr rfl))).own entry.1 hkey
    have hnodup := nodup_asked h
    rw [asked_eq, List.nodup_append] at hnodup
    exact absurd rfl
      (hnodup.2.2 entry.1 (List.mem_flatMap.mpr ⟨other, hother, hown⟩) entry.1 hown')
  rw [Described.extend_eq_append hdisjoint, htotal]
  simp [windows]

theorem usable_flatMap (windows : List DescribeWindow) :
    Described.usable (windows.flatMap fun window => window.found)
      = windows.any fun window => window.found.usable := by
  simp [Described.usable, List.any_flatMap]

/-- What a window found is usable, or what those before did. -/
theorem foundUsable_eq (s : DescribeMany) :
    s.foundUsable = (Described.usable (s.past.flatMap fun window => window.found)
      || s.window.found.usable) := by
  rw [usable_flatMap]
  simp [foundUsable, windows]

/-! ## The end of a window -/

/-- An error ends a window that is not full. -/
theorem inv_windowFailed (h : Base link batch wanted s) (hopen : s.Open) (err : ThalovantError)
    (caused : Bool) (hunusable : (∃ message, err = .timeout message) → s.window.found.usable = false)
    (hcaused : caused = false → (∃ message, err = .timeout message) ∧ s.timeUp = true) :
    Inv link batch wanted (s.windowFailed err caused) := by
  unfold windowFailed
  split
  · next message =>
    by_cases hgoOn : (s.windowed && s.total.usable) = true
    · rw [if_pos hgoOn]
      exact ⟨h.of_eq rfl rfl rfl rfl rfl,
        .inr ⟨⟨hopen.full, hopen.total⟩, (Bool.and_eq_true_iff.mp hgoOn).2, hunusable ⟨message, rfl⟩⟩⟩
    · rw [if_neg hgoOn]
      refine ⟨h.of_eq rfl rfl rfl rfl rfl, nofun, fun hfailed => .inl ⟨⟨message, rfl⟩, ?_⟩⟩
      obtain ⟨-, htime⟩ := hcaused hfailed
      obtain ⟨key, hkey, hnot⟩ := exists_unanswered h hopen.full
      refine ⟨htime, ⟨key, mem_wanted_of_asked h hkey, hnot⟩, ?_⟩
      have hbefore : Described.usable (s.past.flatMap fun window => window.found) = false := by
        rw [← hopen.total]
        cases hwindowed : s.windowed with
        | true => simpa [hwindowed] using hgoOn
        | false =>
          rw [hopen.total, (h.single hwindowed).2]
          rfl
      refine (foundUsable_eq s).trans ?_
      rw [hbefore, hunusable ⟨message, rfl⟩]
      rfl
  · next hother =>
    refine ⟨h.of_eq rfl rfl rfl rfl rfl, nofun, fun hfailed => ?_⟩
    obtain ⟨⟨message, hmessage⟩, -⟩ := hcaused hfailed
    exact absurd hmessage (hother message)

/-- A window ends with what it found. -/
theorem inv_windowDone (h : Base link batch wanted s)
    (htotal : s.total = s.past.flatMap fun window => window.found)
    (hfound : s.window.full = true ∨ s.window.found.usable = true) :
    Inv link batch wanted s.windowDone := by
  unfold windowDone
  by_cases hwindowed : s.windowed = true
  · rw [if_pos hwindowed]
    exact ⟨h.of_eq rfl rfl rfl rfl rfl, .inl ⟨extend_total h htotal, hfound⟩⟩
  · rw [if_neg hwindowed]
    refine ⟨h.of_eq rfl rfl rfl rfl rfl, ?_, fun _ => .inr ⟨nofun, .inr ?_⟩⟩
    · rintro found ⟨⟩
      refine ⟨fun entry hentry => ⟨s.window, mem_windows.mpr (.inr rfl), hentry⟩, ?_⟩
      intro window hwindow entry hentry _
      rcases mem_windows.mp hwindow with hpast | rfl
      · rw [(h.single (Bool.eq_false_iff.mpr hwindowed)).2] at hpast
        cases hpast
      · exact hentry
    · rcases hfound with hfull | husable
      · exact .inl fun key hkey => answered_of_last h
          (h.single (Bool.eq_false_iff.mpr hwindowed)).1 hfull hkey
      · exact .inr (foundUsable_eq_true.mpr ⟨s.window, mem_windows.mpr (.inr rfl), husable⟩)

/-! ## The parts of a window -/

/-- A request goes out. -/
theorem inv_send (h : Base link batch wanted s) {key : Wanted} {unsent : List Wanted}
    (hphase : AtPhase wanted s (.checkSend key unsent)) : Inv link batch wanted (s.send link key unsent) := by
  obtain ⟨hquiet, hsent⟩ := hphase
  have hmem : s.window ∈ s.windows := mem_windows.mpr (.inr rfl)
  have hkey : key ∈ s.window.unique := by
    obtain ⟨mine, hmine⟩ := h.sent_past
    rw [asked_eq, ← hmine, List.append_assoc, List.append_cancel_left_eq] at hsent
    rw [← hsent]
    exact List.mem_append_right _ List.mem_cons_self
  have hasked : (s.send link key unsent).asked = s.asked := asked_congr rfl rfl
  have hkeys : (s.send link key unsent).sent.map Prod.fst = s.sent.map Prod.fst ++ [key] := by
    simp [send]
  have hrest : s.sent.map Prod.fst ++ [key] ++ unsent = s.asked := by
    rw [List.append_assoc, List.singleton_append, hsent]
  refine ⟨⟨?_, ?_, h.size, h.later, h.past_full, h.single, ?_, ?_, ?_, ?_⟩, ?_⟩
  · rw [hasked]
    exact h.cover
  · intro window hwindow
    rcases mem_windows.mp hwindow with hpast | rfl
    · exact h.good window (mem_windows.mpr (.inl hpast))
    · exact (h.good s.window hmem).send hquiet.heard hkey _
  · rw [hasked, hkeys, ← hrest]
    exact List.prefix_append _ _
  · rw [hkeys]
    exact h.sent_past.trans (List.prefix_append _ _)
  · intro hfull
    have hnot : (s.send link key unsent).window.full = false := hquiet.full
    rw [hnot] at hfull
    cases hfull
  · have hids := h.ids
    simp only [windows, List.flatMap_append, List.flatMap_singleton] at hids
    simp only [windows, send, List.flatMap_append, List.flatMap_singleton, List.reverse_cons,
      List.map_append, List.map_singleton, Prod.swap_prod_mk, ← hids, List.append_assoc]
  · refine ⟨⟨⟨hquiet.full, hquiet.total⟩, hquiet.found, hquiet.heard⟩, ?_⟩
    rw [hasked, hkeys]
    exact hrest

theorem inv_goOn (h : Base link batch wanted s) {unsent : List Wanted}
    (hphase : AtPhase wanted s (.emitting unsent)) : Inv link batch wanted (s.goOn unsent) := by
  obtain ⟨hquiet, hsent⟩ := hphase
  have hquiet' : ∀ phase, ({ s with phase := phase } : DescribeMany).Quiet :=
    fun _ => ⟨⟨hquiet.full, hquiet.total⟩, hquiet.found, hquiet.heard⟩
  cases unsent with
  | nil =>
    rw [List.append_nil] at hsent
    exact ⟨h.of_eq rfl rfl rfl rfl rfl, hquiet' _, hsent⟩
  | cons key unsent => exact ⟨h.of_eq rfl rfl rfl rfl rfl, hquiet' _, hsent⟩

/-- A window that starts after windows that are full. -/
theorem inv_begin {unique : List Wanted} (past : List DescribeWindow) (hpast : s.past = past)
    (hcover : (past.flatMap fun window => window.unique) ++ unique ++ s.later.flatten = uniqueOf wanted)
    (hgood : ∀ window ∈ past, window.Good link.lowercase ∧ window.full = true)
    (hids : (past.flatMap fun window => window.byRequest.reverse) = s.sent.map Prod.swap)
    (hsize : unique.length ≤ batch) (hlater : ∀ unique ∈ s.later, unique ≠ [] ∧ unique.length ≤ batch)
    (hsingle : s.windowed = false → s.later = [] ∧ past = [])
    (hsent : s.sent.map Prod.fst = past.flatMap fun window => window.unique)
    (htotal : s.total = past.flatMap fun window => window.found)
    (hempty : unique = [] → s.later = [] ∧ past = []) :
    Inv link batch wanted (s.begin unique) := by
  subst hpast
  have hasked : (s.begin unique).asked = (s.past.flatMap fun window => window.unique) ++ unique :=
    asked_eq _
  have hfull : (s.begin unique).window.full = true ↔ unique = [] := by
    simp [begin, DescribeWindow.full, eq_comm]
  refine ⟨⟨?_, ?_, hsize, hlater, fun window hwindow => (hgood window hwindow).2, hsingle, ?_,
    hsent ▸ List.prefix_rfl, ?_, ?_⟩, ?_⟩
  · rw [hasked]
    exact hcover
  · intro window hwindow
    rcases mem_windows.mp hwindow with hpast | rfl
    · exact (hgood window hpast).1
    · exact DescribeWindow.good_of_unique unique
  · rw [hasked]
    exact hsent ▸ List.prefix_append _ _
  · intro h
    rw [hasked, hfull.mp h, List.append_nil]
    exact hsent
  · simp only [windows, begin, List.flatMap_append, List.flatMap_singleton, List.reverse_nil,
      List.append_nil]
    exact hids
  · -- an empty window is full at once, and then nothing was asked for at all
    cases unique with
    | nil =>
      obtain ⟨hlater, hpast⟩ := hempty rfl
      refine ⟨?_, fun _ => .inr ⟨?_, .inr (.inl ?_)⟩⟩
      · rintro found ⟨⟩
        refine ⟨fun _ hentry => absurd hentry List.not_mem_nil,
          fun window hwindow entry hentry _ => ?_⟩
        rcases mem_windows.mp hwindow with hold | rfl
        · rw [show (s.begin []).past = [] from hpast] at hold
          cases hold
        · exact hentry
      · rintro message ⟨⟩
      · intro key hkey
        rw [← mem_uniqueOf, ← hcover, hlater, hpast] at hkey
        cases hkey
    | cons key unsent =>
      have hnot : (s.begin (key :: unsent)).window.full = false := by
        rw [Bool.eq_false_iff, ne_eq, hfull]
        exact List.cons_ne_nil key unsent
      refine ⟨⟨⟨hnot, htotal⟩, rfl, rfl⟩, ?_⟩
      rw [hasked, ← hsent]
      rfl

/-- An event is read. -/
theorem inv_hear (h : Base link batch wanted s) {within : Nat}
    (hwaiting : s.phase = .waiting within) (hphase : AtPhase wanted s (.waiting within))
    (event : Event) : Inv link batch wanted (s.hear link event) := by
  obtain ⟨hopen, hsent⟩ := hphase
  have hmem : s.window ∈ s.windows := mem_windows.mpr (.inr rfl)
  have hgood := h.good s.window hmem
  -- Only what the window found and heard is changed.
  have hbase : ∀ window : DescribeWindow, window.unique = s.window.unique →
      window.byRequest = s.window.byRequest → window.Good link.lowercase →
      Base link batch wanted { s with window := window } := by
    intro window hunique hids hwindow
    have hasked : ({ s with window := window } : DescribeMany).asked = s.asked :=
      asked_congr rfl hunique
    refine ⟨?_, ?_, hunique ▸ h.size, h.later, h.past_full, h.single, ?_, h.sent_past, ?_, ?_⟩
    · rw [hasked]
      exact h.cover
    · intro other hother
      rcases mem_windows.mp hother with hpast | rfl
      · exact h.good other (mem_windows.mpr (.inl hpast))
      · exact hwindow
    · rw [hasked]
      exact h.sent
    · intro _
      rw [hasked]
      exact hsent
    · have hsame := h.ids
      simp only [windows, List.flatMap_append, List.flatMap_singleton] at hsame ⊢
      rw [hids]
      exact hsame
  -- either a denial, which no request answers, or an event that a request may wait for
  unfold hear
  dsimp only
  split
  · next hdenied =>
    have hname : event.name = EVENT_POLICY_DENIED := by
      by_contra hname
      simp [deniedTypeOf, hname] at hdenied
    have hreply : s.window.replyKey link.lowercase event = none := by
      rw [DescribeWindow.replyKey, hname]
      exact if_pos (by decide)
    have hheard : DescribeWindow.Good link.lowercase
        { s.window with heard := s.window.heard ++ [event] } :=
      hgood.heard fun key hkey => by
        rw [hreply] at hkey
        cases hkey
    exact inv_windowFailed (hbase { s.window with heard := s.window.heard ++ [event] } rfl rfl hheard)
      ⟨hopen.full, hopen.total⟩ _ true nofun nofun
  · let heard : DescribeWindow := { s.window with heard := s.window.heard ++ [event] }
    rcases DescribeWindow.accept_cases link.lowercase heard event with
      ⟨haccept, hfound⟩ | ⟨key, hreply, hkey, haccept⟩
    · rw [haccept]
      refine ⟨hbase heard rfl rfl (hgood.heard hfound), ?_⟩
      show AtPhase wanted { s with window := heard } s.phase
      rw [hwaiting]
      refine ⟨⟨hopen.full, hopen.total⟩, hsent.trans (Eq.symm (asked_congr ?_ ?_))⟩ <;> rfl
    · rw [haccept]
      have haccepted := hbase { heard with found := heard.found ++ [(key, definitionsOf event)] }
        rfl rfl (hgood.accepted hreply hkey)
      dsimp only
      split
      · next hfull => exact inv_windowDone haccepted hopen.total (.inl hfull)
      · next hfull =>
        refine ⟨haccepted, ?_⟩
        show AtPhase wanted _ s.phase
        rw [hwaiting]
        refine ⟨⟨Bool.eq_false_iff.mpr hfull, hopen.total⟩,
          hsent.trans (Eq.symm (asked_congr ?_ ?_))⟩ <;> rfl

theorem inv_waitElapsed (h : Base link batch wanted s) {within : Nat}
    (hphase : AtPhase wanted s (.waiting within)) (htime : s.timeUp = true) :
    Inv link batch wanted (s.waitElapsed within) := by
  obtain ⟨hopen, -⟩ := hphase
  unfold waitElapsed
  split
  · next husable => exact inv_windowDone h hopen.total (.inr husable)
  · next husable =>
    exact inv_windowFailed h hopen _ false (fun _ => Bool.eq_false_iff.mpr husable)
      fun _ => ⟨⟨_, rfl⟩, htime⟩

/-! ## Between two windows -/

/-- What was added up is what the windows found, but for a window without anything usable. -/
theorem total_collected (hphase : AtPhase wanted s .checkEnd) : s.Collected s.total := by
  rcases hphase with ⟨htotal, -⟩ | ⟨hopen, -, hunusable⟩
  · rw [htotal]
    exact ⟨fun entry hentry => List.mem_flatMap.mp hentry,
      fun window hwindow entry hentry _ => List.mem_flatMap.mpr ⟨window, hwindow, hentry⟩⟩
  · rw [hopen.total]
    refine ⟨fun entry hentry => ?_, fun window hwindow entry hentry husable => ?_⟩
    · obtain ⟨window, hwindow, hfound⟩ := List.mem_flatMap.mp hentry
      exact ⟨window, mem_windows.mpr (.inl hwindow), hfound⟩
    · rcases mem_windows.mp hwindow with hpast | rfl
      · exact List.mem_flatMap.mpr ⟨window, hpast, hentry⟩
      · have hempty := List.any_eq_false.mp hunusable entry hentry
        exact absurd (by simpa using hempty) husable

theorem foundUsable_eq_total (hphase : AtPhase wanted s .checkEnd) :
    s.foundUsable = true ↔ s.total.usable = true := by
  have hcollected := total_collected hphase
  rw [foundUsable_eq_true]
  constructor
  · rintro ⟨window, hwindow, husable⟩
    obtain ⟨entry, hentry, husable⟩ := List.any_eq_true.mp husable
    exact List.any_eq_true.mpr
      ⟨entry, hcollected.all window hwindow entry hentry (by simpa using husable), husable⟩
  · intro h
    obtain ⟨entry, hentry, husable⟩ := List.any_eq_true.mp h
    obtain ⟨window, hwindow, hfound⟩ := hcollected.only entry hentry
    exact ⟨window, hwindow, List.any_eq_true.mpr ⟨entry, hfound, husable⟩⟩

/-- The call ends between two windows. -/
theorem inv_end (h : Base link batch wanted s) (hphase : AtPhase wanted s .checkEnd)
    (hlater : s.later ≠ [] → s.total.usable = true) :
    Inv link batch wanted { s with phase := .done (.ok s.total) } := by
  refine ⟨h.of_eq rfl rfl rfl rfl rfl, ?_, fun _ => .inr ⟨nofun, .inr ?_⟩⟩
  · rintro found ⟨⟩
    have hcollected := total_collected hphase
    exact ⟨hcollected.only, hcollected.all⟩
  · have hfound : s.total.usable = true → s.foundUsable = true := (foundUsable_eq_total hphase).mpr
    by_cases hleft : s.later = []
    · rcases id hphase with ⟨-, hfull | husable⟩ | ⟨-, husable, -⟩
      · exact .inl fun key hkey => answered_of_last h hleft hfull hkey
      · exact .inr (foundUsable_eq_true.mpr ⟨s.window, mem_windows.mpr (.inr rfl), husable⟩)
      · exact .inr (hfound husable)
    · exact .inr (hfound (hlater hleft))

/-- The next window starts. -/
theorem inv_nextWindow (h : Base link batch wanted s) (hphase : AtPhase wanted s .checkEnd)
    (hfull : s.later ≠ [] → s.window.full = true) : Inv link batch wanted s.nextWindow := by
  unfold nextWindow
  split
  · next hlater => exact inv_end h hphase (fun hleft => absurd hlater hleft)
  · next unique later hlater =>
    have hwindow : s.window.full = true := hfull (by simp [hlater])
    have hunique := h.later unique (by simp [hlater])
    refine inv_begin (s.past ++ [s.window]) rfl ?_ ?_ h.ids hunique.2 ?_ ?_ ?_ ?_ ?_
    · have hcover := h.cover
      rw [asked, windows, hlater, List.flatten_cons, ← List.append_assoc] at hcover
      exact hcover
    · intro window hmem
      refine ⟨h.good window hmem, ?_⟩
      rcases mem_windows.mp hmem with hpast | rfl
      · exact h.past_full window hpast
      · exact hwindow
    · intro other hother
      exact h.later other (by simp [hlater, hother])
    · intro hwindowed
      rw [(h.single hwindowed).1] at hlater
      cases hlater
    · exact h.sent_full hwindow
    · rcases hphase with ⟨htotal, -⟩ | ⟨hopen, -⟩
      · exact htotal
      · rw [hopen.full] at hwindow
        cases hwindow
    · exact fun hempty => absurd hempty hunique.1

/-! ## A step -/

/-- Time that is up stays up. -/
theorem timeUp_mono {s' : DescribeMany} (hfinish : s'.finish = s.finish) (hnow : s.now ≤ s'.now)
    (h : s.timeUp = true) : s'.timeUp = true := by
  unfold timeUp at h ⊢
  rw [hfinish]
  cases hend : s.finish with
  | none => simp [hend] at h
  | some finish =>
    simp only [hend, Option.any_some, decide_eq_true_eq] at h ⊢
    omega

theorem atPhase_now {time : Nat} (htime : s.now ≤ time) (phase : DescribePhase)
    (h : AtPhase wanted s phase) : AtPhase wanted { s with now := time } phase := by
  have hopen : s.Open → ({ s with now := time } : DescribeMany).Open := fun h => ⟨h.full, h.total⟩
  have hquiet : s.Quiet → ({ s with now := time } : DescribeMany).Quiet :=
    fun h => ⟨hopen h.toOpen, h.found, h.heard⟩
  cases phase with
  | checkSend key unsent | emitting unsent | startWait => exact ⟨hquiet h.1, h.2⟩
  | waiting within => exact ⟨hopen h.1, h.2⟩
  | checkEnd => exact h.imp id fun hrest => ⟨hopen hrest.1, hrest.2⟩
  | done result =>
    refine ⟨fun found hresult => ⟨(h.1 found hresult).only, (h.1 found hresult).all⟩,
      fun hfailed => (h.2 hfailed).imp ?_ id⟩
    rintro ⟨hresult, hup, hrest⟩
    have hup' : ({ s with now := time } : DescribeMany).timeUp = true := timeUp_mono (s := s) rfl htime hup
    exact ⟨hresult, hup', hrest⟩

/-- Time goes on. -/
theorem inv_now (h : Inv link batch wanted s) {time : Nat} (htime : s.now ≤ time) :
    Inv link batch wanted { s with now := time } :=
  ⟨h.base.of_eq rfl rfl rfl rfl rfl, atPhase_now htime s.phase h.phase⟩

/-- A deadline that is over ends a window that is still being asked for. -/
theorem inv_sendTimedOut (h : Base link batch wanted s) (hquiet : s.Quiet) (htime : s.timeUp = true) :
    Inv link batch wanted (s.windowFailed SEND_TIMED_OUT false) := by
  refine inv_windowFailed h hquiet.toOpen _ false (fun _ => ?_) fun _ => ⟨⟨_, rfl⟩, htime⟩
  rw [hquiet.found]
  rfl

/-- **Whatever happens keeps the invariant**, if between two windows it is regular. -/
theorem inv_react (h : Inv link batch wanted s) (happening : Happening)
    (hregular : s.Regular link ⟨s.now, happening⟩) : Inv link batch wanted (s.react link happening) := by
  have hbase := h.base
  have hphase := h.phase
  unfold react
  split
  · next key unsent hp =>
    rw [hp] at hphase
    split
    · next htime => exact inv_sendTimedOut hbase hphase.1 htime
    · exact inv_send hbase hphase
  · next unsent hp =>
    rw [hp] at hphase
    exact inv_goOn hbase hphase
  · next unsent err hp =>
    rw [hp] at hphase
    refine inv_windowFailed hbase hphase.1.toOpen err true (fun _ => ?_) nofun
    rw [hphase.1.found]
    rfl
  · next unsent hp =>
    rw [hp] at hphase
    split
    · next htime => exact inv_sendTimedOut hbase hphase.1 htime
    · exact h
  · next hp =>
    rw [hp] at hphase
    obtain ⟨hquiet, hsent⟩ := hphase
    exact ⟨hbase.of_eq rfl rfl rfl rfl rfl, ⟨hquiet.full, hquiet.total⟩, hsent⟩
  · next within event hp =>
    rw [hp] at hphase
    exact inv_hear hbase hp hphase event
  · next within hp =>
    rw [hp] at hphase
    exact inv_windowFailed hbase hphase.1 CLOSED true nofun nofun
  · next within hp =>
    rw [hp] at hphase
    split
    · next htime => exact inv_waitElapsed hbase hphase htime
    · exact h
  · next hp =>
    rw [hp] at hphase
    have hnext : s.later ≠ [] → if s.timeUp then s.total.usable = true else s.window.full = true := by
      intro hlater
      have hheard := hregular hp hlater rfl (Nat.le_refl _)
      unfold timeUp
      dsimp only at hheard
      split at hheard
      · next htime =>
        rw [if_pos htime]
        exact (foundUsable_eq_total hphase).mp ((foundUsable_eq_heard hbase).trans hheard)
      · next htime =>
        have hmem : s.window ∈ s.windows := mem_windows.mpr (.inr rfl)
        have hgood := hbase.good s.window hmem
        rw [if_neg htime, DescribeWindow.full_iff (nodup_unique hbase hmem) hgood]
        exact fun key hkey => (hgood.has_eq key).trans (hheard key hkey)
    split
    · next htime => exact inv_end hbase hphase fun hlater => by simpa [htime] using hnext hlater
    · next htime => exact inv_nextWindow hbase hphase fun hlater => by simpa [htime] using hnext hlater
  · exact h

theorem inv_step (h : Inv link batch wanted s) (input : DescribeInput) (hregular : s.Regular link input) :
    Inv link batch wanted (s.step link input).2 := by
  unfold step
  split
  · exact h
  · next htime =>
    have hle : s.now ≤ input.time := Nat.not_lt.mp htime
    refine inv_react (inv_now h hle) input.happening ?_
    intro hp hlater hclock _
    exact hregular hp hlater hclock hle

end DescribeMany

end Thalovant.Intents
