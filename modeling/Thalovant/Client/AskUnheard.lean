import Thalovant.Client.AskStop

/-!
# What counts for little

Audio over the budget is read and left out: the loop without it is the same loop, but for the number
of clips it left out. A soft miss arms the wait of a completion and no more: where something was said,
the loop without the soft misses said the same and stopped at the same time.
-/

namespace Thalovant.Client

/-- An event is not a soft miss. -/
def answering (heard : Heard) : Bool := !isSoftMiss heard.event

theorem answering_of_voiced {heard : Heard} (h : voiced heard = true) : answering heard = true := by
  have hspeech : isSpeech heard.event = true := by
    simp only [voiced, Bool.and_eq_true] at h
    exact h.1
  simp [answering, (kinds_of_isSpeech hspeech).1]

theorem not_isAudio_of_isSoftMiss {e : Event} (h : isSoftMiss e = true) : e.isAudio = false := by
  have hname : e.name = EVENT_INTENT_FAILURE ∨ e.name = EVENT_INTENT_UNMATCHED := by
    simpa [isSoftMiss] using h
  rcases hname with hname | hname <;> simp only [Event.isAudio, hname] <;> decide

/-! ## Audio over the budget -/

/-- What is kept, apart from the number of clips left out. -/
def Collection.undropped (c : Collection) : Collection :=
  { c with mediaBudget := { c.mediaBudget with dropped := 0 } }

namespace Ask

variable {ask : Ask}

def Ended.undropped (ended : Ended) : Ended :=
  { ended with collection := ended.collection.undropped }

theorem take_undropped (now : Nat) (e : Event) (c : Collection) (budget : ReplyMediaBudget) :
    ask.take now e { c with mediaBudget := budget }
      = { ask.take now e c with mediaBudget := budget } := by
  unfold take
  dsimp only
  split
  · split <;> rfl
  · repeat (first | rfl | split)

/-- The number of clips left out does not count. -/
theorem hear_undropped (now : Nat) (heard : Heard) (c : Collection) :
    (ask.hear now heard c).2 = (ask.hear now heard c.undropped).2
      ∧ (ask.hear now heard c).1.undropped = (ask.hear now heard c.undropped).1.undropped := by
  obtain ⟨hkept, hchars⟩ := @ReplyMediaBudget.accept_congr c.mediaBudget c.undropped.mediaBudget rfl
    heard.event
  by_cases hown : ask.belongs heard = true
  · by_cases hfits : (c.mediaBudget.accept heard.event).1 = true
    · have hfits' := hkept.symm.trans hfits
      rw [hear_of_accepted hown hfits, hear_of_accepted hown hfits']
      simp only [Collection.undropped, take_undropped]
      simp only [Collection.undropped] at hchars
      simp [hchars]
    · have hover : (c.mediaBudget.accept heard.event).1 = false := by simpa using hfits
      rw [hear_over hown hover, hear_over hown (hkept.symm.trans hover)]
      simp only [Collection.undropped] at hchars
      simp [Collection.undropped, hchars]
  · have hforeign : ask.belongs heard = false := by simpa using hown
    rw [hear_foreign hforeign, hear_foreign hforeign]
    exact ⟨rfl, rfl⟩

theorem collectFrom_undropped : ∀ (deliveries : List Delivery) (now : Nat) (c : Collection),
    (ask.collectFrom now c deliveries).undropped
      = (ask.collectFrom now c.undropped deliveries).undropped
  | [], _, _ => rfl
  | d :: rest, now, c => by
    unfold collectFrom
    rw [show ask.wake c.undropped = ask.wake c from rfl]
    split
    · rfl
    · split
      · rfl
      · cases d with
        | lagged time skipped => rfl
        | closed time => rfl
        | event heard =>
          dsimp only
          have hsame := @hear_undropped ask (max now (Delivery.event heard).time) heard c
          generalize ask.hear _ heard c = out at hsame ⊢
          generalize ask.hear _ heard c.undropped = out' at hsame ⊢
          obtain ⟨c₁, failed⟩ := out
          obtain ⟨c₂, failed'⟩ := out'
          obtain ⟨rfl, hrest⟩ : failed = failed' ∧ c₁.undropped = c₂.undropped := hsame
          cases failed with
          | true => simp [Ended.undropped, hrest]
          | false =>
            rw [collectFrom_undropped rest _ c₁, hrest, ← collectFrom_undropped rest _ c₂]

theorem take_mediaBudget (now : Nat) (e : Event) (c : Collection) :
    (ask.take now e c).mediaBudget = c.mediaBudget := by
  unfold take
  dsimp only
  split
  · split <;> rfl
  · repeat (first | rfl | split)

theorem over_of_first {now : Nat} {c : Collection} {heard : Heard} {rest : List Heard}
    (h : ask.wake c ≤ max now heard.time) (hrest : ∀ x ∈ rest, heard.time ≤ x.time) :
    ∀ d ∈ rest.map Delivery.event, ask.wake c ≤ max now d.time := by
  intro d hd
  obtain ⟨x, hx, rfl⟩ := List.mem_map.mp hd
  have := hrest x hx
  show ask.wake c ≤ max now x.time
  omega

/-- **Only what is accepted counts**, but for the number of clips left out. -/
theorem collectFrom_accepted : ∀ {heard : List Heard}, heard.Pairwise (fun x y => x.time ≤ y.time) →
    ∀ now c, (ask.collectFrom now c (heard.map .event)).undropped
      = (ask.collectFrom now c ((ask.accepted c.mediaBudget heard).map .event)).undropped
  | [], _, _, _ => rfl
  | heard :: rest, hsorted, now, c => by
    obtain ⟨hfirst, hrest⟩ := List.pairwise_cons.mp hsorted
    have ih := collectFrom_accepted hrest
    have hlater : ∀ budget, ∀ x ∈ ask.accepted budget rest, heard.time ≤ x.time :=
      fun budget x hx => hfirst x (mem_accepted hx)
    by_cases hover : ask.wake c ≤ max now heard.time
    · -- the wait is over: neither list is read
      have hall : ∀ x ∈ heard :: rest, heard.time ≤ x.time := by
        intro x hx
        rcases List.mem_cons.mp hx with rfl | hx
        · exact le_rfl
        · exact hfirst x hx
      rw [collectFrom_over (over_of_first hover hall),
        collectFrom_over (over_of_first hover fun x hx => hall x (mem_accepted hx))]
    · rw [List.map_cons, collectFrom_event hover]
      unfold accepted
      by_cases hown : ask.belongs heard = true
      · rw [if_pos hown]
        by_cases hfits : (c.mediaBudget.accept heard.event).1 = true
        · rw [if_pos hfits, List.map_cons, collectFrom_event hover, hear_of_accepted hown hfits]
          dsimp only
          split
          · rfl
          · next c' heq =>
            obtain ⟨rfl, -⟩ := Prod.mk.inj heq
            have hbudget := @take_mediaBudget ask (max now heard.time) heard.event
              { c with mediaBudget := (c.mediaBudget.accept heard.event).2 }
            rw [ih]
            dsimp only
            rw [hbudget]
        · have hleft : (c.mediaBudget.accept heard.event).1 = false := by simpa using hfits
          have hsame : Collection.undropped
              { c with mediaBudget := (c.mediaBudget.accept heard.event).2 } = c.undropped := by
            simp [Collection.undropped, ReplyMediaBudget.chars_of_not_accepted hleft]
          rw [if_neg hfits, hear_over hown hleft]
          dsimp only
          rw [ih, collectFrom_undropped, hsame, ← collectFrom_undropped]
          rw [collectFrom_later hover]
          intro d hd
          obtain ⟨x, hx, rfl⟩ := List.mem_map.mp hd
          exact hlater _ x hx
      · rw [if_neg hown, hear_foreign (by simpa using hown)]
        dsimp only
        rw [ih, collectFrom_later hover]
        intro d hd
        obtain ⟨x, hx, rfl⟩ := List.mem_map.mp hd
        exact hlater _ x hx

variable (ask) in
/-- The budget after a stream. -/
def budgetAfter : ReplyMediaBudget → List Heard → ReplyMediaBudget
  | budget, [] => budget
  | budget, heard :: rest =>
    budgetAfter (if ask.belongs heard then (budget.accept heard.event).2 else budget) rest

theorem accepted_append : ∀ (budget : ReplyMediaBudget) (before after : List Heard),
    ask.accepted budget (before ++ after)
      = ask.accepted budget before ++ ask.accepted (ask.budgetAfter budget before) after
  | _, [], _ => rfl
  | budget, heard :: before, after => by
    have ih := fun budget => accepted_append budget before after
    by_cases hown : ask.belongs heard = true
    · by_cases hfits : (budget.accept heard.event).1 = true
      · simp only [List.cons_append, accepted, budgetAfter, if_pos hown, if_pos hfits, ih]
      · simp only [List.cons_append, accepted, budgetAfter, if_pos hown, if_neg hfits, ih]
    · simp only [List.cons_append, accepted, budgetAfter, if_neg hown, ih]

theorem accepted_congr : ∀ {budget budget' : ReplyMediaBudget}, budget.chars = budget'.chars →
    ∀ heard, ask.accepted budget heard = ask.accepted budget' heard
  | _, _, _, [] => rfl
  | budget, budget', h, heard :: rest => by
    obtain ⟨hkept, hchars⟩ := ReplyMediaBudget.accept_congr h heard.event
    unfold accepted
    rw [hkept, accepted_congr hchars rest, accepted_congr h rest]

/-- What is left out can as well be missing. -/
theorem accepted_remove {before after : List Heard} {heard : Heard} (hown : ask.belongs heard = true)
    (hover : ((ask.budgetAfter {} before).accept heard.event).1 = false) :
    ask.accepted {} (before ++ heard :: after) = ask.accepted {} (before ++ after) := by
  rw [accepted_append, accepted_append]
  conv_lhs => rw [accepted]
  rw [if_pos hown, if_neg (by rw [hover]; exact Bool.false_ne_true),
    accepted_congr (ReplyMediaBudget.chars_of_not_accepted hover)]

/-- An answer, apart from the number of clips left out. -/
def Outcome.undropped (outcome : Outcome) : Outcome :=
  { outcome with result := outcome.result.map fun reply => { reply with droppedMedia := 0 } }

theorem outcome_undropped (ended : Ended) :
    (ask.outcome ended).undropped = (ask.outcome ended.undropped).undropped := by
  obtain ⟨time, interrupted, c⟩ := ended
  cases interrupted with
  | some err => rfl
  | none =>
    by_cases hspoken : c.fragments = [] <;>
      simp [outcome, Outcome.undropped, Ended.undropped, Collection.undropped, reply, hspoken,
        Except.map]

/-! ## Soft misses -/

theorem spoken_answering (taken : List Heard) : spoken (taken.filter answering) = spoken taken := by
  unfold spoken
  rw [List.filter_filter]
  congr 2
  refine List.filter_congr fun x _ => ?_
  by_cases hvoiced : voiced x = true
  · rw [hvoiced, answering_of_voiced hvoiced]
    rfl
  · simp [hvoiced]

theorem firstRead_answering_voiced (start : Nat) (taken : List Heard) :
    firstRead start voiced (taken.filter answering) = firstRead start voiced taken := by
  unfold firstRead
  rw [List.find?_filter]
  congr 2
  funext x
  by_cases hvoiced : voiced x = true
  · simp [hvoiced, answering_of_voiced hvoiced]
  · simp [hvoiced]

theorem lastOf_answering (taken : List Heard) :
    lastOf isHardFailure (taken.filter answering) = lastOf isHardFailure taken := by
  have hmap : (taken.filter answering).map Heard.event
      = (taken.map Heard.event).filter fun e => !isSoftMiss e := by
    rw [List.filter_map]
    rfl
  unfold lastOf
  rw [hmap, ← List.filter_reverse, List.find?_filter]
  congr 1
  funext e
  by_cases hhard : isHardFailure e = true
  · simp [hhard, (kinds_of_isHardFailure hhard).2.1]
  · simp [hhard]

/-- In order, the first event of a kind is read no later than another. -/
theorem firstRead_le {start : Nat} {kind : Heard → Bool} : ∀ {taken : List Heard},
    taken.Pairwise (fun x y => x.time ≤ y.time) → ∀ x ∈ taken, kind x = true →
      ∃ now, firstRead start kind taken = some now ∧ now ≤ readAt start x
  | first :: rest, hsorted, x, hx, hkind => by
    obtain ⟨hfirst, hrest⟩ := List.pairwise_cons.mp hsorted
    by_cases h : kind first = true
    · refine ⟨readAt start first, by simp [firstRead, h], ?_⟩
      rcases List.mem_cons.mp hx with rfl | hx
      · exact le_rfl
      · exact readAt_mono (hfirst x hx)
    · rcases List.mem_cons.mp hx with rfl | hx
      · exact absurd hkind h
      · obtain ⟨now, hnow, hle⟩ := @firstRead_le start kind rest hrest x hx hkind
        refine ⟨now, ?_, hle⟩
        rw [← hnow]
        simp [firstRead, h]

/-- Without the soft misses the wait is no shorter, and the same once something was said. -/
theorem quietAt_answering (start : Nat) {taken : List Heard}
    (hsorted : taken.Pairwise fun x y => x.time ≤ y.time) :
    ask.quietAt start taken ≤ ask.quietAt start (taken.filter answering)
      ∧ (spoken taken ≠ [] →
        ask.quietAt start (taken.filter answering) = ask.quietAt start taken) := by
  unfold quietAt
  rw [firstRead_answering_voiced]
  rcases hvoiced : firstRead start voiced taken with _ | now
  · refine ⟨?_, fun hspoken => absurd (firstRead_voiced.mp hvoiced) hspoken⟩
    rcases hcompletes : firstRead start completes (taken.filter answering) with _ | now
    · exact Nat.le_trans (Nat.min_le_right _ _) (by simp [byDeadline])
    · obtain ⟨x, hx, hkind, rfl⟩ := firstRead_some hcompletes
      obtain ⟨now, hnow, hle⟩ := @firstRead_le start completes taken hsorted x
        (List.mem_filter.mp hx).1 hkind
      rw [hnow]
      simp [byDeadline]
      omega
  · exact ⟨le_rfl, fun _ => rfl⟩

/-- Where the wait is over it is over without the soft misses too, if something was said. -/
theorem collectFrom_answering_over {start now : Nat} {budget : ReplyMediaBudget}
    {taken rest : List Heard} (hsorted : taken.Pairwise fun x y => x.time ≤ y.time)
    (hstart : start ≤ now) (hrest : ∀ x ∈ rest, ask.quietAt start taken ≤ readAt start x)
    (hspoken : spoken taken ≠ []) :
    ask.collectFrom now (ask.collected start budget (taken.filter answering))
        ((rest.filter answering).map .event)
      = { time := max now (ask.quietAt start taken), interrupted := none,
          collection := ask.collected start budget (taken.filter answering) } := by
  have hquiet := (@quietAt_answering ask start taken hsorted).2 hspoken
  rw [collectFrom_collected_over hstart, hquiet]
  intro x hx
  rw [hquiet]
  exact hrest x (List.mem_filter.mp hx).1

/-- **A soft miss counts only where nothing is said.** The loop with the soft misses and the loop without
them take the same other events, and stop together if one of them speaks. -/
theorem collectFrom_answering : ∀ (rest : List Heard) {start now : Nat} {budget : ReplyMediaBudget}
    {taken : List Heard}, (taken ++ rest).Pairwise (fun x y => x.time ≤ y.time) →
    ask.Waiting start now taken → (∀ x ∈ rest, now ≤ readAt start x) →
    ∃ budget' all stop,
      ask.collectFrom now (ask.collected start budget taken) (rest.map .event)
        = { time := stop, interrupted := none, collection := ask.collected start budget' all }
      ∧ (spoken all ≠ [] →
        ask.collectFrom now (ask.collected start budget (taken.filter answering))
          ((rest.filter answering).map .event)
        = { time := stop, interrupted := none,
            collection := ask.collected start budget' (all.filter answering) })
  | [], start, now, budget, taken, hsorted, h, _ =>
    ⟨budget, taken, _, collectFrom_collected_over h.started (by simp),
      collectFrom_answering_over (by simpa using hsorted) h.started (by simp)⟩
  | heard :: rest, start, now, budget, taken, hsorted, h, hlater => by
    obtain ⟨htaken, htail, -⟩ := List.pairwise_append.mp hsorted
    obtain ⟨hfirst, hrest⟩ := List.pairwise_cons.mp htail
    have hnow := hlater heard List.mem_cons_self
    have hrest' : ∀ x ∈ rest, readAt start heard ≤ readAt start x := fun x hx =>
      readAt_mono (hfirst x hx)
    -- either the wait is over before this event, for both loops
    by_cases hover : ask.quietAt start taken ≤ readAt start heard
    · have hall : ∀ x ∈ heard :: rest, ask.quietAt start taken ≤ readAt start x := by
        intro x hx
        rcases List.mem_cons.mp hx with rfl | hx
        · exact hover
        · exact hover.trans (hrest' x hx)
      exact ⟨budget, taken, _, collectFrom_collected_over h.started hall,
        collectFrom_answering_over htaken h.started hall⟩
    · -- or it is heard; where it is a soft miss, only one of the loops hears it
      rw [Nat.not_le] at hover
      have hover' := hover.trans_le (quietAt_answering start htaken).1
      have hskip : (taken ++ rest).Pairwise fun x y => x.time ≤ y.time :=
        hsorted.sublist (List.Sublist.append_left (List.sublist_cons_self _ _) _)
      have hunfailed : ∀ x ∈ taken.filter answering, isHardFailure x.event = false := fun x hx =>
        h.unfailed x (List.mem_filter.mp hx).1
      rw [collectFrom_collected_event h.started hnow hover]
      by_cases hsoft : isSoftMiss heard.event = true
      · -- the loop without it goes on as if no time had passed
        have hdrop : (heard :: rest).filter answering = rest.filter answering := by
          simp [answering, hsoft]
        have hmax := max_eq_readAt h.started hnow
        have hwait : ∀ d ∈ (rest.filter answering).map Delivery.event, heard.time ≤ d.time := by
          intro d hd
          obtain ⟨x, hx, rfl⟩ := List.mem_map.mp hd
          exact hfirst x (List.mem_filter.mp hx).1
        have hidle := @collectFrom_later ask now heard.time
          (ask.collected start budget (taken.filter answering))
          (by rw [wake_collected, hmax]; omega) _ hwait
        rw [hdrop, ← hidle, hmax]
        by_cases hown : ask.belongs heard = true
        · obtain ⟨-, hhard, -⟩ := kinds_of_isSoftMiss hsoft
          have haccept := budget.accept_of_not_isAudio (not_isAudio_of_isSoftMiss hsoft)
          have hconcat : (taken ++ [heard]).filter answering = taken.filter answering := by
            simp [List.filter_append, answering, hsoft]
          rw [hear_collected hown (by rw [haccept]) h.unfailed, hhard, haccept, ← hconcat]
          exact collectFrom_answering rest (by simpa using hsorted) (h.concat hnow hover hhard)
            hrest'
        · rw [hear_foreign (by simpa using hown)]
          exact collectFrom_answering rest hskip (h.later hnow hover.le) hrest'
      · -- both loops hear any other event, and go on or stop alike
        have hkeep : (heard :: rest).filter answering = heard :: rest.filter answering := by
          simp [answering, hsoft]
        rw [hkeep, collectFrom_collected_event h.started hnow hover']
        by_cases hown : ask.belongs heard = true
        · by_cases hfits : (budget.accept heard.event).1 = true
          · rw [hear_collected hown hfits h.unfailed, hear_collected hown hfits hunfailed]
            have hconcat : (taken ++ [heard]).filter answering
                = taken.filter answering ++ [heard] := by
              simp [List.filter_append, answering, hsoft]
            rcases hhard : isHardFailure heard.event with _ | _
            · rw [← hconcat]
              exact collectFrom_answering rest (by simpa using hsorted) (h.concat hnow hover hhard)
                hrest'
            · exact ⟨_, taken ++ [heard], _, rfl, fun _ => by rw [hconcat]⟩
          · have hleft : (budget.accept heard.event).1 = false := by simpa using hfits
            rw [hear_over hown hleft, hear_over hown hleft]
            exact collectFrom_answering rest hskip (h.later hnow hover.le) hrest'
        · rw [hear_foreign (by simpa using hown), hear_foreign (by simpa using hown)]
          exact collectFrom_answering rest hskip (h.later hnow hover.le) hrest'

end Ask

end Thalovant.Client
