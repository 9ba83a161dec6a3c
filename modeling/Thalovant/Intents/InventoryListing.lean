import Thalovant.Intents.Inventory

/-!
# The listings of an inventory

A listing that is in the same language as an earlier one goes under the tag of that, and takes its place.
So of the listings of a call the merged list has, in each language, the first tag and the last rows
(`mergeAll_spec`), and what the loop over the languages asked gives is the listings of these languages,
merged (`listLanguages_eq`).
-/

namespace Thalovant.Intents

variable {lowercase : String → String}

/-! ## Merging listings -/

/-- The tag of the first listing in a language. -/
def firstTag (lowercase : String → String) (taken : List Listing) (tag : String) : Option String :=
  (taken.find? fun listing => sameLanguage lowercase listing.1 tag).map Prod.fst

/-- The rows of the last listing in a language. -/
def lastRows (lowercase : String → String) (taken : List Listing) (tag : String) :
    Option (List IntentRegistration) :=
  (taken.reverse.find? fun listing => sameLanguage lowercase listing.1 tag).map Prod.snd

/-- The tag that a listing goes under. -/
def keyTag (lowercase : String → String) (taken : List Listing) (tag : String) : String :=
  (firstTag lowercase taken tag).getD tag

/-- What is listed in a language. -/
def findUnder (lowercase : String → String) (listed : List Listing) (tag : String) : Option Listing :=
  listed.find? fun listing => sameLanguage lowercase listing.1 tag

/-- No two listings are in the same language. -/
def Distinct (lowercase : String → String) (listed : List Listing) : Prop :=
  listed.Pairwise fun a b => sameLanguage lowercase a.1 b.1 = false

/-- Tags of the same language find the same. -/
theorem sameLanguage_congr {a b : String} (h : sameLanguage lowercase a b = true) (tag : String) :
    sameLanguage lowercase tag a = sameLanguage lowercase tag b := by
  simp only [sameLanguage, decide_eq_true_eq] at h ⊢
  rw [h]

theorem sameLanguage_congr_left {a b : String} (h : sameLanguage lowercase a b = true) (tag : String) :
    sameLanguage lowercase a tag = sameLanguage lowercase b tag := by
  rw [sameLanguage_comm lowercase a, sameLanguage_comm lowercase b, sameLanguage_congr h]

theorem findUnder_cons (listing : Listing) (listed : List Listing) (tag : String) :
    findUnder lowercase (listing :: listed) tag
      = if sameLanguage lowercase listing.1 tag then some listing else findUnder lowercase listed tag := by
  simp only [findUnder, List.find?_cons]
  split <;> simp_all

theorem mergeListing_cons (listing : Listing) (seen : String) (rows : List IntentRegistration)
    (listed : List Listing) :
    mergeListing lowercase listing ((seen, rows) :: listed)
      = if sameLanguage lowercase seen listing.1 then (seen, (seen, listing.2) :: listed)
        else ((mergeListing lowercase listing listed).1,
          (seen, rows) :: (mergeListing lowercase listing listed).2) := rfl

variable (lowercase) in
/-- A listing goes under the tag of its language, and takes the place of what was there. -/
theorem findUnder_mergeListing (listing : Listing) (listed : List Listing) :
    (mergeListing lowercase listing listed).1
        = ((findUnder lowercase listed listing.1).map Prod.fst).getD listing.1 ∧
      ∀ tag, findUnder lowercase (mergeListing lowercase listing listed).2 tag
        = if sameLanguage lowercase listing.1 tag
          then some ((mergeListing lowercase listing listed).1, listing.2)
          else findUnder lowercase listed tag := by
  induction listed with
  | nil =>
    refine ⟨rfl, fun tag => ?_⟩
    rw [mergeListing, findUnder_cons]
  | cons entry listed ih =>
    obtain ⟨seen, rows⟩ := entry
    rw [mergeListing_cons, findUnder_cons]
    by_cases hsame : sameLanguage lowercase seen listing.1 = true
    · rw [if_pos hsame, if_pos hsame]
      refine ⟨rfl, fun tag => ?_⟩
      rw [findUnder_cons, findUnder_cons, sameLanguage_congr_left hsame tag]
      split <;> simp_all
    · rw [if_neg hsame, if_neg hsame]
      refine ⟨ih.1, fun tag => ?_⟩
      rw [findUnder_cons, findUnder_cons, ih.2 tag]
      by_cases hseen : sameLanguage lowercase seen tag = true
      · have hnot : ¬sameLanguage lowercase listing.1 tag = true := by
          intro hlisting
          rw [sameLanguage_comm] at hlisting
          exact hsame (sameLanguage_trans hseen hlisting)
        rw [if_pos hseen, if_neg hnot, if_pos hseen]
      · rw [if_neg hseen, if_neg hseen]

/-- Merging adds no tag but that of the listing. -/
theorem mem_mergeListing {listing : Listing} {listed : List Listing} {entry : Listing}
    (h : entry ∈ (mergeListing lowercase listing listed).2) :
    entry.1 = (mergeListing lowercase listing listed).1 ∨ entry ∈ listed := by
  induction listed with
  | nil =>
    rw [mergeListing, List.mem_singleton] at h
    exact .inl (by rw [h]; rfl)
  | cons other listed ih =>
    obtain ⟨seen, rows⟩ := other
    rw [mergeListing_cons] at h ⊢
    split at h
    · next hsame =>
      rw [if_pos hsame]
      rcases List.mem_cons.mp h with rfl | h
      · exact .inl rfl
      · exact .inr (List.mem_cons_of_mem _ h)
    · next hsame =>
      rw [if_neg hsame]
      rcases List.mem_cons.mp h with rfl | h
      · exact .inr List.mem_cons_self
      · exact (ih h).imp id (List.mem_cons_of_mem _)

theorem sameLanguage_mergeListing (listing : Listing) (listed : List Listing) :
    sameLanguage lowercase (mergeListing lowercase listing listed).1 listing.1 = true := by
  rw [(findUnder_mergeListing lowercase listing listed).1]
  cases hfind : findUnder lowercase listed listing.1 with
  | none => exact sameLanguage_self lowercase listing.1
  | some entry =>
    have hentry := List.find?_some hfind
    simpa using hentry

theorem Distinct.mergeListing {listing : Listing} {listed : List Listing} (h : Distinct lowercase listed) :
    Distinct lowercase (mergeListing lowercase listing listed).2 := by
  induction listed with
  | nil => exact List.pairwise_singleton _ _
  | cons entry listed ih =>
    obtain ⟨seen, rows⟩ := entry
    obtain ⟨hseen, hlisted⟩ := List.pairwise_cons.mp h
    rw [mergeListing_cons]
    split
    · exact List.pairwise_cons.mpr ⟨hseen, hlisted⟩
    · next hsame =>
      refine List.pairwise_cons.mpr ⟨fun other hother => ?_, ih hlisted⟩
      rcases mem_mergeListing hother with htag | hmem
      · rw [Bool.eq_false_iff]
        intro hcontra
        rw [htag] at hcontra
        exact hsame (sameLanguage_trans hcontra (sameLanguage_mergeListing listing listed))
      · exact hseen other hmem

/-! ## All listings -/

/-- The listings, merged. -/
def mergeAll (lowercase : String → String) (taken : List Listing) : Listed :=
  taken.foldl (Listed.add lowercase) {}

theorem firstTag_append (taken : List Listing) (listing : Listing) (tag : String) :
    firstTag lowercase (taken ++ [listing]) tag
      = (firstTag lowercase taken tag).or
        (if sameLanguage lowercase listing.1 tag then some listing.1 else none) := by
  simp only [firstTag, List.find?_append, List.find?_cons, List.find?_nil]
  cases taken.find? fun listing => sameLanguage lowercase listing.1 tag with
  | none => split <;> simp_all
  | some entry => rfl

theorem lastRows_append (taken : List Listing) (listing : Listing) (tag : String) :
    lastRows lowercase (taken ++ [listing]) tag
      = if sameLanguage lowercase listing.1 tag then some listing.2 else lastRows lowercase taken tag := by
  simp only [lastRows, List.reverse_append, List.reverse_singleton, List.singleton_append,
    List.find?_cons]
  split <;> simp_all

theorem firstTag_congr {a b : String} (h : sameLanguage lowercase a b = true) (taken : List Listing) :
    firstTag lowercase taken a = firstTag lowercase taken b := by
  simp only [firstTag, sameLanguage_congr h]

variable (lowercase) in
/-- The first listing in a language is there if the last one is. -/
theorem firstTag_isSome (taken : List Listing) (tag : String) :
    (firstTag lowercase taken tag).isSome = (lastRows lowercase taken tag).isSome := by
  rw [Bool.eq_iff_iff]
  simp [firstTag, lastRows, List.find?_isSome]

variable (lowercase) in
theorem firstTag_of_mem {taken : List Listing} {listing : Listing} (h : listing ∈ taken) :
    ∃ tag, firstTag lowercase taken listing.1 = some tag := by
  rw [← Option.isSome_iff_exists]
  simp only [firstTag, Option.isSome_map, List.find?_isSome]
  exact ⟨listing, h, sameLanguage_self lowercase listing.1⟩

variable (lowercase) in
/-- What the merged listings are: in each language the first tag, and the last rows. -/
theorem mergeAll_spec (taken : List Listing) :
    Distinct lowercase (mergeAll lowercase taken).listed ∧
    (mergeAll lowercase taken).listedIn = taken.map (fun listing => keyTag lowercase taken listing.1) ∧
    (∀ tag, findUnder lowercase (mergeAll lowercase taken).listed tag
      = (firstTag lowercase taken tag).bind fun first =>
          (lastRows lowercase taken tag).map fun rows => (first, rows)) ∧
    ∀ entry ∈ (mergeAll lowercase taken).listed, entry.1 ∈ (mergeAll lowercase taken).listedIn := by
  induction taken using List.reverseRecOn with
  | nil => exact ⟨List.Pairwise.nil, rfl, fun _ => rfl, nofun⟩
  | append_singleton taken listing ih =>
    obtain ⟨hdistinct, hlistedIn, hfind, htags⟩ := ih
    have hstep : mergeAll lowercase (taken ++ [listing])
        = (mergeAll lowercase taken).add lowercase listing := by
      simp [mergeAll]
    obtain ⟨htag, hmerged⟩ := findUnder_mergeListing lowercase listing
      (mergeAll lowercase taken).listed
    have hfirst : keyTag lowercase (taken ++ [listing]) listing.1
        = (mergeListing lowercase listing (mergeAll lowercase taken).listed).1 := by
      rw [htag, hfind, keyTag, firstTag_append, if_pos (sameLanguage_self lowercase listing.1)]
      have hsome := firstTag_isSome lowercase taken listing.1
      cases hf : firstTag lowercase taken listing.1 with
      | none => rfl
      | some first =>
        rw [hf] at hsome
        obtain ⟨rows, hrows⟩ := Option.isSome_iff_exists.mp hsome.symm
        rw [hrows]
        rfl
    -- a language that was listed keeps its tag, and the new one has its own or the tag there is
    have hkeep : ∀ other ∈ taken, keyTag lowercase (taken ++ [listing]) other.1
        = keyTag lowercase taken other.1 := by
      intro other hother
      obtain ⟨first, hf⟩ := firstTag_of_mem lowercase hother
      rw [keyTag, keyTag, firstTag_append, hf]
      rfl
    rw [hstep]
    refine ⟨hdistinct.mergeListing, ?_, fun tag => ?_, fun entry hentry => ?_⟩
    · rw [List.map_append, List.map_singleton, hfirst, List.map_congr_left hkeep, ← hlistedIn]
      rfl
    · rw [lastRows_append, firstTag_append]
      show findUnder lowercase
        (mergeListing lowercase listing (mergeAll lowercase taken).listed).2 tag = _
      rw [hmerged tag]
      by_cases hsame : sameLanguage lowercase listing.1 tag = true
      · rw [if_pos hsame, if_pos hsame, if_pos hsame, ← hfirst, keyTag, firstTag_append,
          if_pos (sameLanguage_self lowercase listing.1), firstTag_congr hsame]
        cases firstTag lowercase taken tag <;> rfl
      · rw [if_neg hsame, if_neg hsame, if_neg hsame, hfind, Option.or_none]
    · have hin : entry.1 = (mergeListing lowercase listing (mergeAll lowercase taken).listed).1
          ∨ entry.1 ∈ (mergeAll lowercase taken).listedIn :=
        (mem_mergeListing hentry).imp id (htags entry)
      rcases hin with hnew | hold
      · exact List.mem_append_right _ (List.mem_singleton.mpr hnew)
      · exact List.mem_append_left _ hold

variable (lowercase) in
/-- What is listed under the tag of a listing. -/
theorem mem_mergeAll {taken : List Listing} {listing : Listing} (h : listing ∈ taken) :
    ∃ rows, lastRows lowercase taken listing.1 = some rows ∧
      (keyTag lowercase taken listing.1, rows) ∈ (mergeAll lowercase taken).listed := by
  obtain ⟨-, -, hfind, -⟩ := mergeAll_spec lowercase taken
  obtain ⟨first, hfirst⟩ := firstTag_of_mem lowercase h
  have hsome := firstTag_isSome lowercase taken listing.1
  rw [hfirst] at hsome
  obtain ⟨rows, hrows⟩ := Option.isSome_iff_exists.mp hsome.symm
  have hunder := hfind listing.1
  rw [hfirst, hrows] at hunder
  refine ⟨rows, hrows, ?_⟩
  rw [keyTag, hfirst]
  exact List.mem_of_find?_eq_some hunder

/-! ## The listings of a call -/

section

variable (tools : LanguageTools) (hub : InventoryHub) (opts : IntentInventoryOptions)

/-- The listing that is taken for a language, whatever is known already. -/
def taken (lang : String) : Option Listing := (takeListing tools hub opts lang none).toOption.map Prod.fst

/-- What is known of the hub's languages is what the hub says of them. -/
def Known (known : KnownLanguages) : Prop :=
  known = none ∨ ∃ languages, listHubLanguages tools hub opts = .ok languages ∧ known = some languages

/-- The hub answers every listing. -/
def InventoryHub.Answers : Prop :=
  ∀ lang definitions, ∃ event, hub.list lang definitions = .ok event ∧
    Map.get "ok" event.data ≠ some (.bool false)

end

variable {tools : LanguageTools} {hub : InventoryHub} {opts : IntentInventoryOptions}

/-- What is known makes no difference. -/
theorem takeListing_eq {known known' : KnownLanguages} {lang : String} {found : Listing}
    (hknown : Known tools hub opts known)
    (h : takeListing tools hub opts lang known = .ok (found, known')) :
    taken tools hub opts lang = some found ∧ Known tools hub opts known' := by
  unfold taken takeListing at *
  cases hlisting : listing tools hub opts lang with
  | error err =>
    rw [hlisting] at h
    cases h
  | ok rows =>
    rw [hlisting] at h
    dsimp only at h ⊢
    split at h
    · next hnearest =>
      rw [if_pos hnearest]
      rcases hknown with rfl | ⟨languages, hlanguages, rfl⟩
      · dsimp only at h
        split at h
        · cases h
        · next languages hlanguages =>
          cases h
          exact ⟨rfl, .inr ⟨languages, hlanguages, rfl⟩⟩
      · cases h
        rw [hlanguages]
        exact ⟨rfl, .inr ⟨languages, hlanguages, rfl⟩⟩
    · next hnearest =>
      rw [if_neg hnearest]
      cases h
      exact ⟨rfl, hknown⟩

/-- The listings of the languages asked, one after the other. -/
theorem listLanguages_eq {asked : List String} {listed listed' : Listed} {known : KnownLanguages}
    (hknown : Known tools hub opts known)
    (h : listLanguages tools hub opts asked listed known = .ok listed') :
    listed' = (asked.filterMap (taken tools hub opts)).foldl (Listed.add tools.lowercase) listed ∧
      ∀ lang ∈ asked, (taken tools hub opts lang).isSome = true := by
  induction asked generalizing listed known with
  | nil =>
    cases h
    exact ⟨rfl, nofun⟩
  | cons lang asked ih =>
    rw [listLanguages] at h
    split at h
    · cases h
    · next found known' htake =>
      obtain ⟨htaken, hknown'⟩ := takeListing_eq hknown htake
      obtain ⟨hlisted, hall⟩ := ih hknown' h
      refine ⟨?_, ?_⟩
      · rw [hlisted, List.filterMap_cons, htaken]
        rfl
      · intro other hother
        rcases List.mem_cons.mp hother with rfl | hother
        · rw [htaken]
          rfl
        · exact hall other hother

variable (tools opts) in
/-- A hub that answers stops no listing. -/
theorem listLanguages_of_answers (hanswers : hub.Answers) (asked : List String) (listed : Listed)
    (known : KnownLanguages) : ∃ listed', listLanguages tools hub opts asked listed known = .ok listed' := by
  have hlist : ∀ lang, ∃ rows, listIntents tools hub opts lang = .ok rows := by
    intro lang
    obtain ⟨event, hevent, hok⟩ := hanswers (some lang) opts.describe
    exact ⟨registrationsOf event, by rw [listIntents, hevent]; exact if_neg hok⟩
  have hlisting : ∀ lang, ∃ found, listing tools hub opts lang = .ok found := by
    intro lang
    obtain ⟨rows, hrows⟩ := hlist lang
    unfold listing
    rw [hrows]
    dsimp only
    split
    · exact ⟨_, rfl⟩
    · cases tools.usualForm lang with
      | none => exact ⟨_, rfl⟩
      | some usual =>
        obtain ⟨retried, hretried⟩ := hlist usual
        dsimp only
        rw [hretried]
        dsimp only
        split
        · exact ⟨_, rfl⟩
        · exact ⟨_, rfl⟩
  have hlanguages : ∃ languages, listHubLanguages tools hub opts = .ok languages := by
    obtain ⟨event, hevent, hok⟩ := hanswers none opts.describe
    unfold listHubLanguages
    rw [hevent]
    exact ⟨_, if_neg hok⟩
  have htake : ∀ lang known, ∃ found, takeListing tools hub opts lang known = .ok found := by
    intro lang known
    obtain ⟨found, hfound⟩ := hlisting lang
    obtain ⟨languages, hlanguages⟩ := hlanguages
    unfold takeListing
    rw [hfound]
    dsimp only
    split
    · cases known with
      | none =>
        rw [hlanguages]
        exact ⟨_, rfl⟩
      | some known => exact ⟨_, rfl⟩
    · exact ⟨_, rfl⟩
  -- every part of a step has an answer, so by induction every step has
  induction asked generalizing listed known with
  | nil => exact ⟨listed, rfl⟩
  | cons lang asked ih =>
    obtain ⟨⟨found, known'⟩, hfound⟩ := htake lang known
    rw [listLanguages, hfound]
    exact ih _ known'

end Thalovant.Intents
