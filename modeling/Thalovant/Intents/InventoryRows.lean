import Thalovant.Intents.InventorySafety

/-!
# The rows of one listing

Rows of the same intent make one intent of the inventory. A row without sentences takes none away, but
of two rows with sentences the later one is kept. So the order of the rows makes no difference exactly
if the rows of each intent agree on its sentences: `rows_law_iff`.
-/

namespace Thalovant.Intents

/-- The inventory of one listing. -/
def inventoryOfRows (described : Wanted → Option (List IntentDefinition)) (lang : String)
    (rows : List IntentRegistration) : HubIntentInventory where
  languages := [lang]
  skills := (inventoryMaps described [(lang, rows)]).skills
  source := .intentManifest
  denied := []
  listedIn := [lang]

/-- A call that lists one language has the inventory of this listing. -/
theorem inventory_of_one (tools : LanguageTools) (hub : InventoryHub) (opts : IntentInventoryOptions)
    {languages : List String} {lang : String} {rows : List IntentRegistration} (hanswers : hub.Answers)
    (hlisting : takenListings tools hub opts languages = [(lang, rows)]) {found : Described}
    (hfound : describeListed hub opts [(lang, rows)] = .ok found) :
    ∃ inv, inventory tools hub opts languages = .ok inv ∧
      inv.skills = (inventoryOfRows (fun key => found.lookup key) lang rows).skills := by
  have hlisted : (mergeAll tools.lowercase (takenListings tools hub opts languages)).listed
      = [(lang, rows)] := by
    rw [hlisting]
    rfl
  refine ⟨inventoryOf tools hub opts languages found, ?_, ?_⟩
  · rw [inventory_of_answers tools hub opts languages hanswers, hlisted, hfound]
  · show (inventoryMaps _ (mergeAll tools.lowercase (takenListings tools hub opts languages)).listed).skills
      = _
    rw [hlisted]
    rfl

variable {described : Wanted → Option (List IntentDefinition)} {lang : String}
  {rows rows' : List IntentRegistration}

/-! ## Intents and flags -/

/-- The maps of the rows. -/
def rowMaps (described : Wanted → Option (List IntentDefinition)) (lang : String)
    (rows : List IntentRegistration) : InventoryMaps :=
  rows.foldl (InventoryMaps.addRow described lang) {}

theorem skills_inventoryOfRows :
    (inventoryOfRows described lang rows).skills = (rowMaps described lang rows).skills := rfl

/-- The rows of an intent. -/
def rowsOf (rows : List IntentRegistration) (key : IntentKey) : List IntentRegistration :=
  rows.filter fun row => row.key = key

variable (described lang) in
theorem phrases_foldl_addRow (rows : List IntentRegistration) (maps : InventoryMaps) (key : IntentKey) :
    (SortedMap.get key (rows.foldl (InventoryMaps.addRow described lang) maps).phrases).isSome
      = ((SortedMap.get key maps.phrases).isSome || !(rowsOf rows key).isEmpty) := by
  induction rows generalizing maps with
  | nil => simp [rowsOf]
  | cons row rows ih =>
    rw [List.foldl_cons, ih, InventoryMaps.addRow, SortedMap.get_insert]
    by_cases hkey : row.key = key
    · simp [rowsOf, hkey]
    · simp [rowsOf, hkey, Ne.symm hkey]

variable (described lang) in
theorem enabled_foldl_addRow (rows : List IntentRegistration) (maps : InventoryMaps) (key : IntentKey) :
    SortedMap.get key (rows.foldl (InventoryMaps.addRow described lang) maps).enabled
      = if (rowsOf rows key).isEmpty then SortedMap.get key maps.enabled
        else some ((SortedMap.get key maps.enabled).getD false
          || (rowsOf rows key).any fun row => row.enabled) := by
  induction rows generalizing maps with
  | nil => rfl
  | cons row rows ih =>
    rw [List.foldl_cons, ih, InventoryMaps.addRow]
    dsimp only
    rw [SortedMap.get_insert]
    by_cases hkey : row.key = key
    · subst hkey
      have hrows : rowsOf (row :: rows) row.key = row :: rowsOf rows row.key :=
        List.filter_cons_of_pos (by simp)
      rw [if_pos rfl, hrows]
      cases hrest : rowsOf rows row.key <;> simp [Bool.or_assoc]
    · have hrows : rowsOf (row :: rows) key = rowsOf rows key := List.filter_cons_of_neg (by simpa using hkey)
      rw [if_neg (Ne.symm hkey), hrows]

/-- An intent of the inventory is one of the maps. -/
theorem mem_intents_rows (intent : HubIntent) :
    intent ∈ (inventoryOfRows described lang rows).intents ↔
      ∃ phrases, SortedMap.get intent.key (rowMaps described lang rows).phrases = some phrases ∧
        intent = (rowMaps described lang rows).intent intent.key phrases := by
  have hsorted : SortedMap.Sorted (rowMaps described lang rows).phrases :=
    (taggedBy_inventoryMaps [(lang, rows)]).intents
  rw [mem_intents skills_inventoryOfRows]
  constructor
  · rintro ⟨⟨key, phrases⟩, hentry, rfl⟩
    exact ⟨phrases, hsorted.get_eq_some_iff.mpr hentry, rfl⟩
  · rintro ⟨phrases, hget, hintent⟩
    exact ⟨(intent.key, phrases), SortedMap.mem_of_get_eq_some hget, hintent⟩

/-- The intents are those of the rows. -/
theorem exists_intent_iff (key : IntentKey) :
    (∃ intent ∈ (inventoryOfRows described lang rows).intents, intent.key = key) ↔
      ∃ row ∈ rows, row.key = key := by
  have hphrases := phrases_foldl_addRow described lang rows {} key
  have hrows : (∃ row ∈ rows, row.key = key) ↔ (rowsOf rows key).isEmpty = false := by
    rw [← Bool.not_eq_true, List.isEmpty_iff, rowsOf, List.filter_eq_nil_iff]
    simp
  rw [hrows]
  constructor
  · rintro ⟨intent, hintent, rfl⟩
    obtain ⟨phrases, hget, -⟩ := (mem_intents_rows intent).mp hintent
    rw [rowMaps] at hget
    rw [hget] at hphrases
    simpa using hphrases
  · intro hne
    rw [hne] at hphrases
    obtain ⟨phrases, hget⟩ := Option.isSome_iff_exists.mp (hphrases.trans (by simp))
    exact ⟨(rowMaps described lang rows).intent key phrases, (mem_intents_rows _).mpr ⟨phrases, hget, rfl⟩,
      rfl⟩

/-- An intent is enabled if some row of it is. -/
theorem enabled_iff {intent : HubIntent} (h : intent ∈ (inventoryOfRows described lang rows).intents) :
    intent.enabled = true ↔ ∃ row ∈ rows, row.key = intent.key ∧ row.enabled = true := by
  obtain ⟨row, hrow, hkey⟩ := (exists_intent_iff intent.key).mp ⟨intent, h, rfl⟩
  have hne : (rowsOf rows intent.key).isEmpty = false := by
    rw [← Bool.not_eq_true, List.isEmpty_iff]
    exact List.ne_nil_of_mem (List.mem_filter.mpr ⟨hrow, by simpa using hkey⟩)
  have henabled := enabled_foldl_addRow described lang rows {} intent.key
  rw [hne] at henabled
  obtain ⟨phrases, -, hintent⟩ := (mem_intents_rows intent).mp h
  have hflag : intent.enabled = (rowsOf rows intent.key).any fun row => row.enabled := by
    have hget : intent.enabled
        = (SortedMap.get intent.key (rowMaps described lang rows).enabled).getD true := by
      conv_lhs => rw [hintent]
      rfl
    rw [hget, rowMaps, henabled]
    simp
  rw [hflag, List.any_eq_true]
  simp [rowsOf, and_assoc]

/-! ## Sentences -/

/-- The sentences of an intent are those of the last of its rows that has some. -/
theorem has_rows_iff (key : IntentKey) (sentence : String) :
    (inventoryOfRows described lang rows).Has key lang sentence ↔
      sentence ∈ rows.foldl (laterSentences described lang key) [] := by
  rw [has_iff (taggedBy_inventoryMaps [(lang, rows)]).intents rfl, inventoryMaps_eq, List.foldl_cons,
    List.foldl_nil, phrasesOf_addListing, if_pos rfl]
  rfl

/-- A row of another intent, or without sentences, changes none. -/
theorem laterSentences_of_nil {key : IntentKey} {row : IntentRegistration}
    (h : row.key = key → rowSentences described lang row = []) (kept : List String) :
    laterSentences described lang key kept row = kept :=
  if_neg fun hrow => hrow.2 (h hrow.1)

/-- The rows with sentences agree, for each intent. -/
def RowsAgree (described : Wanted → Option (List IntentDefinition)) (lang : String)
    (rows : List IntentRegistration) : Prop :=
  ∀ row ∈ rows, ∀ other ∈ rows, row.key = other.key → rowSentences described lang row ≠ [] →
    rowSentences described lang other ≠ [] →
      ∀ sentence, sentence ∈ rowSentences described lang row ↔
        sentence ∈ rowSentences described lang other

/-- A row has the sentence for the intent. -/
def Says (described : Wanted → Option (List IntentDefinition)) (lang : String) (key : IntentKey)
    (sentence : String) (row : IntentRegistration) : Prop :=
  row.key = key ∧ sentence ∈ rowSentences described lang row

/-- Where the rows agree, the inventory has the sentences of all. -/
theorem mem_laterSentences_iff {key : IntentKey} {sentence : String} (h : RowsAgree described lang rows) :
    sentence ∈ rows.foldl (laterSentences described lang key) [] ↔
      ∃ row ∈ rows, Says described lang key sentence row := by
  induction rows using List.reverseRecOn with
  | nil => simp
  | append_singleton rows last ih =>
    have hrows : RowsAgree described lang rows := fun row hrow other hother =>
      h row (List.mem_append_left _ hrow) other (List.mem_append_left _ hother)
    have hlast : last ∈ rows ++ [last] := List.mem_append_right _ (List.mem_singleton.mpr rfl)
    rw [List.foldl_append, List.foldl_cons, List.foldl_nil]
    by_cases hsays : last.key = key ∧ rowSentences described lang last ≠ []
    · rw [laterSentences, if_pos hsays]
      constructor
      · exact fun hs => ⟨last, hlast, hsays.1, hs⟩
      · rintro ⟨row, hrow, hkey, hs⟩
        exact (h row hrow last hlast (hkey.trans hsays.1.symm) (List.ne_nil_of_mem hs) hsays.2
          sentence).mp hs
    · rw [laterSentences, if_neg hsays, ih hrows]
      constructor
      · exact fun ⟨row, hrow, hs⟩ => ⟨row, List.mem_append_left _ hrow, hs⟩
      · rintro ⟨row, hrow, hs⟩
        rcases List.mem_append.mp hrow with hrow | hrow
        · exact ⟨row, hrow, hs⟩
        · obtain rfl := List.mem_singleton.mp hrow
          exact absurd ⟨hs.1, List.ne_nil_of_mem hs.2⟩ hsays

theorem RowsAgree.perm (h : RowsAgree described lang rows) (hp : rows.Perm rows') :
    RowsAgree described lang rows' := fun row hrow other hother =>
  h row (hp.mem_iff.mpr hrow) other (hp.mem_iff.mpr hother)

/-- A row that is put last is the one that is kept. -/
theorem laterSentences_last {key : IntentKey} {row : IntentRegistration} (hkey : row.key = key)
    (hne : rowSentences described lang row ≠ []) (rows : List IntentRegistration) :
    (rows ++ [row]).foldl (laterSentences described lang key) [] = rowSentences described lang row := by
  rw [List.foldl_append, List.foldl_cons, List.foldl_nil, laterSentences, if_pos ⟨hkey, hne⟩]

/-! ## The law -/

/-- Two inventories have the same intents, with the same flags and sets of sentences in a language. -/
structure SameInventory (lang : String) (inv inv' : HubIntentInventory) : Prop where
  intents : ∀ key, (∃ intent ∈ inv.intents, intent.key = key) ↔ ∃ intent ∈ inv'.intents, intent.key = key
  enabled : ∀ intent ∈ inv.intents, ∀ other ∈ inv'.intents, intent.key = other.key →
    intent.enabled = other.enabled
  sentences : ∀ key sentence, inv.Has key lang sentence ↔ inv'.Has key lang sentence

/-- What is asked of the inventory of a listing. -/
structure RowsLaw (described : Wanted → Option (List IntentDefinition)) (lang : String)
    (rows : List IntentRegistration) : Prop where
  intents : ∀ key, (∃ intent ∈ (inventoryOfRows described lang rows).intents, intent.key = key) ↔
    ∃ row ∈ rows, row.key = key
  enabled : ∀ intent ∈ (inventoryOfRows described lang rows).intents,
    intent.enabled = true ↔ ∃ row ∈ rows, row.key = intent.key ∧ row.enabled = true
  silent : ∀ before row after, rows = before ++ row :: after → rowSentences described lang row = [] →
    ∀ key sentence, (inventoryOfRows described lang (before ++ after)).Has key lang sentence →
      (inventoryOfRows described lang rows).Has key lang sentence
  order : ∀ rows', rows.Perm rows' →
    SameInventory lang (inventoryOfRows described lang rows) (inventoryOfRows described lang rows')

/-- A row without sentences takes none away. -/
theorem has_of_silent {before after : List IntentRegistration} {row : IntentRegistration}
    (hsilent : rowSentences described lang row = []) {key : IntentKey} {sentence : String}
    (h : (inventoryOfRows described lang (before ++ after)).Has key lang sentence) :
    (inventoryOfRows described lang (before ++ row :: after)).Has key lang sentence := by
  rw [has_rows_iff, List.foldl_append] at h ⊢
  rw [List.foldl_cons, laterSentences_of_nil fun _ => hsilent]
  exact h

/-- Rows that agree may stand in any order. -/
theorem sameInventory_of_perm (h : RowsAgree described lang rows) (hp : rows.Perm rows') :
    SameInventory lang (inventoryOfRows described lang rows) (inventoryOfRows described lang rows') where
  intents key := by
    rw [exists_intent_iff, exists_intent_iff]
    exact ⟨fun ⟨row, hrow, hkey⟩ => ⟨row, hp.mem_iff.mp hrow, hkey⟩,
      fun ⟨row, hrow, hkey⟩ => ⟨row, hp.mem_iff.mpr hrow, hkey⟩⟩
  enabled intent hintent other hother hkey := by
    rw [Bool.eq_iff_iff, enabled_iff hintent, enabled_iff hother, hkey]
    exact ⟨fun ⟨row, hrow, hrow'⟩ => ⟨row, hp.mem_iff.mp hrow, hrow'⟩,
      fun ⟨row, hrow, hrow'⟩ => ⟨row, hp.mem_iff.mpr hrow, hrow'⟩⟩
  sentences key sentence := by
    rw [has_rows_iff, has_rows_iff, mem_laterSentences_iff h, mem_laterSentences_iff (h.perm hp)]
    exact ⟨fun ⟨row, hrow, hs⟩ => ⟨row, hp.mem_iff.mp hrow, hs⟩,
      fun ⟨row, hrow, hs⟩ => ⟨row, hp.mem_iff.mpr hrow, hs⟩⟩

/-- If the order makes no difference, the rows agree: each may be the last. -/
theorem rowsAgree_of_order (h : ∀ rows', rows.Perm rows' →
    SameInventory lang (inventoryOfRows described lang rows) (inventoryOfRows described lang rows')) :
    RowsAgree described lang rows := by
  have hlast : ∀ row ∈ rows, rowSentences described lang row ≠ [] → ∀ sentence,
      (inventoryOfRows described lang rows).Has row.key lang sentence ↔
        sentence ∈ rowSentences described lang row := by
    intro row hrow hne sentence
    obtain ⟨before, after, hrows⟩ := List.append_of_mem hrow
    have hp : rows.Perm ((before ++ after) ++ [row]) := by
      rw [hrows]
      exact List.perm_middle.trans (List.perm_append_singleton row _).symm
    rw [(h _ hp).sentences row.key sentence, has_rows_iff, laterSentences_last rfl hne]
  intro row hrow other hother hkey hne hne' sentence
  rw [← hlast row hrow hne, ← hlast other hother hne', hkey]

/-- **The inventory of a listing is that of its rows in any order exactly if the rows of each intent
agree on its sentences.** -/
theorem rows_law_iff (described : Wanted → Option (List IntentDefinition)) (lang : String)
    (rows : List IntentRegistration) : RowsLaw described lang rows ↔ RowsAgree described lang rows := by
  constructor
  · exact fun h => rowsAgree_of_order h.order
  · intro h
    refine ⟨exists_intent_iff, fun intent hintent => enabled_iff hintent, ?_,
      fun rows' hp => sameInventory_of_perm h hp⟩
    rintro before row after rfl hsilent key sentence hhas
    exact has_of_silent hsilent hhas

/-- A row of the lamp intent with its sentence. -/
def lampRow (sentence : String) : IntentRegistration where
  skillId := "lamp"
  intentName := "on"
  lang := "en-us"
  method := "template"
  enabled := true
  sessionId := "default"
  definition := some [("samples", .array [.string sentence])]

/-- Of two rows of one intent the sentences of the first are lost, whichever it is. -/
theorem rows_law_fails :
    [lampRow "light on", lampRow "lamp on"].Perm [lampRow "lamp on", lampRow "light on"] ∧
    ¬(inventoryOfRows (fun _ => none) "en-us" [lampRow "light on", lampRow "lamp on"]).Has
      (toLex ("lamp", "on")) "en-us" "light on" ∧
    (inventoryOfRows (fun _ => none) "en-us" [lampRow "lamp on", lampRow "light on"]).Has
      (toLex ("lamp", "on")) "en-us" "light on" ∧
    ¬RowsLaw (fun _ => none) "en-us" [lampRow "light on", lampRow "lamp on"] := by
  have hp : [lampRow "light on", lampRow "lamp on"].Perm [lampRow "lamp on", lampRow "light on"] :=
    .swap _ _ _
  have hlost : ¬(inventoryOfRows (fun _ => none) "en-us" [lampRow "light on", lampRow "lamp on"]).Has
      (toLex ("lamp", "on")) "en-us" "light on" := by
    rw [has_rows_iff]
    decide +kernel
  have hkept : (inventoryOfRows (fun _ => none) "en-us" [lampRow "lamp on", lampRow "light on"]).Has
      (toLex ("lamp", "on")) "en-us" "light on" := by
    rw [has_rows_iff]
    decide +kernel
  exact ⟨hp, hlost, hkept, fun h => hlost (((h.order _ hp).sentences _ _).mpr hkept)⟩

end Thalovant.Intents
