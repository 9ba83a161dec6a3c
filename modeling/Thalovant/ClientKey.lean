import Thalovant.Error
import Thalovant.Lib.Json.Text

/-!
# The folders of a rejected client key

An error that the hub refused this client's own key names the folder the key is in, and maybe another
one. It is a text, and the folders are read back from it: each stands there as a JSON string.
-/

namespace Thalovant.ThalovantError

/-- `str::strip_prefix`. -/
def stripPrefix (start : String) (text : List Char) : Option (List Char) := Json.expect start.toList text

/-- `leading_json_string`: the JSON string at the start of a text, and what follows it. -/
def leadingJsonString (text : List Char) : Option (String × List Char) :=
  match Json.skipSpace text with
  | '"' :: rest => Json.readString rest
  | _ => none

/-- `Value::from(path).to_string()` -/
def quoted (path : String) : List Char := Json.printString path

def KEY_FOLDER : String := ". This client's key is in "

def OTHER_KEY_FOLDER : String := ". Another program that reads the same identity may keep its key in "

/-- What follows the folders in a rejected-key message. -/
def KEY_ADVICE : String :=
  ". A new handshake cannot fix this. Re-pair, or share the key folder: point every program that "
    ++ "uses this identity at the folder holding the key the hub trusts (set_noise_state_dir)."

/-- The folders in a rejected-key message. -/
def keyFolders (folder other : Option String) : List Char :=
  match folder with
  | none => []
  | some folder =>
    KEY_FOLDER.toList ++ quoted folder ++
      match other with
      | none => []
      | some other =>
        OTHER_KEY_FOLDER.toList ++ quoted other ++ ", and the hub may have pinned that one".toList

/-- `client_key_rejected`. -/
def clientKeyRejected (folder other : Option String) : ThalovantError :=
  .connection (HUB_REFUSED ++ ": " ++ CLIENT_KEY_REJECTED ++ String.ofList (keyFolders folder other)
    ++ KEY_ADVICE)

/-- `client_key_rejection`: what follows the fixed opening of a rejected-key message. -/
def clientKeyRejection : ThalovantError → Option (List Char)
  | .connection message =>
    ((stripPrefix HUB_REFUSED message.toList).bind (stripPrefix ": ")).bind
      (stripPrefix CLIENT_KEY_REJECTED)
  | _ => none

/-- `client_key_folders`. -/
def clientKeyFolders (err : ThalovantError) : Option (String × Option String) :=
  (err.clientKeyRejection.bind (stripPrefix KEY_FOLDER)).bind fun rest =>
    (leadingJsonString rest).map fun (folder, rest) =>
      (folder, ((stripPrefix OTHER_KEY_FOLDER rest).bind leadingJsonString).map Prod.fst)

/-! ## Texts -/

theorem expect_eq_some_iff {start text rest : List Char} :
    Json.expect start text = some rest ↔ text = start ++ rest := by
  induction start generalizing text with
  | nil => simp [Json.expect]
  | cons p start ih =>
    cases text with
    | nil => simp [Json.expect]
    | cons c text =>
      rw [Json.expect]
      split
      · next h => simp [ih, h]
      · next h => simp [Ne.symm h]

theorem stripPrefix_append (start : String) (rest : List Char) :
    stripPrefix start (start.toList ++ rest) = some rest := Json.expect_append _ _

/-- The string at the start of a text is the one written there. -/
theorem leadingJsonString_quoted (path : String) (rest : List Char) :
    leadingJsonString (quoted path ++ rest) = some (path, rest) := by
  rw [leadingJsonString, quoted, Json.printString, List.cons_append, Json.skipSpace_cons (by decide)]
  rw [List.append_assoc, List.singleton_append]
  exact Json.readString_printString path rest

/-- What follows the opening of a rejected-key message, as it is built. -/
theorem clientKeyRejection_clientKeyRejected (folder other : Option String) :
    (clientKeyRejected folder other).clientKeyRejection =
      some (keyFolders folder other ++ KEY_ADVICE.toList) := by
  rw [clientKeyRejected, clientKeyRejection]
  simp only [String.toList_append, String.toList_ofList, List.append_assoc, stripPrefix_append,
    Option.bind_some]

/-- The predicate says that there is such an opening. -/
theorem isClientKeyRejected_eq (err : ThalovantError) :
    err.isClientKeyRejected = err.clientKeyRejection.isSome := by
  cases err with
  | connection message =>
    rw [isClientKeyRejected, clientKeyRejection, Bool.eq_iff_iff, List.isPrefixOf_iff_prefix]
    simp only [stripPrefix, Option.isSome_iff_exists, Option.bind_eq_some_iff, expect_eq_some_iff,
      String.toList_append]
    constructor
    · rintro ⟨rest, h⟩
      exact ⟨rest, _, ⟨_, by rw [← h, List.append_assoc, List.append_assoc], rfl⟩, rfl⟩
    · rintro ⟨rest, _, ⟨_, h, rfl⟩, rfl⟩
      exact ⟨rest, by rw [h, List.append_assoc, List.append_assoc]⟩
  | _ => rfl

/-! ## What is read back -/

/-- A text that starts another way has no such prefix to strip. -/
theorem stripPrefix_eq_none {start : String} {text : List Char}
    (h : ¬start.toList <+: text) : stripPrefix start text = none := by
  rw [stripPrefix, Option.eq_none_iff_forall_not_mem]
  intro rest hrest
  exact h ⟨rest, (expect_eq_some_iff.mp hrest).symm⟩

/-- **A rejected client key survives its text form**: the folders that are read back are those given,
and every error recognised as one is a refusal and no changed key. -/
theorem clientKeyFolders_spec :
    (∀ folder other, (clientKeyRejected (some folder) other).clientKeyFolders = some (folder, other)) ∧
    (∀ other, (clientKeyRejected none other).clientKeyFolders = none) ∧
    (∀ folder other, (clientKeyRejected folder other).isClientKeyRejected = true) ∧
    ∀ err : ThalovantError, err.isClientKeyRejected = true →
      err.isHubRefused = true ∧ err.isHubKeyChanged = false := by
  refine ⟨fun folder other => ?_, fun other => ?_, fun folder other => ?_, fun err h => ?_⟩
  · rw [clientKeyFolders, clientKeyRejection_clientKeyRejected]
    simp only [keyFolders, List.append_assoc, Option.bind_some, stripPrefix_append,
      leadingJsonString_quoted, Option.map_some]
    cases other with
    | none =>
      have hnone : stripPrefix OTHER_KEY_FOLDER ([] ++ KEY_ADVICE.toList) = none :=
        stripPrefix_eq_none (by decide +kernel)
      rw [hnone]
      rfl
    | some other =>
      simp only [List.append_assoc, stripPrefix_append, Option.bind_some, leadingJsonString_quoted,
        Option.map_some]
  · rw [clientKeyFolders, clientKeyRejection_clientKeyRejected]
    have hnone : stripPrefix KEY_FOLDER ([] ++ KEY_ADVICE.toList) = none :=
      stripPrefix_eq_none (by decide +kernel)
    rw [keyFolders, Option.bind_some, hnone]
    rfl
  · rw [isClientKeyRejected_eq, clientKeyRejection_clientKeyRejected]
    rfl
  · cases err with
    | connection message =>
      rw [isClientKeyRejected, List.isPrefixOf_iff_prefix] at h
      have hrefused : HUB_REFUSED.toList <+: message.toList :=
        List.IsPrefix.trans (by simp [String.toList_append, List.append_assoc]) h
      refine ⟨List.isPrefixOf_iff_prefix.mpr hrefused, Bool.eq_false_iff.mpr fun hkey => ?_⟩
      have hchanged := List.isPrefixOf_iff_prefix.mp hkey
      -- the two openings differ, so no text starts with both
      rcases List.prefix_or_prefix_of_prefix hrefused hchanged with hpre | hpre
      · exact absurd hpre (by decide +kernel)
      · exact absurd hpre (by decide +kernel)
    | _ => simp [isClientKeyRejected] at h

end Thalovant.ThalovantError
