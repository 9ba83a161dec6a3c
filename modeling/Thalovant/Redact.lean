import Thalovant.Text
import Thalovant.Value

/-!
# Redaction

What is printed of a JSON value: the values under keys that name a secret are replaced, and so is a
bare `key` inside an identity bundle, which is another name of the access key. Of an error body of
the API, the `input` that a validation error echoes is left out too.

* `redactValue_eq_iff`: two values are printed alike exactly if they differ only in secret places
* `redaction_noninterference`: what is printed of a value tells nothing of its secrets, and of an
  error body nothing of echoed inputs either
-/

namespace Thalovant.Redact

def REDACTED : String := "<redacted>"

/-- What an echoed validation `input` is printed as. -/
def OMITTED : String := "[omitted]"

/-! ## Keys -/

def normalizeKey (key : String) : String :=
  String.ofList ((key.toList.filter fun c => c.isAlphanum).map Char.toLower)

def secretKeys : List String :=
  ["password", "authorization", "clientsecret", "privatekey", "apisecret", "secretkey",
    "credentials", "apikey", "cryptokey", "accesskey", "secret", "presharedkey", "brokerpassword",
    "token", "accesstoken", "authtoken", "refreshtoken", "devicecode", "otpcode", "recoverycode"]

def isSecretKey (key : String) : Bool := secretKeys.contains (normalizeKey key)

/-- Inside this key's value a bare `key` is the access key. -/
def isIdentityBundle (key : String) : Bool :=
  normalizeKey key = "initialidentify" || normalizeKey key = "identity"

/-- The value under a key is secret, inside an identity bundle or outside. -/
def isSecretAt (inIdentityBundle : Bool) (key : String) : Bool :=
  isSecretKey key || (inIdentityBundle && normalizeKey key = "key")

/-- Whether what is under a key is inside an identity bundle. -/
def childScope (inIdentityBundle : Bool) (key : String) : Bool :=
  inIdentityBundle || isIdentityBundle key

/-! ## Redacting -/

mutual

def redactValueScoped (inIdentityBundle : Bool) : Value → Value
  | .object map => .object (redactMapScoped inIdentityBundle map)
  | .array items => .array (redactItemsScoped inIdentityBundle items)
  | other => other

def redactItemsScoped (inIdentityBundle : Bool) : List Value → List Value
  | [] => []
  | item :: items =>
    redactValueScoped inIdentityBundle item :: redactItemsScoped inIdentityBundle items

def redactMapScoped (inIdentityBundle : Bool) : Map → Map
  | [] => []
  | (key, value) :: map =>
    (key, if isSecretAt inIdentityBundle key then .string REDACTED
      else redactValueScoped (childScope inIdentityBundle key) value)
      :: redactMapScoped inIdentityBundle map

end

def redactValue (value : Value) : Value := redactValueScoped false value

def redactMap (map : Map) : Map := redactMapScoped false map

/-- One entry of a map, redacted. -/
def redactEntry (inIdentityBundle : Bool) (e : String × Value) : String × Value :=
  (e.1, if isSecretAt inIdentityBundle e.1 then .string REDACTED
    else redactValueScoped (childScope inIdentityBundle e.1) e.2)

theorem redactItemsScoped_eq_map (scope : Bool) (items : List Value) :
    redactItemsScoped scope items = items.map (redactValueScoped scope) := by
  induction items with
  | nil => rfl
  | cons item items ih => rw [redactItemsScoped, ih, List.map_cons]

theorem redactMapScoped_eq_map (scope : Bool) (map : Map) :
    redactMapScoped scope map = map.map (redactEntry scope) := by
  induction map with
  | nil => rfl
  | cons e map ih =>
    rw [List.map_cons, ← ih]
    rfl

theorem redactValueScoped_array (scope : Bool) (items : List Value) :
    redactValueScoped scope (.array items) = .array (items.map (redactValueScoped scope)) := by
  rw [redactValueScoped, redactItemsScoped_eq_map]

theorem redactValueScoped_object (scope : Bool) (map : Map) :
    redactValueScoped scope (.object map) = .object (map.map (redactEntry scope)) := by
  rw [redactValueScoped, redactMapScoped_eq_map]

/-! ## Omitting -/

/-- Change the value under a key, where there is one. -/
def modifyKey (key : String) (f : Value → Value) (map : Map) : Map :=
  map.map fun e => if e.1 = key then (e.1, f e.2) else e

def omitInput : Value → Value
  | .object entry => .object (modifyKey "input" (fun _ => .string OMITTED) entry)
  | other => other

/-- What an `errors` is printed as. -/
def omitErrors : Value → Value
  | .array entries => .array (entries.map omitInput)
  | other => other

mutual

/-- What a `detail` is printed as. -/
def omitDetail : Value → Value
  | .array entries => .array (entries.map omitInput)
  | .object nested => .object (omitEchoedInputs nested)
  | other => other

def omitEchoedInputs : Map → Map
  | [] => []
  | (key, value) :: map =>
    (key, if key = "detail" then omitDetail value
      else if key = "errors" then omitErrors value else value)
      :: omitEchoedInputs map

end

/-- One entry of an error body, without the inputs that it echoes. -/
def omitEntry (e : String × Value) : String × Value :=
  (e.1, if e.1 = "detail" then omitDetail e.2 else if e.1 = "errors" then omitErrors e.2 else e.2)

theorem omitEchoedInputs_eq_map (map : Map) : omitEchoedInputs map = map.map omitEntry := by
  induction map with
  | nil => rfl
  | cons e map ih =>
    rw [List.map_cons, ← ih]
    rfl

theorem omitDetail_object (map : Map) : omitDetail (.object map) = .object (map.map omitEntry) := by
  rw [omitDetail, omitEchoedInputs_eq_map]

/-! ## Errors of the API -/

/-- The `Debug` of an `ApiProblem`, by that of a map. -/
def debugProblem (debugMap : Map → String) (body : Map) : String :=
  "ApiProblem(" ++ debugMap (redactMap (omitEchoedInputs body)) ++ ")"

/-- The error body that rides on the error. -/
def problemOf (parsed : Option Value) : Option Map := parsed.bind Json.Value.asObject

def MAX_DETAIL : Nat := 200

/-- The text on one line of bounded length. -/
def boundedLine (rendered : String) : String :=
  let collapsed := joinWords (splitWhitespace rendered)
  if collapsed.length > MAX_DETAIL then String.ofList (collapsed.toList.take MAX_DETAIL) ++ "..."
  else collapsed

/-- `print` is how the JSON library prints a value. -/
def errorDisplayLine (print : Value → String) : Option Value → String
  | some (.object map) => boundedLine (print (.object (redactMap (omitEchoedInputs map))))
  | _ => boundedLine "(server error response omitted)"

/-! ## Values that differ in secrets -/

mutual

/-- The values have the same keys and differ only under keys that name a secret. -/
def SecretEq (inIdentityBundle : Bool) : Value → Value → Prop
  | .object map, .object map' => SecretEqMap inIdentityBundle map map'
  | .array items, .array items' => SecretEqItems inIdentityBundle items items'
  | value, value' => value = value'

def SecretEqItems (inIdentityBundle : Bool) : List Value → List Value → Prop
  | [], [] => True
  | item :: items, item' :: items' =>
    SecretEq inIdentityBundle item item' ∧ SecretEqItems inIdentityBundle items items'
  | _, _ => False

def SecretEqMap (inIdentityBundle : Bool) : Map → Map → Prop
  | [], [] => True
  | (key, value) :: map, (key', value') :: map' =>
    (key = key' ∧ (isSecretAt inIdentityBundle key
        ∨ SecretEq (childScope inIdentityBundle key) value value'))
      ∧ SecretEqMap inIdentityBundle map map'
  | _, _ => False

end

/-- An array is printed like its items. -/
theorem redactItems_eq_iff {scope : Bool} {items : List Value}
    (ih : ∀ v ∈ items, ∀ w,
      redactValueScoped scope v = redactValueScoped scope w ↔ SecretEq scope v w) :
    ∀ items' : List Value,
      items.map (redactValueScoped scope) = items'.map (redactValueScoped scope)
        ↔ SecretEqItems scope items items' := by
  induction items with
  | nil =>
    intro items'
    cases items' with
    | nil => simp [SecretEqItems]
    | cons w items' => simp [SecretEqItems]
  | cons v items ihl =>
    intro items'
    cases items' with
    | nil => simp [SecretEqItems]
    | cons w items' =>
      have hhead := ih v List.mem_cons_self w
      have htail := ihl (fun u hu => ih u (List.mem_cons_of_mem v hu)) items'
      simp only [List.map_cons, List.cons.injEq, SecretEqItems, hhead, htail]

theorem redactEntry_eq_iff (scope : Bool) (k k' : String) {v w : Value}
    (ih : ∀ scope, redactValueScoped scope v = redactValueScoped scope w ↔ SecretEq scope v w) :
    redactEntry scope (k, v) = redactEntry scope (k', w)
      ↔ k = k' ∧ (isSecretAt scope k ∨ SecretEq (childScope scope k) v w) := by
  rw [redactEntry, redactEntry, Prod.mk.injEq]
  refine and_congr_right fun hk => ?_
  cases hk
  by_cases hs : isSecretAt scope k = true
  · simp [hs]
  · simp [hs, ih]

/-- An object is printed like its entries. -/
theorem redactEntries_eq_iff {map : Map}
    (ih : ∀ e ∈ map, ∀ (scope : Bool) (w : Value),
      redactValueScoped scope e.2 = redactValueScoped scope w ↔ SecretEq scope e.2 w) (scope : Bool) :
    ∀ map' : Map, map.map (redactEntry scope) = map'.map (redactEntry scope)
      ↔ SecretEqMap scope map map' := by
  induction map with
  | nil =>
    intro map'
    cases map' with
    | nil => simp [SecretEqMap]
    | cons e map' => simp [SecretEqMap]
  | cons e map ihl =>
    intro map'
    cases map' with
    | nil => simp [SecretEqMap]
    | cons e' map' =>
      have hhead := redactEntry_eq_iff scope e.1 e'.1
        fun scope => ih e List.mem_cons_self scope e'.2
      have htail := ihl (fun e he => ih e (List.mem_cons_of_mem _ he)) map'
      rw [List.map_cons, List.map_cons, List.cons.injEq, htail]
      exact and_congr_left fun _ => hhead

/-- **Two values are printed alike exactly if they differ only in secret places.** -/
theorem redactValueScoped_eq_iff (v : Value) : ∀ (scope : Bool) (w : Value),
    redactValueScoped scope v = redactValueScoped scope w ↔ SecretEq scope v w := by
  induction v using Json.Value.inductOn with
  | null | bool _ | number _ | string _ =>
    intro scope w
    cases w <;> simp [redactValueScoped, SecretEq]
  | array items ih =>
    intro scope w
    cases w with
    | array items' =>
      rw [redactValueScoped_array, redactValueScoped_array, Json.Value.array.injEq, SecretEq]
      exact redactItems_eq_iff (fun u hu => ih u hu scope) items'
    | _ => simp [redactValueScoped, SecretEq]
  | object map ih =>
    intro scope w
    cases w with
    | object map' =>
      rw [redactValueScoped_object, redactValueScoped_object, Json.Value.object.injEq, SecretEq]
      exact redactEntries_eq_iff ih scope map'
    | _ => simp [redactValueScoped, SecretEq]

theorem redactValue_eq_iff (v w : Value) : redactValue v = redactValue w ↔ SecretEq false v w :=
  redactValueScoped_eq_iff v false w

theorem redactValueScoped_redactValueScoped (v : Value) : ∀ scope : Bool,
    redactValueScoped scope (redactValueScoped scope v) = redactValueScoped scope v := by
  induction v using Json.Value.inductOn with
  | null | bool _ | number _ | string _ => exact fun _ => rfl
  | array items ih =>
    intro scope
    rw [redactValueScoped_array, redactValueScoped_array, List.map_map]
    exact congrArg _ (List.map_congr_left fun v hv => ih v hv scope)
  | object map ih =>
    intro scope
    rw [redactValueScoped_object, redactValueScoped_object, List.map_map]
    refine congrArg _ (List.map_congr_left fun e he => ?_)
    simp only [Function.comp, redactEntry]
    by_cases hs : isSecretAt scope e.1 = true
    · simp [hs]
    · simp [hs, ih e he]

/-- What is not secret is left as it is. -/
theorem secretEq_redactValue (v : Value) : SecretEq false v (redactValue v) :=
  (redactValue_eq_iff v _).mp (redactValueScoped_redactValueScoped v false).symm

/-! ## Error bodies that differ in secrets and in echoed inputs -/

/-- The entries of one validation error differ in secrets, and in the `input`. -/
def SameErrorMap : Map → Map → Prop :=
  List.Forall₂ fun e e' => e.1 = e'.1
    ∧ (e.1 = "input" ∨ isSecretAt false e.1 ∨ SecretEq (childScope false e.1) e.2 e'.2)

def SameError : Value → Value → Prop
  | .object entry, .object entry' => SameErrorMap entry entry'
  | value, value' => SecretEq false value value'

/-- The values of an `errors`. -/
def SameErrors : Value → Value → Prop
  | .array entries, .array entries' => List.Forall₂ SameError entries entries'
  | value, value' => SecretEq false value value'

mutual

/-- The values of a `detail`. -/
def SameDetail : Value → Value → Prop
  | .array entries, .array entries' => List.Forall₂ SameError entries entries'
  | .object nested, .object nested' => SameBody nested nested'
  | value, value' => SecretEq false value value'

/-- The bodies have the same keys and differ only in secrets and in echoed inputs. -/
def SameBody : Map → Map → Prop
  | [], [] => True
  | (key, value) :: map, (key', value') :: map' =>
    (key = key' ∧ if key = "detail" then SameDetail value value'
      else if key = "errors" then SameErrors value value'
      else isSecretAt false key ∨ SecretEq (childScope false key) value value')
      ∧ SameBody map map'
  | _, _ => False

end

/-- The values under `input` are printed alike. -/
theorem redact_omitInputMap_eq {map map' : Map} (h : SameErrorMap map map') :
    (modifyKey "input" (fun _ => .string OMITTED) map).map (redactEntry false)
      = (modifyKey "input" (fun _ => .string OMITTED) map').map (redactEntry false) := by
  induction h with
  | nil => rfl
  | @cons e e' map map' hhead _ ih =>
    obtain ⟨k, v⟩ := e
    obtain ⟨k', w⟩ := e'
    obtain ⟨rfl, hv⟩ := hhead
    simp only [modifyKey, List.map_cons, List.map_map, List.cons.injEq] at ih ⊢
    refine ⟨?_, ih⟩
    by_cases hi : k = "input"
    · rw [if_pos hi, if_pos hi]
    · rw [if_neg hi, if_neg hi]
      exact (redactEntry_eq_iff false k k fun scope => redactValueScoped_eq_iff v scope w).mpr
        ⟨rfl, hv.resolve_left hi⟩

theorem redact_omitInput_eq {v w : Value} (h : SameError v w) :
    redactValue (omitInput v) = redactValue (omitInput w) := by
  unfold SameError at h
  split at h
  · simp only [omitInput, redactValue, redactValueScoped_object]
    exact congrArg _ (redact_omitInputMap_eq h)
  · next hne =>
    have hshape := (redactValue_eq_iff v w).mpr h
    cases v with
    | object map =>
      cases w with
      | object map' => exact absurd rfl (hne map map' rfl)
      | _ => simp [SecretEq] at h
    | _ =>
      cases w with
      | object map' => simp [SecretEq] at h
      | _ => exact hshape

theorem redact_omitInputs_eq {entries entries' : List Value}
    (h : List.Forall₂ SameError entries entries') :
    redactValue (.array (entries.map omitInput)) = redactValue (.array (entries'.map omitInput)) := by
  simp only [redactValue, redactValueScoped_array, List.map_map]
  refine congrArg _ ?_
  induction h with
  | nil => rfl
  | cons hhead _ ih =>
    rw [List.map_cons, List.map_cons, ih]
    exact congrArg (· :: _) (redact_omitInput_eq hhead)

theorem redact_omitErrors_eq {v w : Value} (h : SameErrors v w) :
    redactValue (omitErrors v) = redactValue (omitErrors w) := by
  unfold SameErrors at h
  split at h
  · exact redact_omitInputs_eq h
  · next hne =>
    have hshape := (redactValue_eq_iff v w).mpr h
    cases v with
    | array items =>
      cases w with
      | array items' => exact absurd rfl (hne items items' rfl)
      | _ => simp [SecretEq] at h
    | _ =>
      cases w with
      | array items' => simp [SecretEq] at h
      | _ => exact hshape

theorem redactEntry_detail (v : Value) :
    redactEntry false ("detail", v) = ("detail", redactValue v) := by
  have hs : isSecretAt false "detail" = false := by decide
  have hc : childScope false "detail" = false := by decide
  simp [redactEntry, hs, hc, redactValue]

theorem redactEntry_errors (v : Value) :
    redactEntry false ("errors", v) = ("errors", redactValue v) := by
  have hs : isSecretAt false "errors" = false := by decide
  have hc : childScope false "errors" = false := by decide
  simp [redactEntry, hs, hc, redactValue]

/-- One entry of two error bodies, for values whose `detail` is printed alike. -/
theorem redact_omitEntry_eq {k : String} {v w : Value}
    (ih : SameDetail v w → redactValue (omitDetail v) = redactValue (omitDetail w))
    (h : if k = "detail" then SameDetail v w else if k = "errors" then SameErrors v w
      else isSecretAt false k ∨ SecretEq (childScope false k) v w) :
    redactEntry false (omitEntry (k, v)) = redactEntry false (omitEntry (k, w)) := by
  unfold omitEntry
  by_cases hd : k = "detail"
  · subst hd
    rw [if_pos rfl] at h
    simp only [if_true, redactEntry_detail, ih h]
  by_cases he : k = "errors"
  · subst he
    rw [if_neg (by decide), if_pos rfl] at h
    have heq := redact_omitErrors_eq h
    simp [redactEntry_errors, heq]
  · rw [if_neg hd, if_neg he] at h
    simp only [hd, he, if_false]
    exact (redactEntry_eq_iff false k k fun scope => redactValueScoped_eq_iff v scope w).mpr
      ⟨rfl, h⟩

theorem redact_omitMap_eq {map : Map}
    (ih : ∀ e ∈ map, ∀ w, SameDetail e.2 w →
      redactValue (omitDetail e.2) = redactValue (omitDetail w)) :
    ∀ map' : Map, SameBody map map' →
      (map.map omitEntry).map (redactEntry false) = (map'.map omitEntry).map (redactEntry false) := by
  induction map with
  | nil =>
    intro map' h
    cases map' with
    | nil => rfl
    | cons e' map' => simp [SameBody] at h
  | cons e map ihl =>
    intro map' h
    cases map' with
    | nil => simp [SameBody] at h
    | cons e' map' =>
      obtain ⟨k, v⟩ := e
      obtain ⟨k', w⟩ := e'
      rw [SameBody] at h
      obtain ⟨⟨rfl, hv⟩, hmap⟩ := h
      have hhead := redact_omitEntry_eq (ih (k, v) List.mem_cons_self w) hv
      have htail := ihl (fun e he => ih e (List.mem_cons_of_mem _ he)) map' hmap
      rw [List.map_cons, List.map_cons, List.map_cons, List.map_cons, hhead, htail]

theorem redact_omitDetail_eq (v : Value) : ∀ w, SameDetail v w →
    redactValue (omitDetail v) = redactValue (omitDetail w) := by
  induction v using Json.Value.inductOn with
  | array items _ =>
    intro w h
    cases w with
    | array items' =>
      rw [SameDetail] at h
      exact redact_omitInputs_eq h
    | _ => simp [SameDetail, SecretEq] at h
  | object map ih =>
    intro w h
    cases w with
    | object map' =>
      rw [SameDetail] at h
      rw [omitDetail_object, omitDetail_object, redactValue, redactValue, redactValueScoped_object,
        redactValueScoped_object]
      exact congrArg _ (redact_omitMap_eq ih map' h)
    | _ => simp [SameDetail, SecretEq] at h
  | _ =>
    intro w h
    cases w <;> simp_all [SameDetail, SecretEq]

/-- **Bodies that differ in secrets and in echoed inputs are printed alike.** -/
theorem redactMap_omitEchoedInputs_eq {map map' : Map} (h : SameBody map map') :
    redactMap (omitEchoedInputs map) = redactMap (omitEchoedInputs map') := by
  rw [redactMap, redactMap, omitEchoedInputs_eq_map, omitEchoedInputs_eq_map, redactMapScoped_eq_map,
    redactMapScoped_eq_map]
  exact redact_omitMap_eq (fun e _ w => redact_omitDetail_eq e.2 w) map' h

/-! A difference in secrets alone is such a difference. -/

theorem SecretEqItems.forall₂ {scope : Bool} {items : List Value} : ∀ {items' : List Value},
    SecretEqItems scope items items' → List.Forall₂ (SecretEq scope) items items' := by
  induction items with
  | nil =>
    intro items' h
    cases items' with
    | nil => exact .nil
    | cons w items' => simp [SecretEqItems] at h
  | cons v items ih =>
    intro items' h
    cases items' with
    | nil => simp [SecretEqItems] at h
    | cons w items' => exact .cons h.1 (ih h.2)

theorem SecretEqMap.sameErrorMap {map : Map} : ∀ {map' : Map},
    SecretEqMap false map map' → SameErrorMap map map' := by
  induction map with
  | nil =>
    intro map' h
    cases map' with
    | nil => exact .nil
    | cons e' map' => simp [SecretEqMap] at h
  | cons e map ih =>
    intro map' h
    cases map' with
    | nil => simp [SecretEqMap] at h
    | cons e' map' => exact .cons ⟨h.1.1, Or.inr h.1.2⟩ (ih h.2)

theorem SecretEq.sameError {v w : Value} (h : SecretEq false v w) : SameError v w := by
  unfold SameError
  split
  · exact SecretEqMap.sameErrorMap h
  · exact h

theorem SecretEq.sameErrors {v w : Value} (h : SecretEq false v w) : SameErrors v w := by
  unfold SameErrors
  split
  · exact (SecretEqItems.forall₂ h).imp fun _ _ => SecretEq.sameError
  · exact h

theorem SecretEqMap.sameBody_of {map : Map}
    (ih : ∀ e ∈ map, ∀ w, SecretEq false e.2 w → SameDetail e.2 w) :
    ∀ {map' : Map}, SecretEqMap false map map' → SameBody map map' := by
  induction map with
  | nil =>
    intro map' h
    cases map' with
    | nil => simp [SameBody]
    | cons e' map' => simp [SecretEqMap] at h
  | cons e map ihl =>
    intro map' h
    cases map' with
    | nil => simp [SecretEqMap] at h
    | cons e' map' =>
      obtain ⟨k, v⟩ := e
      obtain ⟨k', w⟩ := e'
      rw [SecretEqMap] at h
      obtain ⟨⟨rfl, hv⟩, hmap⟩ := h
      rw [SameBody]
      refine ⟨⟨rfl, ?_⟩, ihl (fun e he => ih e (List.mem_cons_of_mem _ he)) hmap⟩
      split
      · next hd =>
        subst hd
        exact ih _ List.mem_cons_self w (hv.resolve_left (by decide))
      · split
        · next he =>
          subst he
          exact SecretEq.sameErrors (hv.resolve_left (by decide))
        · exact hv

theorem SecretEq.sameDetail (v : Value) : ∀ w, SecretEq false v w → SameDetail v w := by
  induction v using Json.Value.inductOn with
  | array items _ =>
    intro w h
    cases w with
    | array items' =>
      rw [SameDetail]
      exact (SecretEqItems.forall₂ h).imp fun _ _ => SecretEq.sameError
    | _ => simp [SecretEq] at h
  | object map ih =>
    intro w h
    cases w with
    | object map' =>
      rw [SameDetail]
      exact SecretEqMap.sameBody_of ih h
    | _ => simp [SecretEq] at h
  | _ =>
    intro w h
    cases w <;> simp_all [SameDetail, SecretEq]

theorem SecretEqMap.sameBody {map map' : Map} (h : SecretEqMap false map map') : SameBody map map' :=
  SecretEqMap.sameBody_of (fun e _ w => SecretEq.sameDetail e.2 w) h

/-! ## What is printed -/

theorem errorDisplayLine_eq (print : Value → String) {map map' : Map} (h : SameBody map map') :
    errorDisplayLine print (some (.object map)) = errorDisplayLine print (some (.object map')) := by
  rw [errorDisplayLine, errorDisplayLine, redactMap_omitEchoedInputs_eq h]

theorem debugProblem_eq (debugMap : Map → String) {map map' : Map} (h : SameBody map map') :
    debugProblem debugMap map = debugProblem debugMap map' := by
  rw [debugProblem, debugProblem, redactMap_omitEchoedInputs_eq h]

/-- **Nothing of a secret is printed**: values that differ in secrets are redacted alike, and as
error bodies they are printed alike, also where they differ in echoed inputs besides. All else is
kept, and there is nothing left to redact. -/
theorem redaction_noninterference :
    (∀ v w : Value, SecretEq false v w → redactValue v = redactValue w
      ∧ (∀ debugMap : Map → String, (problemOf (some v)).map (debugProblem debugMap)
        = (problemOf (some w)).map (debugProblem debugMap))
      ∧ ∀ print : Value → String, errorDisplayLine print (some v) = errorDisplayLine print (some w))
    ∧ (∀ map map' : Map, SameBody map map' →
      (∀ debugMap : Map → String, debugProblem debugMap map = debugProblem debugMap map')
      ∧ ∀ print : Value → String,
        errorDisplayLine print (some (.object map)) = errorDisplayLine print (some (.object map')))
    ∧ (∀ v : Value, SecretEq false v (redactValue v))
    ∧ ∀ v : Value, redactValue (redactValue v) = redactValue v := by
  refine ⟨fun v w h => ⟨(redactValue_eq_iff v w).mpr h, ?_⟩, fun map map' h => ⟨fun debugMap =>
    debugProblem_eq debugMap h, fun print => errorDisplayLine_eq print h⟩, secretEq_redactValue,
    fun v => redactValueScoped_redactValueScoped v false⟩
  cases v with
  | object map =>
    cases w with
    | object map' =>
      have hbody : SameBody map map' := SecretEqMap.sameBody h
      exact ⟨fun debugMap => congrArg some (debugProblem_eq debugMap hbody),
        fun print => errorDisplayLine_eq print hbody⟩
    | _ => simp [SecretEq] at h
  | _ =>
    cases w with
    | object map' => simp [SecretEq] at h
    | _ => exact ⟨fun _ => rfl, fun _ => by simp only [errorDisplayLine]⟩

example : SameBody
    [("detail", .object [("errors", .array [.object [("input", .string "a"), ("loc", .null)]])]),
      ("identity", .object [("key", .string "b")])]
    [("detail", .object [("errors", .array [.object [("input", .null), ("loc", .null)]])]),
      ("identity", .object [("key", .string "c")])] := by
  have hkey : isSecretAt true "key" = true := by decide
  have hbundle : childScope false "identity" = true := by decide
  simp [SameBody, SameDetail, SameErrors, SameError, SameErrorMap, SecretEq, SecretEqMap, hkey,
    hbundle]

end Thalovant.Redact
