import Thalovant.Basic
import Thalovant.Lib.Json.Text

/-!
# Canonical JSON and the handshake prologue

`canonical_json` sorts the keys of every object, writes no white space and leaves non-ASCII
characters alone. `build_prologue` is the text of the hub's HELLO payload, the text of its offer
payload and the protocol name, with nothing between them: the handshake fails when the two peers do
not build the same bytes.

## What is shown

The texts are those of the `Json` library: `canonicalJson v` is the print of `v` with its keys sorted
(`writeCanonical_eq_print`). Reading it back is then the library's round trip, and an object's text
ends by itself, so that the three parts of a prologue cannot be cut differently.
-/

namespace Thalovant.Noise

open Json (Value Entries NumberFormat)

variable {N : Type}

/-! ## `canonical_json` -/

/-- One character inside a string. -/
def writeCanonicalChar (character : Char) : List Char :=
  if character = '"' then ['\\', '"']
  else if character = '\\' then ['\\', '\\']
  else if character = Char.ofNat 0x8 then ['\\', 'b']
  else if character = Char.ofNat 0xC then ['\\', 'f']
  else if character = '\n' then ['\\', 'n']
  else if character = '\r' then ['\\', 'r']
  else if character = '\t' then ['\\', 't']
  else if character.toNat < 0x20 then '\\' :: 'u' :: Json.hex4 character.toNat
  else [character]

/-- What `write_canonical_string` appends. -/
def writeCanonicalString (value : String) : List Char :=
  '"' :: (value.toList.flatMap writeCanonicalChar ++ ['"'])

mutual

/-- What `write_canonical` appends. -/
def writeCanonical (fmt : NumberFormat N) : Value N → List Char
  | .null => "null".toList
  | .bool true => "true".toList
  | .bool false => "false".toList
  | .number number => fmt.render number
  | .string text => writeCanonicalString text
  | .array items => '[' :: (Json.joinComma (writeCanonicalItems fmt items) ++ [']'])
  | .object entries =>
    -- the items are written first; the ordered map then puts the entries in their places
    let sorted := SortedMap.ofList (writeCanonicalEntries fmt entries)
    '{' :: (Json.joinComma (sorted.map fun e => writeCanonicalString e.1 ++ ':' :: e.2) ++ ['}'])

def writeCanonicalItems (fmt : NumberFormat N) : List (Value N) → List (List Char)
  | [] => []
  | item :: items => writeCanonical fmt item :: writeCanonicalItems fmt items

def writeCanonicalEntries (fmt : NumberFormat N) : Entries N → List (String × List Char)
  | [] => []
  | (key, item) :: entries => (key, writeCanonical fmt item) :: writeCanonicalEntries fmt entries

end

def canonicalJson (fmt : NumberFormat N) (value : Value N) : String :=
  String.ofList (writeCanonical fmt value)

/-! ## The canonical text is the print of the sorted value -/

theorem writeCanonicalItems_eq_map (fmt : NumberFormat N) : ∀ items : List (Value N),
    writeCanonicalItems fmt items = items.map (writeCanonical fmt)
  | [] => rfl
  | item :: items => by
    rw [writeCanonicalItems, List.map_cons, writeCanonicalItems_eq_map fmt items]

theorem writeCanonicalEntries_eq_map (fmt : NumberFormat N) : ∀ entries : Entries N,
    writeCanonicalEntries fmt entries = entries.map (Prod.map id (writeCanonical fmt))
  | [] => rfl
  | (key, item) :: entries => by
    rw [writeCanonicalEntries, List.map_cons, writeCanonicalEntries_eq_map fmt entries]
    rfl

theorem writeCanonical_eq_print (fmt : NumberFormat N) (value : Value N) :
    writeCanonical fmt value = Json.print fmt value.sortKeys := by
  induction value with
  | null | number _ | string _ => rfl
  | bool b => cases b <;> rfl
  | array items ih =>
    rw [writeCanonical, writeCanonicalItems_eq_map, Value.sortKeys_array, Json.print_array,
      List.map_map]
    exact congrArg (fun ts => '[' :: (Json.joinComma ts ++ [']'])) (List.map_congr_left ih)
  | object entries ih =>
    have hitems : entries.map (Prod.map id (writeCanonical fmt))
        = (entries.map (Prod.map id Value.sortKeys)).map (Prod.map id (Json.print fmt)) := by
      rw [List.map_map]
      exact List.map_congr_left fun e he => Prod.ext rfl (ih e he)
    rw [writeCanonical, writeCanonicalEntries_eq_map, Value.sortKeys_object, Json.print_object,
      hitems, SortedMap.ofList_map, List.map_map]
    rfl

theorem canonicalJson_toList (fmt : NumberFormat N) (value : Value N) :
    (canonicalJson fmt value).toList = Json.print fmt value.sortKeys := by
  rw [canonicalJson, String.toList_ofList, writeCanonical_eq_print]

/-- Reading the canonical text back gives the value with its keys sorted. -/
theorem parse_canonicalJson {fmt : NumberFormat N} (hfmt : fmt.Lawful) (value : Value N) :
    Json.parse fmt (canonicalJson fmt value).toList = some value.sortKeys := by
  rw [canonicalJson_toList, Json.parse_print hfmt, Value.sortKeys_sortKeys]

/-- **The canonical text is the same exactly for the same value**, in whatever order it was built. -/
theorem canonicalJson_eq_iff {fmt : NumberFormat N} (hfmt : fmt.Lawful) {v w : Value N}
    (hv : v.WellFormed) (hw : w.WellFormed) :
    canonicalJson fmt v = canonicalJson fmt w ↔ v.Reordered w := by
  rw [Value.reordered_iff_sortKeys hv hw]
  constructor
  · intro h
    have hparse := parse_canonicalJson hfmt v
    rw [h, parse_canonicalJson hfmt w] at hparse
    exact (Option.some.inj hparse).symm
  · intro h
    rw [canonicalJson, canonicalJson, writeCanonical_eq_print, writeCanonical_eq_print, h]

/-! ## `build_prologue` -/

def buildPrologue (fmt : NumberFormat N) (helloPayload handshakePayload : Entries N)
    (protocolName : String) : Bytes :=
  utf8 (canonicalJson fmt (.object helloPayload))
    ++ utf8 (canonicalJson fmt (.object handshakePayload)) ++ utf8 protocolName

/-- The characters of a prologue: two printed objects and the name. -/
theorem buildPrologue_eq_utf8 (fmt : NumberFormat N) (hello offer : Entries N) (name : String) :
    buildPrologue fmt hello offer name
      = utf8 (canonicalJson fmt (.object hello) ++ canonicalJson fmt (.object offer) ++ name) := by
  rw [buildPrologue, utf8_append, utf8_append]

theorem buildPrologue_inj {fmt : NumberFormat N} (hfmt : fmt.Lawful)
    {hello hello' offer offer' : Entries N} {name name' : String}
    (h : buildPrologue fmt hello offer name = buildPrologue fmt hello' offer' name') :
    (Value.object hello).sortKeys = (Value.object hello').sortKeys
      ∧ (Value.object offer).sortKeys = (Value.object offer').sortKeys ∧ name = name' := by
  rw [buildPrologue_eq_utf8, buildPrologue_eq_utf8, utf8_inj, ← String.toList_inj] at h
  simp only [String.toList_append, canonicalJson_toList, Value.sortKeys_object,
    List.append_assoc] at h
  obtain ⟨hhello, h⟩ := Json.print_object_append_inj hfmt h
  obtain ⟨hoffer, hname⟩ := Json.print_object_append_inj hfmt h
  simp only [← Value.sortKeys_object, Value.sortKeys_sortKeys] at hhello hoffer
  exact ⟨hhello, hoffer, String.toList_inj.mp hname⟩

/--
**The prologue binds the whole negotiation.**

* The canonical text of a value is the same for every order its objects' keys were inserted in, at
  any depth, and differs for different values.
* It parses back to the value.
* Equal prologues come from the same HELLO payload, the same offer payload and the same protocol
  name, though nothing separates the three.

That a number is written as a token and read back from it is what is assumed of the JSON library.
-/
theorem prologue_binds_negotiation {fmt : NumberFormat N} (hfmt : fmt.Lawful) :
    (∀ v w : Value N, v.WellFormed → w.WellFormed →
      (canonicalJson fmt v = canonicalJson fmt w ↔ v.Reordered w))
    ∧ (∀ v : Value N, v.WellFormed →
      ∃ w, Json.parse fmt (canonicalJson fmt v).toList = some w ∧ v.Reordered w)
    ∧ (∀ (hello hello' offer offer' : Entries N) (name name' : String),
      (Value.object hello).WellFormed → (Value.object hello').WellFormed →
      (Value.object offer).WellFormed → (Value.object offer').WellFormed →
      buildPrologue fmt hello offer name = buildPrologue fmt hello' offer' name' →
      (Value.object hello).Reordered (.object hello')
        ∧ (Value.object offer).Reordered (.object offer') ∧ name = name') := by
  refine ⟨fun v w hv hw => canonicalJson_eq_iff hfmt hv hw, fun v hv => ?_, ?_⟩
  · exact ⟨v.sortKeys, parse_canonicalJson hfmt v, Value.reordered_sortKeys hv⟩
  · intro hello hello' offer offer' name name' hh hh' ho ho' h
    obtain ⟨hhello, hoffer, hname⟩ := buildPrologue_inj hfmt h
    exact ⟨(Value.reordered_iff_sortKeys hh hh').mpr hhello,
      (Value.reordered_iff_sortKeys ho ho').mpr hoffer, hname⟩

theorem prologue_binds_negotiation_two_orders :
    canonicalJson Json.natFormat (.object [("node_id", .string "hub"), ("max", .number 2)])
        = canonicalJson Json.natFormat (.object [("max", .number 2), ("node_id", .string "hub")])
      ∧ (Value.object [("node_id", .string "hub"), ("max", .number 2)]).Reordered
          (.object [("max", .number 2), ("node_id", .string "hub")]) := by
  have hwf : (Value.object [("node_id", .string "hub"), ("max", .number 2)]).WellFormed :=
    Value.wellFormed_object.mpr ⟨by decide, by simp [Value.WellFormed]⟩
  have hwf' : (Value.object [("max", .number 2), ("node_id", .string "hub")]).WellFormed :=
    Value.wellFormed_object.mpr ⟨by decide, by simp [Value.WellFormed]⟩
  obtain ⟨hcanonical, -, hprologue⟩ := prologue_binds_negotiation Json.natFormat_lawful
  have hsame := (hcanonical _ _ hwf hwf').mpr (Value.Reordered.perm (List.Perm.swap _ _ []))
  refine ⟨hsame, ?_⟩
  -- the two orders build the same prologue, from which the payloads are found to be the same
  exact (hprologue _ _ [] [] "Noise" "Noise" hwf hwf' (Value.wellFormed_object.mpr (by simp))
    (Value.wellFormed_object.mpr (by simp)) (by rw [buildPrologue, buildPrologue, hsame])).1

end Thalovant.Noise
