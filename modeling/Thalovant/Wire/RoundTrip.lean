import Thalovant.Wire.Layout

/-!
# Encoding and decoding

What the encoder writes is a packing without padding, version or compression (`encode_packing`), so the
decoder reads the message back, but for two types: `intercom` has no number of its own and is read as
`3rdparty`, and what is read of a `bin` is a clip, where the encoder writes JSON.
-/

namespace Thalovant.Wire

variable {codec : WireCodec} {message : HiveMessage} {bytes : Bytes}

/-- The types that the encoder's table names. -/
def wireTypes : List String := "handshake" :: typeTable.map Prod.snd

/-- The name of a type on the wire. -/
def canonicalType (msgType : String) : String := if msgType = "handshake" then "shake" else msgType

/-- The JSON library parses what it prints of an object. -/
def Prints (codec : WireCodec) (m : Map) : Prop :=
  ∃ text, text ≠ "" ∧ codec.toVec m = .ok (utf8 text) ∧ codec.fromStr text = .ok (.object m)

/-- The message is read back, by its type, its payload and its metadata. -/
def ReadBack (codec : WireCodec) (message : HiveMessage) (bytes : Bytes) : Prop :=
  ∃ decoded, decodeHiveBinaryFrame codec bytes = .ok decoded
    ∧ decoded.msgType = canonicalType message.msgType
    ∧ decoded.payload = message.payload ∧ decoded.metadata = message.metadata

/-! ## What is written -/

theorem hiveTypeToInt_lt (msgType : String) : (hiveTypeToInt msgType).toNat < 2 ^ 5 := by
  unfold hiveTypeToInt
  split <;> decide

theorem bits_frameHeader {typeId : UInt8} (h : typeId.toNat < 2 ^ 5) :
    Bits.ofNat 8 (frameHeader typeId).toNat = [true] ++ ([false] ++ (Bits.ofNat 5 typeId.toNat ++ [false])) := by
  have hall : ∀ n < 2 ^ 5, Bits.ofNat 8 (frameHeader (UInt8.ofNat n)).toNat
      = [true] ++ ([false] ++ (Bits.ofNat 5 n ++ [false])) := by decide
  have htype := hall _ h
  rwa [UInt8.ofNat_toNat] at htype

/-- The encoder writes a packing. -/
theorem encode_packing {metadata payload : String}
    (hmetadata : codec.toVec message.metadata = .ok (utf8 metadata))
    (hpayload : codec.toVec message.payload = .ok (utf8 payload))
    (h : encodeHiveBinaryFrame codec message = .ok bytes) :
    (utf8 metadata).length ≤ 255
    ∧ Bits.ofBytes bytes = packing 0 none (hiveTypeToInt message.msgType).toNat false (utf8 metadata)
      (Bits.ofBytes (utf8 payload)) := by
  unfold encodeHiveBinaryFrame at h
  rw [hmetadata, hpayload] at h
  dsimp only [Except.mapError, bind, Except.bind] at h
  split at h
  · cases h
  · next hlength =>
    have hbytes : frameHeader (hiveTypeToInt message.msgType)
        :: UInt8.ofNat (utf8 metadata).length :: (utf8 metadata ++ utf8 payload) = bytes :=
      Except.ok.inj h
    refine ⟨by omega, ?_⟩
    have hmod : (UInt8.ofNat (utf8 metadata).length).toNat = (utf8 metadata).length :=
      UInt8.toNat_ofNat_of_lt' (by show _ < 256; omega)
    rw [← hbytes, Bits.ofBytes_cons, Bits.ofBytes_cons, Bits.ofBytes_append, hmod,
      bits_frameHeader (hiveTypeToInt_lt _)]
    simp [packing, versionBits]

/-! ## What is read back -/

theorem carries_utf8 {text : String} {m : Map} (h : codec.fromStr text = .ok (.object m)) :
    Carries codec false (utf8 text) m := ⟨text, ⟨h, rfl⟩, nofun⟩

/-- The table of the decoder, for each type that has a number. -/
theorem hiveIntToType_of_mem {msgType : String} (h : msgType ∈ wireTypes ++ HIVE_KINDS) :
    hiveIntToType (hiveTypeToInt msgType)
      = if msgType = "intercom" then "3rdparty" else canonicalType msgType := by
  have hall : ∀ msgType ∈ wireTypes ++ HIVE_KINDS, hiveIntToType (hiveTypeToInt msgType)
      = if msgType = "intercom" then "3rdparty" else canonicalType msgType := by decide
  exact hall msgType h

theorem canonicalType_bin {msgType : String} : canonicalType msgType = "bin" ↔ msgType = "bin" := by
  unfold canonicalType
  split
  · next h =>
    subst h
    decide
  · rfl

/-- What the decoder makes of JSON where it expects a clip: a message without a payload. -/
theorem readBody_json {r : BitReader} {id : Nat} {m : Map} {payload : Bytes}
    (hrest : Rest r (Bits.ofBytes payload)) (hpayload : payload ≠ [])
    (hname : hiveIntToType (UInt8.ofNat id) = "bin") :
    ∃ binary, (readBody codec id false m r).map Prod.fst
      = .ok { msgType := "bin", payload := [], binary := binary, metadata := m } := by
  obtain ⟨byte, payload, rfl⟩ := List.exists_cons_of_ne_nil hpayload
  have hbyte : byte.toNat < 256 := byte.toNat_lt
  have hkind : byte.toNat / 2 ^ 4 < 2 ^ 4 := by omega
  rw [Bits.ofBytes_cons, Bits.ofNat_add 4 4, List.append_assoc] at hrest
  obtain ⟨r', hr', hrest'⟩ := consumes_readUint hkind r _ hrest
  obtain ⟨clip, r'', hr''⟩ := readRemainingBytes_ok hrest'.1
  refine ⟨some (binaryFrame (binaryKindName (UInt8.ofNat (byte.toNat / 2 ^ 4))) clip m), ?_⟩
  unfold readBody
  rw [if_pos hname, run_bind hr', run_bind hr'', hname]
  rfl

/-- What is written is read, up to its body. -/
theorem decode_encode (hmetadata : Prints codec message.metadata) (hpayload : Prints codec message.payload)
    (h : encodeHiveBinaryFrame codec message = .ok bytes) :
    ∃ r payload, payload ≠ [] ∧ Carries codec false payload message.payload ∧ Rest r (Bits.ofBytes payload)
      ∧ decodeHiveBinaryFrame codec bytes
        = (readBody codec (hiveTypeToInt message.msgType).toNat false message.metadata r).map Prod.fst := by
  obtain ⟨metadata, -, hmetadataVec, hmetadataStr⟩ := hmetadata
  obtain ⟨payload, hne, hpayloadVec, hpayloadStr⟩ := hpayload
  obtain ⟨hlength, hbits⟩ := encode_packing hmetadataVec hpayloadVec h
  have hbytes : bytes = Bits.toBytes (packing 0 none (hiveTypeToInt message.msgType).toNat false
      (utf8 metadata) (Bits.ofBytes (utf8 payload))) := by
    rw [← hbits, Bits.toBytes_ofBytes]
  obtain ⟨r, hrest, hdecode⟩ := decode_packing_header 0 _ none _ length_packing_zero nofun
    (hiveTypeToInt_lt message.msgType) hlength (carries_utf8 hmetadataStr)
  rw [← hbytes] at hdecode
  exact ⟨r, utf8 payload, fun hnil => hne (utf8_inj.mp hnil), carries_utf8 hpayloadStr, hrest, hdecode⟩

theorem decode_encode_json (hmetadata : Prints codec message.metadata)
    (hpayload : Prints codec message.payload) (h : encodeHiveBinaryFrame codec message = .ok bytes)
    (hname : hiveIntToType (hiveTypeToInt message.msgType) ≠ "bin") :
    decodeHiveBinaryFrame codec bytes = .ok {
      msgType := hiveIntToType (hiveTypeToInt message.msgType)
      payload := message.payload
      metadata := message.metadata } := by
  obtain ⟨r, payload, -, hcarries, hrest, hdecode⟩ := decode_encode hmetadata hpayload h
  rw [← UInt8.ofNat_toNat (x := hiveTypeToInt message.msgType)] at hname
  have hread := readBody_payload (m := message.metadata) hrest hcarries hname
  rw [UInt8.ofNat_toNat] at hread
  exact hdecode.trans hread

theorem decode_encode_bin (hmetadata : Prints codec message.metadata)
    (hpayload : Prints codec message.payload) (h : encodeHiveBinaryFrame codec message = .ok bytes)
    (hbin : message.msgType = "bin") :
    ∃ binary, decodeHiveBinaryFrame codec bytes
      = .ok { msgType := "bin", payload := [], binary := binary, metadata := message.metadata } := by
  obtain ⟨r, payload, hne, -, hrest, hdecode⟩ := decode_encode hmetadata hpayload h
  have hname : hiveIntToType (UInt8.ofNat (hiveTypeToInt message.msgType).toNat) = "bin" := by
    rw [hbin]
    decide
  obtain ⟨binary, hread⟩ := readBody_json (m := message.metadata) hrest hne hname
  exact ⟨binary, hdecode.trans hread⟩

/--
**The binary round trip.** A message of a type that the wire table or `HIVE_KINDS` names, which the encoder
has accepted, is read back exactly if it is no `intercom`, and if, being a `bin`, it has no payload.
-/
theorem readBack_iff (htype : message.msgType ∈ wireTypes ++ HIVE_KINDS)
    (hmetadata : Prints codec message.metadata) (hpayload : Prints codec message.payload)
    (h : encodeHiveBinaryFrame codec message = .ok bytes) :
    ReadBack codec message bytes
    ↔ message.msgType ≠ "intercom" ∧ (message.msgType = "bin" → message.payload = []) := by
  have hname := hiveIntToType_of_mem htype
  by_cases hbin : message.msgType = "bin"
  · obtain ⟨binary, hread⟩ := decode_encode_bin hmetadata hpayload h hbin
    have hcanonical : canonicalType "bin" = "bin" := by decide
    unfold ReadBack
    rw [hread, hbin, hcanonical]
    constructor
    · rintro ⟨decoded, hdecoded, -, hsame, -⟩
      cases hdecoded
      exact ⟨by decide, fun _ => hsame.symm⟩
    · rintro ⟨-, hnil⟩
      exact ⟨_, rfl, rfl, (hnil rfl).symm, rfl⟩
  · have hjson : hiveIntToType (hiveTypeToInt message.msgType) ≠ "bin" := by
      rw [hname]
      split
      · decide
      · exact fun h => hbin (canonicalType_bin.mp h)
    unfold ReadBack
    rw [decode_encode_json hmetadata hpayload h hjson, hname]
    constructor
    · rintro ⟨decoded, hdecoded, htype, -, -⟩
      cases hdecoded
      -- `intercom` and `3rdparty` have one number, which is read as the latter
      refine ⟨fun hintercom => ?_, fun h => absurd h hbin⟩
      have htype : (if message.msgType = "intercom" then "3rdparty" else canonicalType message.msgType)
          = canonicalType message.msgType := htype
      rw [if_pos hintercom, hintercom] at htype
      revert htype
      decide
    · rintro ⟨hintercom, -⟩
      exact ⟨_, rfl, if_neg hintercom, rfl, rfl⟩

/-! ## A message that is read back, and one that is not -/

theorem prints_of_parse {m : Map}
    (h : Json.parse noNumbers (Json.print noNumbers (.object m)) = some (.object m)) :
    Prints storedCodec m := by
  refine ⟨String.ofList (Json.print noNumbers (.object m)), fun hnil => ?_, rfl, ?_⟩
  · rw [String.ofList_eq_empty_iff, Json.print_object] at hnil
    cases hnil
  · show (Json.parse noNumbers (String.ofList _).toList).elim _ Except.ok = _
    rw [String.toList_ofList, h]
    rfl

/-- An event on the bus, from one client of an owner. -/
def busMessage : HiveMessage where
  msgType := "bus"
  payload :=
    [("context", .object [("metadata", .object [("thalovant_owner_id", .string "owner-1")])]),
      ("data", .object [("ok", .bool true)]), ("type", .string "test.event")]
  metadata := [("lang", .string "en-US")]

/-- A message with a payload and metadata is read back. -/
theorem readBack_bus :
    ReadBack storedCodec busMessage (0x82 :: 16 :: utf8 ("\x7b\"lang\":\"en-US\"\x7d"
      ++ "\x7b\"context\":\x7b\"metadata\":\x7b\"thalovant_owner_id\":\"owner-1\"\x7d\x7d,"
      ++ "\"data\":\x7b\"ok\":true\x7d,\"type\":\"test.event\"\x7d")) :=
  (readBack_iff (by decide) (prints_of_parse (by rfl)) (prints_of_parse (by rfl)) (by decide +kernel)).mpr
    ⟨by decide, nofun⟩

/-- An `intercom` is read as another type. -/
theorem readBack_fails : ¬ ∀ (codec : WireCodec) (message : HiveMessage) (bytes : Bytes),
    message.msgType ∈ wireTypes ++ HIVE_KINDS → message.binary.isNone = true →
    Prints codec message.metadata → Prints codec message.payload →
    encodeHiveBinaryFrame codec message = .ok bytes → ReadBack codec message bytes := by
  intro h
  have hnil : Prints storedCodec [] := prints_of_parse (by rfl)
  have hencode : encodeHiveBinaryFrame storedCodec { msgType := "intercom", payload := [] }
      = .ok [0x96, 2, 0x7b, 0x7d, 0x7b, 0x7d] := by decide +kernel
  obtain ⟨decoded, hdecoded, htype, -⟩ := h _ _ _ (by decide) rfl hnil hnil hencode
  rw [decode_encode_json hnil hnil hencode (by decide)] at hdecoded
  cases hdecoded
  revert htype
  decide

end Thalovant.Wire
