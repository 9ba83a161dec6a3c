import Thalovant.Lib.Bits
import Thalovant.Lib.Json.Text
import Thalovant.Lib.Zlib
import Thalovant.Wire.Frame

/-!
# The layout of a binary frame

A frame is a packing of bits (`packing`), and what the decoder reads of a packing are its fields:
`decode_layout`. A reader that has the bits of one field before it consumes them, wherever in a byte
they begin (`Consumes`), and no reader comes to a panic, whatever the bytes are (`Tame`).
-/

namespace Thalovant.Wire

/-! ## Consuming bits -/

/-- What the reader has before it. -/
def Rest (r : BitReader) (bs : List Bool) : Prop :=
  r.offset ≤ r.length ∧ (Bits.ofBytes r.payload).drop r.offset = bs

theorem rest_new (payload : Bytes) : Rest ⟨payload, 0⟩ (Bits.ofBytes payload) :=
  ⟨Nat.zero_le _, rfl⟩

theorem BitReader.length_eq (r : BitReader) : r.length = (Bits.ofBytes r.payload).length := by
  rw [Bits.length_ofBytes, BitReader.length, Nat.mul_comm]

theorem Rest.length_eq {r : BitReader} {bs : List Bool} (h : Rest r bs) :
    r.length - r.offset = bs.length := by
  rw [← h.2, List.length_drop, r.length_eq]

/-- Read these bits, wherever they begin, and give this. -/
def Consumes {α : Type} (m : Read α) (bs : List Bool) (a : α) : Prop :=
  ∀ r rest, Rest r (bs ++ rest) → ∃ r', m r = .ok (a, r') ∧ Rest r' rest

section Consumes

variable {α β : Type} {m : Read α} {f : α → Read β} {bs bs' : List Bool} {a : α} {b : β}

theorem run_bind {r r' : BitReader} (h : m r = .ok (a, r')) : (m >>= f) r = f a r' := by
  show (m r >>= fun x => f x.1 x.2) = _
  rw [h]
  rfl

theorem consumes_pure (a : α) : Consumes (pure a) [] a := fun r _ h => ⟨r, rfl, h⟩

theorem consumes_bind (hm : Consumes m bs a) (hf : Consumes (f a) bs' b) :
    Consumes (m >>= f) (bs ++ bs') b := by
  intro r rest h
  rw [List.append_assoc] at h
  obtain ⟨r', hr', h'⟩ := hm r _ h
  obtain ⟨r'', hr'', h''⟩ := hf r' rest h'
  exact ⟨r'', (run_bind hr').trans hr'', h''⟩

theorem consumes_readBit (bit : Bool) : Consumes readBit [bit] bit := by
  intro r rest h
  obtain ⟨hoffset, hdrop⟩ := h
  have hlt : r.offset < r.length := by
    have hlength := congrArg List.length hdrop
    rw [List.length_drop, ← r.length_eq, List.length_append, List.length_singleton] at hlength
    omega
  have hbit : (Bits.ofBytes r.payload)[r.offset]? = some bit := by
    rw [← List.head?_drop, hdrop]
    rfl
  rw [Bits.getElem?_ofBytes] at hbit
  obtain ⟨byte, hbyte, htest⟩ := Option.map_eq_some_iff.mp hbit
  refine ⟨{ r with offset := r.offset + 1 }, ?_, hlt, ?_⟩
  · unfold readBit
    rw [if_neg (by omega), hbyte]
    simp only [htest]
  · show (Bits.ofBytes r.payload).drop (r.offset + 1) = rest
    rw [← List.tail_drop, hdrop]
    rfl

/-- By induction on how many bits are to be read. -/
theorem consumes_readUintFrom (width n value : Nat) :
    Consumes (readUintFrom value width) (Bits.ofNat width n)
      (Bits.toNatFrom value (Bits.ofNat width n)) := by
  induction width generalizing value with
  | zero => exact consumes_pure value
  | succ width ih => exact consumes_bind (consumes_readBit _) (ih _)

theorem consumes_readUint {width n : Nat} (h : n < 2 ^ width) :
    Consumes (readUint width) (Bits.ofNat width n) n := by
  have hread := consumes_readUintFrom width n 0
  rwa [← Bits.toNat, Bits.toNat_ofNat, Nat.mod_eq_of_lt h] at hread

theorem consumes_readBytes (bytes : Bytes) :
    Consumes (readBytes bytes.length) (Bits.ofBytes bytes) bytes := by
  induction bytes with
  | nil => exact consumes_pure []
  | cons byte bytes ih =>
    rw [Bits.ofBytes_cons, ← List.append_nil (Bits.ofBytes bytes)]
    refine consumes_bind (consumes_readUint byte.toNat_lt) (consumes_bind ih ?_)
    rw [UInt8.ofNat_toNat]
    exact consumes_pure _

/-- The padding, and the first set bit. -/
theorem consumes_skipPadding {pad fuel : Nat} (h : pad < fuel) :
    Consumes (skipPadding fuel) (List.replicate pad false ++ [true]) () := by
  induction pad generalizing fuel with
  | zero =>
    obtain ⟨fuel, rfl⟩ := Nat.exists_eq_succ_of_ne_zero (Nat.ne_of_gt h)
    show Consumes (skipPadding (fuel + 1)) ([true] ++ []) ()
    exact consumes_bind (consumes_readBit true) (consumes_pure ())
  | succ pad ih =>
    obtain ⟨fuel, rfl⟩ := Nat.exists_eq_succ_of_ne_zero (Nat.ne_zero_of_lt h)
    show Consumes (skipPadding (fuel + 1)) ([false] ++ (List.replicate pad false ++ [true])) ()
    exact consumes_bind (consumes_readBit false) (ih (by omega))

theorem consumes_skipLeftPadding (pad : Nat) :
    Consumes skipLeftPadding (List.replicate pad false ++ [true]) () := by
  intro r rest h
  have hlength := h.length_eq
  refine consumes_skipPadding ?_ r rest h
  simp only [List.length_append, List.length_replicate] at hlength
  omega

/-- What is left is read as whole bytes; bits that fill none are left. -/
theorem readRemainingBytes_ok {r : BitReader} (h : r.offset ≤ r.length) :
    ∃ bytes r', readRemainingBytes r = .ok (bytes, r') := by
  have hrest : Rest r ((Bits.ofBytes r.payload).drop r.offset) := ⟨h, rfl⟩
  have hlength := hrest.length_eq
  generalize (Bits.ofBytes r.payload).drop r.offset = bs at hrest hlength
  have hwhole : (bs.take (8 * (bs.length / 8))).length = 8 * (bs.length / 8) := by
    rw [List.length_take]
    omega
  have hfill : Bits.ofBytes (Bits.toBytes (bs.take (8 * (bs.length / 8))))
      = bs.take (8 * (bs.length / 8)) := Bits.ofBytes_toBytes (by omega)
  have hcount : (Bits.toBytes (bs.take (8 * (bs.length / 8)))).length = bs.length / 8 := by
    have hbits := congrArg List.length hfill
    rw [Bits.length_ofBytes, hwhole] at hbits
    omega
  rw [← List.take_append_drop (8 * (bs.length / 8)) bs, ← hfill] at hrest
  obtain ⟨r', hr', -⟩ := consumes_readBytes _ r _ hrest
  refine ⟨Bits.toBytes (bs.take (8 * (bs.length / 8))), r', ?_⟩
  unfold readRemainingBytes
  rw [if_neg (by omega), hlength]
  rwa [hcount] at hr'

/-- What is left, when it fills bytes. -/
theorem readRemainingBytes_eq {r : BitReader} {bytes : Bytes} (h : Rest r (Bits.ofBytes bytes)) :
    ∃ r', readRemainingBytes r = .ok (bytes, r') := by
  have hlength := h.length_eq
  rw [Bits.length_ofBytes] at hlength
  have hoffset := h.1
  obtain ⟨r', hr', -⟩ := consumes_readBytes bytes r [] (by rwa [List.append_nil])
  refine ⟨r', ?_⟩
  unfold readRemainingBytes
  rw [if_neg (by omega), hlength, Nat.mul_div_cancel_left _ (by decide)]
  exact hr'

end Consumes

/-! ## Packings -/

/-- The types of the wire table. -/
def typeTable : List (Nat × String) :=
  [(0, "shake"), (1, "bus"), (2, "shared_bus"), (3, "broadcast"), (4, "propagate"), (5, "escalate"),
    (6, "hello"), (7, "query"), (8, "cascade"), (9, "ping"), (10, "rendezvous"), (11, "3rdparty"),
    (12, "bin")]

theorem typeTable_spec {id : Nat} {name : String} (h : (id, name) ∈ typeTable) :
    id < 2 ^ 5 ∧ hiveIntToType (UInt8.ofNat id) = name := by
  have hall : ∀ e ∈ typeTable, e.1 < 2 ^ 5 ∧ hiveIntToType (UInt8.ofNat e.1) = e.2 := by decide
  exact hall _ h

def versionBits : Option Nat → List Bool
  | none => [false]
  | some version => true :: Bits.ofNat 8 version

/-- The bits of a frame, after so many of padding; `body` is what follows the metadata. -/
def packing (pad : Nat) (version : Option Nat) (id : Nat) (compressed : Bool) (metadata : Bytes)
    (body : List Bool) : List Bool :=
  (List.replicate pad false ++ [true])
    ++ (versionBits version ++ (Bits.ofNat 5 id ++ ([compressed]
      ++ (Bits.ofNat 8 metadata.length ++ (Bits.ofBytes metadata ++ body)))))

theorem length_packing_zero {id : Nat} {compressed : Bool} {metadata payload : Bytes} :
    (packing 0 none id compressed metadata (Bits.ofBytes payload)).length % 8 = 0 := by
  simp only [packing, versionBits, List.length_append, List.length_replicate, List.length_singleton,
    Bits.length_ofNat, Bits.length_ofBytes]
  omega

variable {codec : WireCodec}

/-- Bytes that are the text of a JSON object, or inflate to it. -/
def Holds (codec : WireCodec) (compressed : Bool) (bytes : Bytes) (text : String) (m : Map) : Prop :=
  codec.fromStr text = .ok (.object m)
  ∧ if compressed then codec.zlib bytes = (utf8 text, none) else bytes = utf8 text

/-- Bytes that carry a JSON object: what they inflate to is within the cap. -/
def Carries (codec : WireCodec) (compressed : Bool) (bytes : Bytes) (m : Map) : Prop :=
  ∃ text, Holds codec compressed bytes text m
    ∧ (compressed = true → (utf8 text).length ≤ MAX_INFLATED)

/-- The text is that of the bytes, inflated where they are compressed. -/
theorem decodeWireText_eq (payload : Bytes) (compressed : Bool) :
    decodeWireText codec payload compressed
      = (if compressed then inflate codec payload MAX_INFLATED else .ok payload).bind fun bytes =>
          (fromUtf8 bytes).elim (.error (.runtime (codec.displayUtf8Error bytes))) .ok := by
  unfold decodeWireText
  cases compressed with
  | false =>
    simp only [Bool.false_eq_true, if_false]
    refine congrArg (Except.bind (.ok payload)) (funext fun bytes => ?_)
    cases fromUtf8 bytes <;> rfl
  | true =>
    simp only [if_true]
    refine congrArg (Except.bind (inflate codec payload MAX_INFLATED)) (funext fun bytes => ?_)
    cases fromUtf8 bytes <;> rfl

theorem decodeWireText_carries {compressed : Bool} {bytes : Bytes} {m : Map}
    (h : Carries codec compressed bytes m) :
    (decodeWireText codec bytes compressed).bind (parseMap codec) = .ok m := by
  obtain ⟨text, ⟨hparse, htext⟩, hcap⟩ := h
  have hmap : parseMap codec text = .ok m := by
    unfold parseMap
    rw [hparse]
    rfl
  rw [decodeWireText_eq]
  cases compressed with
  | false =>
    have htext : bytes = utf8 text := htext
    rw [htext]
    show (Option.elim (fromUtf8 (utf8 text)) _ Except.ok).bind (parseMap codec) = _
    rw [fromUtf8_utf8]
    exact hmap
  | true =>
    have hlength := hcap rfl
    have hzlib : codec.zlib bytes = (utf8 text, none) := htext
    have hinflate : inflate codec bytes MAX_INFLATED = .ok (utf8 text) := by
      unfold inflate
      rw [hzlib]
      dsimp only
      rw [if_neg (by omega)]
    rw [if_pos rfl, hinflate]
    show (Option.elim (fromUtf8 (utf8 text)) _ Except.ok).bind (parseMap codec) = _
    rw [fromUtf8_utf8]
    exact hmap

theorem consumes_readMap {compressed : Bool} {bytes : Bytes} {m : Map}
    (h : Carries codec compressed bytes m) : Consumes (readMap codec bytes compressed) [] m := by
  intro r rest hr
  refine ⟨r, ?_, hr⟩
  unfold readMap
  rw [decodeWireText_carries h]
  rfl

theorem consumes_readVersion {version : Option Nat} (h : ∀ v, version = some v → v ≤ 1) :
    Consumes readVersion (versionBits version) () := by
  cases version with
  | none =>
    show Consumes readVersion ([false] ++ []) ()
    exact consumes_bind (consumes_readBit false) (consumes_pure ())
  | some v =>
    have hle := h v rfl
    have hbits : versionBits (some v) = [true] ++ (Bits.ofNat 8 v ++ []) := by simp [versionBits]
    rw [hbits]
    refine consumes_bind (consumes_readBit true) (consumes_bind (consumes_readUint (by omega)) ?_)
    rw [if_neg (by omega)]
    exact consumes_pure ()

/-- What the decoder does with what follows the metadata. -/
def readBody (codec : WireCodec) (id : Nat) (compressed : Bool) (metadata : Map) : Read HiveMessage :=
  let msgType := hiveIntToType (UInt8.ofNat id)
  if msgType = "bin" then do
    let kind ← readUint 4
    let clip ← readRemainingBytes
    return {
      msgType := msgType
      payload := []
      binary := some (binaryFrame (binaryKindName (UInt8.ofNat kind)) clip metadata)
      metadata := metadata }
  else do
    let payload ← readMap codec (← readRemainingBytes) compressed
    return { msgType := msgType, payload := payload, metadata := metadata }

variable {pad id : Nat} {version : Option Nat} {compressed : Bool} {metadata : Bytes}
  {body : List Bool} {m : Map}

/-- The fields before the body are read as they were packed. -/
theorem decode_packing_header (pad id : Nat) (version : Option Nat) (body : List Bool)
    (hfill : (packing pad version id compressed metadata body).length % 8 = 0)
    (hversion : ∀ v, version = some v → v ≤ 1) (hid : id < 2 ^ 5) (hlength : metadata.length ≤ 255)
    (hmetadata : Carries codec compressed metadata m) :
    ∃ r, Rest r body
      ∧ decodeHiveBinaryFrame codec (Bits.toBytes (packing pad version id compressed metadata body))
        = (readBody codec id compressed m r).map Prod.fst := by
  have hrest : Rest ⟨Bits.toBytes (packing pad version id compressed metadata body), 0⟩
      (packing pad version id compressed metadata body) := by
    have hnew := rest_new (Bits.toBytes (packing pad version id compressed metadata body))
    rwa [Bits.ofBytes_toBytes hfill] at hnew
  obtain ⟨r₁, hr₁, hrest⟩ := consumes_skipLeftPadding pad _ _ hrest
  obtain ⟨r₂, hr₂, hrest⟩ := consumes_readVersion hversion r₁ _ hrest
  obtain ⟨r₃, hr₃, hrest⟩ := consumes_readUint hid r₂ _ hrest
  obtain ⟨r₄, hr₄, hrest⟩ := consumes_readBit compressed r₃ _ hrest
  have hbyte : metadata.length < 2 ^ 8 := by omega
  obtain ⟨r₅, hr₅, hrest⟩ := consumes_readUint hbyte r₄ _ hrest
  obtain ⟨r₆, hr₆, hrest⟩ := consumes_readBytes metadata r₅ _ hrest
  obtain ⟨r₇, hr₇, hrest⟩ := consumes_readMap hmetadata r₆ _ hrest
  refine ⟨r₇, hrest, ?_⟩
  unfold decodeHiveBinaryFrame readFrame
  rw [run_bind hr₁, run_bind hr₂, run_bind hr₃, run_bind hr₄, run_bind hr₅, run_bind hr₆,
    run_bind hr₇]
  rfl

theorem readBody_payload {r : BitReader} {payload : Bytes} {p : Map}
    (hrest : Rest r (Bits.ofBytes payload)) (hpayload : Carries codec compressed payload p)
    (hname : hiveIntToType (UInt8.ofNat id) ≠ "bin") :
    (readBody codec id compressed m r).map Prod.fst
      = .ok { msgType := hiveIntToType (UInt8.ofNat id), payload := p, metadata := m } := by
  obtain ⟨r', hr'⟩ := readRemainingBytes_eq hrest
  have hmap : readMap codec payload compressed r' = .ok (p, r') := by
    unfold readMap
    rw [decodeWireText_carries hpayload]
    rfl
  unfold readBody
  rw [if_neg hname, run_bind hr', run_bind hmap]
  rfl

theorem readBody_clip {r : BitReader} {kind : Nat} {clip : Bytes} (hkind : kind < 2 ^ 4)
    (hrest : Rest r (Bits.ofNat 4 kind ++ Bits.ofBytes clip))
    (hname : hiveIntToType (UInt8.ofNat id) = "bin") :
    (readBody codec id compressed m r).map Prod.fst = .ok {
      msgType := "bin"
      payload := []
      binary := some (binaryFrame (binaryKindName (UInt8.ofNat kind)) clip m)
      metadata := m } := by
  obtain ⟨r', hr', hrest'⟩ := consumes_readUint hkind r _ hrest
  obtain ⟨r'', hr''⟩ := readRemainingBytes_eq hrest'
  unfold readBody
  rw [if_pos hname, run_bind hr', run_bind hr'', hname]
  rfl

/-! ## Any bytes -/

/-- A read that starts within the payload: it comes to no panic, and stays within. -/
def Tame {α : Type} (m : Read α) : Prop :=
  ∀ r, r.offset ≤ r.length →
    (∃ a r', m r = .ok (a, r') ∧ r'.payload = r.payload ∧ r.offset ≤ r'.offset ∧ r'.offset ≤ r'.length)
    ∨ ∃ err, m r = .error (.error err)

section Tame

variable {α β : Type} {m : Read α} {f : α → Read β}

theorem tame_pure (a : α) : Tame (pure a : Read α) := fun r h => .inl ⟨a, r, rfl, rfl, Nat.le_refl _, h⟩

theorem tame_ofResult (result : Result α) : Tame (Read.ofResult result) := by
  intro r h
  cases result with
  | ok a => exact .inl ⟨a, r, rfl, rfl, Nat.le_refl _, h⟩
  | error err => exact .inr ⟨err, rfl⟩

theorem tame_bind (hm : Tame m) (hf : ∀ a, Tame (f a)) : Tame (m >>= f) := by
  intro r h
  rcases hm r h with ⟨a, r', hr', hpayload, hle, h'⟩ | ⟨err, herr⟩
  · rw [run_bind hr']
    rcases hf a r' h' with ⟨b, r'', hr'', hpayload', hle', h''⟩ | ⟨err, herr⟩
    · exact .inl ⟨b, r'', hr'', hpayload'.trans hpayload, hle.trans hle', h''⟩
    · exact .inr ⟨err, herr⟩
  · refine .inr ⟨err, ?_⟩
    show (m r >>= fun x => f x.1 x.2) = _
    rw [herr]
    rfl

/-- A bit is read within the payload, or not at all. -/
theorem readBit_cases (r : BitReader) :
    (∃ bit, readBit r = .ok (bit, { r with offset := r.offset + 1 }) ∧ r.offset < r.length)
    ∨ ∃ err, readBit r = .error (.error err) := by
  unfold readBit
  split
  · exact .inr ⟨_, rfl⟩
  · next hlt =>
    have hbyte : r.offset / 8 < r.payload.length := by
      unfold BitReader.length at hlt
      omega
    rw [List.getElem?_eq_getElem hbyte]
    exact .inl ⟨_, rfl, by omega⟩

theorem tame_readBit : Tame readBit := by
  intro r h
  rcases readBit_cases r with ⟨bit, hbit, hlt⟩ | herr
  · exact .inl ⟨bit, _, hbit, rfl, Nat.le_succ _, hlt⟩
  · exact .inr herr

theorem tame_readUintFrom (width value : Nat) : Tame (readUintFrom value width) := by
  induction width generalizing value with
  | zero => exact tame_pure value
  | succ width ih => exact tame_bind tame_readBit fun _ => ih _

theorem tame_readUint (width : Nat) : Tame (readUint width) := tame_readUintFrom width 0

theorem tame_readBytes (len : Nat) : Tame (readBytes len) := by
  induction len with
  | zero => exact tame_pure []
  | succ len ih =>
    exact tame_bind (tame_readUint 8) fun _ => tame_bind ih fun _ => tame_pure _

theorem tame_readRemainingBytes : Tame readRemainingBytes := by
  intro r h
  unfold readRemainingBytes
  rw [if_neg (by omega)]
  exact tame_readBytes _ r h

/-- The padding ends before the payload does, or the payload has no set bit: by induction on how far
the end is. -/
theorem tame_skipPadding (fuel : Nat) (r : BitReader) (h : r.offset ≤ r.length)
    (hfuel : r.length - r.offset < fuel) :
    (∃ r', skipPadding fuel r = .ok ((), r') ∧ r'.payload = r.payload ∧ r.offset ≤ r'.offset
      ∧ r'.offset ≤ r'.length)
    ∨ ∃ err, skipPadding fuel r = .error (.error err) := by
  induction fuel generalizing r with
  | zero => omega
  | succ fuel ih =>
    unfold skipPadding
    rcases readBit_cases r with ⟨bit, hbit, hlt⟩ | ⟨err, herr⟩
    · rw [run_bind hbit]
      cases bit with
      | true => exact .inl ⟨_, rfl, rfl, Nat.le_succ _, hlt⟩
      | false =>
        have hnext := ih { r with offset := r.offset + 1 } hlt (by
          show r.length - (r.offset + 1) < fuel
          omega)
        rcases hnext with ⟨r', hr', hpayload, hle, h'⟩ | herr
        · exact .inl ⟨r', hr', hpayload, (Nat.le_succ _).trans hle, h'⟩
        · exact .inr herr
    · refine .inr ⟨err, ?_⟩
      show (readBit r >>= _) = _
      rw [herr]
      rfl

theorem tame_skipLeftPadding : Tame skipLeftPadding := by
  intro r h
  rcases tame_skipPadding (r.length + 1) r h (by omega) with ⟨r', hr', h'⟩ | herr
  · exact .inl ⟨(), r', hr', h'⟩
  · exact .inr herr

theorem tame_readVersion : Tame readVersion := by
  refine tame_bind tame_readBit fun versioned => ?_
  cases versioned with
  | false => exact tame_pure ()
  | true =>
    refine tame_bind (tame_readUint 8) fun version => ?_
    split
    · exact tame_ofResult _
    · exact tame_pure ()

theorem tame_readFrame : Tame (readFrame codec) := by
  refine tame_bind tame_skipLeftPadding fun _ => tame_bind tame_readVersion fun _ =>
    tame_bind (tame_readUint 5) fun id => tame_bind tame_readBit fun compressed =>
    tame_bind (tame_readUint 8) fun len => tame_bind (tame_readBytes len) fun bytes =>
    tame_bind (tame_ofResult _) fun metadata => ?_
  dsimp only
  split
  · exact tame_bind (tame_readUint 4) fun _ => tame_bind tame_readRemainingBytes fun _ => tame_pure _
  · exact tame_bind tame_readRemainingBytes fun _ => tame_bind (tame_ofResult _) fun _ => tame_pure _

end Tame

/-- A part that inflates past the cap is refused. -/
theorem decodeWireText_past_cap {bytes : Bytes} (h : MAX_INFLATED < (codec.zlib bytes).1.length) :
    ∃ err, decodeWireText codec bytes true = .error err := by
  have hinflate : ∃ err, inflate codec bytes MAX_INFLATED = .error err := by
    unfold inflate
    dsimp only
    rw [if_pos h]
    exact ⟨_, rfl⟩
  obtain ⟨err, herr⟩ := hinflate
  refine ⟨err, ?_⟩
  unfold decodeWireText
  rw [if_pos rfl, herr]
  rfl

/-- Whatever has been inflated and accepted is within the cap. -/
theorem decodeWireText_length {bytes : Bytes} {text : String}
    (h : decodeWireText codec bytes true = .ok text) : (utf8 text).length ≤ MAX_INFLATED := by
  by_cases hcap : MAX_INFLATED < (codec.zlib bytes).1.length
  · obtain ⟨err, herr⟩ := decodeWireText_past_cap hcap
    rw [herr] at h
    cases h
  · rw [decodeWireText_eq, if_pos rfl] at h
    unfold inflate at h
    dsimp only at h
    rw [if_neg hcap] at h
    cases herr : (codec.zlib bytes).2 with
    | some err =>
      rw [herr] at h
      cases h
    | none =>
      rw [herr] at h
      have h : Option.elim (fromUtf8 (codec.zlib bytes).1) _ Except.ok = Except.ok text := h
      cases htext : fromUtf8 (codec.zlib bytes).1 with
      | none =>
        rw [htext] at h
        cases h
      | some read =>
        rw [htext] at h
        cases h
        rw [utf8_of_fromUtf8 htext]
        omega

/-! ## The decoder and the layout -/

/--
**The decoder against the bit layout.** A packing decodes to its fields, with any padding that fills it to
whole bytes, with a supported version or none, compressed or not: those of a type that carries JSON, and
those of the binary type, of any kind and any clip. And whatever the bytes are, the decoder comes to no
panic, and accepts no part that inflates past the cap.
-/
theorem decode_layout (codec : WireCodec) :
    (∀ pad version id name compressed metadata m, (id, name) ∈ typeTable →
      (∀ v, version = some v → v ≤ 1) → metadata.length ≤ 255 → Carries codec compressed metadata m →
      (∀ payload p, name ≠ "bin" → Carries codec compressed payload p →
        let bits := packing pad version id compressed metadata (Bits.ofBytes payload)
        bits.length % 8 = 0 → decodeHiveBinaryFrame codec (Bits.toBytes bits)
          = .ok { msgType := name, payload := p, metadata := m })
      ∧ ∀ kind clip, name = "bin" → kind < 16 →
        let bits := packing pad version id compressed metadata (Bits.ofNat 4 kind ++ Bits.ofBytes clip)
        bits.length % 8 = 0 → decodeHiveBinaryFrame codec (Bits.toBytes bits) = .ok {
          msgType := "bin"
          payload := []
          binary := some (binaryFrame (binaryKindName (UInt8.ofNat kind)) clip m)
          metadata := m })
    ∧ (∀ bytes, ∃ r : Result HiveMessage, decodeHiveBinaryFrame codec bytes = r.mapError .error)
    ∧ ∀ bytes text, decodeWireText codec bytes true = .ok text → (utf8 text).length ≤ MAX_INFLATED := by
  refine ⟨fun pad version id name compressed metadata m htype hversion hlength hmetadata => ?_,
    fun bytes => ?_, fun bytes text h => decodeWireText_length h⟩
  · obtain ⟨hid, hname⟩ := typeTable_spec htype
    subst hname
    constructor
    · intro payload p hname hpayload bits hfill
      obtain ⟨r, hrest, hdecode⟩ := decode_packing_header _ _ _ _ hfill hversion hid hlength hmetadata
      exact hdecode.trans (readBody_payload hrest hpayload hname)
    · intro kind clip hname hkind bits hfill
      obtain ⟨r, hrest, hdecode⟩ := decode_packing_header _ _ _ _ hfill hversion hid hlength hmetadata
      exact hdecode.trans (readBody_clip hkind hrest hname)
  · -- no read goes past the end, whatever the bytes are
    have htame : Tame (readFrame codec) := tame_readFrame
    rcases htame ⟨bytes, 0⟩ (Nat.zero_le _) with ⟨message, r, hr, -⟩ | ⟨err, herr⟩
    · refine ⟨.ok message, ?_⟩
      unfold decodeHiveBinaryFrame
      rw [hr]
      rfl
    · refine ⟨.error err, ?_⟩
      unfold decodeHiveBinaryFrame
      rw [herr]
      rfl

/-! ## A payload past the cap -/

/-- Numbers are neither printed nor read. -/
def noNumbers : Json.NumberFormat Number where
  render _ := []
  read _ := none

/-- The libraries, of values without numbers and of zlib streams without compression. -/
def storedCodec : WireCodec where
  toVec m := .ok (utf8 (String.ofList (Json.print noNumbers (.object m))))
  fromStr raw := (Json.parse noNumbers raw.toList).elim (.error "expected value") .ok
  zlib := Zlib.inflate
  displayUtf8Error _ := "invalid utf-8 sequence"

/-- An empty object, with so many spaces in it. -/
def spacedObject (spaces : Nat) : String := String.ofList ('\x7b' :: (List.replicate spaces ' ' ++ ['\x7d']))

/-- The text of that object, in blocks: the spaces are in so many of one size. -/
def spacedBlocks (count size : Nat) : List Bytes :=
  [0x7b] :: (List.replicate count (List.replicate size 0x20) ++ [[0x7d]])

theorem fromStr_spacedObject (spaces : Nat) :
    storedCodec.fromStr (spacedObject spaces) = .ok (.object []) := by
  have hskip : Json.skipSpace (List.replicate spaces ' ' ++ ['\x7d']) = ['\x7d'] := by
    induction spaces with
    | zero => rfl
    | succ spaces ih => exact ih
  have hread : ∀ n, Json.readValue noNumbers (n + 1)
      ('\x7b' :: (List.replicate spaces ' ' ++ ['\x7d'])) = some (.object [], []) := by
    intro n
    rw [Json.readValue, Json.skipSpace_cons (by decide)]
    simp [hskip]
  unfold storedCodec spacedObject Json.parse
  dsimp only
  rw [String.toList_ofList, hread]
  rfl

theorem utf8_replicate (spaces : Nat) :
    utf8 (String.ofList (List.replicate spaces ' ')) = List.replicate spaces 0x20 := by
  induction spaces with
  | zero => rfl
  | succ spaces ih =>
    have hcons : String.ofList (List.replicate (spaces + 1) ' ')
        = " " ++ String.ofList (List.replicate spaces ' ') := by
      rw [← String.toList_inj]
      simp [List.replicate_succ]
    rw [hcons, utf8_append, ih]
    rfl

theorem utf8_spacedObject (spaces : Nat) :
    utf8 (spacedObject spaces) = 0x7b :: (List.replicate spaces 0x20 ++ [0x7d]) := by
  have hparts : spacedObject spaces
      = "\x7b" ++ (String.ofList (List.replicate spaces ' ') ++ "\x7d") := by
    rw [← String.toList_inj]
    simp [spacedObject]
  rw [hparts, utf8_append, utf8_append, utf8_replicate]
  rfl

theorem flatten_spacedBlocks (count size : Nat) :
    (spacedBlocks count size).flatten = utf8 (spacedObject (count * size)) := by
  rw [utf8_spacedObject, spacedBlocks, List.flatten_cons, List.flatten_append,
    List.flatten_replicate_replicate]
  rfl

/-- The stream of the blocks holds the object. -/
theorem holds_spacedBlocks (count : Nat) {size : Nat} (h : size < 65536) :
    Holds storedCodec true (Zlib.store (spacedBlocks count size)) (spacedObject (count * size)) [] := by
  have hcount : ∀ data ∈ spacedBlocks count size, data.length < 65536 := by
    intro data hdata
    rcases List.mem_cons.mp hdata with rfl | hdata
    · decide
    · rcases List.mem_append.mp hdata with hdata | hdata
      · rwa [List.eq_of_mem_replicate hdata, List.length_replicate]
      · rw [List.mem_singleton.mp hdata]
        decide
  refine ⟨fromStr_spacedObject _, ?_⟩
  rw [if_pos rfl, show storedCodec.zlib = Zlib.inflate from rfl, Zlib.inflate_store hcount,
    flatten_spacedBlocks]

theorem readBody_past_cap {r : BitReader} {payload : Bytes} (hrest : Rest r (Bits.ofBytes payload))
    (hname : hiveIntToType (UInt8.ofNat id) ≠ "bin")
    (hcap : MAX_INFLATED < (codec.zlib payload).1.length) :
    ∃ err, (readBody codec id true m r).map Prod.fst = .error err := by
  obtain ⟨r', hr'⟩ := readRemainingBytes_eq hrest
  obtain ⟨err, herr⟩ := decodeWireText_past_cap hcap
  refine ⟨.error err, ?_⟩
  unfold readBody
  rw [if_neg hname, run_bind hr']
  unfold readMap
  rw [herr]
  rfl

/-- A frame whose payload inflates past the cap is refused. -/
theorem decode_past_cap (version : Option Nat) {payload : Bytes} (hversion : ∀ v, version = some v → v ≤ 1)
    (hid : id < 2 ^ 5) (hlength : metadata.length ≤ 255) (hmetadata : Carries codec true metadata m)
    (hname : hiveIntToType (UInt8.ofNat id) ≠ "bin") (hcap : MAX_INFLATED < (codec.zlib payload).1.length)
    (hfill : (packing pad version id true metadata (Bits.ofBytes payload)).length % 8 = 0) :
    ∃ err, decodeHiveBinaryFrame codec
      (Bits.toBytes (packing pad version id true metadata (Bits.ofBytes payload))) = .error err := by
  obtain ⟨r, hrest, hread⟩ := decode_packing_header pad id version (Bits.ofBytes payload) hfill hversion hid
    hlength hmetadata
  obtain ⟨err, herr⟩ := readBody_past_cap (m := m) hrest hname hcap
  exact ⟨err, hread.trans herr⟩

/-- A payload may inflate past the cap. -/
theorem decode_layout_fails : ¬ ∀ (codec : WireCodec) pad version id name compressed metadata text m payload
    text' p, (id, name) ∈ typeTable → (∀ v, version = some v → v ≤ 1) → metadata.length ≤ 255 →
    Holds codec compressed metadata text m → name ≠ "bin" → Holds codec compressed payload text' p →
    let bits := packing pad version id compressed metadata (Bits.ofBytes payload)
    bits.length % 8 = 0 → decodeHiveBinaryFrame codec (Bits.toBytes bits)
      = .ok { msgType := name, payload := p, metadata := m } := by
  intro h
  have hmetadata := holds_spacedBlocks 0 (Nat.zero_lt_succ _ : 0 < 65536)
  have hsmall : (Zlib.store (spacedBlocks 0 0)).length ≤ 255 := by decide +kernel
  -- the spaces alone are past the cap: 513 blocks of 65535
  have hpayload := holds_spacedBlocks 513 (Nat.lt_succ_self 65535)
  have hcap : MAX_INFLATED < (storedCodec.zlib (Zlib.store (spacedBlocks 513 65535))).1.length := by
    rw [show storedCodec.zlib _ = _ from hpayload.2, utf8_spacedObject, List.length_cons, List.length_append,
      List.length_replicate]
    exact Nat.lt_of_lt_of_le (by decide) (Nat.le_succ_of_le (Nat.le_add_right _ _))
  have hdecode := h storedCodec 0 none 1 "bus" true _ _ _ _ _ _ (by decide) nofun hsmall hmetadata
    (by decide) hpayload length_packing_zero
  have hbus : hiveIntToType (UInt8.ofNat 1) ≠ "bin" := by decide
  have hcarries : Carries storedCodec true (Zlib.store (spacedBlocks 0 0)) [] :=
    ⟨_, hmetadata, fun _ => by decide +kernel⟩
  obtain ⟨err, herr⟩ := decode_past_cap none nofun (by decide) hsmall hcarries hbus hcap length_packing_zero
  rw [herr] at hdecode
  cases hdecode

end Thalovant.Wire
