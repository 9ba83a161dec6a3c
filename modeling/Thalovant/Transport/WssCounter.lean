import Thalovant.Transport.ChannelSteps
import Thalovant.Transport.Wss

/-!
# The send counter of a channel

Every frame that a channel encrypts moves its send counter on by one, and nothing else does: `encode`
by the frames of its message (`encode_counts`), a frame received by the client's HELLO, if it is the
one that ends the handshake (`receive_counts`).
-/

namespace Thalovant.Transport

open Thalovant.Noise Thalovant.Noise.NoiseHandshake Fallible

/-- The channel's cipher has sent `n` frames, whatever counts them. -/
def NoiseChannel.Counts {snow : Snow} (c : NoiseChannel snow) (n : Nat) : Prop :=
  ∀ counter, SendCounter snow counter →
    (∀ handshake, c.handshake = some handshake → handshake.Unsent counter)
    ∧ (∀ session, c.session = some session → counter session.transport = n)
    ∧ (c.session = none → n = 0)

theorem counts_new (snow : Snow) (identity : Identity) (stateDir : Option String) (forceXx : Bool)
    (adoptFrom : Option String) :
    (NoiseChannel.new snow identity stateDir forceXx adoptFrom).Counts 0 :=
  fun _ _ => ⟨(fun _ h => nomatch h), (fun _ h => nomatch h), fun _ => rfl⟩

/-- What marks the transport leaves the cipher. -/
theorem NoiseChannel.Counts.setFailed {snow : Snow} {c : NoiseChannel snow} {n : Nat}
    (h : c.Counts n) (failed : Bool) : ({ c with failed := failed } : NoiseChannel snow).Counts n := h

theorem sealedOf_append (writes writes' : List NoiseWrite) :
    sealedOf (writes ++ writes') = sealedOf writes ++ sealedOf writes' := List.filter_append ..

theorem sealedOf_clear {writes : List NoiseWrite} (h : ∀ write ∈ writes, write.binary = false) :
    sealedOf writes = [] :=
  List.filter_eq_nil_iff.mpr fun write hwrite => by simp [h write hwrite]

variable {σ : Type} {env : ChannelEnv σ}

/-- Encrypting moves the counter on by the frames. -/
theorem Encoded.counter {session session' : NoiseSession env.snow.cipher} {writes : List NoiseWrite}
    (h : Encoded session (.ok writes) session') {counter : env.snow.cipher.State → Nat}
    (hcounter : SendCounter env.snow counter) :
    counter session'.transport = counter session.transport + (sealedOf writes).length := by
  generalize hr : (Except.ok writes : Result (List NoiseWrite)) = r at h
  cases h with
  | refused err => cases hr
  | encrypted payload =>
    rcases hencrypt : encryptMessage session payload true with ⟨err | frames, session'⟩ <;>
      rw [hencrypt] at hr
    · cases hr
    · cases hr
      have hall : sealedOf (frames.map fun frame => { payload := frame, binary := true })
          = frames.map fun frame => { payload := frame, binary := true } :=
        List.filter_eq_self.mpr fun write hwrite => by
          obtain ⟨frame, -, rfl⟩ := List.mem_map.mp hwrite
          rfl
      rw [hall, List.length_map]
      exact encryptMessage_counter hcounter hencrypt

theorem encode_counts {message : HiveMessage} {s s' : Link env} {writes : List NoiseWrite} {n : Nat}
    (h : encode env message s = (.ok writes, s')) (hs : s.1.Counts n) :
    s'.1.Counts (n + (sealedOf writes).length) := by
  intro counter hcounter
  obtain ⟨hunsent, hcount, -⟩ := hs counter hcounter
  rcases encode_cases message s with ⟨he, -⟩ | ⟨session, hsession, -, he⟩
  · rw [he] at h
    cases h
  · obtain ⟨r, session', henc, hencoded⟩ := encodeUnder_cases session message s hsession
    rw [he, henc] at h
    cases h
    refine ⟨hunsent, ?_, fun h => nomatch h⟩
    rintro _ ⟨⟩
    rw [hencoded.counter hcounter, hcount session hsession]

theorem negotiated_counts {s : Link env} {out : Result (List NoiseWrite) × Link env}
    (h : Negotiated s out) (hnone : s.1.session = none) (hs : s.1.Counts 0)
    {writes : List NoiseWrite} (hwrites : out.1 = .ok writes) :
    out.2.1.Counts (sealedOf writes).length := by
  intro counter hcounter
  obtain ⟨hunsent, -⟩ := hs counter hcounter
  cases h with
  | refused err => cases hwrites
  | hello r nodeId hello hempty =>
    obtain rfl := hempty writes hwrites
    exact ⟨hunsent, fun session h => absurd (hnone.symm.trans h) (by simp), fun _ => rfl⟩
  | offer offer params out h =>
    cases h with
    | refused err => cases hwrites
    | stopped err w hhandshake hworld => cases hwrites
    | begun r fresh handshake payload pattern suite w₁ w hhandshake hwrite hclear hadopt hprepare =>
      rw [sealedOf_clear (hclear writes hwrites)]
      refine ⟨?_, fun session h => absurd (hnone.symm.trans h) (by simp), fun _ => rfl⟩
      rintro _ ⟨⟩
      rw [hwrite]
      exact Unsent.writeMessage hcounter (prepare_unsent hprepare) payload
  | answer params out h =>
    cases h with
    | refused err => cases hwrites
    | rejected message handshake err henvelope hhandshake hread => cases hwrites
    | stopped err before handshake w hhandshake hdone hworld => cases hwrites
    | installed message handshake read done payload session session' remote w writes₀ sent henvelope
        hhandshake hread hdone hinto hremote hcheck hclear hsent =>
      -- the session begins with a cipher that has sent nothing, and its HELLO is the first
      rcases sent with err | hello
      · cases hwrites
      · cases hwrites
        have hread' : read.Unsent counter := by
          have := Unsent.readMessage hcounter (hunsent handshake hhandshake) message
          rwa [hread] at this
        have hdone' : done.Unsent counter := by
          rcases hdone with rfl | rfl
          · exact hread'
          · exact hread'.writeMessage hcounter []
        refine ⟨(fun _ h => nomatch h), ?_, fun h => nomatch h⟩
        rintro _ ⟨⟩
        rw [hsent.counter hcounter, hdone'.intoSession hinto, sealedOf_append, sealedOf_clear hclear,
          Nat.zero_add, List.nil_append]

/-- A frame that is taken moves the counter on by what it is answered with. -/
theorem receive_counts {data : Bytes} {binary : Bool} {s s' : Link env} {message : Option HiveMessage}
    {writes : List NoiseWrite} {n : Nat}
    (h : receive env data binary s = (.ok (message, writes), s')) (hs : s.1.Counts n) :
    s'.1.Counts (n + (sealedOf writes).length) := by
  rcases hfailed : s.1.failed with _ | _
  · rcases receive_cases data binary hfailed with ⟨err, hr⟩ |
      ⟨session, heard, failed, r, hsession, -, hr, hr'⟩ |
      ⟨clear, hnone, -, -, ⟨writes', hwrites, hr⟩ | ⟨err, -, hr⟩⟩ <;> rw [hr] at h
    · cases h
    · cases h
      rcases hr' with ⟨err, herr⟩ | ⟨-, message', hmessage⟩
      · cases herr
      · cases hmessage
        intro counter hcounter
        obtain ⟨hunsent, hcount, -⟩ := hs counter hcounter
        refine ⟨hunsent, ?_, fun h => nomatch h⟩
        rintro _ ⟨⟩
        rw [decryptFrame_counter hcounter]
        exact hcount session hsession
    · cases h
      intro counter hcounter
      obtain rfl : n = 0 := (hs counter hcounter).2.2 hnone
      rw [Nat.zero_add]
      exact negotiated_counts (receiveClear_negotiated clear s) hnone hs hwrites counter hcounter
    · cases h
  · rw [receive_of_failed hfailed] at h
    cases h

end Thalovant.Transport
