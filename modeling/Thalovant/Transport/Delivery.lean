import Thalovant.Noise.Duplex
import Thalovant.Transport.WssCounter

/-!
# What the other end makes of the frames of a link

The messages of a link are encrypted one after the other from the cipher that its session began with
(`Sealing`): first the HELLO that ends the handshake, then the sends. Frames received in between move
the cipher, but not what it sends.

A hub whose session is in step with that beginning reads the frames of the link, as far as they have
reached it, as the first of these messages, whole and in order (`Sealing.delivers`): as long as none of
them is longer than the 32 MiB that a reassembly takes.
-/

namespace Thalovant.Transport

open Thalovant.Noise Fallible

variable {σ : Type} (env : ChannelEnv σ)

/-! ## Where a message comes from -/

/-- What is encrypted for a task: the message of a send, or the HELLO that a handshake ends with. -/
def Origin (jobs : Nat → Option Job) (task : Nat) (payload : Bytes) : Prop :=
  (∃ message, jobs task = some (.send message) ∧ env.toVec message = .ok payload)
  ∨ ∃ data binary identity uuid, jobs task = some (.receive data binary)
    ∧ env.toVec (helloHiveMessage identity "thalovant-rust-" uuid) = .ok payload

/-- A cipher that has sent nothing, whatever counts. -/
def Begins (snow : Snow) (t : snow.cipher.State) : Prop :=
  ∀ counter, SendCounter snow counter → counter t = 0

/-- The handshake, with the message written that is still the client's to write. -/
def lastWritten {snow : Snow} (handshake : NoiseHandshake snow) : NoiseHandshake snow :=
  if handshake.isFinished then handshake else (handshake.writeMessage []).2

/--
A frame is taken as the hub's answer, and ends the handshake of a channel in a session; `start` is the
cipher of that session.
-/
structure Opens (data : Bytes) (s : Link env) (start : env.snow.cipher.State) : Prop where
  fresh : s.1.session = none
  taken : ∃ writes s', receive env data false s = (.ok (none, writes), s') ∧ s'.1.session.isSome = true
  start : ∃ offer params message handshake payload read session,
    IsShake env data offer params ∧ envelope params = .ok message
    ∧ s.1.handshake = some handshake ∧ handshake.readMessage message = (.ok payload, read)
    ∧ (lastWritten read).intoSession = .ok session ∧ session.transport = start

/-- The frames as they are written. -/
def asWrites (frames : List Bytes) : List NoiseWrite :=
  frames.map fun frame => { payload := frame, binary := true }

/--
The messages of a link, from the cipher that its session began with to the one it has: each of them has
encrypted a payload or nothing.
-/
inductive Sealing (jobs : Nat → Option Job) (start : env.snow.cipher.State) :
    List (Sealed env.snow) → List (Nat × Bytes) → env.snow.cipher.State → Prop where
  | start : Sealing jobs start [] [] start
  | read {messages payloads t} (data : Bytes) (h : Sealing jobs start messages payloads t) :
    Sealing jobs start messages payloads (env.snow.cipher.readMessage t data).2
  | silent {messages payloads t} (s : Sealed env.snow) (hsilent : s.frames = [])
    (h : Sealing jobs start messages payloads t) : Sealing jobs start (messages ++ [s]) payloads t
  | encrypt {messages payloads t} (s : Sealed env.snow) (payload : Bytes) (frames : List Bytes)
    (t' : env.snow.cipher.State) (horigin : Origin env jobs s.task payload)
    (hwrite : writeAll t (plaintextFrames payload true) = (.ok frames, t'))
    (hframes : s.frames = asWrites frames) (h : Sealing jobs start messages payloads t) :
    Sealing jobs start (messages ++ [s]) (payloads ++ [(s.task, payload)]) t'

/-- What has been encrypted under the session of a channel; without one, nothing. `begun`: the cipher
that the session of the link has begun with. -/
def NoiseChannel.Seals (jobs : Nat → Option Job) (begun : env.snow.cipher.State → Prop)
    (c : NoiseChannel env.snow) (messages : List (Sealed env.snow)) : Prop :=
  match c.session with
  | none => ∀ s ∈ messages, s.frames = []
  | some session => ∃ start payloads, begun start ∧ Begins env.snow start
    ∧ Sealing env jobs start messages payloads session.transport

/-- The messages of a link, whether there is a session or not. -/
def AllSealed (jobs : Nat → Option Job) (begun : env.snow.cipher.State → Prop)
    (messages : List (Sealed env.snow)) : Prop :=
  (∀ s ∈ messages, s.frames = [])
  ∨ ∃ start payloads t, begun start ∧ Begins env.snow start
    ∧ Sealing env jobs start messages payloads t

variable {env} {jobs jobs' : Nat → Option Job} {begun begun' : env.snow.cipher.State → Prop}

/-- A frame opens a session with one cipher. -/
theorem Opens.unique {data : Bytes} {s : Link env} {start start' : env.snow.cipher.State}
    (h : Opens env data s start) (h' : Opens env data s start') : start = start' := by
  obtain ⟨offer, params, message, handshake, payload, read, session, ⟨m, hdata, -, hoffer, hnoise⟩,
    henvelope, hhandshake, hread, hinto, rfl⟩ := h.start
  obtain ⟨offer', params', message', handshake', payload', read', session', ⟨m', hdata', -, hoffer',
    hnoise'⟩, henvelope', hhandshake', hread', hinto', rfl⟩ := h'.start
  cases hdata.symm.trans hdata'
  cases hoffer.symm.trans hoffer'
  cases hnoise.symm.trans hnoise'
  cases henvelope.symm.trans henvelope'
  cases hhandshake.symm.trans hhandshake'
  cases hread.symm.trans hread'
  cases hinto.symm.trans hinto'
  rfl

/-- Later tasks change nothing. -/
theorem Origin.mono (hjobs : ∀ i job, jobs i = some job → jobs' i = some job) {task : Nat}
    {payload : Bytes} (h : Origin env jobs task payload) : Origin env jobs' task payload := by
  rcases h with ⟨message, hjob, hpayload⟩ | ⟨data, binary, identity, uuid, hjob, hpayload⟩
  · exact .inl ⟨message, hjobs _ _ hjob, hpayload⟩
  · exact .inr ⟨data, binary, identity, uuid, hjobs _ _ hjob, hpayload⟩

/-- A message has at least one frame. -/
theorem asWrites_ne_nil {t t' : env.snow.cipher.State} {payload : Bytes} {frames : List Bytes}
    (h : writeAll t (plaintextFrames payload true) = (.ok frames, t')) : asWrites frames ≠ [] := by
  have hpos := plaintextFrames_length_pos payload true
  rw [← writeAll_length h] at hpos
  unfold asWrites
  rw [ne_eq, List.map_eq_nil_iff]
  exact List.ne_nil_of_length_pos hpos

namespace Sealing

variable {start t : env.snow.cipher.State} {messages : List (Sealed env.snow)}
  {payloads : List (Nat × Bytes)}

theorem mono (hjobs : ∀ i job, jobs i = some job → jobs' i = some job)
    (h : Sealing env jobs start messages payloads t) : Sealing env jobs' start messages payloads t := by
  induction h with
  | start => exact .start
  | read data _ ih => exact ih.read data
  | silent s hsilent _ ih => exact ih.silent s hsilent
  | encrypt s payload frames t' horigin hwrite hframes _ ih =>
    exact ih.encrypt s payload frames t' (horigin.mono hjobs) hwrite hframes

/-- Messages that have encrypted nothing. -/
theorem silents : ∀ (silent : List (Sealed env.snow)), (∀ s ∈ silent, s.frames = []) →
    Sealing env jobs start messages payloads t → Sealing env jobs start (messages ++ silent) payloads t := by
  intro silent
  induction silent generalizing messages with
  | nil =>
    intro _ h
    rwa [List.append_nil]
  | cons s silent ih =>
    intro hsilent h
    have hone := h.silent s (hsilent s List.mem_cons_self)
    have hall := ih (fun s' hs' => hsilent s' (List.mem_cons_of_mem _ hs')) hone
    rwa [List.append_assoc] at hall

theorem origin (h : Sealing env jobs start messages payloads t) :
    ∀ p ∈ payloads, Origin env jobs p.1 p.2 := by
  induction h with
  | start => exact fun _ h => nomatch h
  | read data _ ih => exact ih
  | silent s hsilent _ ih => exact ih
  | encrypt s payload frames t' horigin hwrite hframes _ ih =>
    intro p hp
    rcases List.mem_append.mp hp with hp | hp
    · exact ih p hp
    · rw [List.mem_singleton.mp hp]
      exact horigin

/-- The payloads are those of the messages that have frames, in order. -/
theorem tasks (h : Sealing env jobs start messages payloads t) :
    payloads.map Prod.fst = (messages.filter fun s => !s.frames.isEmpty).map Sealed.task := by
  induction h with
  | start => rfl
  | read data _ ih => exact ih
  | silent s hsilent _ ih =>
    rw [List.filter_append, List.filter_singleton, hsilent, ih]
    simp
  | encrypt s payload frames t' horigin hwrite hframes _ ih =>
    have hsome : s.frames.isEmpty = false := by
      rw [hframes, List.isEmpty_eq_false_iff]
      exact asWrites_ne_nil hwrite
    rw [List.filter_append, List.filter_singleton, hsome, List.map_append, List.map_append, ih]
    rfl

/-- The cipher has written the plaintext frames of the payloads, and those are the frames of the link. -/
theorem linked {Linked : env.snow.cipher.State → List (Bytes × Bytes) → Nat → env.snow.cipher.State → Prop}
    (hC : InOrder env.snow.cipher Linked) {r : env.snow.cipher.State} (hr : Linked start [] 0 r)
    (h : Sealing env jobs start messages payloads t) :
    ∃ log, Linked t log 0 r
      ∧ log.map Prod.fst = plaintextsOf (payloads.map fun p => (p.2, true))
      ∧ asWrites (log.map Prod.snd) = messages.flatMap Sealed.frames := by
  induction h with
  | start => exact ⟨[], hr, rfl, rfl⟩
  | read data _ ih =>
    obtain ⟨log, hlinked, hplain, hframes⟩ := ih
    exact ⟨log, hC.sender data hlinked, hplain, hframes⟩
  | silent s hsilent _ ih =>
    obtain ⟨log, hlinked, hplain, hframes⟩ := ih
    exact ⟨log, hlinked, hplain, by
      rw [List.flatMap_append, List.flatMap_singleton, hsilent, List.append_nil, hframes]⟩
  | encrypt s payload frames t' horigin hwrite hs _ ih =>
    obtain ⟨log, hlinked, hplain, hframes⟩ := ih
    have hlen := writeAll_length hwrite
    have hlinked' := hC.writeAll _ hlinked hwrite
    refine ⟨log ++ (plaintextFrames payload true).zip frames, hlinked', ?_, ?_⟩
    · rw [List.map_append, List.map_fst_zip (Nat.le_of_eq hlen.symm), hplain, List.map_append]
      unfold plaintextsOf
      rw [List.flatMap_append, List.map_singleton, List.flatMap_singleton]
    · rw [List.map_append, List.map_snd_zip (Nat.le_of_eq hlen), List.flatMap_append,
        List.flatMap_singleton, hs, ← hframes]
      unfold asWrites
      rw [List.map_append]

end Sealing

/-! ## Reading -/

/-- The frames written are read in order, as far as they go. -/
theorem outputs_read {cipher : TransportCipher}
    {Linked : cipher.State → List (Bytes × Bytes) → Nat → cipher.State → Prop}
    (hC : InOrder cipher Linked) : ∀ (entries before after : List (Bytes × Bytes)) {s r : cipher.State},
    Linked s (before ++ entries ++ after) before.length r →
    Machine.outputs cipher.readMessage r (entries.map Prod.snd)
      = (entries.map Prod.fst).map Except.ok := by
  intro entries
  induction entries with
  | nil => exact fun _ _ _ _ _ => rfl
  | cons entry entries ih =>
    intro before after s r hlinked
    have hnext : (before ++ entry :: entries ++ after)[before.length]? = some entry := by
      rw [List.append_assoc, List.getElem?_append_right (Nat.le_refl _), Nat.sub_self]
      rfl
    obtain ⟨r', hread, hlinked'⟩ := hC.reads hlinked hnext
    have hrest : Linked s ((before ++ [entry]) ++ entries ++ after) (before ++ [entry]).length r' := by
      rw [List.length_append, List.length_singleton, List.append_assoc before [entry] entries]
      exact hlinked'
    rw [List.map_cons, Machine.outputs_cons, hread, ih _ _ hrest]
    rfl

theorem asWrites_payload (frames : List Bytes) :
    (asWrites frames).map NoiseWrite.payload = frames := by
  unfold asWrites
  rw [List.map_map]
  exact List.map_id frames

/-- No message of the grammar is refused. -/
theorem ok_plaintextsOf (messages : List (Bytes × Bool)) (hfit : Fit messages) :
    ∀ r ∈ Machine.outputs reassemble none (plaintextsOf messages), ∃ frame, r = .ok frame := by
  induction messages with
  | nil => exact fun _ h => nomatch h
  | cons m messages ih =>
    obtain ⟨hout, hempty⟩ := outputs_plaintextFrames m.2 (hfit m List.mem_cons_self)
    have hrest := ih fun m' hm' => hfit m' (List.mem_cons_of_mem _ hm')
    unfold plaintextsOf at hrest ⊢
    rw [List.flatMap_cons, Machine.outputs_append, hempty, hout]
    intro r hr
    rcases List.mem_append.mp hr with hr | hr
    · rcases List.mem_append.mp hr with hr | hr
      · exact ⟨_, (List.mem_replicate.mp hr).2⟩
      · exact ⟨_, List.mem_singleton.mp hr⟩
    · exact hrest r hr

/--
**The other end reads the messages of the link, as far as their frames have reached it.**

It refuses none of the frames. What it has read are the first messages, whole and in order; all of them
once it has all the frames.
-/
theorem Sealing.delivers
    {Linked : env.snow.cipher.State → List (Bytes × Bytes) → Nat → env.snow.cipher.State → Prop}
    (hC : InOrder env.snow.cipher Linked) {start t : env.snow.cipher.State}
    {messages : List (Sealed env.snow)} {payloads : List (Nat × Bytes)}
    (h : Sealing env jobs start messages payloads t) {wire : List NoiseWrite}
    (hwire : wire <+: messages.flatMap Sealed.frames) {hub : NoiseSession env.snow.cipher}
    (hlinked : Linked start [] 0 hub.transport) (hopen : hub.reassembly = none)
    (hfit : ∀ p ∈ payloads, p.2.length ≤ NOISE_MAX_REASSEMBLY) :
    let read := Machine.outputs decryptFrame hub (wire.map NoiseWrite.payload)
    delivered read <+: payloads.map (fun p => (p.2, true))
    ∧ (∀ r ∈ read, ∃ frame, r = .ok frame)
    ∧ (wire = messages.flatMap Sealed.frames → delivered read = payloads.map fun p => (p.2, true)) := by
  intro read
  obtain ⟨log, hlog, hplain, hframes⟩ := h.linked hC hlinked
  obtain ⟨rest, hrest⟩ := hwire
  have hfits : Fit (payloads.map fun p => (p.2, true)) := by
    intro m hm
    obtain ⟨p, hp, rfl⟩ := List.mem_map.mp hm
    exact hfit p hp
  -- the frames that have arrived are those of the first entries of the log
  have hsnd : wire.map NoiseWrite.payload = (log.take wire.length).map Prod.snd := by
    have hall := congrArg (List.map NoiseWrite.payload) (hrest.trans hframes.symm)
    rw [asWrites_payload, List.map_append] at hall
    rw [List.map_take, ← hall, List.take_append_of_le_length (by rw [List.length_map]),
      List.take_of_length_le (by rw [List.length_map])]
  have hsplit : log = [] ++ log.take wire.length ++ log.drop wire.length :=
    (List.take_append_drop wire.length log).symm
  have hread := outputs_read hC (log.take wire.length) [] (log.drop wire.length)
    (by rw [← hsplit]; exact hlog)
  obtain ⟨hout, -, -⟩ := outputs_decryptFrame _ _ hub hread
  have hplainSplit : plaintextsOf (payloads.map fun p => (p.2, true))
      = (log.take wire.length).map Prod.fst ++ (log.drop wire.length).map Prod.fst := by
    rw [← List.map_append, List.take_append_drop, hplain]
  have hrun := Machine.outputs_append reassemble none ((log.take wire.length).map Prod.fst)
    ((log.drop wire.length).map Prod.fst)
  rw [← hplainSplit] at hrun
  have hreadEq : read = Machine.outputs reassemble none ((log.take wire.length).map Prod.fst) := by
    show Machine.outputs decryptFrame hub (wire.map NoiseWrite.payload) = _
    rw [hsnd, hout, hopen]
  obtain ⟨hdelivered, -⟩ := delivered_plaintextsOf _ hfits
  rw [hrun, delivered_append, ← hreadEq] at hdelivered
  refine ⟨⟨_, hdelivered⟩, fun r hr => ?_, fun hwhole => ?_⟩
  · refine ok_plaintextsOf _ hfits r ?_
    rw [hrun, ← hreadEq]
    exact List.mem_append_left _ hr
  · have hlen : log.drop wire.length = [] := by
      refine List.drop_of_length_le ?_
      have := congrArg List.length (hwhole.trans hframes.symm)
      rw [asWrites, List.length_map, List.length_map] at this
      exact Nat.le_of_eq this.symm
    rw [hlen] at hdelivered
    simpa [delivered] using hdelivered

/-- The messages up to one of them are encrypted from the same beginning. -/
theorem Sealing.split {start t : env.snow.cipher.State} {messages rest : List (Sealed env.snow)}
    {payloads : List (Nat × Bytes)} (h : Sealing env jobs start (messages ++ rest) payloads t) :
    ∃ first more t₁, payloads = first ++ more ∧ Sealing env jobs start messages first t₁ := by
  generalize hall : messages ++ rest = all at h
  induction h generalizing rest with
  | start =>
    obtain ⟨rfl, -⟩ := List.append_eq_nil_iff.mp hall
    exact ⟨[], [], start, rfl, .start⟩
  | read data _ ih => exact ih hall
  | @silent before payloads t s hsilent h ih =>
    rcases rest.eq_nil_or_concat with rfl | ⟨rest, last, rfl⟩
    · rw [List.append_nil] at hall
      exact ⟨payloads, [], t, (List.append_nil _).symm, hall ▸ h.silent s hsilent⟩
    · rw [List.concat_eq_append, ← List.append_assoc] at hall
      exact ih (List.append_inj_left' hall rfl)
  | @encrypt before payloads t s payload frames t' horigin hwrite hframes h ih =>
    rcases rest.eq_nil_or_concat with rfl | ⟨rest, last, rfl⟩
    · rw [List.append_nil] at hall
      exact ⟨_, [], t', (List.append_nil _).symm,
        hall ▸ h.encrypt s payload frames t' horigin hwrite hframes⟩
    · rw [List.concat_eq_append, ← List.append_assoc] at hall
      obtain ⟨first, more, t₁, rfl, hfirst⟩ := ih (List.append_inj_left' hall rfl)
      exact ⟨first, more ++ [(s.task, payload)], t₁, List.append_assoc _ _ _, hfirst⟩

/-- A message whose frames have all reached the other end has been read. -/
theorem Sealing.delivers_of_whole
    {Linked : env.snow.cipher.State → List (Bytes × Bytes) → Nat → env.snow.cipher.State → Prop}
    (hC : InOrder env.snow.cipher Linked) {start t : env.snow.cipher.State}
    {messages rest : List (Sealed env.snow)} {payloads : List (Nat × Bytes)}
    (h : Sealing env jobs start (messages ++ rest) payloads t) {wire : List NoiseWrite}
    (hwire : messages.flatMap Sealed.frames <+: wire) {hub : NoiseSession env.snow.cipher}
    (hlinked : Linked start [] 0 hub.transport) (hopen : hub.reassembly = none)
    (hfit : ∀ p ∈ payloads, p.2.length ≤ NOISE_MAX_REASSEMBLY) {s : Sealed env.snow}
    (hs : s ∈ messages) (hframes : s.frames ≠ []) :
    let read := Machine.outputs decryptFrame hub (wire.map NoiseWrite.payload)
    ∃ payload, (s.task, payload) ∈ payloads.take (delivered read).length := by
  intro read
  obtain ⟨first, more, t₁, rfl, hfirst⟩ := h.split
  obtain ⟨after, rfl⟩ := hwire
  obtain ⟨-, -, hall⟩ := hfirst.delivers hC List.prefix_rfl hlinked hopen
    fun p hp => hfit p (List.mem_append_left _ hp)
  have hlength : first.length ≤ (delivered read).length := by
    show _ ≤ (delivered (Machine.outputs decryptFrame hub _)).length
    rw [List.map_append, Machine.outputs_append, delivered_append, hall rfl, List.length_append,
      List.length_map]
    exact Nat.le_add_right _ _
  have htask : s.task ∈ first.map Prod.fst := by
    rw [hfirst.tasks]
    exact List.mem_map.mpr ⟨s, List.mem_filter.mpr ⟨hs, by simpa using hframes⟩, rfl⟩
  obtain ⟨p, hp, heq⟩ := List.mem_map.mp htask
  refine ⟨p.2, ?_⟩
  rw [List.take_append, List.take_of_length_le hlength, ← heq]
  exact List.mem_append_left _ hp

/-- One message more is read after all that there were. -/
theorem Sealing.delivers_next
    {Linked : env.snow.cipher.State → List (Bytes × Bytes) → Nat → env.snow.cipher.State → Prop}
    (hC : InOrder env.snow.cipher Linked) {start t t' : env.snow.cipher.State}
    {messages : List (Sealed env.snow)} {payloads : List (Nat × Bytes)}
    (h : Sealing env jobs start messages payloads t) {hub : NoiseSession env.snow.cipher}
    (hlinked : Linked start [] 0 hub.transport) (hopen : hub.reassembly = none)
    (hfit : ∀ p ∈ payloads, p.2.length ≤ NOISE_MAX_REASSEMBLY) {s : Sealed env.snow} {payload : Bytes}
    (hlength : payload.length ≤ NOISE_MAX_REASSEMBLY) {frames : List Bytes}
    (horigin : Origin env jobs s.task payload)
    (hwrite : writeAll t (plaintextFrames payload true) = (.ok frames, t'))
    (hframes : s.frames = asWrites frames) :
    delivered (Machine.outputs decryptFrame hub
        ((messages.flatMap Sealed.frames ++ s.frames).map NoiseWrite.payload))
      = delivered (Machine.outputs decryptFrame hub
          ((messages.flatMap Sealed.frames).map NoiseWrite.payload)) ++ [(payload, true)] := by
  have hnext := h.encrypt s payload frames t' horigin hwrite hframes
  obtain ⟨-, -, hbefore⟩ := h.delivers hC List.prefix_rfl hlinked hopen hfit
  obtain ⟨-, -, hafter⟩ := hnext.delivers hC List.prefix_rfl hlinked hopen fun p hp => by
    rcases List.mem_append.mp hp with hp | hp
    · exact hfit p hp
    · rw [List.mem_singleton.mp hp]
      exact hlength
  rw [List.flatMap_append, List.flatMap_singleton] at hafter
  rw [hafter rfl, hbefore rfl, List.map_append, List.map_singleton]

/-! ## What the channel encrypts -/

/-- A message that is encoded is encrypted from the session's cipher. -/
theorem encode_ok {message : HiveMessage} {s s' : Link env} {writes : List NoiseWrite}
    (h : encode env message s = (.ok writes, s')) :
    ∃ session payload frames t', s.1.session = some session ∧ env.toVec message = .ok payload
      ∧ writeAll session.transport (plaintextFrames payload true) = (.ok frames, t')
      ∧ writes = asWrites frames
      ∧ s'.1.session = some { session with transport := t' } := by
  rcases encode_cases message s with ⟨he, -⟩ | ⟨session, hsession, -, he⟩
  · rw [he] at h
    cases h
  · rw [he] at h
    unfold encodeUnder at h
    obtain ⟨payload, s₁, hpayload, h⟩ := bind_eq_ok.mp h
    obtain ⟨hpayload, rfl⟩ : ofJson (env.toVec message) = .ok payload ∧ s = s₁ := by
      rw [ofExcept_apply] at hpayload
      exact ⟨congrArg Prod.fst hpayload, congrArg Prod.snd hpayload⟩
    rw [encryptMessage_eq_writeAll] at h
    simp only [modify_bind] at h
    rcases hw : writeAll session.transport (plaintextFrames payload true) with ⟨err | frames, t'⟩ <;>
      rw [hw] at h
    · cases h
    · cases h
      refine ⟨session, payload, frames, t', hsession, ?_, hw, rfl, rfl⟩
      rcases hvec : env.toVec message with err | payload' <;> rw [hvec] at hpayload <;>
        cases hpayload
      rfl

theorem sealedOf_asWrites (frames : List Bytes) : sealedOf (asWrites frames) = asWrites frames :=
  List.filter_eq_self.mpr fun write hwrite => by
    obtain ⟨frame, -, rfl⟩ := List.mem_map.mp hwrite
    rfl

/-- A handshake that is finished has its last message written. -/
theorem finishPattern_last {handshake : NoiseHandshake env.snow} {s s' : Link env}
    {writes : List NoiseWrite} (hs : s.1.handshake = some handshake)
    (h : finishPattern env handshake s = (.ok writes, s')) :
    s'.1.handshake = some (lastWritten handshake) := by
  unfold finishPattern at h
  unfold lastWritten
  split at h
  · next hfinished =>
    cases h
    rw [if_pos hfinished]
    exact hs
  · next hfinished =>
    rw [if_neg hfinished]
    simp only [modify_bind] at h
    obtain ⟨msg, s₁, hmsg, h⟩ := bind_eq_ok.mp h
    obtain ⟨write, s₂, hwrite, h⟩ := bind_eq_ok.mp h
    rw [ofExcept_apply, Prod.mk.injEq] at hmsg hwrite
    cases h
    rw [← hwrite.2, ← hmsg.2]

/-- The session that is installed is the one that the handshake has become. -/
theorem install_ok {s s' : Link env} {handshake : NoiseHandshake env.snow}
    (hs : s.1.handshake = some handshake) (h : install env s = (.ok (), s')) :
    ∃ session, handshake.intoSession = .ok session ∧ s'.1.session = some session := by
  rcases install_cases s with ⟨err, w, hr, -⟩ | ⟨handshake', session, remote, w, hs', hinto, -, -, hr⟩
  · cases hr.symm.trans h
  · cases hs.symm.trans hs'
    cases hr.symm.trans h
    exact ⟨session, hinto, rfl⟩

/-- The answer that ends a handshake is followed by the client's HELLO, the first message of its session. -/
theorem continueHandshake_hello {params : Map} {s s' : Link env} {writes : List NoiseWrite}
    (h : continueHandshake env params s = (.ok writes, s')) :
    ∃ before hello uuid s₁, (∀ write ∈ before, write.binary = false)
      ∧ encode env (helloHiveMessage s.1.identity "thalovant-rust-" uuid) s₁ = (.ok hello, s')
      ∧ writes = before ++ hello
      ∧ ∃ message handshake payload read session, envelope params = .ok message
        ∧ s.1.handshake = some handshake ∧ handshake.readMessage message = (.ok payload, read)
        ∧ (lastWritten read).intoSession = .ok session ∧ s₁.1.session = some session := by
  unfold continueHandshake at h
  obtain ⟨msg, s₁, hmsg, h⟩ := bind_eq_ok.mp h
  obtain rfl : s = s₁ := congrArg Prod.snd hmsg
  have henvelope : envelope params = .ok msg := congrArg Prod.fst hmsg
  rw [read_bind] at h
  rcases hhandshake : s.1.handshake with _ | handshake <;> rw [hhandshake] at h
  · cases h
  dsimp only at h
  rcases hread : handshake.readMessage msg with ⟨err | payload, read⟩ <;> rw [hread] at h
  · -- an answer that does not authenticate is an error
    dsimp only at h
    rw [modify_bind] at h
    unfold rejectAnswer at h
    obtain ⟨c, s₂, -, h⟩ := bind_eq_ok.mp h
    obtain ⟨-, s₃, -, h⟩ := bind_eq_ok.mp h
    obtain ⟨-, s₄, -, h⟩ := bind_eq_ok.mp h
    cases h
  dsimp only at h
  rw [modify_bind] at h
  obtain ⟨finished, done, hfinish, -, hclear⟩ := @finishPattern_cases σ env read
    ({ s.1 with handshake := some read }, s.2) rfl
  rcases finished with err | before
  · rw [bind_error hfinish] at h
    cases h
  rw [bind_ok hfinish] at h
  obtain ⟨⟨⟩, s₂, hinstall, h⟩ := bind_eq_ok.mp h
  obtain ⟨uuid, s₃, hdraw, h⟩ := bind_eq_ok.mp h
  obtain ⟨hello, s₄, hhello, h⟩ := bind_eq_ok.mp h
  cases h
  obtain ⟨session, hinto, hsession⟩ := install_ok (finishPattern_last rfl hfinish) hinstall
  have hsame : s₃.1 = s₂.1 := by
    cases hdraw
    rfl
  exact ⟨before, hello, uuid, s₃, hclear before rfl, hhello, rfl, msg, handshake, payload, read, session,
    henvelope, rfl, hread, hinto, by rw [hsame]; exact hsession⟩

/-- What a frame that is taken encrypts: nothing, or the HELLO of the session that it has ended in. -/
theorem receive_ok {data : Bytes} {binary : Bool} {s s' : Link env} {message : Option HiveMessage}
    {writes : List NoiseWrite} (h : receive env data binary s = (.ok (message, writes), s')) :
    (∃ session, s.1.session = some session ∧ writes = []
      ∧ s'.1.session = some (decryptFrame session data).2)
    ∨ (s.1.session = none ∧ sealedOf writes = [] ∧ s'.1.session = none)
    ∨ s.1.session = none ∧ ∃ (session session' : NoiseSession env.snow.cipher) (payload : Bytes)
        (frames : List Bytes) (identity : Identity) (uuid : String),
      binary = false ∧ Opens env data s session.transport
      ∧ env.toVec (helloHiveMessage identity "thalovant-rust-" uuid) = .ok payload
      ∧ writeAll session.transport (plaintextFrames payload true) = (.ok frames, session'.transport)
      ∧ sealedOf writes = asWrites frames ∧ s'.1.session = some session' := by
  rcases hfailed : s.1.failed with _ | _
  · rcases receive_cases data binary hfailed with ⟨err, hr⟩ |
      ⟨session, heard, failed, r, hsession, -, hr, hr'⟩ |
      ⟨clear, hnone, hbinary, hdata, ⟨writes', hwrites, hr⟩ | ⟨err, -, hr⟩⟩ <;> rw [hr] at h
    · cases h
    · cases h
      rcases hr' with ⟨err, herr⟩ | ⟨-, message', hmessage⟩
      · cases herr
      · cases hmessage
        exact .inl ⟨session, hsession, rfl, rfl⟩
    · cases h
      refine .inr ?_
      rcases hclear : receiveClear env clear s with ⟨r, s'⟩
      rw [hclear] at hwrites hr
      cases hwrites
      rcases receiveClear_cases clear with ⟨-, hcase⟩ | ⟨htype, params, hparams, ⟨-, hcase⟩ | ⟨-, hcase⟩⟩ |
        ⟨err, hcase⟩ <;> rw [hcase] at hclear
      · refine .inl ⟨hnone, ?_⟩
        rcases receiveHello_cases clear s with ⟨err, nodeId, hr⟩ | ⟨nodeId, hr⟩ <;> rw [hr] at hclear <;>
          cases hclear
        exact ⟨rfl, hnone⟩
      · obtain ⟨before, hello, uuid, s₁, hbefore, hencode, rfl, message, handshake, read, done, opened,
          henvelope, hhandshake, hread, hinto, hopened⟩ := continueHandshake_hello hclear
        obtain ⟨session, payload, frames, t', hsession, hpayload, hwrite, rfl, hend⟩ := encode_ok hencode
        cases hopened.symm.trans hsession
        subst hbinary
        refine .inr ⟨hnone, opened, _, payload, frames, s.1.identity, uuid, rfl, ?_, hpayload, hwrite, ?_,
          hend⟩
        · exact ⟨hnone, ⟨_, _, hr, by rw [hend]; rfl⟩, _, params, message, handshake, read, done, opened,
            ⟨clear, hdata, htype, rfl, hparams⟩, henvelope, hhandshake, hread, hinto, rfl⟩
        · rw [sealedOf_append, sealedOf_clear hbefore, List.nil_append, sealedOf_asWrites]
      · refine .inl ⟨hnone, ?_⟩
        have hstart := start_cases clear.payload params s
        rw [hclear] at hstart
        cases hstart with
        | begun r fresh handshake payload pattern suite w₁ w hhandshake hwrite hplain hadopt hprepare =>
          exact ⟨sealedOf_clear (hplain _ rfl), hnone⟩
      · cases hclear
    · cases h
  · rw [receive_of_failed hfailed] at h
    cases h

/-- A session is opened with a message, the client's HELLO. -/
theorem Opens.first {data : Bytes} {s : Link env} {start : env.snow.cipher.State}
    (h : Opens env data s start) :
    ∃ writes s', receive env data false s = (.ok (none, writes), s') ∧ sealedOf writes ≠ [] := by
  obtain ⟨writes, s', hr, hsession⟩ := h.taken
  refine ⟨writes, s', hr, ?_⟩
  rcases receive_ok hr with ⟨session, hsome, -⟩ | ⟨-, -, hnone⟩ |
    ⟨-, session, session', payload, frames, identity, uuid, -, -, -, hwrite, hsealed, -⟩
  · cases h.fresh.symm.trans hsome
  · rw [hnone] at hsession
    cases hsession
  · rw [hsealed]
    exact asWrites_ne_nil hwrite

/-- Where a session is opened, nothing has been encrypted yet. -/
theorem Opens.silent {data : Bytes} {s : Link env} {start : env.snow.cipher.State}
    (h : Opens env data s start) {messages : List (Sealed env.snow)}
    (hseals : s.1.Seals env jobs begun messages) : ∀ m ∈ messages, m.frames = [] := by
  unfold NoiseChannel.Seals at hseals
  rw [h.fresh] at hseals
  exact hseals

/-- What marks a channel leaves what it has encrypted. -/
theorem NoiseChannel.Seals.setFailed {c : NoiseChannel env.snow} {messages : List (Sealed env.snow)}
    (h : c.Seals env jobs begun messages) (failed : Bool) :
    ({ c with failed := failed } : NoiseChannel env.snow).Seals env jobs begun messages := h

theorem NoiseChannel.Seals.mono (hjobs : ∀ i job, jobs i = some job → jobs' i = some job)
    (hbegun : ∀ start, begun start → begun' start)
    {c : NoiseChannel env.snow} {messages : List (Sealed env.snow)} (h : c.Seals env jobs begun messages) :
    c.Seals env jobs' begun' messages := by
  unfold NoiseChannel.Seals at h ⊢
  rcases hsession : c.session with _ | session <;> rw [hsession] at h
  · exact h
  · obtain ⟨start, payloads, hstart, hbegins, hsealing⟩ := h
    exact ⟨start, payloads, hbegun start hstart, hbegins, hsealing.mono hjobs⟩

theorem NoiseChannel.Seals.allSealed {c : NoiseChannel env.snow} {messages : List (Sealed env.snow)}
    (h : c.Seals env jobs begun messages) : AllSealed env jobs begun messages := by
  unfold NoiseChannel.Seals at h
  rcases hsession : c.session with _ | session <;> rw [hsession] at h
  · exact .inl h
  · obtain ⟨start, payloads, hstart, hbegins, hsealing⟩ := h
    exact .inr ⟨start, payloads, _, hstart, hbegins, hsealing⟩

theorem AllSealed.mono (hjobs : ∀ i job, jobs i = some job → jobs' i = some job)
    (hbegun : ∀ start, begun start → begun' start)
    {messages : List (Sealed env.snow)} (h : AllSealed env jobs begun messages) :
    AllSealed env jobs' begun' messages := by
  rcases h with h | ⟨start, payloads, t, hstart, hbegins, hsealing⟩
  · exact .inl h
  · exact .inr ⟨start, payloads, t, hbegun start hstart, hbegins, hsealing.mono hjobs⟩

/-- A message that has encrypted nothing. -/
theorem AllSealed.silent {messages : List (Sealed env.snow)} (h : AllSealed env jobs begun messages)
    {s : Sealed env.snow} (hsilent : s.frames = []) : AllSealed env jobs begun (messages ++ [s]) := by
  rcases h with h | ⟨start, payloads, t, hstart, hbegins, hsealing⟩
  · refine .inl fun s' hs' => ?_
    rcases List.mem_append.mp hs' with hs' | hs'
    · exact h s' hs'
    · rw [List.mem_singleton.mp hs', hsilent]
  · exact .inr ⟨start, payloads, t, hstart, hbegins, hsealing.silent s hsilent⟩

/-- A channel that has sent nothing. -/
theorem seals_new (identity : Identity) (stateDir : Option String) (forceXx : Bool)
    (adoptFrom : Option String) :
    (NoiseChannel.new env.snow identity stateDir forceXx adoptFrom).Seals env jobs begun [] :=
  fun _ h => nomatch h

/-- A send is encrypted on from what was encrypted before. -/
theorem encode_seals {message : HiveMessage} {s s' : Link env} {writes : List NoiseWrite}
    {messages : List (Sealed env.snow)} (h : encode env message s = (.ok writes, s'))
    (hs : s.1.Seals env jobs begun messages) (entry : Sealed env.snow)
    (hjob : jobs entry.task = some (.send message)) (hframes : entry.frames = sealedOf writes) :
    s'.1.Seals env jobs begun (messages ++ [entry]) := by
  obtain ⟨session, payload, frames, t', hsession, hpayload, hwrite, rfl, hend⟩ := encode_ok h
  unfold NoiseChannel.Seals at hs ⊢
  rw [hsession] at hs
  rw [hend]
  obtain ⟨start, payloads, hstart, hbegins, hsealing⟩ := hs
  refine ⟨start, _, hstart, hbegins, hsealing.encrypt entry payload frames t' ?_ hwrite ?_⟩
  · exact .inl ⟨message, hjob, hpayload⟩
  · rw [hframes, sealedOf_asWrites]

/-- A frame that is taken encrypts nothing but the HELLO that begins the session. -/
theorem receive_seals {data : Bytes} {binary : Bool} {s s' : Link env} {message : Option HiveMessage}
    {writes : List NoiseWrite} {messages : List (Sealed env.snow)} {n : Nat}
    (h : receive env data binary s = (.ok (message, writes), s')) (hs : s.1.Seals env jobs begun messages)
    (hcounts : s.1.Counts n) (entry : Sealed env.snow)
    (hjob : ∃ data binary, jobs entry.task = some (.receive data binary))
    (hopens : ∀ start, binary = false → Opens env data s start → begun start)
    (hframes : entry.frames = sealedOf writes) : s'.1.Seals env jobs begun (messages ++ [entry]) := by
  unfold NoiseChannel.Seals at hs ⊢
  rcases receive_ok h with ⟨session, hsession, rfl, hend⟩ | ⟨hnone, hsilent, hend⟩ |
    ⟨hnone, session, session', payload, frames, identity, uuid, hbinary, hopen, hpayload, hwrite, hsealed,
      hend⟩
  · rw [hsession] at hs
    rw [hend]
    obtain ⟨start, payloads, hstart, hbegins, hsealing⟩ := hs
    have hstate : (decryptFrame session data).2.transport
        = (env.snow.cipher.readMessage session.transport data).2 := by
      unfold decryptFrame
      rcases env.snow.cipher.readMessage session.transport data with ⟨err | plaintext, r⟩ <;> rfl
    refine ⟨start, payloads, hstart, hbegins, ?_⟩
    rw [hstate]
    exact (hsealing.read data).silent entry hframes
  · rw [hnone] at hs
    rw [hend]
    intro entry' hentry
    rcases List.mem_append.mp hentry with hentry | hentry
    · exact hs entry' hentry
    · rw [List.mem_singleton.mp hentry, hframes, hsilent]
  · rw [hnone] at hs
    rw [hend]
    obtain ⟨data', binary', hjob⟩ := hjob
    refine ⟨session.transport, _, hopens _ hbinary hopen, fun counter hcounter => ?_,
      Sealing.encrypt entry payload frames session'.transport ?_ hwrite (hframes.trans hsealed)
        (Sealing.silents messages hs .start)⟩
    · -- the frames of the HELLO are all that the cipher has sent by now
      have hafter := (receive_counts h hcounts counter hcounter).2.1 session' hend
      rw [(hcounts counter hcounter).2.2 hnone, hsealed, writeAll_counter hcounter hwrite, asWrites,
        List.length_map, Nat.zero_add] at hafter
      exact Nat.add_eq_right.mp hafter
    · exact .inr ⟨data', binary', identity, uuid, hjob, hpayload⟩

end Thalovant.Transport
