import DatagramTunnel.Proofs.Flight.Outstanding
import DatagramTunnel.Proofs.Packet.Sizes
import DatagramTunnel.Proofs.Session.Acts
import DatagramTunnel.Proofs.Session.Creation

/-!
# What fits the path

Each kind of frame is kept within the MTU in its own way.  The token is checked when the endpoint is
created, data frames are cut to size, raw payloads are refused if they are too long, and an
acknowledgement is shorter than any MTU that the settings admit.  A PING and its PONG carry a nonce
of fixed length, and nothing relates that to the MTU: they are the one exception, and only where the
MTU is below their 65 bytes.

`Sized` is the invariant; it covers the send queue as well as the outbox, because a data frame may
wait there for a long time and be sent many times.
-/

namespace DatagramTunnel.Session

open Flight Packet Wire

/-- The datagram is a PING or a PONG. -/
def IsProbe (datagram : Bytes) : Prop :=
  ∃ nonce, datagram = (Frame.ping nonce).encode ∨ datagram = (Frame.pong nonce).encode

theorem IsProbe.length {datagram : Bytes} (h : IsProbe datagram) :
    datagram.length = kindSize + nonceSize := by
  obtain ⟨nonce, rfl | rfl⟩ := h <;>
    · rw [Frame.length_encode]
      rfl

/-- The datagram keeps within the MTU, or is one of those that are not held to it. -/
def Suits (mtu : Nat) (datagram : Bytes) : Prop := datagram.length ≤ mtu ∨ IsProbe datagram

/-- Valid settings leave room for a datagram of full size. -/
theorem Settings.mtu_le_recvBufferSize {s : Settings} (h : s.validate = .ok ()) :
    s.mtu ≤ s.recvBufferSize := by
  have hrule := Settings.validate_eq_ok_iff.1 h
    (s.mtu ≤ s.recvBufferSize, .recvBufferTooSmall s.recvBufferSize s.mtu) (by simp [rules])
  simpa using hrule

/-- A raw datagram is at most as long as the MTU. -/
theorem length_of_outbound {p p' : Pipes} {id : UInt8} {payload datagram : Bytes}
    (hmtu : pipeHeaderSize ≤ p.mtu) (h : p.outbound id payload = .ok (datagram, p')) :
    datagram.length ≤ p.mtu ∧ p'.mtu = p.mtu := by
  obtain ⟨hfits, rfl, rfl⟩ := Endpoint.outbound_eq_ok h
  rw [Pipes.maxPayload] at hfits
  have hlength : (Frame.pipe id payload).wireLength = pipeHeaderSize + payload.length := rfl
  rw [Frame.length_encode, hlength]
  exact ⟨by omega, rfl⟩

namespace Endpoint

variable {α σ : Type}

/-- Whatever the endpoint holds for the socket suits the MTU. -/
structure Sized (e : Endpoint α σ) : Prop where
  mtu : minMtu ≤ e.settings.mtu
  token : kindSize + e.token.length ≤ e.settings.mtu
  splitter : e.splitter.mtu = e.settings.mtu
  pipes : e.pipes.mtu = e.settings.mtu
  queue : ∀ w ∈ e.queue.outstanding, w.datagram.length ≤ e.settings.mtu
  outbox : ∀ datagram ∈ e.outbox, Suits e.settings.mtu datagram

namespace Sized

variable {e : Endpoint α σ}

/-- One more datagram is posted. -/
theorem extend (h : e.Sized) {e' : Endpoint α σ} {datagram : Bytes}
    (hsettings : e'.settings = e.settings) (htoken : e'.token = e.token)
    (hsplitter : e'.splitter = e.splitter) (hpipes : e'.pipes.mtu = e.pipes.mtu)
    (hqueue : e'.queue = e.queue) (houtbox : e'.outbox = e.outbox ++ [datagram])
    (hsuits : Suits e.settings.mtu datagram) : e'.Sized := by
  refine ⟨?_, ?_, ?_, ?_, ?_, ?_⟩
  · simpa [hsettings] using h.mtu
  · simpa [hsettings, htoken] using h.token
  · simpa [hsettings, hsplitter] using h.splitter
  · simpa [hsettings, hpipes] using h.pipes
  · simpa [hsettings, hqueue] using h.queue
  · simpa [hsettings, houtbox, or_imp, forall_and, hsuits] using h.outbox

theorem sendHello (h : e.Sized) (now : Nat) : (e.sendHello now).Sized := by
  have hhello : (Frame.hello e.token).encode.length ≤ e.settings.mtu := by
    rw [Frame.length_encode]
    exact h.token
  exact h.extend rfl rfl rfl rfl rfl rfl (.inl hhello)

/-- When the connection ends nothing is left to be sent. -/
theorem finish (h : e.Sized) (last : Event) : (e.finish last).Sized := by
  refine ⟨h.mtu, h.token, h.splitter, h.pipes, ?_, ?_⟩
  · intro w hw
    exact absurd hw List.not_mem_nil
  · intro datagram hdatagram
    exact absurd hdatagram List.not_mem_nil

theorem offered (h : e.Sized) (f : Fragment) : (e.offered f).Sized := by
  have hack : (Frame.ack f.seq).encode.length ≤ e.settings.mtu := by
    have hsmall : seqHeaderSize ≤ minMtu := by decide
    rw [Frame.length_encode]
    exact Nat.le_trans hsmall h.mtu
  unfold Endpoint.offered
  dsimp only
  split
  · exact h.extend rfl rfl rfl rfl rfl rfl (.inl hack)
  · exact ⟨h.mtu, h.token, h.splitter, h.pipes, h.queue, h.outbox⟩

/-- The send queue sends and keeps what it was given. -/
theorem pumped (h : e.Sized) (now timeout : Nat) : (e.pumped now timeout).Sized := by
  obtain ⟨hkept, hsent⟩ := e.queue.mem_outstanding_ticked now timeout
  refine ⟨h.mtu, h.token, h.splitter, h.pipes, fun w hw => h.queue w (hkept w hw), ?_⟩
  intro datagram hdatagram
  rcases List.mem_append.1 hdatagram with hold | hnew
  · exact h.outbox datagram hold
  · obtain ⟨w, hw, rfl⟩ := hsent datagram hnew
    exact .inl (h.queue w hw)

theorem enqueuePacket (h : e.Sized) (wrapped : Bytes) : (e.enqueuePacket wrapped).Sized := by
  have hheader : firstHeaderSize ≤ e.splitter.mtu := by
    rw [h.splitter]
    exact Nat.le_trans (by decide) h.mtu
  refine ⟨h.mtu, h.token, h.splitter, h.pipes, ?_, h.outbox⟩
  intro w hw
  replace hw := (SendQueue.outstanding_enqueueAll e.queue _) ▸ hw
  rcases List.mem_append.1 hw with hold | hnew
  · exact h.queue w hold
  · obtain ⟨f, hf, rfl⟩ := List.mem_map.1 hnew
    have hlength := e.splitter.wireLength_le hheader wrapped f hf
    rw [h.splitter] at hlength
    show (Frame.data f).encode.length ≤ e.settings.mtu
    rw [Frame.length_encode]
    exact hlength

end Sized

theorem create_sized [Mul α] [Seconds α] {settings : Settings} {token : Bytes}
    {transform : Transform σ} {secret : σ} {nonces : Nat → Nonce} {e : Endpoint α σ}
    (h : create settings token transform secret nonces = .ok e) : e.Sized := by
  obtain ⟨-, htoken, hnew, hpipes, -⟩ := create_eq_ok h
  have hsettings := hnew.settings_eq
  refine ⟨?_, ?_, ?_, ?_, ?_, ?_⟩
  · simpa [hsettings] using hnew.sound.mtu
  · simpa [hsettings, hnew.token_eq] using htoken
  · simp [hsettings, hnew.splitter_eq]
  · simp [hsettings, hpipes]
  · simp [hnew.queue_eq, SendQueue.outstanding]
  · simp [hnew.outbox_eq]

variable [Add α] [Sub α] [Mul α] [Seconds α]

variable {e e' : Endpoint α σ} {op : Operation}

theorem Sized.act (h : e.Sized) (hact : Act op e e') : e'.Sized := by
  cases hact with
  | @start now _ _ _ =>
    have hstarted : ({ e with handshakeStarted := some now } : Endpoint α σ).Sized :=
      ⟨h.mtu, h.token, h.splitter, h.pipes, h.queue, h.outbox⟩
    exact hstarted.sendHello now
  | retry _ _ _ => exact h.sendHello _
  | greet _ _ _ => exact h.sendHello _
  | fail _ _ => exact h.finish _
  | mismatch _ _ _ => exact h.finish _
  | down _ _ => exact h.finish _
  | @expire now _ _ _ =>
    have hwatched : ({ e with keepalive := (e.keepalive.tick now).2 } : Endpoint α σ).Sized :=
      ⟨h.mtu, h.token, h.splitter, h.pipes, h.queue, h.outbox⟩
    exact hwatched.finish _
  | ping _ _ => exact h.extend rfl rfl rfl rfl rfl rfl (.inr ⟨_, .inl rfl⟩)
  | offer _ _ => exact h.offered _
  | answer _ _ => exact h.extend rfl rfl rfl rfl rfl rfl (.inr ⟨_, .inr rfl⟩)
  | retire _ _ known =>
    exact ⟨h.mtu, h.token, h.splitter, h.pipes,
      fun w hw => h.queue w (SendQueue.mem_outstanding_acknowledge known hw), h.outbox⟩
  | enqueue _ _ => exact h.enqueuePacket _
  | pump _ _ _ => exact h.pumped _ _
  | launch _ outbound =>
    have hheader : pipeHeaderSize ≤ e.pipes.mtu := by
      rw [h.pipes]
      exact Nat.le_trans (by decide) h.mtu
    obtain ⟨hlength, hpipes⟩ := length_of_outbound hheader outbound
    rw [h.pipes] at hlength
    exact h.extend rfl rfl rfl hpipes rfl rfl (.inl hlength)
  | _ => exact ⟨h.mtu, h.token, h.splitter, h.pipes, h.queue, h.outbox⟩

theorem Sized.acts (h : e.Sized) (hacts : Acts op e e') : e'.Sized :=
  hacts.induct (P := Sized) (fun ih hact => ih.act hact) h

/-- An operation keeps to the MTU in what it hands out and in what it leaves behind. -/
theorem Sized.perform {answer : Answer} (h : e.Sized)
    (hperform : e.perform op = .ok (answer, e')) :
    e'.Sized ∧ e'.settings = e.settings ∧
      ∀ datagram ∈ answer.sent, Suits e.settings.mtu datagram := by
  cases perform_deed hperform with
  | acts hacts sent _ =>
    refine ⟨h.acts hacts, hacts.constants.1, ?_⟩
    simp [sent]
  | transmit outbox =>
    have hsuits := h.outbox
    simp only [outbox, List.mem_cons, forall_eq_or_imp] at hsuits
    refine ⟨⟨h.mtu, h.token, h.splitter, h.pipes, h.queue, hsuits.2⟩, rfl, ?_⟩
    simpa [Answer.sent] using hsuits.1
  | report _ =>
    exact ⟨⟨h.mtu, h.token, h.splitter, h.pipes, h.queue, h.outbox⟩, rfl, by simp [Answer.sent]⟩
  | shut _ _ =>
    exact ⟨⟨h.mtu, h.token, h.splitter, h.pipes, h.queue, h.outbox⟩, rfl, by simp [Answer.sent]⟩

/-- Whatever is sent in a run keeps within the MTU, and so fits the buffer of a peer with the same
settings.  Only where the MTU is below the length of a PING may a datagram be longer, and then it is
a PING or a PONG. -/
theorem datagrams_fit {settings : Settings} {token : Bytes} {transform : Transform σ} {secret : σ}
    {nonces : Nat → Nonce} {e₀ : Endpoint α σ} {ops : List Operation} {answers : List Answer}
    (hcreate : create settings token transform secret nonces = .ok e₀)
    (hrun : e₀.performAll ops = .ok (answers, e)) :
    ∀ datagram ∈ answers.flatMap Answer.sent,
      datagram.length ≤ settings.mtu ∧ datagram.length ≤ settings.recvBufferSize ∨
        settings.mtu < kindSize + nonceSize ∧ IsProbe datagram := by
  have hsized : e₀.Sized := create_sized hcreate
  have hsettings : e₀.settings = settings := (create_new hcreate).settings_eq
  have hbuffer := Settings.mtu_le_recvBufferSize (create_eq_ok hcreate).1
  have hnone : ∀ datagram ∈ ([] : List Answer).flatMap Answer.sent,
      Suits settings.mtu datagram := by simp
  obtain ⟨-, -, hsuits⟩ : e.Sized ∧ e.settings = settings ∧
      ∀ datagram ∈ answers.flatMap Answer.sent, Suits settings.mtu datagram := by
    refine performAll_induct (P := fun past e => e.Sized ∧ e.settings = settings ∧
      ∀ datagram ∈ past.flatMap Answer.sent, Suits settings.mtu datagram)
      (fun {past e op answer e'} ih hperform => ?_) ⟨hsized, hsettings, hnone⟩ hrun
    obtain ⟨hsized₁, hsettings₁, hpast⟩ := ih
    obtain ⟨hsized₂, hsame, hsent⟩ := hsized₁.perform hperform
    rw [hsettings₁] at hsame hsent
    refine ⟨hsized₂, hsame, fun datagram hdatagram => ?_⟩
    rw [List.flatMap_append, List.flatMap_singleton] at hdatagram
    rcases List.mem_append.1 hdatagram with hold | hnew
    · exact hpast datagram hold
    · exact hsent datagram hnew
  intro datagram hdatagram
  rcases hsuits datagram hdatagram with hshort | hprobe
  · exact .inl ⟨hshort, Nat.le_trans hshort hbuffer⟩
  · by_cases hroom : kindSize + nonceSize ≤ settings.mtu
    · rw [← hprobe.length] at hroom
      exact .inl ⟨hroom, Nat.le_trans hroom hbuffer⟩
    · exact .inr ⟨Nat.lt_of_not_le hroom, hprobe⟩

/-- A HELLO, a PING and the two frames of a packet, on a path of 100 bytes. -/
theorem datagrams_fit_hundred : ∃ (nonces : Nat → Nonce) (e₀ e : Endpoint Rat Unit)
    (ops : List Operation) (answers : List Answer),
      create { mtu := 100 } [7] .plain () nonces = .ok e₀ ∧
        e₀.performAll ops = .ok (answers, e) ∧
        (answers.flatMap Answer.sent).map List.length = [2, 65, 68, 65] ∧
        ∀ datagram ∈ answers.flatMap Answer.sent,
          datagram.length ≤ 100 ∧ datagram.length ≤ ({} : Settings).recvBufferSize := by
  obtain ⟨nonces, e₀, answers, e, hcreate, hrun, hlengths⟩ := exists_of_trial
    (p := fun r => (r.1.flatMap Answer.sent).map List.length == [2, 65, 68, 65])
    (show (trial { mtu := 100 } [7]
      [.connect 0, .receive (Frame.hello [7]).encode 0, .tick 0, .send (List.replicate 120 1) 0,
        .pollTransmit, .pollTransmit, .pollTransmit, .pollTransmit]).any _ = true by decide +kernel)
  rw [beq_iff_eq] at hlengths
  refine ⟨nonces, e₀, e, _, answers, hcreate, hrun, hlengths, fun datagram hdatagram => ?_⟩
  rcases datagrams_fit hcreate hrun datagram hdatagram with hfits | ⟨hnarrow, -⟩
  · exact hfits
  · exact absurd hnarrow (by decide)

/-- On the narrowest path that the settings admit, and for the smallest buffer, a PING is four times
too long. -/
theorem ping_exceeds_mtu : ∃ (nonces : Nat → Nonce) (e₀ e : Endpoint Rat Unit)
    (answers : List Answer),
      create { mtu := 16, recvBufferSize := 16 } [7] .plain () nonces = .ok e₀ ∧
        e₀.performAll [.connect 0, .receive (Frame.hello [7]).encode 0, .pollTransmit, .tick 0,
          .pollTransmit] = .ok (answers, e) ∧
        ∃ datagram ∈ answers.flatMap Answer.sent, datagram.length = 65 := by
  obtain ⟨nonces, e₀, answers, e, hcreate, hrun, hlong⟩ := exists_of_trial
    (p := fun r => (r.1.flatMap Answer.sent).any fun datagram => datagram.length == 65)
    (show (trial { mtu := 16, recvBufferSize := 16 } [7]
      [.connect 0, .receive (Frame.hello [7]).encode 0, .pollTransmit, .tick 0,
        .pollTransmit]).any _ = true by decide +kernel)
  obtain ⟨datagram, hdatagram, hlength⟩ := List.any_eq_true.1 hlong
  exact ⟨nonces, e₀, e, answers, hcreate, hrun, datagram, hdatagram, beq_iff_eq.1 hlength⟩

end Endpoint

end DatagramTunnel.Session
