import DatagramTunnel.Proofs.Session.History
import DatagramTunnel.Proofs.Session.PathLimit

/-!
# Refused requests

Something may stand against a request to send at several points: the phase, the size of what is to
be sent, the transform, and the size of what the transform made of it.  `packetObjections` and
`rawObjections` list all that stands against a request in the order in which it is found, whether or
not something else stands against it already.

A request is granted if nothing stands against it; otherwise the answer is the first objection, and
of the endpoint nothing has changed but what the transform keeps for itself: `refusals_exact`.
-/

namespace DatagramTunnel.Session

open Flight Packet Wire

/-! ## Objections -/

/-- What stands against this size where `limit` bytes are admitted. -/
def sizeObjections (size limit : Nat) : List TunnelError :=
  if limit < size then [.packetTooLarge size limit] else []

/-- What stands against the outcome of a transform where `limit` bytes are admitted. -/
def wrappingObjections (outcome : Except TransformError Bytes) (limit : Nat) : List TunnelError :=
  match outcome with
  | .error cause => [.transform cause]
  | .ok wrapped => sizeObjections wrapped.length limit

/-- Why nothing can be sent in a phase. -/
def Phase.objections : Phase → List TunnelError
  | .established => []
  | .connecting => [.notEstablished .connecting]
  | .closing | .closed => [.closed]

theorem sizeObjections_eq_nil_iff {size limit : Nat} :
    sizeObjections size limit = [] ↔ size ≤ limit := by
  simp [sizeObjections]

theorem wrappingObjections_eq_nil_iff {outcome : Except TransformError Bytes} {limit : Nat} :
    wrappingObjections outcome limit = [] ↔
      ∃ wrapped, outcome = .ok wrapped ∧ wrapped.length ≤ limit := by
  cases outcome <;> simp [wrappingObjections, sizeObjections_eq_nil_iff]

theorem Phase.objections_eq_nil_iff {phase : Phase} :
    phase.objections = [] ↔ phase = .established := by
  cases phase <;> simp [Phase.objections]

/-- The first objection to a size is to that size, and names the limit. -/
theorem head?_sizeObjections {size limit : Nat} (h : limit < size) :
    (sizeObjections size limit).head? = some (.packetTooLarge size limit) := by
  simp [sizeObjections, h]

namespace Endpoint

variable {α σ : Type}

/-- What stands against sending the packet. -/
def packetObjections (e : Endpoint α σ) (packet : Bytes) : List TunnelError :=
  e.phase.objections ++ sizeObjections packet.length e.settings.maxPacketSize ++
    wrappingObjections (e.transform.wrap e.secret packet).1 e.settings.maxPacketSize

/-- How a raw payload is wrapped, and what the transform keeps then. -/
def wrapRaw (e : Endpoint α σ) (payload : Bytes) : Except TransformError Bytes × σ :=
  if e.settings.transformRaw then e.transform.wrap e.secret payload else (.ok payload, e.secret)

/-- What stands against sending the raw payload. -/
def rawObjections (e : Endpoint α σ) (payload : Bytes) : List TunnelError :=
  e.phase.objections ++
    wrappingObjections (e.wrapRaw payload).1 (e.settings.mtu - pipeHeaderSize)

/-- Nothing stands against a packet that the endpoint can send. -/
theorem packetObjections_eq_nil_iff {e : Endpoint α σ} {packet : Bytes} :
    e.packetObjections packet = [] ↔
      e.phase = .established ∧ packet.length ≤ e.settings.maxPacketSize ∧
        ∃ wrapped, (e.transform.wrap e.secret packet).1 = .ok wrapped ∧
          wrapped.length ≤ e.settings.maxPacketSize := by
  simp only [packetObjections, List.append_eq_nil_iff, Phase.objections_eq_nil_iff,
    sizeObjections_eq_nil_iff, wrappingObjections_eq_nil_iff, and_assoc]

/-- Nothing stands against a raw payload that fits a datagram. -/
theorem rawObjections_eq_nil_iff {e : Endpoint α σ} {payload : Bytes}
    (hroom : pipeHeaderSize ≤ e.settings.mtu) :
    e.rawObjections payload = [] ↔
      e.phase = .established ∧ ∃ wrapped, (e.wrapRaw payload).1 = .ok wrapped ∧
        wrapped.length + pipeHeaderSize ≤ e.settings.mtu := by
  simp only [rawObjections, List.append_eq_nil_iff, Phase.objections_eq_nil_iff,
    wrappingObjections_eq_nil_iff, Nat.le_sub_iff_add_le hroom]

/-! ## Answers -/

/-- A request has been answered as the objections to it demand, and a refusal left everything as it
was but for `secret`, which the transform may keep. -/
structure Answers (e : Endpoint α σ) (objections : List TunnelError) (secret : σ)
    (result : Except TunnelError Unit) (e' : Endpoint α σ) : Prop where
  granted_iff : result = .ok () ↔ objections = []
  refused_iff : ∀ cause, result = .error cause ↔ objections.head? = some cause
  unchanged : result ≠ .ok () → e' = e ∨ e' = { e with secret }

namespace Answers

variable {e e' : Endpoint α σ} {objections : List TunnelError} {secret : σ} {cause : TunnelError}

theorem refused (hfirst : objections.head? = some cause)
    (hkept : e' = e ∨ e' = { e with secret }) :
    e.Answers objections secret (.error cause) e' := by
  refine ⟨?_, ?_, fun _ => hkept⟩
  · constructor
    · intro h
      cases h
    · rintro rfl
      cases hfirst
  · simp [hfirst]

theorem granted (hnone : objections = []) : e.Answers objections secret (.ok ()) e' := by
  refine ⟨by simp [hnone], ?_, fun h => absurd rfl h⟩
  simp [hnone]

end Answers

/-- In a phase in which nothing can be sent, that is the first objection. -/
theorem head?_phase_objections {e : Endpoint α σ} {cause : TunnelError}
    (h : e.refusal? = some cause) (rest : List TunnelError) :
    (e.phase.objections ++ rest).head? = some cause := by
  cases hphase : e.phase <;> simp_all [refusal?, Phase.objections]

/-- A raw payload is sent or refused. -/
theorem sendRaw_answers {e : Endpoint α σ} (hpipes : e.pipes.mtu = e.settings.mtu) (id : UInt8)
    (payload : Bytes) :
    e.Answers (e.rawObjections payload) (e.wrapRaw payload).2 (e.sendRaw id payload).1
      (e.sendRaw id payload).2 := by
  unfold sendRaw
  cases hrefusal : e.refusal? with
  | some cause => exact .refused (head?_phase_objections hrefusal _) (.inl rfl)
  | none =>
    have hobjections : e.rawObjections payload =
        wrappingObjections (e.wrapRaw payload).1 (e.settings.mtu - pipeHeaderSize) := by
      rw [rawObjections, Phase.objections_eq_nil_iff.2 (refusal?_eq_none_iff.1 hrefusal)]
      rfl
    have hlimit : e.pipes.maxPayload = e.settings.mtu - pipeHeaderSize := by
      rw [Pipes.maxPayload, hpipes]
    rw [hobjections, ← hlimit, wrapRaw]
    dsimp only
    generalize (if e.settings.transformRaw then e.transform.wrap e.secret payload
      else (.ok payload, e.secret)) = wrapping
    obtain ⟨outcome, secret⟩ := wrapping
    cases outcome with
    | error cause => exact .refused rfl (.inr rfl)
    | ok wrapped =>
      by_cases hlong : e.pipes.maxPayload < wrapped.length
      · have hfirst := head?_sizeObjections hlong
        simp only [Pipes.outbound, if_pos hlong]
        exact .refused hfirst (.inr rfl)
      · have hnone := sizeObjections_eq_nil_iff.2 (Nat.le_of_not_lt hlong)
        simp only [Pipes.outbound, if_neg hlong]
        exact .granted hnone

variable [Mul α] [Seconds α]

/-- A packet is taken or refused, provided that frames can be sent if nothing stands against it. -/
theorem send_answers {e : Endpoint α σ} {packet : Bytes} {now : Nat}
    (hready : e.packetObjections packet = [] → e.Pumpable now) :
    ∃ result e', e.send packet now = .ok (result, e') ∧
      e.Answers (e.packetObjections packet) (e.transform.wrap e.secret packet).2 result e' := by
  unfold send
  cases hrefusal : e.refusal? with
  | some cause =>
    have hfirst : (e.packetObjections packet).head? = some cause := by
      rw [packetObjections, List.append_assoc]
      exact head?_phase_objections hrefusal _
    exact ⟨_, _, rfl, .refused hfirst (.inl rfl)⟩
  | none =>
    have hup : e.phase.objections = [] :=
      Phase.objections_eq_nil_iff.2 (refusal?_eq_none_iff.1 hrefusal)
    dsimp only
    split
    · rename_i hlong
      have hfirst : (e.packetObjections packet).head? =
          some (.packetTooLarge packet.length e.settings.maxPacketSize) := by
        rw [packetObjections, hup, List.nil_append]
        rw [List.head?_append, head?_sizeObjections hlong]
        rfl
      exact ⟨_, _, rfl, .refused hfirst (.inl rfl)⟩
    · rename_i hshort
      have hobjections : e.packetObjections packet =
          wrappingObjections (e.transform.wrap e.secret packet).1 e.settings.maxPacketSize := by
        rw [packetObjections, hup, sizeObjections, if_neg hshort]
        rfl
      rw [hobjections] at hready ⊢
      cases hwrap : (e.transform.wrap e.secret packet).1 with
      | error cause => exact ⟨_, _, rfl, .refused rfl (.inr rfl)⟩
      | ok wrapped =>
        rw [hwrap] at hready
        dsimp only
        split
        · rename_i hlong
          exact ⟨_, _, rfl, .refused (head?_sizeObjections hlong) (.inr rfl)⟩
        · rename_i hfits
          have hnone := sizeObjections_eq_nil_iff.2 (Nat.le_of_not_lt hfits)
          have hqueued : ({ e with secret := (e.transform.wrap e.secret packet).2
            }.enqueuePacket wrapped).Pumpable now := hready hnone
          obtain ⟨e', hpump⟩ := exists_pump_iff.2 hqueued
          rw [hpump]
          exact ⟨_, _, rfl, .granted hnone⟩

variable [Add α] [Sub α]

/-- Throughout a run the endpoint keeps to the MTU of the settings that it was created with. -/
theorem sized_run {settings : Settings} {token : Bytes} {transform : Transform σ} {secret : σ}
    {nonces : Nat → Nonce} {e₀ e : Endpoint α σ} {ops : List Operation} {answers : List Answer}
    (hcreate : create settings token transform secret nonces = .ok e₀)
    (hrun : e₀.performAll ops = .ok (answers, e)) : e.Sized ∧ e.settings = settings := by
  refine performAll_induct_past (P := fun _ _ e => e.Sized ∧ e.settings = settings)
    (fun _ ih hperform => ?_) ⟨create_sized hcreate, (create_new hcreate).settings_eq⟩ hrun
  obtain ⟨hsized, hsame, -⟩ := ih.1.perform hperform
  exact ⟨hsized, hsame.trans ih.2⟩

/-- In a run, a packet is taken exactly if the connection is up, the packet is within the limit, and
the transform makes something of it that is within the limit.  A raw payload is sent exactly if the
connection is up and the payload, wrapped if that is asked for, fits a datagram with its header.
Any other request is answered with the first objection to it, and changes nothing but what the
transform keeps for itself.  Only for taking a packet the retransmit timeout, and the deadlines that
are computed with it, must have values. -/
theorem refusals_exact {settings : Settings} {token : Bytes} {transform : Transform σ} {secret : σ}
    {nonces : Nat → Nonce} {e₀ e : Endpoint α σ} {ops : List Operation} {answers : List Answer}
    (hcreate : create settings token transform secret nonces = .ok e₀)
    (hrun : e₀.performAll ops = .ok (answers, e)) :
    (∀ packet now, (e.packetObjections packet = [] → e.Pumpable now) →
      ∃ result e', e.send packet now = .ok (result, e') ∧
        (result = .ok () ↔ e.phase = .established ∧ packet.length ≤ settings.maxPacketSize ∧
          ∃ wrapped, (e.transform.wrap e.secret packet).1 = .ok wrapped ∧
            wrapped.length ≤ settings.maxPacketSize) ∧
        e.Answers (e.packetObjections packet) (e.transform.wrap e.secret packet).2 result e') ∧
    ∀ id payload, ∃ result e', e.sendRaw id payload = (result, e') ∧
      (result = .ok () ↔ e.phase = .established ∧
        ∃ wrapped, (e.wrapRaw payload).1 = .ok wrapped ∧
          wrapped.length + pipeHeaderSize ≤ settings.mtu) ∧
      e.Answers (e.rawObjections payload) (e.wrapRaw payload).2 result e' := by
  obtain ⟨hsized, rfl⟩ := sized_run hcreate hrun
  constructor
  · intro packet now hready
    obtain ⟨result, e', hsend, hanswers⟩ := send_answers hready
    exact ⟨result, e', hsend, hanswers.granted_iff.trans packetObjections_eq_nil_iff, hanswers⟩
  · intro id payload
    have hroom : pipeHeaderSize ≤ e.settings.mtu := Nat.le_trans (by decide) hsized.mtu
    have hanswers := sendRaw_answers hsized.pipes id payload
    exact ⟨_, _, rfl, hanswers.granted_iff.trans (rawObjections_eq_nil_iff hroom), hanswers⟩

/-- With a transform that adds a byte and refuses one payload, a packet of the greatest length is
refused, a shorter one is taken, and of the payload that cannot be wrapped nothing is sent. -/
theorem refusals_exact_sealing :
    let transform : Transform Nat :=
      { wrap := fun count payload =>
          (if payload = [9] then .error ⟨"no"⟩ else .ok (0 :: payload), count + 1)
        unwrap := fun count payload => (.ok (payload.drop 1), count) }
    let settings : Settings := { maxPacketSize := 4, transformRaw := true }
    ∃ (nonces : Nat → Nonce) (e₀ e : Endpoint Rat Nat) (answers : List Answer),
      create settings [7] transform 0 nonces = .ok e₀ ∧
        e₀.performAll [.connect 0, .receive (Frame.hello [7]).encode 0] = .ok (answers, e) ∧
        (∃ e', e.send [1, 2, 3, 4] 0 = .ok (.error (.packetTooLarge 5 4), e')) ∧
        (∃ e', e.send [1, 2, 3] 0 = .ok (.ok (), e')) ∧
        ∃ e', e.sendRaw 0 [9] = (.error (.transform ⟨"no"⟩), e') := by
  intro transform settings
  obtain ⟨e₀, hcreate, hrest⟩ := exists_of_any_toOption
    (show (create settings [7] transform 0 fun _ => blankNonce).toOption.any
      (fun e₀ : Endpoint Rat Nat =>
        (e₀.performAll [.connect 0, .receive (Frame.hello [7]).encode 0]).toOption.any fun r =>
          r.2.phase == .established && r.2.settings.maxPacketSize == 4 &&
            (r.2.transform.wrap r.2.secret [1, 2, 3, 4]).1 == .ok [0, 1, 2, 3, 4] &&
            (r.2.transform.wrap r.2.secret [1, 2, 3]).1 == .ok [0, 1, 2, 3] &&
            (r.2.wrapRaw [9]).1 == .error ⟨"no"⟩ &&
            r.2.roundTrip.timeout.toOption.any fun timeout =>
              decide (r.2.queue.schedule.InReach 0 timeout)) = true by decide +kernel)
  obtain ⟨⟨answers, e⟩, hrun, hobjections⟩ := exists_of_any_toOption hrest
  simp only [Bool.and_eq_true, beq_iff_eq] at hobjections
  obtain ⟨⟨⟨⟨⟨hup, hlimit⟩, hlonger⟩, hshorter⟩, hnone⟩, hready⟩ := hobjections
  have hlong : e.packetObjections [1, 2, 3, 4] = [.packetTooLarge 5 4] := by
    simp [packetObjections, hup, hlimit, hlonger, Phase.objections, sizeObjections,
      wrappingObjections]
  have hshort : e.packetObjections [1, 2, 3] = [] := by
    simp [packetObjections, hup, hlimit, hshorter, Phase.objections, sizeObjections,
      wrappingObjections]
  have hraw : e.rawObjections [9] = [.transform ⟨"no"⟩] := by
    simp [rawObjections, hup, hnone, Phase.objections, wrappingObjections]
  obtain ⟨timeout, htimeout, hreach⟩ := exists_of_any_toOption hready
  have hpumpable : e.Pumpable 0 := ⟨timeout, htimeout, of_decide_eq_true hreach⟩
  obtain ⟨hpackets, hraws⟩ := refusals_exact hcreate hrun
  obtain ⟨refusal, e₁, hsend₁, -, hanswers₁⟩ := hpackets [1, 2, 3, 4] 0 fun _ => hpumpable
  obtain ⟨answer, e₂, hsend₂, -, hanswers₂⟩ := hpackets [1, 2, 3] 0 fun _ => hpumpable
  obtain ⟨refusal', e₃, hsend₃, -, hanswers₃⟩ := hraws 0 [9]
  rw [hlong] at hanswers₁
  rw [hraw] at hanswers₃
  rw [(hanswers₁.refused_iff _).2 rfl] at hsend₁
  rw [hanswers₂.granted_iff.2 hshort] at hsend₂
  rw [(hanswers₃.refused_iff _).2 rfl] at hsend₃
  exact ⟨_, e₀, e, answers, hcreate, hrun, ⟨e₁, hsend₁⟩, ⟨e₂, hsend₂⟩, e₃, hsend₃⟩

end Endpoint

end DatagramTunnel.Session
