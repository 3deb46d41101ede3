import DatagramTunnel.Proofs.Network.Path
import DatagramTunnel.Proofs.Session.Delivering

/-!
# Reliable delivery in order

Whatever the path does to the datagrams, the packets that the far end emits are a prefix of those
that the near end accepted: `delivers_in_order`.  The invariant behind it, `Faithful`, ties three
things to one position in the stream of numbered frames: the packets that were accepted, the frame
at which the far window stands, and the packet that the far assembler has open.
-/

namespace DatagramTunnel.Network

open Flight Packet Session Wire

variable {α σ β τ : Type}

/-- The numbered frames carry the accepted packets, and the far end has emitted what those carry
that it has read.  `limit` and `limit'` are the longest packets that the ends allow. -/
structure Faithful (limit limit' : Nat) (s : Path α σ β τ) : Prop where
  plain : s.near.endpoint.transform = .plain
  limit_eq : s.near.endpoint.settings.maxPacketSize = limit
  carries : CarriesAll s.near.accepted s.near.numbered
  within : ∀ p ∈ s.near.accepted, p.length ≤ limit
  delivering : s.far.endpoint.Delivering limit' s.far.taken s.near.numbered s.far.endpoint.released
    s.near.accepted

namespace Faithful

variable {limit limit' : Nat} {s : Path α σ β τ}

theorem start {a : Endpoint α σ} {b : Endpoint β τ} {settings settings' : Settings}
    {token token' : Bytes} (ha : a.New settings token .plain) (hb : b.New settings' token' .plain) :
    Faithful settings.maxPacketSize settings'.maxPacketSize
      ({ near := { endpoint := a }, far := { endpoint := b } } : Path α σ β τ) := by
  have hlimit : a.settings.maxPacketSize = settings.maxPacketSize := by rw [ha.settings_eq]
  refine ⟨ha.transform_eq, hlimit, .nil, fun _ hp => absurd hp List.not_mem_nil, ?_⟩
  show b.Delivering settings'.maxPacketSize [] [] b.released []
  rw [hb.released_eq]
  exact .start hb

theorem nearStep [Add α] [Sub α] [Mul α] [Seconds α] (h : Faithful limit limit' s)
    (hlinked : Linked s) {op : Operation} {p : Party α σ} (hperform : s.near.perform op = .ok p) :
    Faithful limit limit' { s with near := p } := by
  obtain ⟨answer, endpoint, hout, rfl⟩ := Party.perform_eq_ok hperform
  obtain ⟨hsettings, -, htransform⟩ := hout.constants
  have hextended := h.delivering.extend hlinked.receiving.ordered.count_le
    (s.near.endpoint.numbers op answer) (op.accepted answer)
  have hlimit : endpoint.settings.maxPacketSize = limit := by
    rw [hsettings]
    exact h.limit_eq
  have hcarried := hout.carries h.plain hlinked.sending.limit
  refine ⟨htransform.trans h.plain, hlimit, ?_, ?_, hextended⟩
  · show CarriesAll (s.near.accepted ++ op.accepted answer)
      (s.near.numbered ++ s.near.endpoint.numbers op answer)
    rcases hcarried with ⟨hnone, hnone'⟩ | ⟨packet, hone, -, hpacket⟩
    · rw [hnone, hnone', List.append_nil, List.append_nil]
      exact h.carries
    · rw [hone]
      exact h.carries.concat hpacket
  · intro packet hpacket
    rcases List.mem_append.1 hpacket with hold | hnew
    · exact h.within packet hold
    · rcases hcarried with ⟨hnone, -⟩ | ⟨other, hone, hsmall, -⟩
      · rw [hnone] at hnew
        exact absurd hnew List.not_mem_nil
      · rw [hone, List.mem_singleton] at hnew
        subst hnew
        rw [← h.limit_eq]
        exact hsmall

theorem farStep [Add β] [Sub β] [Mul β] [Seconds β] (h : Faithful limit limit' s)
    (hlinked : Linked s) (hsize : limit ≤ limit') {op : Operation} {p : Party β τ}
    (hpermits : Permits s.near.sent op) (hperform : s.far.perform op = .ok p)
    (hlen : s.near.numbered.length ≤ 2 ^ 31) : Faithful limit limit' { s with far := p } := by
  obtain ⟨answer, endpoint, hout, rfl⟩ := Party.perform_eq_ok hperform
  have hwithin : ∀ packet ∈ s.near.accepted, packet.length ≤ limit' :=
    fun packet hpacket => Nat.le_trans (h.within packet hpacket) hsize
  refine ⟨h.plain, h.limit_eq, h.carries, h.within, ?_⟩
  apply h.delivering.step hlinked.receiving hlinked.sending.consecutive hlen h.carries hwithin _
    hout
  rintro datagram now f rfl hframe
  have harrived : datagram ∈ s.near.sent ++ s.near.endpoint.outbox :=
    List.mem_append_left _ hpermits
  exact hlinked.sending.emitted datagram harrived f hframe

end Faithful

variable [Add α] [Sub α] [Mul α] [Seconds α] [Add β] [Sub β] [Mul β] [Seconds β]

theorem Reachable.faithful {a : Endpoint α σ} {b : Endpoint β τ} {s : Path α σ β τ}
    {settings settings' : Settings} {token token' : Bytes} (h : Reachable a b s)
    (ha : a.New settings token .plain) (hb : b.New settings' token' .plain)
    (hsize : settings.maxPacketSize ≤ settings'.maxPacketSize)
    (hlen : s.near.numbered.length ≤ 2 ^ 31) :
    Faithful settings.maxPacketSize settings'.maxPacketSize s := by
  induction h with
  | start => exact .start ha hb
  | step before act ih =>
    have hearlier := Nat.le_trans (Path.numbered_grows act).length_le hlen
    have hfaithful := ih hearlier
    have hlinked := before.linked ha hb hearlier
    rcases Path.act_cases act with ⟨p, hpermits, hperform, rfl⟩ | ⟨p, hpermits, hperform, rfl⟩
    · exact hfaithful.nearStep hlinked hperform
    · exact hfaithful.farStep hlinked hsize hpermits hperform hlen

/-- At every moment the packets that the far end has emitted are a prefix of those that the near end
has accepted, and the far end has found no violation. -/
theorem delivers_in_order {settings settings' : Settings} {token : Bytes} {secret : σ} {secret' : τ}
    {nonces nonces' : Nat → Nonce} {a : Endpoint α σ} {b : Endpoint β τ} {s : Path α σ β τ}
    (ha : Endpoint.create settings token .plain secret nonces = .ok a)
    (hb : Endpoint.create settings' token .plain secret' nonces' = .ok b)
    (hsize : settings.maxPacketSize ≤ settings'.maxPacketSize) (hreach : Reachable a b s)
    (hlen : s.near.numbered.length ≤ 2 ^ 31) :
    s.far.delivered <+: s.near.accepted ∧ s.far.endpoint.counters.protocolViolations = 0 ∧
      s.far.endpoint.violations = 0 := by
  have hfaithful :=
    hreach.faithful (Endpoint.create_new ha) (Endpoint.create_new hb) hsize hlen
  have hdelivering := hfaithful.delivering
  exact ⟨hdelivering.delivered_initial, hdelivering.clean, hdelivering.calm⟩

/-- Two pieces of a packet that come in the wrong order, and one of them twice. -/
theorem delivers_in_order_swapped : ∃ a b : Endpoint Rat Unit, ∃ s : Path Rat Unit Rat Unit,
    Reachable a b s ∧ s.far.delivered = [[1, 2, 3, 4, 5, 6, 7, 8, 9, 10, 11, 12]] ∧
      s.far.delivered <+: s.near.accepted ∧ s.far.endpoint.counters.protocolViolations = 0 ∧
        s.far.endpoint.violations = 0 := by
  let first : Frame := .data ⟨0, .first 12, [1, 2, 3, 4, 5, 6]⟩
  let last : Frame := .data ⟨1, .last, [7, 8, 9, 10, 11, 12]⟩
  obtain ⟨a, b, s, ha, hb, hreach, hs⟩ := Path.reachable_of_trial
    (p := fun s => s.near.numbered.length == 2 &&
      s.far.delivered == [[1, 2, 3, 4, 5, 6, 7, 8, 9, 10, 11, 12]])
    (show (Path.trial { mtu := 16 } {} [7] (opening [7] ++
      [(.near, .send [1, 2, 3, 4, 5, 6, 7, 8, 9, 10, 11, 12] 0), (.near, .pollTransmit),
        (.near, .pollTransmit), (.far, .receive last.encode 1), (.far, .receive first.encode 2),
        (.far, .receive last.encode 3)])).any _ = true by decide +kernel)
  simp only [Bool.and_eq_true, beq_iff_eq] at hs
  obtain ⟨htwo, hdelivered⟩ := hs
  have hlen : s.near.numbered.length ≤ 2 ^ 31 := by
    rw [htwo]
    decide
  have hsize : ({ mtu := 16 } : Settings).maxPacketSize ≤ ({} : Settings).maxPacketSize := by decide
  exact ⟨a, b, s, hreach, hdelivered, delivers_in_order ha hb hsize hreach hlen⟩

end DatagramTunnel.Network
