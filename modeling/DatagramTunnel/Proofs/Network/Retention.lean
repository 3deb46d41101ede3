import DatagramTunnel.Proofs.Network.Path

/-!
# No frame is lost by an acknowledgement

An acknowledgement takes a frame out of the sender's queue for good, so it must only go out for a
frame that the receiver has taken in.  The receiver also acknowledges duplicates, which it judges by
comparing numbers modulo `2 ^ 32`, and acknowledgements of any age may arrive again.
`unadmitted_held` says that nevertheless, whatever the path does, every frame that the far end has
not admitted is still held by the near one, as it was encoded.
-/

namespace DatagramTunnel.Network

open Flight Packet Session Wire

/-- Whether the queue still holds the frame as it was encoded, waiting or in flight. -/
def Holds (q : SendQueue) (f : Fragment) : Prop :=
  (∃ w ∈ q.waiting, w.seq = f.seq ∧ w.datagram = (Frame.data f).encode) ∨
    ∃ g ∈ q.inFlight, g.seq = f.seq ∧ g.datagram = (Frame.data f).encode

theorem holds_of_mem_outstanding {q : SendQueue} {f : Fragment}
    (h : waitingFor f ∈ q.outstanding) : Holds q f := by
  rcases List.mem_append.1 h with hflight | hwaiting
  · obtain ⟨g, hg, hframe⟩ := List.mem_map.1 hflight
    have hseq : g.seq = f.seq := congrArg Waiting.seq hframe
    have hdatagram : g.datagram = (Frame.data f).encode := congrArg Waiting.datagram hframe
    exact .inr ⟨g, hg, hseq, hdatagram⟩
  · exact .inl ⟨waitingFor f, hwaiting, rfl, rfl⟩

variable {α σ β τ : Type} [Add α] [Sub α] [Mul α] [Seconds α] [Add β] [Sub β] [Mul β] [Seconds β]

/-- In every reachable state in which the near end is up, it holds every frame that it has numbered
and the far end has not admitted. -/
theorem unadmitted_held {settings settings' : Settings} {token : Bytes} {transform : Transform σ}
    {transform' : Transform τ} {secret : σ} {secret' : τ} {nonces nonces' : Nat → Nonce}
    {a : Endpoint α σ} {b : Endpoint β τ} {s : Path α σ β τ}
    (ha : Endpoint.create settings token transform secret nonces = .ok a)
    (hb : Endpoint.create settings' token transform' secret' nonces' = .ok b)
    (hreach : Reachable a b s) (hlen : s.near.numbered.length ≤ 2 ^ 31)
    (hup : s.near.endpoint.phase = .established) :
    ∀ f ∈ s.near.numbered, f ∉ s.far.admitted → Holds s.near.endpoint.queue f := by
  intro f hf hnot
  have hlinked := hreach.linked (Endpoint.create_new ha) (Endpoint.create_new hb) hlen
  exact holds_of_mem_outstanding (hlinked.retained hup f hf hnot)

/-- A frame that is lost on its way is still held. -/
theorem unadmitted_held_lost : ∃ a b : Endpoint Rat Unit, ∃ s : Path Rat Unit Rat Unit,
    Reachable a b s ∧ s.near.endpoint.phase = .established ∧
      ∃ f ∈ s.near.numbered, f ∉ s.far.admitted ∧ Holds s.near.endpoint.queue f := by
  obtain ⟨a, b, s, ha, hb, hreach, hs⟩ := Path.reachable_of_trial
    (p := fun s => s.near.numbered.length == 1 && s.far.admitted.isEmpty &&
      s.near.endpoint.phase == .established)
    (show (Path.trial {} {} [7] (opening [7] ++
      [(.near, .send [1, 2, 3] 0), (.near, .pollTransmit)])).any _ = true by decide +kernel)
  simp only [Bool.and_eq_true, beq_iff_eq, List.isEmpty_iff] at hs
  obtain ⟨⟨hone, hnone⟩, hup⟩ := hs
  obtain ⟨f, hf⟩ := List.length_eq_one_iff.1 hone
  have hmem : f ∈ s.near.numbered := hf ▸ List.mem_singleton_self f
  have hnot : f ∉ s.far.admitted := hnone ▸ List.not_mem_nil
  have hlen : s.near.numbered.length ≤ 2 ^ 31 := by
    rw [hone]
    decide
  exact ⟨a, b, s, hreach, hup, f, hmem, hnot, unadmitted_held ha hb hreach hlen hup f hmem hnot⟩

end DatagramTunnel.Network
