import DatagramTunnel.Proofs.Network.Path

/-!
# No deadlock after any loss

However many datagrams the path has lost, one round is enough for the near end to get rid of a
frame: it ticks when everything in flight is overdue, the far end hears all of its outbox, and it
hears all of the far end's.  `round_retires` says so of every reachable state.

The frame in question is the oldest one that is not acknowledged.  It goes out in the tick, because
frames are put in flight in their order and the window is not empty.  And the far end acknowledges
it, because it cannot be waiting for an earlier frame: that one would still be in the queue of the
near end, since no frame is lost by an acknowledgement, and would be older.
-/

namespace DatagramTunnel.Session.Endpoint

open Flight Packet Wire

variable {α σ : Type}

/-- The number of frames that are queued or in flight. -/
def unacknowledged (e : Endpoint α σ) : Nat := e.queue.inFlight.length + e.queue.waiting.length

theorem length_outstanding (e : Endpoint α σ) : e.queue.outstanding.length = e.unacknowledged := by
  rw [SendQueue.outstanding, List.length_append, List.length_map, unacknowledged]

/-! ## The oldest frame goes out -/

variable [Mul α] [Seconds α]

/-- A tick at which everything in flight is overdue sends the oldest frame, and it is in flight
afterwards. -/
theorem Sending.sends_oldest {e e' : Endpoint α σ} {sent : List Bytes} {numbered : List Fragment}
    (h : Sending e sent numbered) (hlen : numbered.length ≤ 2 ^ 32) {now timeout : Nat}
    (hup : e.phase = .established) (htimeout : e.roundTrip.timeout = .ok timeout)
    (hdue : ∀ f ∈ e.queue.inFlight, f.lastSentAt + timeout ≤ now) (htick : e.tick now = .ok e')
    (hup' : e'.phase = .established) {oldest : Waiting} {others : List Waiting}
    (hqueue : e.queue.outstanding = oldest :: others) :
    e'.queue.outstanding = e.queue.outstanding ∧ oldest ∈ e'.queue.inFlight.map Sent.frame ∧
      oldest.datagram ∈ e'.outbox := by
  rcases tick_up hup htick with ⟨e₁, hmove, hpump⟩ | ⟨-, hclosing⟩
  · have h₁ := h.move hmove
    have hadm := SendQueue.admissible_of_nodup (h₁.nodup hlen)
    have hkept := h₁.outstanding_pump hlen hpump
    obtain ⟨timeout', htimeout', rfl⟩ := pump_eq_ok hpump
    obtain ⟨-, hsame, hround, -⟩ := hmove.data (isTerminal_of_established hup')
    rw [hround, htimeout] at htimeout'
    have heq : timeout = timeout' := Except.ok.inj htimeout'
    subst heq
    have hflight := (h₁.scheduled.ticked hadm now timeout).2
    have hsent := @SendQueue.Scheduled.mem_datagrams_ticked _ h₁.scheduled hadm now timeout
    rw [hsame] at hkept hflight hsent
    have holdest := SendQueue.oldest_cases h.window_pos hqueue
    refine ⟨hkept, ?_, ?_⟩
    · show oldest ∈ (e₁.queue.ticked now timeout).2.inFlight.map Sent.frame
      rw [hsame, hflight]
      rcases holdest with ⟨f, hf, rfl⟩ | hwaiting
      · exact List.mem_append_left _ (List.mem_map_of_mem hf)
      · exact List.mem_append_right _ hwaiting
    · show oldest.datagram ∈ e₁.outbox ++ (e₁.queue.ticked now timeout).1.datagrams
      apply List.mem_append_right
      rw [hsame]
      apply hsent.2
      rcases holdest with ⟨f, hf, rfl⟩ | hwaiting
      · exact .inl ⟨f, hf, hdue f hf, rfl⟩
      · exact .inr ⟨oldest, hwaiting, rfl⟩
  · rw [hup'] at hclosing
    cases hclosing

/-! ## Hearing many datagrams -/

variable [Add α] [Sub α]

/-- Hands datagrams to the endpoint, one after the other. -/
def receiveAll (e : Endpoint α σ) (now : Nat) : List Bytes → Except TimeError (Endpoint α σ)
  | [] => .ok e
  | datagram :: rest => do (← e.receive datagram now).receiveAll now rest

theorem receiveAll_cons {e e' : Endpoint α σ} {now : Nat} {datagram : Bytes} {rest : List Bytes}
    (h : e.receiveAll now (datagram :: rest) = .ok e') :
    ∃ e₁, e.receive datagram now = .ok e₁ ∧ e₁.receiveAll now rest = .ok e' := bind_eq_ok h

/-- An endpoint that has not ended after hearing datagrams had not ended before. -/
theorem receiveAll_phase {e e' : Endpoint α σ} {now : Nat} {datagrams : List Bytes}
    (h : e.receiveAll now datagrams = .ok e') (hopen : e'.phase.isTerminal = false) :
    e.phase.isTerminal = false := by
  induction datagrams generalizing e with
  | nil => exact Except.ok.inj h ▸ hopen
  | cons datagram rest ih =>
    obtain ⟨e₁, hreceive, hrest⟩ := receiveAll_cons h
    exact ((receive_outcome hreceive).phase (ih hrest)).1

/-! ## The far end answers -/

/-- Hearing one datagram never takes the window back nor an answer out of the outbox, and a data
frame of the stream up to the one that is due is acknowledged. -/
theorem Receiving.hears {e e₁ : Endpoint α σ} {sent : List Bytes} {stream admitted : List Fragment}
    (h : Receiving e sent stream admitted) (hnum : ConsecutiveFrom 0 stream)
    (hlen : stream.length ≤ 2 ^ 31) {datagram : Bytes} {now : Nat}
    (hpath : ∀ f, Frame.decode datagram = .ok (.data f) → f ∈ stream)
    (hup : e.phase = .established) (hreceive : e.receive datagram now = .ok e₁)
    (hopen : e₁.phase.isTerminal = false) :
    e.released ≤ e₁.released ∧ e.outbox <+: e₁.outbox ∧
      ∀ f, Frame.decode datagram = .ok (.data f) → f.seq.toNat ≤ e.released →
        (Frame.ack f.seq).encode ∈ e₁.outbox := by
  by_cases hdata : ∃ f, Frame.decode datagram = .ok (.data f)
  · obtain ⟨f, hframe⟩ := hdata
    have hf := hpath f hframe
    rw [receive_data hup hframe] at hreceive
    have heq := Except.ok.inj hreceive
    subst heq
    have hinitial := onData_outbox_grows hopen
    rw [offered_outbox] at hinitial
    refine ⟨(h.onData hnum hlen hf).2, (List.prefix_append _ _).trans hinitial, ?_⟩
    intro g hg hle
    rw [hframe] at hg
    have hsame : f = g := Frame.data.inj (Except.ok.inj hg)
    subst hsame
    obtain ⟨index, hindex, rfl⟩ := List.getElem_of_mem hf
    rw [(hnum.ascending (by omega)).1 index hindex] at hle
    have hack := h.ordered.acknowledged_of_le hnum hlen h.size_pos hindex hle
    rw [if_pos hack] at hinitial
    exact hinitial.subset (List.mem_append_right _ (List.mem_singleton_self _))
  · cases receive_outcome hreceive with
    | aside move _ _ _ _ _ _ _ =>
      exact ⟨Nat.le_of_eq move.released.symm, move.outbox_grows hopen,
        fun f hf => absurd ⟨f, hf⟩ hdata⟩
    | retire _ _ _ pump =>
      obtain ⟨timeout, -, rfl⟩ := pump_eq_ok pump
      exact ⟨Nat.le_refl _, List.prefix_append _ _, fun f hf => absurd ⟨f, hf⟩ hdata⟩
    | piece _ frame => exact absurd ⟨_, frame⟩ hdata

/-- The same for datagrams heard one after the other. -/
theorem Receiving.hearsAll {e e' : Endpoint α σ} {sent : List Bytes}
    {stream admitted : List Fragment} (h : Receiving e sent stream admitted)
    (hnum : ConsecutiveFrom 0 stream) (hlen : stream.length ≤ 2 ^ 31) {datagrams : List Bytes}
    {now : Nat}
    (hpath : ∀ datagram ∈ datagrams, ∀ f, Frame.decode datagram = .ok (.data f) → f ∈ stream)
    (hup : e.phase = .established) (hrun : e.receiveAll now datagrams = .ok e')
    (hopen : e'.phase.isTerminal = false) :
    e.outbox <+: e'.outbox ∧ ∀ datagram ∈ datagrams, ∀ f,
      Frame.decode datagram = .ok (.data f) → f.seq.toNat ≤ e.released →
        (Frame.ack f.seq).encode ∈ e'.outbox := by
  induction datagrams generalizing e admitted with
  | nil =>
    have heq := Except.ok.inj hrun
    subst heq
    exact ⟨List.prefix_rfl, fun _ hd => absurd hd List.not_mem_nil⟩
  | cons datagram rest ih =>
    obtain ⟨e₁, hreceive, hrest⟩ := receiveAll_cons hrun
    have hopen₁ := receiveAll_phase hrest hopen
    have hout := receive_outcome hreceive
    have hpath₁ := hpath datagram List.mem_cons_self
    obtain ⟨hle, hinitial, hanswer⟩ := h.hears hnum hlen hpath₁ hup hreceive hopen₁
    have h₁ := h.step hnum hlen (by
      rintro other now' f hop hf
      obtain ⟨rfl, -⟩ := Operation.receive.inj hop
      exact hpath₁ f hf) hout
    rw [show Answer.done.sent = [] from rfl, List.append_nil] at h₁
    obtain ⟨hinitial', hanswers⟩ := ih h₁ (fun d hd => hpath d (List.mem_cons_of_mem _ hd))
      ((hout.phase hopen₁).2 hup) hrest
    refine ⟨hinitial.trans hinitial', ?_⟩
    intro d hd f hf hindex
    rcases List.mem_cons.1 hd with rfl | hd
    · exact hinitial'.subset (hanswer f hf hindex)
    · exact hanswers d hd f hf (Nat.le_trans hindex hle)

/-! ## The near end retires -/

/-- The queue has lost frames at most, and what was in flight still is unless it is gone. -/
structure Retires (q q' : SendQueue) : Prop where
  fewer : q'.outstanding.Sublist q.outstanding
  inFlight : ∀ w ∈ q.inFlight.map Sent.frame, w ∈ q'.outstanding → w ∈ q'.inFlight.map Sent.frame

theorem Retires.refl (q : SendQueue) : Retires q q := ⟨List.Sublist.refl _, fun _ hw _ => hw⟩

theorem Retires.trans {q q' q'' : SendQueue} (h : Retires q q') (h' : Retires q' q'') :
    Retires q q'' := by
  refine ⟨h'.fewer.trans h.fewer, ?_⟩
  intro w hw hleft
  exact h'.inFlight w (h.inFlight w hw (h'.fewer.subset hleft)) hleft

/-- Hearing one datagram adds nothing to the queue, and an acknowledgement of a frame in flight
takes that frame out. -/
theorem Sending.hears {e e₁ : Endpoint α σ} {sent : List Bytes} {numbered : List Fragment}
    (h : Sending e sent numbered) (hlen : numbered.length ≤ 2 ^ 32) {datagram : Bytes} {now : Nat}
    (hup : e.phase = .established) (hreceive : e.receive datagram now = .ok e₁)
    (hopen : e₁.phase.isTerminal = false) :
    Retires e.queue e₁.queue ∧ ∀ w ∈ e.queue.inFlight.map Sent.frame,
      Frame.decode datagram = .ok (.ack w.seq) → w ∉ e₁.queue.outstanding := by
  by_cases hack : ∃ seq sample queue, Frame.decode datagram = .ok (.ack seq) ∧
      e.queue.acknowledge? seq now = some (sample, queue)
  · obtain ⟨seq, sample, queue, hframe, hknown⟩ := hack
    rw [receive_ack hup hframe, onAck, hknown] at hreceive
    have hretired := h.retire hlen hknown
    have hleft : e₁.queue.outstanding = e.queue.outstanding.filter fun w => !(w.seq == seq) := by
      rw [hretired.outstanding_pump hlen hreceive]
      exact h.scheduled.outstanding_acknowledge (h.nodup hlen) hknown
    obtain ⟨timeout, -, rfl⟩ := pump_eq_ok hreceive
    have hadm := SendQueue.admissible_of_nodup (hretired.nodup hlen)
    have hflight := (hretired.scheduled.ticked hadm now timeout).2
    have hqueue := (h.scheduled.acknowledge hknown).2.1
    refine ⟨⟨?_, ?_⟩, ?_⟩
    · rw [hleft]
      exact List.filter_sublist
    · intro w hw hkept
      rw [hleft] at hkept
      obtain ⟨f, hf, rfl⟩ := List.mem_map.1 hw
      have hstill : f ∈ queue.inFlight := by
        rw [hqueue]
        exact List.mem_filter.2 ⟨hf, (List.mem_filter.1 hkept).2⟩
      show f.frame ∈ ((e.retire sample queue).queue.ticked now timeout).2.inFlight.map Sent.frame
      rw [hflight]
      exact List.mem_append_left _ (List.mem_map_of_mem hstill)
    · intro w _ hw hkept
      rw [hframe] at hw
      have hseq : seq = w.seq := Frame.ack.inj (Except.ok.inj hw)
      rw [hleft] at hkept
      have hne := (List.mem_filter.1 hkept).2
      simp [hseq] at hne
  · have hsame : e₁.queue = e.queue := by
      cases receive_outcome hreceive with
      | aside move _ _ _ _ _ _ _ => exact (move.data hopen).2.1
      | retire _ frame known _ => exact absurd ⟨_, _, _, frame, known⟩ hack
      | piece _ _ => exact (onData_data hopen).2.1
    rw [hsame]
    refine ⟨.refl _, ?_⟩
    intro w hw hframe
    exfalso
    obtain ⟨f, hf, rfl⟩ := List.mem_map.1 hw
    obtain ⟨sample, queue, hknown⟩ := SendQueue.exists_acknowledge? hf now
    exact hack ⟨f.seq, sample, queue, hframe, hknown⟩

/-- The same for datagrams heard one after the other. -/
theorem Sending.hearsAll {e e' : Endpoint α σ} {sent : List Bytes} {numbered : List Fragment}
    (h : Sending e sent numbered) (hlen : numbered.length ≤ 2 ^ 32) {datagrams : List Bytes}
    {now : Nat} (hup : e.phase = .established) (hrun : e.receiveAll now datagrams = .ok e')
    (hopen : e'.phase.isTerminal = false) :
    Retires e.queue e'.queue ∧ ∀ datagram ∈ datagrams, ∀ w ∈ e.queue.inFlight.map Sent.frame,
      Frame.decode datagram = .ok (.ack w.seq) → w ∉ e'.queue.outstanding := by
  induction datagrams generalizing e sent with
  | nil =>
    have heq := Except.ok.inj hrun
    subst heq
    exact ⟨.refl _, fun _ hd => absurd hd List.not_mem_nil⟩
  | cons datagram rest ih =>
    obtain ⟨e₁, hreceive, hrest⟩ := receiveAll_cons hrun
    have hopen₁ := receiveAll_phase hrest hopen
    have hout := receive_outcome hreceive
    obtain ⟨hretires, hgone⟩ := h.hears hlen hup hreceive hopen₁
    have h₁ := h.step_of_numbers_nil hout rfl hlen
    obtain ⟨hretires', hgone'⟩ := ih h₁ ((hout.phase hopen₁).2 hup) hrest
    refine ⟨hretires.trans hretires', ?_⟩
    intro d hd w hw hframe hleft
    have hleft₁ := hretires'.fewer.subset hleft
    rcases List.mem_cons.1 hd with rfl | hd
    · exact hgone w hw hframe hleft₁
    · exact hgone' d hd w (hretires.inFlight w hw hleft₁) hframe hleft

end DatagramTunnel.Session.Endpoint

namespace DatagramTunnel.Network

open Flight Packet Session Wire

variable {α σ β τ : Type}

/-- While both ends are up, the far one is not waiting for a frame older than those that the near
one still has. -/
theorem Linked.oldest_due {s : Path α σ β τ} (h : Linked s)
    (hlen : s.near.numbered.length ≤ 2 ^ 31) (hup : s.near.endpoint.phase = .established)
    (hup' : s.far.endpoint.phase = .established) {f : Fragment} (hf : f ∈ s.near.numbered)
    {others : List Waiting}
    (hqueue : s.near.endpoint.queue.outstanding = waitingFor f :: others) :
    f.seq.toNat ≤ s.far.endpoint.released := by
  refine Nat.le_of_not_lt fun hlt => ?_
  obtain ⟨hnumber, hascending⟩ := h.sending.consecutive.ascending (by omega)
  have hcount : s.far.endpoint.released < s.near.numbered.length := by
    obtain ⟨index, hindex, rfl⟩ := List.getElem_of_mem hf
    rw [hnumber index hindex] at hlt
    omega
  -- the frame that the far end waits for has not been admitted, so the near end still has it
  have hopen := Endpoint.isTerminal_of_established hup'
  have hnot := (h.receiving.remembers hopen).not_admitted h.receiving.ordered
    h.sending.consecutive (by omega) (h.settled hopen) hcount
  have hheld := h.retained hup _ (List.getElem_mem hcount) hnot
  have hdue := hnumber _ hcount
  obtain ⟨kept, hsub, hkept⟩ := h.sending.outstanding
  rw [hkept] at hqueue hheld
  cases kept with
  | nil => cases hqueue
  | cons first rest =>
    have hfirst : first.seq = f.seq := congrArg Waiting.seq (List.cons.inj hqueue).1
    have holder := (List.pairwise_cons.1 (hascending.sublist hsub)).1
    obtain ⟨g, hg, hsame⟩ := List.mem_map.1 hheld
    have hgseq : g.seq = s.near.numbered[s.far.endpoint.released].seq :=
      congrArg Waiting.seq hsame
    rcases List.mem_cons.1 hg with rfl | hg
    · rw [← hgseq, hfirst] at hdue
      omega
    · have hlater := holder g hg
      rw [hfirst, hgseq, hdue] at hlater
      omega

variable [Add α] [Sub α] [Mul α] [Seconds α] [Add β] [Sub β] [Mul β] [Seconds β]

/-- One round at an instant: the near end ticks, the far end hears all that the near end has to
send, and the near end hears all that the far end has to send then. -/
def round (a : Endpoint α σ) (b : Endpoint β τ) (now : Nat) :
    Except TimeError (Endpoint α σ × Endpoint β τ) := do
  let ticked ← a.tick now
  let (toFar, a') := ticked.drainOutbox
  let heard ← b.receiveAll now toFar
  let (toNear, b') := heard.drainOutbox
  return (← a'.receiveAll now toNear, b')

theorem round_eq_ok {a a' : Endpoint α σ} {b b' : Endpoint β τ} {now : Nat}
    (h : round a b now = .ok (a', b')) :
    ∃ ticked heard, a.tick now = .ok ticked ∧ b.receiveAll now ticked.outbox = .ok heard ∧
      ticked.drainOutbox.2.receiveAll now heard.outbox = .ok a' ∧ b' = heard.drainOutbox.2 := by
  obtain ⟨ticked, htick, h⟩ := bind_eq_ok h
  obtain ⟨heard, hheard, h⟩ := bind_eq_ok h
  obtain ⟨a'', hrun, h⟩ := bind_eq_ok h
  obtain ⟨rfl, rfl⟩ := Prod.mk.inj (Except.ok.inj h)
  have hfar : b.receiveAll now ticked.drainOutbox.1 = .ok heard := hheard
  have hnear : ticked.drainOutbox.2.receiveAll now heard.drainOutbox.1 = .ok a'' := hrun
  rw [Endpoint.drainOutbox_fst] at hfar hnear
  exact ⟨ticked, heard, htick, hfar, hnear, rfl⟩

/-- In every reachable state in which both ends are up and the near one has frames that are not
acknowledged, a round that comes when all that is in flight is overdue leaves fewer of them, unless
it ends the connection. -/
theorem round_retires {settings settings' : Settings} {token : Bytes} {transform : Transform σ}
    {transform' : Transform τ} {secret : σ} {secret' : τ} {nonces nonces' : Nat → Nonce}
    {a a' : Endpoint α σ} {b b' : Endpoint β τ} {s : Path α σ β τ} {now timeout : Nat}
    (ha : Endpoint.create settings token transform secret nonces = .ok a)
    (hb : Endpoint.create settings' token transform' secret' nonces' = .ok b)
    (hreach : Reachable a b s) (hlen : s.near.numbered.length ≤ 2 ^ 31)
    (hup : s.near.endpoint.phase = .established) (hup' : s.far.endpoint.phase = .established)
    (hbusy : 0 < s.near.endpoint.unacknowledged)
    (htimeout : s.near.endpoint.roundTrip.timeout = .ok timeout)
    (hdue : ∀ f ∈ s.near.endpoint.queue.inFlight, f.lastSentAt + timeout ≤ now)
    (hround : round s.near.endpoint s.far.endpoint now = .ok (a', b'))
    (hnear : a'.phase = .established) (hfar : b'.phase = .established) :
    a'.unacknowledged < s.near.endpoint.unacknowledged := by
  have hlinked := hreach.linked (Endpoint.create_new ha) (Endpoint.create_new hb) hlen
  have hlen' : s.near.numbered.length ≤ 2 ^ 32 := by omega
  obtain ⟨ticked, heard, htick, hheard, hrun, rfl⟩ := round_eq_ok hround
  -- both ends stay up throughout
  have hopen := Endpoint.isTerminal_of_established hnear
  have hticked : ticked.phase = .established := by
    have hdrained := Endpoint.receiveAll_phase hrun hopen
    rw [Endpoint.drainOutbox_snd] at hdrained
    exact ((Endpoint.tick_outcome htick).phase hdrained).2 hup
  have hheard' : heard.phase.isTerminal = false := by
    rw [Endpoint.drainOutbox_snd] at hfar
    exact Endpoint.isTerminal_of_established hfar
  -- the oldest frame goes out
  obtain ⟨oldest, others, hqueue⟩ : ∃ oldest others,
      s.near.endpoint.queue.outstanding = oldest :: others := by
    rw [← Endpoint.length_outstanding] at hbusy
    exact List.exists_cons_of_length_pos hbusy
  obtain ⟨f, hf, rfl⟩ := hlinked.sending.mem_outstanding (hqueue ▸ List.mem_cons_self)
  obtain ⟨hkept, hflight, hsent⟩ :=
    hlinked.sending.sends_oldest hlen' hup htimeout hdue htick hticked hqueue
  have hfits := hlinked.sending.fits f hf
  have hsending := hlinked.sending.step_of_numbers_nil (Endpoint.tick_outcome htick) rfl hlen'
  -- the far end acknowledges it
  have hpath : ∀ datagram ∈ ticked.outbox, ∀ g, Frame.decode datagram = .ok (.data g) →
      g ∈ s.near.numbered := by
    intro datagram hd g hg
    exact hsending.emitted datagram (List.mem_append_right _ hd) g hg
  have hanswered := (hlinked.receiving.hearsAll hlinked.sending.consecutive hlen hpath hup' hheard
    hheard').2 _ hsent f (decode_waitingFor hfits)
      (hlinked.oldest_due hlen hup hup' hf hqueue)
  -- and the near end retires it
  have hdrained := hsending.drained
  have hqueue' : ticked.drainOutbox.2.queue = ticked.queue := by rw [Endpoint.drainOutbox_snd]
  have hphase' : ticked.drainOutbox.2.phase = .established := by
    rw [Endpoint.drainOutbox_snd]
    exact hticked
  obtain ⟨hretires, hgone⟩ := hdrained.hearsAll hlen' hphase' hrun hopen
  rw [hqueue'] at hretires hgone
  have hread : Frame.decode (Frame.ack f.seq).encode = .ok (.ack f.seq) :=
    Frame.decode_encode_of_fits trivial
  have hlost := hgone _ hanswered (waitingFor f) hflight hread
  rw [← Endpoint.length_outstanding, ← Endpoint.length_outstanding]
  have hfewer : a'.queue.outstanding.Sublist s.near.endpoint.queue.outstanding := by
    rw [← hkept]
    exact hretires.fewer
  refine Nat.lt_of_le_of_ne hfewer.length_le fun hsame => ?_
  have heq := hfewer.eq_of_length hsame
  rw [heq, hqueue] at hlost
  exact hlost List.mem_cons_self

/-- The only frame is lost at first, and a round after the timeout brings it over. -/
theorem round_retires_lost : ∃ a b : Endpoint Rat Unit, ∃ s : Path Rat Unit Rat Unit,
    ∃ near far : Endpoint Rat Unit, Reachable a b s ∧
      round s.near.endpoint s.far.endpoint 200000000 = .ok (near, far) ∧
        near.unacknowledged < s.near.endpoint.unacknowledged := by
  obtain ⟨a, b, s, ha, hb, hreach, hs⟩ := Path.reachable_of_trial
    (p := fun s => s.near.numbered.length == 1 && s.near.endpoint.phase == .established &&
      s.far.endpoint.phase == .established && decide (0 < s.near.endpoint.unacknowledged) &&
      s.near.endpoint.roundTrip.timeout.toOption == some 150000000 &&
      s.near.endpoint.queue.inFlight.all (fun f => f.lastSentAt + 150000000 ≤ 200000000) &&
      (round s.near.endpoint s.far.endpoint 200000000).toOption.any fun ends =>
        ends.1.phase == .established && ends.2.phase == .established)
    (show (Path.trial {} {} [7] (opening [7] ++
      [(.near, .send [1, 2, 3] 0), (.near, .pollTransmit)])).any _ = true by decide +kernel)
  simp only [Bool.and_eq_true, beq_iff_eq, decide_eq_true_eq, List.all_eq_true] at hs
  obtain ⟨⟨⟨⟨⟨⟨hone, hup⟩, hup'⟩, hbusy⟩, htimeout⟩, hdue⟩, hround⟩ := hs
  obtain ⟨⟨near, far⟩, hends, hphases⟩ := (Option.any_eq_true _ _).1 hround
  simp only [Bool.and_eq_true, beq_iff_eq] at hphases
  have hlen : s.near.numbered.length ≤ 2 ^ 31 := by
    rw [hone]
    decide
  have hends' := eq_ok_of_toOption hends
  exact ⟨a, b, s, near, far, hreach, hends', round_retires ha hb hreach hlen hup hup' hbusy
    (eq_ok_of_toOption htimeout) hdue hends' hphases.1 hphases.2⟩

end DatagramTunnel.Network
