import DatagramTunnel.Proofs.Session.Ledger
import DatagramTunnel.Proofs.Session.Receiving

/-!
# A datagram that is known again

The path may deliver a datagram twice.  A data frame that was taken in is known again as long as the
window has released fewer than half of all numbers since: the frame is still held or lies behind the
cursor, which the invariant `Minds` says of the window.  An acknowledgement that retired a frame
finds nothing to retire a second time, because no frame of its number is on its way any more.
-/

namespace DatagramTunnel.Session.Endpoint

open Flight Packet Wire

variable {α σ : Type} {e e' : Endpoint α σ} {op : Operation} {answer : Answer}
  {start : UInt32} {place count : Nat} {f : Fragment}

/-! ## Data frames -/

section Data

/-- What is read while a data frame is taken in moves the window on. -/
theorem minds_onData (harrives : e.arrives? op = some f)
    (h : (e.inlet.window.insert f).2.Minds start place count)
    (hopen : (e.onData f).phase.isTerminal = false) :
    (e.onData f).inlet.window.Minds start place (count + (e.reads op).length) := by
  have hread : (e.onData f).phase.isTerminal = false →
      (e.onData f).inlet.window.Minds start place (count + ([] ++ e.reads op).length) := by
    refine onData_induct_past
      (P := fun read e₁ => e₁.phase.isTerminal = false →
        e₁.inlet.window.Minds start place (count + read.length)) harrives
      (fun {read e₁ g window} h₁ hup hpop hopen₁ => ?_) (fun _ => ?_)
    · obtain ⟨marks, hmove⟩ := absorb_move (e₁.advanced g window) (e₁.inlet.assembler.push g).1
      have hinlet := (hmove.data hopen₁).2.2.2
      rw [hinlet, List.length_append]
      exact (h₁ (isTerminal_of_established hup)).pop hpop
    · rw [offered_window]
      exact h
  exact hread hopen

/-- Where no frame's turn has come, none is read. -/
theorem drainInlet_of_settled (hpop : e.inlet.window.pop? = none) (limit : Nat) :
    drainInlet limit e = e := by
  cases limit with
  | zero => rfl
  | succ limit => simp [drainInlet, hpop]

/-- A frame that is known is acknowledged once more, and that is all. -/
theorem onData_of_duplicate (hdup : e.inlet.window.classify f.seq = .duplicate)
    (hpop : e.inlet.window.pop? = none) :
    e.onData f =
      (e.count fun c => { c with acksSent := c.acksSent + 1 }).post (Frame.ack f.seq).encode := by
  have hwindow : (e.inlet.window.insert f).2 = e.inlet.window :=
    ReorderWindow.insert_refused (by simp [hdup])
  have hoffered : e.offered f =
      (e.count fun c => { c with acksSent := c.acksSent + 1 }).post (Frame.ack f.seq).encode := by
    unfold offered
    rw [hwindow, hdup]
    rfl
  rw [onData_eq, hoffered]
  apply drainInlet_of_settled
  exact hpop

variable [Add α] [Sub α] [Mul α] [Seconds α]

/-- While the connection is open only a data frame touches the inlet. -/
theorem Outcome.inlet_of_open (h : Outcome e op answer e') (hnone : e.arrives? op = none)
    (hopen : e'.phase.isTerminal = false) : e'.inlet = e.inlet := by
  cases h with
  | aside move _ _ _ _ _ _ _ => exact (move.data hopen).2.2.2
  | pulse _ move pump =>
    obtain ⟨timeout, -, rfl⟩ := pump_eq_ok pump
    exact (move.data hopen).2.2.2
  | accept _ _ _ _ pump | retire _ _ _ pump =>
    obtain ⟨timeout, -, rfl⟩ := pump_eq_ok pump
    rfl
  | piece up frame => exact absurd hnone (arrives?_ne_none up frame _)
  | transmit _ | report _ => rfl

theorem minds_perform (hperform : e.perform op = .ok (answer, e'))
    (h : e.inlet.window.Minds start place count) (hopen : e'.phase.isTerminal = false) :
    e'.inlet.window.Minds start place (count + (e.reads op).length) := by
  cases harrives : e.arrives? op with
  | none =>
    rw [(perform_outcome hperform).inlet_of_open harrives hopen, reads_of_none harrives]
    exact h
  | some g =>
    obtain ⟨-, rfl⟩ := perform_of_arrives harrives hperform
    exact minds_onData harrives (h.insert g) hopen

theorem minds_run {ops : List Operation} {answers : List Answer}
    (h : e.phase.isTerminal = false → e.inlet.window.Minds start place count)
    (hrun : e.performAll ops = .ok (answers, e')) (hopen : e'.phase.isTerminal = false) :
    e'.inlet.window.Minds start place (count + (e.history reads ops).length) := by
  refine performAll_induct_past
    (P := fun ops _ e' => e'.phase.isTerminal = false →
      e'.inlet.window.Minds start place (count + (e.history reads ops).length))
    (fun {ops answers e₁ e₂ op answer} hrun₁ ih hperform hopen₂ => ?_) h hrun hopen
  rw [history_concat reads hrun₁, List.length_append, ← Nat.add_assoc]
  exact minds_perform hperform (ih ((perform_outcome hperform).phase hopen₂).1) hopen₂

end Data

/-! ## Acknowledgements -/

/-- No frame of this number is on its way. -/
def Spent (e : Endpoint α σ) (seq : UInt32) : Prop := ∀ w ∈ e.queue.outstanding, w.seq ≠ seq

namespace Spent

variable {seq : UInt32}

theorem congr (h : e.Spent seq) (hqueue : e'.queue = e.queue) : e'.Spent seq := by
  rw [Spent, hqueue]
  exact h

theorem move {marks : List Mark} (h : e.Spent seq) (hmove : Move e marks e') : e'.Spent seq := by
  rcases hmove.data_or_dropped with ⟨hsame, -⟩ | ⟨hclear, -⟩
  · exact h.congr hsame
  · rw [Spent, hclear]
    exact fun w hw => absurd hw List.not_mem_nil

theorem pumped (h : e.Spent seq) (now timeout : Nat) : (e.pumped now timeout).Spent seq :=
  fun w hw => h w ((SendQueue.mem_outstanding_ticked e.queue now timeout).1 w hw)

theorem enqueuePacket (h : e.Spent seq) {wrapped : Bytes}
    (hfresh : ∀ g ∈ e.splitter.fragments wrapped, g.seq ≠ seq) :
    (e.enqueuePacket wrapped).Spent seq := by
  intro w hw
  rcases List.mem_append.1 ((SendQueue.outstanding_enqueueAll e.queue _) ▸ hw) with hold | hnew
  · exact h w hold
  · obtain ⟨g, hg, rfl⟩ := List.mem_map.1 hnew
    exact hfresh g hg

theorem onData (h : e.Spent seq) (f : Fragment) : (e.onData f).Spent seq :=
  onData_induct_move (P := fun e => e.Spent seq) (fun _ _ h => h) (fun h hmove => h.move hmove)
    (h.congr (offered_queue e f))

variable [Add α] [Sub α] [Mul α] [Seconds α]

theorem retire (h : e.Spent seq) {other : UInt32} {sample now : Nat} {queue : SendQueue}
    (hack : e.queue.acknowledge? other now = some (sample, queue)) :
    (e.retire sample queue).Spent seq :=
  fun w hw => h w (SendQueue.mem_outstanding_acknowledge hack hw)

/-- An acknowledgement uses the number up, unless a frame that waits has the same. -/
theorem of_acknowledged {sample now : Nat} {queue : SendQueue}
    (hack : e.queue.acknowledge? seq now = some (sample, queue))
    (hwaiting : ∀ w ∈ e.queue.waiting, w.seq ≠ seq) : (e.retire sample queue).Spent seq := by
  obtain ⟨g, -, hpair⟩ := Option.map_eq_some_iff.1 hack
  obtain ⟨rfl, rfl⟩ := Prod.mk.inj hpair
  intro w hw
  rcases List.mem_append.1 hw with hflight | hstill
  · obtain ⟨sent, hsent, rfl⟩ := List.mem_map.1 hflight
    simpa [Sent.frame] using (List.mem_filter.1 hsent).2
  · exact hwaiting w hstill

/-- Only a packet that is cut into frames can bring the number up again. -/
theorem perform (h : e.Spent seq) (hperform : e.perform op = .ok (answer, e'))
    (hfresh : ∀ g ∈ numbering e op, g.seq ≠ seq) : e'.Spent seq := by
  rw [numbering, given_eq numbers hperform] at hfresh
  cases perform_outcome hperform with
  | aside hmove _ _ _ _ _ _ _ => exact h.move hmove
  | @accept packet wrapped secret now _ _ hwrap _ _ hpump =>
    obtain ⟨timeout, -, rfl⟩ := pump_eq_ok hpump
    rw [numbers_send hwrap now] at hfresh
    have hasked : Spent { e with secret := secret } seq := h
    exact (hasked.enqueuePacket hfresh).pumped now timeout
  | pulse _ hmove hpump =>
    obtain ⟨timeout, -, rfl⟩ := pump_eq_ok hpump
    exact (h.move hmove).pumped _ timeout
  | retire _ _ hknown hpump =>
    obtain ⟨timeout, -, rfl⟩ := pump_eq_ok hpump
    exact (h.retire hknown).pumped _ timeout
  | piece _ _ => exact h.onData _
  | transmit _ => exact h
  | report _ => exact h

theorem run {ops : List Operation} {answers : List Answer} (h : e.Spent seq)
    (hrun : e.performAll ops = .ok (answers, e'))
    (hfresh : ∀ g ∈ e.history numbering ops, g.seq ≠ seq) : e'.Spent seq := by
  refine performAll_induct_past
    (P := fun ops _ e' => (∀ g ∈ e.history numbering ops, g.seq ≠ seq) → e'.Spent seq)
    (fun hrun₁ ih hperform hfresh => ?_) (fun _ => h) hrun hfresh
  rw [history_concat numbering hrun₁] at hfresh
  exact (ih fun g hg => hfresh g (List.mem_append_left _ hg)).perform hperform
    fun g hg => hfresh g (List.mem_append_right _ hg)

end Spent

/-! ## Runs of a new endpoint -/

variable [Add α] [Sub α] [Mul α] [Seconds α]

/-- Some call of the run took in the data frame `f` that this datagram carries, and since then the
window has released fewer than half of all numbers. -/
def Admitted (e₀ : Endpoint α σ) (ops : List Operation) (datagram : Bytes) (f : Fragment) : Prop :=
  ∃ early now later answers e, ops = early ++ .receive datagram now :: later ∧
    e₀.performAll early = .ok (answers, e) ∧ e.phase = .established ∧
    Frame.decode datagram = .ok (.data f) ∧ (e.inlet.window.insert f).1 = .accepted ∧
    (e.history reads (.receive datagram now :: later)).length < 2 ^ 31

/-- Some call of the run took a frame out of flight because this datagram acknowledges it, and no
frame that came after that one was given its number: none of those that waited then, and none of
those that were numbered since. -/
def Retired (e₀ : Endpoint α σ) (ops : List Operation) (datagram : Bytes) : Prop :=
  ∃ early now later answers e seq, ops = early ++ .receive datagram now :: later ∧
    e₀.performAll early = .ok (answers, e) ∧ e.phase = .established ∧
    Frame.decode datagram = .ok (.ack seq) ∧ e.queue.isInFlight seq = true ∧
    (∀ w ∈ e.queue.waiting, w.seq ≠ seq) ∧
    ∀ g ∈ e.history numbering (.receive datagram now :: later), g.seq ≠ seq

variable {e₀ : Endpoint α σ} {ops : List Operation} {answers : List Answer} {datagram : Bytes}

/-- A call in the middle of a run was made where the calls before it led. -/
theorem performAll_split {early later : List Operation} {before : List Answer}
    {e₁ : Endpoint α σ} (hearly : e₀.performAll early = .ok (before, e₁))
    (hrun : e₀.performAll (early ++ op :: later) = .ok (answers, e)) :
    ∃ answer e₂ after, e₁.perform op = .ok (answer, e₂) ∧ e₂.performAll later = .ok (after, e) := by
  obtain ⟨answers₁, e₂, rest, hfirst, hrest, rfl⟩ := performAll_append_cases hrun
  obtain ⟨rfl, rfl⟩ := Prod.mk.inj (Except.ok.inj (hearly.symm.trans hfirst))
  obtain ⟨answer, e₃, after, hperform, hafter, rfl⟩ := performAll_cons_cases hrest
  exact ⟨answer, e₃, after, hperform, hafter⟩

theorem settled_run {settings : Settings} {token : Bytes} {transform : Transform σ} {secret : σ}
    {nonces : Nat → Nonce} (hcreate : create settings token transform secret nonces = .ok e₀)
    (hrun : e₀.performAll ops = .ok (answers, e)) : e.Settled :=
  performAll_induct_past (P := fun _ _ e => e.Settled)
    (fun _ h hperform => h.step (perform_outcome hperform)) (.start (create_new hcreate)) hrun

theorem Admitted.decode_eq (h : Admitted e₀ ops datagram f) :
    Frame.decode datagram = .ok (.data f) := by
  obtain ⟨_, _, _, _, _, -, -, -, hframe, -, -⟩ := h
  exact hframe

/-- A data frame that was taken in is known when it comes again. -/
theorem Admitted.duplicate (h : Admitted e₀ ops datagram f)
    (hrun : e₀.performAll ops = .ok (answers, e)) (hopen : e.phase.isTerminal = false) :
    e.inlet.window.classify f.seq = .duplicate := by
  obtain ⟨early, now, later, before, e₁, rfl, hearly, hup, hframe, hinsert, hmoved⟩ := h
  obtain ⟨answer, e₂, after, hfirst, hlater⟩ := performAll_split hearly hrun
  rw [ReorderWindow.insert_fst] at hinsert
  have harrives : e₁.arrives? (.receive datagram now) = some f :=
    arriving?_eq_some_iff.2 ⟨hup, hframe⟩
  obtain ⟨-, rfl⟩ := perform_of_arrives harrives hfirst
  have hminds := minds_run
    (minds_onData harrives (ReorderWindow.Minds.of_accepted hinsert)) hlater hopen
  rw [history_cons reads hfirst, List.length_append] at hmoved
  rw [ReorderWindow.eq_add_ofNat_sub e₁.inlet.window.cursor f.seq]
  exact hminds.duplicate (by omega)

/-- So all it does is to be acknowledged once more. -/
theorem Admitted.receive (h : Admitted e₀ ops datagram f)
    (hrun : e₀.performAll ops = .ok (answers, e)) (hsettled : e.Settled)
    (hup : e.phase = .established) (now : Nat) :
    e.receive datagram now = .ok
      ((e.count fun c => { c with acksSent := c.acksSent + 1 }).post (Frame.ack f.seq).encode) := by
  have hopen := isTerminal_of_established hup
  have hdup := h.duplicate hrun hopen
  rw [receive_data hup h.decode_eq, onData_of_duplicate hdup (hsettled hopen)]

/-- An acknowledgement that retired a frame has used its number up. -/
theorem Retired.spent (h : Retired e₀ ops datagram)
    (hrun : e₀.performAll ops = .ok (answers, e)) :
    ∃ seq, Frame.decode datagram = .ok (.ack seq) ∧ e.Spent seq := by
  obtain ⟨early, now, later, before, e₁, seq, rfl, hearly, hup, hframe, hflight, hwaiting,
    hfresh⟩ := h
  obtain ⟨answer, e₂, after, hfirst, hlater⟩ := performAll_split hearly hrun
  rw [history_cons numbering hfirst] at hfresh
  obtain ⟨sent, hsent, rfl⟩ := SendQueue.isInFlight_iff.1 hflight
  obtain ⟨sample, queue, hknown⟩ := SendQueue.exists_acknowledge? hsent now
  obtain ⟨e₃, hreceive, hpair⟩ := bind_eq_ok hfirst
  obtain ⟨-, rfl⟩ := Prod.mk.inj (Except.ok.inj hpair)
  rw [receive_ack hup hframe, onAck, hknown] at hreceive
  obtain ⟨timeout, -, rfl⟩ := pump_eq_ok hreceive
  have hspent := (Spent.of_acknowledged hknown hwaiting).pumped now timeout
  exact ⟨sent.seq, hframe, hspent.run hlater fun g hg => hfresh g (List.mem_append_right _ hg)⟩

/-- So it finds nothing to retire when it comes again. -/
theorem Retired.receive (h : Retired e₀ ops datagram)
    (hrun : e₀.performAll ops = .ok (answers, e)) (now : Nat) :
    e.receive datagram now = .ok e := by
  obtain ⟨seq, hframe, hspent⟩ := h.spent hrun
  have hmissing : e.queue.isInFlight seq = false := by
    rw [← Bool.not_eq_true]
    intro hflight
    obtain ⟨sent, hsent, hseq⟩ := SendQueue.isInFlight_iff.1 hflight
    exact hspent sent.frame (List.mem_append_left _ (List.mem_map_of_mem hsent)) hseq
  have hnone : e.queue.acknowledge? seq now = none :=
    SendQueue.acknowledge?_eq_none_iff.2 hmissing
  unfold Endpoint.receive
  rw [hframe]
  dsimp only [onFrame, onAck]
  rw [hnone]
  simp

end DatagramTunnel.Session.Endpoint
