import DatagramTunnel.Proofs.Session.Acknowledging

/-!
# Saying HELLO

A HELLO goes out on three occasions: the handshake starts, its timer asks for another one, or a late
HELLO of the peer is answered.  `Greets op now e e'` lists them with the condition under which each
is said, and `perform_hello` says that any other call is `Silent`: it puts no HELLO into the outbox
and leaves alone what the endpoint remembers of its own HELLOs.

The frames in the send queue are among what a call may put into the outbox, so an endpoint has to be
known to queue nothing but data frames.
-/

namespace DatagramTunnel.Session

open Flight Packet Wire

/-! ## HELLOs among datagrams -/

/-- The token that a datagram presents, if it is a HELLO. -/
def presented? (datagram : Bytes) : Option Bytes :=
  match Frame.decode datagram with
  | .ok (.hello token) => some token
  | _ => none

/-- The tokens of the HELLOs among datagrams. -/
def hellos (datagrams : List Bytes) : List Bytes := datagrams.filterMap presented?

@[simp] theorem hellos_append (first second : List Bytes) :
    hellos (first ++ second) = hellos first ++ hellos second :=
  List.filterMap_append

theorem presented?_eq_some_iff {datagram token : Bytes} :
    presented? datagram = some token ↔ Frame.decode datagram = .ok (.hello token) := by
  unfold presented?
  split
  · rename_i other hread
    simp [hread]
  · rename_i hother
    exact ⟨nofun, fun hread => absurd hread (hother token)⟩

theorem mem_hellos_iff {datagrams : List Bytes} {token : Bytes} :
    token ∈ hellos datagrams ↔
      ∃ datagram ∈ datagrams, Frame.decode datagram = .ok (.hello token) := by
  simp only [hellos, List.mem_filterMap, presented?_eq_some_iff]

theorem decode_hello (token : Bytes) :
    Frame.decode (Frame.hello token).encode = .ok (.hello token) :=
  Frame.decode_encode_of_fits trivial

@[simp] theorem presented?_hello (token : Bytes) :
    presented? (Frame.hello token).encode = some token :=
  presented?_eq_some_iff.2 (decode_hello token)

theorem presented?_eq_none {f : Frame} (h : ∀ token, f ≠ .hello token) :
    presented? f.encode = none := by
  refine Option.eq_none_iff_forall_ne_some.2 fun token hsome => ?_
  have hread := presented?_eq_some_iff.1 hsome
  rw [Frame.decode_encode] at hread
  have hwire := Except.ok.inj hread
  cases f with
  | hello other => exact h other rfl
  | _ => cases hwire

/-- Data frames are no HELLOs. -/
theorem hellos_eq_nil {datagrams : List Bytes}
    (h : ∀ datagram ∈ datagrams, ∃ f, datagram = (Frame.data f).encode) :
    hellos datagrams = [] := by
  refine List.filterMap_eq_nil_iff.2 fun datagram hdatagram => ?_
  obtain ⟨f, rfl⟩ := h datagram hdatagram
  exact presented?_eq_none nofun

namespace Endpoint

variable {α σ : Type}

/-- What was put into the outbox between two states. -/
def postedSince (before after : Endpoint α σ) : List Bytes :=
  after.outbox.drop before.outbox.length

theorem helloDue_iff {e : Endpoint α σ} {last : Nat} (h : e.lastHello = some last)
    (now gap : Nat) : e.helloDue now gap = true ↔ gap ≤ now - last := by
  rw [helloDue, h]
  exact decide_eq_true_iff

/-! ## Silence -/

/-- No HELLO was said between two states. What else was posted stands behind what is left of the
outbox. -/
structure Silent (e e' : Endpoint α σ) : Prop where
  lastHello : e'.lastHello = e.lastHello
  handshakeStarted : e'.handshakeStarted = e.handshakeStarted
  outbox : ∃ kept news, e'.outbox = kept ++ news ∧ kept <:+ e.outbox ∧ hellos news = []

namespace Silent

variable {e e' e'' : Endpoint α σ}

/-- Nothing is posted. -/
theorem still (hlast : e'.lastHello = e.lastHello)
    (hstarted : e'.handshakeStarted = e.handshakeStarted) (houtbox : e'.outbox = e.outbox) :
    Silent e e' :=
  ⟨hlast, hstarted, e.outbox, [], by rw [houtbox, List.append_nil], List.suffix_rfl, rfl⟩

theorem refl (e : Endpoint α σ) : Silent e e := still rfl rfl rfl

/-- Datagrams that are no HELLOs are posted. -/
theorem extend {news : List Bytes} (hlast : e'.lastHello = e.lastHello)
    (hstarted : e'.handshakeStarted = e.handshakeStarted) (houtbox : e'.outbox = e.outbox ++ news)
    (hnone : hellos news = []) : Silent e e' :=
  ⟨hlast, hstarted, e.outbox, news, houtbox, List.suffix_rfl, hnone⟩

theorem post {f : Frame} (h : ∀ token, f ≠ .hello token) (hlast : e'.lastHello = e.lastHello)
    (hstarted : e'.handshakeStarted = e.handshakeStarted)
    (houtbox : e'.outbox = e.outbox ++ [f.encode]) : Silent e e' :=
  extend hlast hstarted houtbox (by simp [hellos, presented?_eq_none h])

/-- The outbox is emptied. -/
theorem dropped (hlast : e'.lastHello = e.lastHello)
    (hstarted : e'.handshakeStarted = e.handshakeStarted) (houtbox : e'.outbox = []) :
    Silent e e' :=
  ⟨hlast, hstarted, [], [], houtbox, List.nil_suffix, rfl⟩

theorem trans (h : Silent e e') (h' : Silent e' e'') : Silent e e'' := by
  obtain ⟨kept, news, houtbox, hkept, hnone⟩ := h.outbox
  obtain ⟨kept', news', houtbox', hkept', hnone'⟩ := h'.outbox
  refine ⟨h'.lastHello.trans h.lastHello, h'.handshakeStarted.trans h.handshakeStarted, ?_⟩
  obtain ⟨gone, hgone⟩ := hkept'
  rw [houtbox] at hgone
  rcases List.append_eq_append_iff.1 hgone with ⟨rest, rfl, rfl⟩ | ⟨rest, rfl, rfl⟩
  · refine ⟨rest, news ++ news', by simp [houtbox'], ?_, by simp [hnone, hnone']⟩
    exact (List.suffix_append gone rest).trans hkept
  · -- nothing is left of the first outbox
    rw [hellos_append, List.append_eq_nil_iff] at hnone
    exact ⟨[], kept' ++ news', houtbox', List.nil_suffix, by simp [hnone.2, hnone']⟩

/-- Nothing that was posted is a HELLO. -/
theorem hellos_postedSince (h : Silent e e') : hellos (e.postedSince e') = [] := by
  obtain ⟨kept, news, houtbox, hkept, hnone⟩ := h.outbox
  have hlater : (e.postedSince e').Sublist news := by
    rw [postedSince, houtbox, List.drop_append, List.drop_of_length_le hkept.length_le,
      List.nil_append]
    exact List.drop_sublist _ _
  have hsublist : (hellos (e.postedSince e')).Sublist (hellos news) := hlater.filterMap presented?
  rw [hnone] at hsublist
  exact List.sublist_nil.1 hsublist

/-- The HELLOs in the outbox were there before. -/
theorem hellos_outbox (h : Silent e e') : hellos e'.outbox ⊆ hellos e.outbox := by
  obtain ⟨kept, news, houtbox, hkept, hnone⟩ := h.outbox
  rw [houtbox, hellos_append, hnone, List.append_nil]
  exact (hkept.sublist.filterMap presented?).subset

end Silent

/-! ## The three occasions -/

/-- A call that says HELLO, and does nothing else. -/
inductive Greets : Operation → Nat → Endpoint α σ → Endpoint α σ → Prop
  /-- The handshake starts. -/
  | start {now : Nat} {e : Endpoint α σ} (phase : e.phase = .connecting)
    (first : e.handshakeStarted = none) :
    Greets (.connect now) now e ({ e with handshakeStarted := some now }.sendHello now)
  /-- The last HELLO has not been answered for a while. -/
  | retry {now : Nat} {e : Endpoint α σ} (phase : e.phase = .connecting)
    (started : e.handshakeStarted ≠ none)
    (due : e.helloDue now e.settings.helloInterval = true) :
    Greets (.tick now) now e (e.sendHello now)
  /-- The peer may have missed the last HELLO. -/
  | answer {datagram : Bytes} {now : Nat} {e : Endpoint α σ} (up : e.phase = .established)
    (frame : Frame.decode datagram = .ok (.hello e.token))
    (due : e.helloDue now (e.settings.helloInterval / 2) = true) :
    Greets (.receive datagram now) now e (e.sendHello now)

namespace Greets

variable {op : Operation} {now : Nat} {e e' : Endpoint α σ}

theorem instant (h : Greets op now e e') : op.instant? = some now := by
  cases h <;> rfl

theorem lastHello (h : Greets op now e e') : e'.lastHello = some now := by
  cases h <;> rfl

theorem outbox (h : Greets op now e e') :
    e'.outbox = e.outbox ++ [(Frame.hello e.token).encode] := by
  cases h <;> rfl

theorem postedSince_eq (h : Greets op now e e') :
    e.postedSince e' = [(Frame.hello e.token).encode] := by
  rw [postedSince, h.outbox, List.drop_left]

theorem started (h : Greets op now e e') (hstarted : e.handshakeStarted ≠ none) :
    e'.handshakeStarted ≠ none := by
  cases h with
  | start _ first => exact absurd first hstarted
  | retry _ _ _ => exact hstarted
  | answer _ _ _ => exact hstarted

end Greets

/-! ## Every call -/

variable [Add α] [Sub α] [Mul α] [Seconds α] {op : Operation} {e e' : Endpoint α σ}

theorem Act.holdsData (h : Act op e e') (hdata : HoldsData e.queue) : HoldsData e'.queue := by
  cases h with
  | fail _ _ => exact .clear e.queue
  | mismatch _ _ _ => exact .clear e.queue
  | down _ _ => exact .clear e.queue
  | expire _ _ => exact .clear e.queue
  | offer _ _ =>
    rw [offered_queue]
    exact hdata
  | retire _ _ known => exact fun w hw => hdata w (SendQueue.mem_outstanding_acknowledge known hw)
  | enqueue _ _ => exact holdsData_enqueuePacket hdata _
  | pump _ _ _ => exact (acknowledgements_pumped hdata _ _).1
  | _ => exact hdata

theorem hellos_datagrams_ticked {q : SendQueue} (hdata : HoldsData q) (now timeout : Nat) :
    hellos (q.ticked now timeout).1.datagrams = [] := by
  refine hellos_eq_nil fun datagram hdatagram => ?_
  obtain ⟨w, hw, rfl⟩ := (q.mem_outstanding_ticked now timeout).2 datagram hdatagram
  exact hdata w hw

theorem Act.greets_or_silent (h : Act op e e') (hdata : HoldsData e.queue) :
    (∃ now, Greets op now e e') ∨ Silent e e' := by
  cases h with
  | start phase first => exact .inl ⟨_, .start phase first⟩
  | retry phase started due => exact .inl ⟨_, .retry phase started due⟩
  | greet up frame due => exact .inl ⟨_, .answer up frame due⟩
  | fail _ _ => exact .inr (.dropped rfl rfl rfl)
  | mismatch _ _ _ => exact .inr (.dropped rfl rfl rfl)
  | down _ _ => exact .inr (.dropped rfl rfl rfl)
  | expire _ _ => exact .inr (.dropped rfl rfl rfl)
  | ping _ _ => exact .inr (.post (f := .ping _) nofun rfl rfl rfl)
  | answer _ _ => exact .inr (.post (f := .pong _) nofun rfl rfl rfl)
  | @offer _ _ _ f _ _ =>
    refine .inr (.extend ?_ ?_ (offered_outbox e f) ?_)
    · rw [offered_eq]
    · rw [offered_eq]
    · split
      · simp [hellos, presented?_eq_none (f := .ack f.seq) nofun]
      · rfl
  | @pump _ now _ timeout _ _ _ =>
    exact .inr (.extend rfl rfl rfl (hellos_datagrams_ticked hdata now timeout))
  | @launch id _ _ wrapped _ _ _ outbound =>
    obtain ⟨-, rfl, rfl⟩ := outbound_eq_ok outbound
    exact .inr (.post (f := .pipe id wrapped) nofun rfl rfl rfl)
  | _ => exact .inr (.still rfl rfl rfl)

/-- Acts among which there can be no HELLO.  An endpoint that is connecting after some of them was
connecting before. -/
theorem Acts.silent (h : Acts op e e') (hdata : HoldsData e.queue)
    (hno : ∀ {now : Nat} {e₁ e₂ : Endpoint α σ}, (e₁.phase = .connecting → e.phase = .connecting) →
      ¬ Greets op now e₁ e₂) : Silent e e' := by
  suffices hall : Silent e e' ∧ HoldsData e'.queue ∧
      (e'.phase = .connecting → e.phase = .connecting) from hall.1
  refine h.induct (P := fun e' => Silent e e' ∧ HoldsData e'.queue ∧
    (e'.phase = .connecting → e.phase = .connecting)) (fun {e₁ e₂} ih hact => ?_)
    ⟨.refl e, hdata, id⟩
  obtain ⟨hsilent, hdata₁, hphase⟩ := ih
  refine ⟨?_, hact.holdsData hdata₁, fun hconnecting => ?_⟩
  · rcases hact.greets_or_silent hdata₁ with ⟨now, hgreets⟩ | hsilent'
    · exact absurd hgreets (hno hphase)
    · exact hsilent.trans hsilent'
  · exact hphase (Classical.byContradiction fun hother => hact.ne_connecting hother hconnecting)

theorem tick_hello {now : Nat} (hdata : HoldsData e.queue) (h : e.tick now = .ok e') :
    Greets (.tick now) now e e' ∨ Silent e e' := by
  by_cases hphase : e.phase = .connecting
  · rw [tick, hphase] at h
    obtain rfl := Except.ok.inj h
    unfold tickHandshake
    split
    · exact .inr (.refl e)
    · rename_i hstarted
      split
      · rw [fail, if_pos hphase]
        exact .inr (.dropped rfl rfl rfl)
      · split
        · rename_i hdue
          exact .inl (.retry hphase (by simp [hstarted]) hdue)
        · exact .inr (.refl e)
  · refine .inr ((tick_acts h).silent hdata fun hconnecting hgreets => ?_)
    cases hgreets with
    | retry phase _ _ => exact hphase (hconnecting phase)

theorem receive_hello_cases {datagram : Bytes} {now : Nat} (hdata : HoldsData e.queue)
    (h : e.receive datagram now = .ok e') :
    Greets (.receive datagram now) now e e' ∨ Silent e e' := by
  by_cases hframe : ∃ token, Frame.decode datagram = .ok (.hello token)
  · obtain ⟨token, hframe⟩ := hframe
    unfold receive at h
    split at h
    · exact .inr (Except.ok.inj h ▸ .refl e)
    · rw [hframe] at h
      obtain rfl := Except.ok.inj h
      unfold onHello
      cases hphase : e.phase with
      | connecting =>
        dsimp only
        split
        · exact .inr (.still rfl rfl rfl)
        · rw [fail, if_pos hphase]
          exact .inr (.dropped rfl rfl rfl)
      | established =>
        dsimp only
        split
        · rename_i htoken
          split
          · rename_i hdue
            exact .inl (.answer hphase (htoken ▸ hframe) hdue)
          · exact .inr (.refl e)
        · exact .inr (.still rfl rfl rfl)
      | closing => exact .inr (.refl e)
      | closed => exact .inr (.refl e)
  · refine .inr ((receive_acts h).silent hdata fun _ hgreets => ?_)
    cases hgreets with
    | answer _ frame _ => exact hframe ⟨_, frame⟩

/-- Every call says HELLO, once and without doing anything else, or says none. -/
theorem perform_hello {answer : Answer} (hdata : HoldsData e.queue)
    (h : e.perform op = .ok (answer, e')) : (∃ now, Greets op now e e') ∨ Silent e e' := by
  cases perform_deed h with
  | acts hacts _ _ =>
    cases op with
    | connect now =>
      rw [perform] at h
      split at h
      · rename_i hconnect
        obtain ⟨-, rfl⟩ := Prod.mk.inj (Except.ok.inj h)
        unfold connect at hconnect
        split at hconnect
        · rename_i hphase
          split at hconnect
          · rename_i hfirst
            exact .inl ⟨now, Except.ok.inj hconnect ▸ .start hphase hfirst⟩
          · exact .inr (Except.ok.inj hconnect ▸ .refl e)
        · exact .inr (Except.ok.inj hconnect ▸ .refl e)
        · cases hconnect
        · cases hconnect
      · obtain ⟨-, rfl⟩ := Prod.mk.inj (Except.ok.inj h)
        exact .inr (.refl e)
    | tick now =>
      obtain ⟨e₁, htick, hpair⟩ := bind_eq_ok h
      obtain ⟨-, rfl⟩ := Prod.mk.inj (Except.ok.inj hpair)
      exact (tick_hello hdata htick).imp_left fun hgreets => ⟨now, hgreets⟩
    | receive datagram now =>
      obtain ⟨e₁, hreceive, hpair⟩ := bind_eq_ok h
      obtain ⟨-, rfl⟩ := Prod.mk.inj (Except.ok.inj hpair)
      exact (receive_hello_cases hdata hreceive).imp_left fun hgreets => ⟨now, hgreets⟩
    | _ => exact .inr (hacts.silent hdata fun _ hgreets => by cases hgreets)
  | @transmit datagram rest outbox =>
    refine .inr ⟨rfl, rfl, rest, [], (List.append_nil _).symm, ?_, rfl⟩
    exact outbox ▸ List.suffix_cons datagram rest
  | report _ => exact .inr (.still rfl rfl rfl)
  | shut _ _ => exact .inr (.still rfl rfl rfl)

/-- An endpoint that is connecting after a call was connecting before it. -/
theorem connecting_of_perform {answer : Answer} (h : e.perform op = .ok (answer, e'))
    (hphase : e'.phase = .connecting) : e.phase = .connecting := by
  cases perform_deed h with
  | acts hacts _ _ =>
    exact Classical.byContradiction fun hother => hacts.ne_connecting hother hphase
  | transmit _ => exact hphase
  | report _ => exact hphase
  | shut _ _ => cases hphase

/-! ## What a HELLO does to an endpoint with its token -/

theorem receive_hello (h : e.phase = .connecting) (now : Nat) :
    e.receive (Frame.hello e.token).encode now =
      .ok ({ e with phase := .established }.notify .up) := by
  have hopen : ¬ e.phase.isTerminal = true := by
    rw [isTerminal_of_connecting h]
    exact Bool.false_ne_true
  rw [receive, if_neg hopen, decode_hello]
  simp only [onFrame, onHello, h, if_true]

theorem receive_late_hello (h : e.phase = .established) (now : Nat) :
    e.receive (Frame.hello e.token).encode now =
      .ok (if e.helloDue now (e.settings.helloInterval / 2) then e.sendHello now else e) := by
  rw [receive_established h (decode_hello e.token)]
  simp only [onFrame, onHello, h, if_true]

end Endpoint

end DatagramTunnel.Session
