import DatagramTunnel.Proofs.Network.Joining
import DatagramTunnel.Proofs.Network.Lockstep
import DatagramTunnel.Proofs.Session.Greeting
import DatagramTunnel.Proofs.Session.Opening

/-!
# Complete delivery on a path without loss

Two ends that have just exchanged HELLOs, on links that lose nothing, are given packets to send.
`exchange_completes` says that the exchange which follows comes to an end, however many packets
there are, and that then each end has emitted exactly what the other one sent, and is at rest.

The sending leaves both ends `Primed`, which is a `Flow` of which nothing has arrived, and each
round of the exchange brings the flow nearer to its end, `Flow.settles`.
-/

namespace DatagramTunnel.Network

open Flight Packet Session Wire

variable {α σ : Type}

/-- Sends packets, each from the end beside it, and collects the answers. -/
def Duplex.sendAll [Mul α] [Seconds α] (n : Duplex α σ) (now : Nat) :
    List (Side × Bytes) →
      Except TimeError (List (Except TunnelError Unit) × Duplex α σ)
  | [] => .ok ([], n)
  | (side, packet) :: rest =>
    match n.node? side with
    | none => n.sendAll now rest
    | some node => do
      let (answer, endpoint) ← node.endpoint.send packet now
      let (answers, n') ← (n.place { node with endpoint } side).sendAll now rest
      return (answer :: answers, n')

/-- The packets that one side is to send. -/
def packetsFrom (side : Side) (sends : List (Side × Bytes)) : List Bytes :=
  (sends.filter fun s => s.1 = side).map Prod.snd

/-! ## The handshake -/

section Handshake

variable [Add α] [Sub α] [Mul α] [Seconds α]

/-- An end that hears the HELLO of the other one, and nothing else, is up and has nothing to say. -/
theorem greet {e e' : Endpoint α σ} {token : Bytes} {now : Nat} (h : e.phase = .connecting)
    (htoken : e.token = token)
    (hrun : e.drainOutbox.2.receiveAll now [(Frame.hello token).encode] = .ok e') :
    e'.outbox = [] ∧ e'.drainOutbox.2 = e.greeted := by
  have hphase : e.drainOutbox.2.phase = .connecting := by
    rw [Endpoint.drainOutbox_snd]
    exact h
  have hsame : e.drainOutbox.2.token = token := by
    rw [Endpoint.drainOutbox_snd]
    exact htoken
  rw [← hsame, Endpoint.receiveAll, Endpoint.receive_hello hphase] at hrun
  have heq := Except.ok.inj hrun
  subst heq
  refine ⟨?_, rfl⟩
  rw [Endpoint.drainOutbox_snd]
  rfl

/-- Two ends that have said HELLO hear each other, and then there is nothing more to say. -/
theorem Joined.handshake {n n' : Duplex α σ} {a b : Endpoint α σ} {token : Bytes} {now : Nat}
    {log : List Sighting} (h : Joined n .near a b) (ha : a.phase = .connecting)
    (hb : b.phase = .connecting) (htoken : a.token = token) (htoken' : b.token = token)
    (hout : a.outbox = [(Frame.hello token).encode])
    (hout' : b.outbox = [(Frame.hello token).encode])
    (hexchange : n.exchange now = .ok (log, n')) : Joined n' .near a.greeted b.greeted := by
  have hbusy : ¬ (n.drain.1 = [] ∧ n.drain.2.1 = []) := by
    rw [h.drain.1, hout]
    rintro ⟨hnil, -⟩
    cases hnil
  change n.exchangeWithin now (998 + 1 + 1) = _ at hexchange
  rw [exchangeWithin_busy hbusy] at hexchange
  obtain ⟨carried, hrelay, hrest⟩ := bind_eq_ok hexchange
  obtain ⟨a₁, b₁, hheard, hheard', hjoined⟩ := h.relay hrelay
  rw [hout] at hheard
  rw [hout'] at hheard'
  obtain ⟨hempty, hgreeted⟩ := greet hb htoken' hheard
  obtain ⟨hempty', hgreeted'⟩ := greet ha htoken hheard'
  obtain ⟨hnear, hfar, hdrained⟩ := hjoined.drain
  rw [hgreeted, hgreeted'] at hdrained
  rw [exchangeWithin_quiet (hnear.trans hempty') (hfar.trans hempty)] at hrest
  have hn' : carried.drain.2.2 = n' := (Prod.mk.inj (Except.ok.inj hrest)).2
  exact hn' ▸ hdrained

end Handshake

section Settling

variable [Add α] [Sub α] [Mul α] [Seconds α]

/-- An exchange goes on until nothing is on the way any more. -/
theorem Flow.settles {there back : Consignment} {n : Duplex α σ} {a b : Endpoint α σ} {now : Nat}
    {s t : Stage} (hflow : Flow now there back a b s t a.outbox b.outbox)
    (hjoined : Joined n .near a b)
    (htimeouts : ∀ rounds cause, n.exchangeWithin now rounds ≠ .error cause) :
    ∃ rounds log n' a' b' s' t', n.exchangeWithin now rounds = .ok (log, n') ∧
      .outOfRounds ∉ log ∧ Joined n' .near a' b' ∧ Flow now there back a' b' s' t' [] [] := by
  -- the number of arrivals that are still to come falls with every round
  let P (left : Nat) (a b : Endpoint α σ) : Prop :=
    ∃ s t, Flow now there back a b s t a.outbox b.outbox ∧ there.left s + back.left t = left
  have hround : ∀ {left : Nat} {a b a' b' : Endpoint α σ}, P left a b →
      ¬ (a.outbox = [] ∧ b.outbox = []) →
        b.drainOutbox.2.receiveAll now a.outbox = .ok b' →
          a.drainOutbox.2.receiveAll now b.outbox = .ok a' → ∃ fewer < left, P fewer a' b' := by
    rintro left a b a' b' ⟨s, t, hflow, rfl⟩ hbusy hheard hheard'
    obtain ⟨s', t', hflow', hfewer⟩ := hflow.relay hheard hheard'
    have harrived : 0 < a.outbox.length + b.outbox.length := by
      refine Nat.pos_of_ne_zero fun hzero => hbusy ?_
      exact ⟨List.eq_nil_of_length_eq_zero (by omega), List.eq_nil_of_length_eq_zero (by omega)⟩
    exact ⟨_, by omega, s', t', hflow', rfl⟩
  obtain ⟨rounds, log, n', left, a', b', -, hrun, hend, ⟨s', t', hflow', -⟩, hempty, hempty',
    hjoined'⟩ := hjoined.settles hround ⟨s, t, hflow, rfl⟩ htimeouts
  have hdrained := hflow'.drained.swap.drained.swap
  rw [hempty, hempty'] at hdrained
  exact ⟨rounds, log, n', _, _, s', t', hrun, hend, hjoined', hdrained⟩

end Settling

/-! ## Sending -/

section Sending

/-- Both ends have just been opened and have sent these consignments, and nothing has arrived. -/
structure Primed (n : Duplex α σ) (side : Side) (now : Nat) (there back : Consignment)
    (x y : Endpoint α σ) : Prop where
  joined : Joined n side x y
  opened : x.Opened x.settings.maxPacketSize
  opened' : y.Opened y.settings.maxPacketSize
  loaded : x.Loaded now there
  loaded' : y.Loaded now back
  limit_eq : there.limit = y.settings.maxPacketSize
  limit_eq' : back.limit = x.settings.maxPacketSize

namespace Primed

variable {n n' : Duplex α σ} {side : Side} {now : Nat} {there back : Consignment}
  {x y x' a b : Endpoint α σ}

theorem turn (h : Primed n side now there back x y) : Primed n side.other now back there y x :=
  ⟨h.joined.turn, h.opened', h.opened, h.loaded', h.loaded, h.limit_eq', h.limit_eq⟩

/-- All that has been sent is on the way. -/
theorem flow (h : Primed n .near now there back a b) :
    Flow now there back a b ⟨0, 0⟩ ⟨0, 0⟩ a.outbox b.outbox := by
  have hleg : ∀ {c : Consignment} {x y : Endpoint α σ}, x.Loaded now c →
      y.Opened c.limit → Leg now c x y ⟨0, 0⟩ := fun hloaded hopened =>
    ⟨hloaded.streaming, hopened.following, Nat.le_refl 0, Nat.zero_le _, Nat.zero_le _⟩
  have htraffic : ∀ {c c' : Consignment} {x : Endpoint α σ}, x.Loaded now c →
      Traffic x.outbox (c.onWay x.queue.window ⟨0, 0⟩) (c'.answers ⟨0, 0⟩) := by
    intro c c' x hloaded
    have hframes : c.onWay x.queue.window ⟨0, 0⟩ = c.frames.take x.queue.window := by
      rw [Consignment.onWay, List.drop_zero, Nat.zero_add]
    have hanswers : c'.answers ⟨0, 0⟩ = [] := by
      rw [Consignment.answers, List.take_zero]
      rfl
    rw [hframes, hanswers, hloaded.outbox_eq]
    exact .ofFrames _
  constructor
  · exact hleg h.loaded (h.limit_eq ▸ h.opened')
  · exact hleg h.loaded' (h.limit_eq' ▸ h.opened)
  · exact htraffic h.loaded
  · exact htraffic h.loaded'

variable [Mul α] [Seconds α]

/-- A packet that is not too long for either end is taken, whatever is sent after it. -/
theorem send (h : Primed n side now there back x y) {packet : Bytes}
    (hsmall : packet.length ≤ x.settings.maxPacketSize)
    (hsmall' : packet.length ≤ y.settings.maxPacketSize) {rest : List (Side × Bytes)}
    {answers : List (Except TunnelError Unit)}
    (hsend : n.sendAll now ((side, packet) :: rest) = .ok (answers, n')) :
    ∃ (there' : Consignment) (x' : Endpoint α σ) (n₁ : Duplex α σ) (others : _),
      there'.packets = there.packets ++ [packet] ∧ x'.settings = x.settings ∧
        Primed n₁ side now there' back x' y ∧ answers = .ok () :: others ∧
          n₁.sendAll now rest = .ok (others, n') := by
  obtain ⟨link, hclear, hhere⟩ := h.joined.here
  rw [Duplex.sendAll, hhere] at hsend
  obtain ⟨⟨answer, x'⟩, hfirst, hlater⟩ := bind_eq_ok hsend
  obtain ⟨⟨others, settled⟩, hothers, hpair⟩ := bind_eq_ok hlater
  obtain ⟨rfl, rfl⟩ := Prod.mk.inj (Except.ok.inj hpair)
  obtain ⟨rfl, hsettings, hopened, there', hpackets, hlimit, hloaded⟩ :=
    h.loaded.send h.opened hsmall (h.limit_eq ▸ hsmall') hfirst
  refine ⟨there', x', n.place ⟨x', link⟩ side, others, hpackets, hsettings,
    ⟨?_, ?_, h.opened', hloaded, h.loaded', hlimit.trans h.limit_eq, ?_⟩, rfl, hothers⟩
  · obtain ⟨link', hclear', hthere⟩ := h.joined.there
    refine ⟨⟨link, hclear, Duplex.node?_place n _ side⟩, ⟨link', hclear', ?_⟩⟩
    rw [Duplex.node?_place_this]
    exact hthere
  · rw [hsettings]
    exact hopened
  · rw [hsettings]
    exact h.limit_eq'

/-- Every packet is taken, and those of each end in their order. -/
theorem sendAll (h : Primed n .near now there back a b) {sends : List (Side × Bytes)}
    (hsmall : ∀ s ∈ sends, s.2.length ≤ a.settings.maxPacketSize ∧
      s.2.length ≤ b.settings.maxPacketSize) {answers : List (Except TunnelError Unit)}
    (hsend : n.sendAll now sends = .ok (answers, n')) :
    answers = sends.map (fun _ => .ok ()) ∧ ∃ (there' back' : Consignment) (a' b' : Endpoint α σ),
      there'.packets = there.packets ++ packetsFrom .near sends ∧
        back'.packets = back.packets ++ packetsFrom .far sends ∧
          Primed n' .near now there' back' a' b' := by
  induction sends generalizing n there back a b answers with
  | nil =>
    obtain ⟨rfl, rfl⟩ := Prod.mk.inj (Except.ok.inj hsend)
    refine ⟨rfl, there, back, a, b, ?_, ?_, h⟩
    · exact (List.append_nil _).symm
    · exact (List.append_nil _).symm
  | cons call rest ih =>
    obtain ⟨side, packet⟩ := call
    obtain ⟨hnear, hfar⟩ := hsmall _ List.mem_cons_self
    have hrest : ∀ s ∈ rest, s.2.length ≤ a.settings.maxPacketSize ∧
        s.2.length ≤ b.settings.maxPacketSize := fun s hs => hsmall s (List.mem_cons_of_mem _ hs)
    cases side with
    | near =>
      obtain ⟨there₁, a₁, n₁, others, hpackets, hsettings, hprimed, rfl, hothers⟩ :=
        h.send hnear hfar hsend
      obtain ⟨rfl, there', back', a', b', hthere', hback', hprimed'⟩ :=
        ih hprimed (hsettings ▸ hrest) hothers
      refine ⟨rfl, there', back', a', b', ?_, hback', hprimed'⟩
      rw [hthere', hpackets, List.append_assoc]
      rfl
    | far =>
      obtain ⟨back₁, b₁, n₁, others, hpackets, hsettings, hprimed, rfl, hothers⟩ :=
        h.turn.send hfar hnear hsend
      obtain ⟨rfl, there', back', a', b', hthere', hback', hprimed'⟩ :=
        ih hprimed.turn (hsettings ▸ hrest) hothers
      refine ⟨rfl, there', back', a', b', hthere', ?_, hprimed'⟩
      rw [hback', hpackets, List.append_assoc]
      rfl

end Primed

end Sending

/-! ## Completion -/

section Completion

variable [Add α] [Sub α] [Mul α] [Seconds α]

/-- Two ends that have just been opened by an exchange of HELLOs are given packets to send, none of
them too long for either end.  Unless a retransmit timeout, or a deadline that it leads to, cannot
be computed, all of them are taken, the exchange that follows ends, each end has then emitted
exactly what the other one sent, and both are at rest. -/
theorem exchange_completes {settings settings' : Settings} {token : Bytes} {secret secret' : σ}
    {nonces nonces' : Nat → Nonce} {a a' b b' : Endpoint α σ} {started started' now : Nat}
    {greetings : List Sighting} {n n' : Duplex α σ} {sends : List (Side × Bytes)}
    {answers : List (Except TunnelError Unit)}
    (ha : Endpoint.create settings token .plain secret nonces = .ok a)
    (hb : Endpoint.create settings' token .plain secret' nonces' = .ok b)
    (hconnect : a.connect started = .ok a') (hconnect' : b.connect started' = .ok b')
    (hopen : Duplex.exchange { near := { endpoint := a' }, far := some { endpoint := b' } } now =
      .ok (greetings, n))
    (hsmall : ∀ s ∈ sends, s.2.length ≤ settings.maxPacketSize ∧
      s.2.length ≤ settings'.maxPacketSize)
    (hsend : n.sendAll now sends = .ok (answers, n'))
    (htimeouts : ∀ rounds cause, n'.exchangeWithin now rounds ≠ .error cause) :
    answers = sends.map (fun _ => .ok ()) ∧
      ∃ (rounds : Nat) (log : List Sighting) (settled : Duplex α σ) (near far : Endpoint α σ),
        n'.exchangeWithin now rounds = .ok (log, settled) ∧ .outOfRounds ∉ log ∧
          settled.near.endpoint = near ∧ settled.far.map Node.endpoint = some far ∧
            far.delivered [] = packetsFrom .near sends ∧
              near.delivered [] = packetsFrom .far sends ∧ near.AtRest ∧ far.AtRest := by
  have hnew := Endpoint.create_new ha
  have hnew' := Endpoint.create_new hb
  -- the handshake
  obtain ⟨hphase, htoken, hout, hsettings⟩ := hnew.connecting hconnect
  obtain ⟨hphase', htoken', hout', hsettings'⟩ := hnew'.connecting hconnect'
  have hjoined : Joined n .near a'.greeted b'.greeted :=
    (Joined.start a' b').handshake hphase hphase' htoken htoken' hout hout' hopen
  have hprimed : Primed n .near now (.empty settings'.maxPacketSize) (.empty settings.maxPacketSize)
      a'.greeted b'.greeted := by
    refine ⟨hjoined, ?_, ?_, hnew.loaded hconnect _, hnew'.loaded hconnect' _, ?_, ?_⟩
    · rw [hsettings]
      exact hnew.opened hconnect
    · rw [hsettings']
      exact hnew'.opened hconnect'
    · rw [hsettings']
      rfl
    · rw [hsettings]
      rfl
  -- the sending
  rw [← hsettings, ← hsettings'] at hsmall
  obtain ⟨hanswers, there, back, a₁, b₁, hthere, hback, hprimed₁⟩ := hprimed.sendAll hsmall hsend
  -- the exchange
  obtain ⟨rounds, log, settled, near, far, s, t, hrun, hend, hsettled, hflow⟩ :=
    hprimed₁.flow.settles hprimed₁.joined htimeouts
  obtain ⟨hdelivered, hrest⟩ := hflow.at_rest
  obtain ⟨hdelivered', hrest'⟩ := hflow.swap.at_rest
  obtain ⟨⟨link, -, hnear⟩, ⟨link', -, hfar⟩⟩ := hsettled
  refine ⟨hanswers, rounds, log, settled, near, far, hrun, hend, ?_, ?_, ?_, ?_, hrest', hrest⟩
  · exact congrArg Node.endpoint (Option.some.inj hnear)
  · exact congrArg (Option.map Node.endpoint) hfar
  · exact hdelivered.trans hthere
  · exact hdelivered'.trans hback

end Completion

/-- Packets in both directions between ends with different settings, in several waves. -/
theorem exchange_completes_waves : ∃ (n n' settled : Duplex Rat Unit)
    (answers : List (Except TunnelError Unit)) (rounds : Nat) (log : List Sighting)
    (near far : Endpoint Rat Unit),
    n.sendAll 0 [(.near, List.range 40 |>.map UInt8.ofNat), (.far, [7]), (.near, []),
        (.far, [8, 9])] = .ok (answers, n') ∧
      n'.exchangeWithin 0 rounds = .ok (log, settled) ∧ .outOfRounds ∉ log ∧
        settled.near.endpoint = near ∧ settled.far.map Node.endpoint = some far ∧
          far.delivered [] = [List.range 40 |>.map UInt8.ofNat, []] ∧
            near.delivered [] = [[7], [8, 9]] ∧ near.AtRest ∧ far.AtRest := by
  have htrial : ((Endpoint.create { mtu := 16, maxInFlight := 2 } [7] .plain ()
      fun _ => blankNonce : Except TunnelError (Endpoint Rat Unit)).toOption.any fun a =>
    (Endpoint.create { maxInFlight := 1 } [7] .plain ()
      fun _ => blankNonce : Except TunnelError (Endpoint Rat Unit)).toOption.any fun b =>
    (a.connect 0).toOption.any fun a' => (b.connect 0).toOption.any fun b' =>
    (Duplex.exchange { near := { endpoint := a' }, far := some { endpoint := b' } } 0).toOption.any
      fun opened =>
    (opened.2.sendAll 0 [(.near, List.range 40 |>.map UInt8.ofNat), (.far, [7]), (.near, []),
      (.far, [8, 9])]).toOption.any fun sent =>
    (sent.2.exchangeWithin 0 20).toOption.any fun run =>
      !(run.1.contains .outOfRounds)) = true := by decide +kernel
  simp only [Option.any_eq_true] at htrial
  obtain ⟨a, ha, b, hb, a', ha', b', hb', ⟨greetings, n⟩, hopen, ⟨answers, n'⟩, hsend,
    ⟨log, settled⟩, hrun, hend⟩ := htrial
  have hend' : .outOfRounds ∉ log := by simpa using hend
  have hsend' := eq_ok_of_toOption hsend
  obtain ⟨-, rounds, log', settled', near, far, hdone⟩ := exchange_completes (eq_ok_of_toOption ha)
    (eq_ok_of_toOption hb) (eq_ok_of_toOption ha') (eq_ok_of_toOption hb')
    (eq_ok_of_toOption hopen) (by decide) hsend'
    (exchangeWithin_ne_error (eq_ok_of_toOption hrun) hend')
  exact ⟨n, n', settled', answers, rounds, log', near, far, hsend', hdone⟩

end DatagramTunnel.Network
