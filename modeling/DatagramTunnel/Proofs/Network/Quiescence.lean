import DatagramTunnel.Proofs.Network.Joining
import DatagramTunnel.Proofs.Session.Effort
import DatagramTunnel.Proofs.Session.Greeting

/-!
# Every exchange comes to an end

Two endpoints that answer each other at one instant fall silent, whatever state they are in and
whatever is on the way: HELLOs, PONGs, acknowledgements, the frames that these admit and the frames
that are sent again do not keep an exchange going.  Each datagram that arrives lowers the `effort`
of the two ends together, so there are no more rounds than they can afford.

Where the HELLO interval is a single nanosecond its half is nought, and that is why the interval is
at least two here: `exchange_echoes` says that one late HELLO then keeps two ends busy for ever.
-/

namespace DatagramTunnel.Session.Endpoint

open Flight

variable {α σ : Type}

/-- What was in the outbox is on its way. -/
theorem effort_drainOutbox (e : Endpoint α σ) (now : Nat) :
    e.drainOutbox.2.effort now + (e.outbox.map weight).sum = e.effort now := by
  rw [drainOutbox_snd]
  rfl

theorem Paced.drained {e : Endpoint α σ} (h : e.Paced) : e.drainOutbox.2.Paced := by
  rw [drainOutbox_snd]
  exact ⟨h.interval, h.floor⟩

variable [Add α] [Sub α] [Mul α] [Seconds α]

/-- Every datagram that arrives takes something away from what both ends can still do. -/
theorem receiveAll_effort {e e' : Endpoint α σ} {now : Nat} {datagrams : List Bytes} (h : e.Paced)
    (hrun : e.receiveAll now datagrams = .ok e') :
    e'.Paced ∧ e'.effort now + datagrams.length ≤ e.effort now + (datagrams.map weight).sum := by
  induction datagrams generalizing e with
  | nil => exact Except.ok.inj hrun ▸ ⟨h, Nat.le_refl _⟩
  | cons datagram rest ih =>
    obtain ⟨e₁, hreceive, hrest⟩ := receiveAll_cons hrun
    obtain ⟨hpaced, hless⟩ := receive_effort h hreceive
    obtain ⟨hpaced', hle⟩ := ih hpaced hrest
    refine ⟨hpaced', ?_⟩
    simp only [List.length_cons, List.map_cons, List.sum_cons]
    omega

end DatagramTunnel.Session.Endpoint

namespace DatagramTunnel.Network

open Flight Session Wire

variable {α σ : Type}

/-- Two ends that can afford `left` further datagrams at this instant. -/
structure Affording (now left : Nat) (a b : Endpoint α σ) : Prop where
  paced : a.Paced
  paced' : b.Paced
  effort : a.effort now + b.effort now = left

section Exchange

variable [Add α] [Sub α] [Mul α] [Seconds α]

/-- A round costs at least the datagrams that it brings. -/
theorem Affording.round {now left : Nat} {a b a' b' : Endpoint α σ} (h : Affording now left a b)
    (hbusy : ¬ (a.outbox = [] ∧ b.outbox = []))
    (hheard : b.drainOutbox.2.receiveAll now a.outbox = .ok b')
    (hheard' : a.drainOutbox.2.receiveAll now b.outbox = .ok a') :
    ∃ fewer < left, Affording now fewer a' b' := by
  obtain ⟨hpaced', hle'⟩ := Endpoint.receiveAll_effort h.paced'.drained hheard
  obtain ⟨hpaced, hle⟩ := Endpoint.receiveAll_effort h.paced.drained hheard'
  refine ⟨_, ?_, hpaced, hpaced', rfl⟩
  have hsplit := a.effort_drainOutbox now
  have hsplit' := b.effort_drainOutbox now
  have harrived : 0 < a.outbox.length + b.outbox.length := by
    refine Nat.pos_of_ne_zero fun hzero => hbusy ?_
    exact ⟨List.eq_nil_of_length_eq_zero (by omega), List.eq_nil_of_length_eq_zero (by omega)⟩
  have htotal := h.effort
  omega

/-- From any two states that endpoints can reach, and whatever is in their outboxes, an exchange
comes to an end with both outboxes empty, unless a retransmit timeout, or a deadline that it leads
to, cannot be computed. -/
theorem exchange_quiesces {settings settings' : Settings} {token token' : Bytes}
    {transform transform' : Transform σ} {secret secret' : σ} {nonces nonces' : Nat → Nonce}
    {a₀ b₀ a b : Endpoint α σ} {ops ops' : List Operation} {answers answers' : List Answer}
    (ha : Endpoint.create settings token transform secret nonces = .ok a₀)
    (hb : Endpoint.create settings' token' transform' secret' nonces' = .ok b₀)
    (hrun : a₀.performAll ops = .ok (answers, a)) (hrun' : b₀.performAll ops' = .ok (answers', b))
    (hinterval : 2 ≤ settings.helloInterval) (hinterval' : 2 ≤ settings'.helloInterval)
    {outbox outbox' : List Bytes} {n : Duplex α σ} {now : Nat}
    (hjoined : Joined n .near { a with outbox } { b with outbox := outbox' })
    (htimeouts : ∀ rounds cause, n.exchangeWithin now rounds ≠ .error cause) :
    ∃ (rounds : Nat) (log : List Sighting) (n' : Duplex α σ) (near far : Endpoint α σ),
      rounds ≤ ({ a with outbox } : Endpoint α σ).effort now +
          ({ b with outbox := outbox' } : Endpoint α σ).effort now + 1 ∧
        n.exchangeWithin now rounds = .ok (log, n') ∧ .outOfRounds ∉ log ∧
          n'.near.endpoint = near ∧ n'.far.map Node.endpoint = some far ∧
            near.outbox = [] ∧ far.outbox = [] := by
  have hpaced : a.Paced := ((Endpoint.create_new ha).paced hinterval).performAll hrun
  have hpaced' : b.Paced := ((Endpoint.create_new hb).paced hinterval').performAll hrun'
  have hstart : Affording now _ { a with outbox } { b with outbox := outbox' } :=
    ⟨⟨hpaced.interval, hpaced.floor⟩, ⟨hpaced'.interval, hpaced'.floor⟩, rfl⟩
  obtain ⟨rounds, log, n', -, a', b', hrounds, hexchange, hend, -, -, -, hsettled⟩ :=
    hjoined.settles Affording.round hstart htimeouts
  obtain ⟨⟨link, -, hnear⟩, ⟨link', -, hfar⟩⟩ := hsettled
  refine ⟨rounds, log, n', a'.drainOutbox.2, b'.drainOutbox.2, hrounds, hexchange, hend, ?_, ?_, ?_,
    ?_⟩
  · exact congrArg Node.endpoint (Option.some.inj hnear)
  · exact congrArg (Option.map Node.endpoint) hfar
  · rw [Endpoint.drainOutbox_snd]
  · rw [Endpoint.drainOutbox_snd]

end Exchange

/-- Two ends with the least HELLO intervals, one of which has said nothing yet, while HELLOs, a
PING, frames of either end and what is no frame at all are on the way, and everything in flight is
overdue. -/
theorem exchange_quiesces_crowded : ∃ (a b : Endpoint Rat Unit) (n n' : Duplex Rat Unit)
    (near far : Endpoint Rat Unit) (rounds : Nat) (log : List Sighting),
    Joined n .near a b ∧ a.outbox.length = 8 ∧ b.outbox.length = 2 ∧ b.lastHello = none ∧
      n.exchangeWithin (3 * nanosPerSecond) rounds = .ok (log, n') ∧ .outOfRounds ∉ log ∧
        n'.near.endpoint = near ∧ n'.far.map Node.endpoint = some far ∧
          near.outbox = [] ∧ far.outbox = [] := by
  let hello : Bytes := (Frame.hello [7]).encode
  let noise : List Bytes := [hello, (Frame.ping blankNonce).encode, []]
  let crowd (a b : Endpoint Rat Unit) : Duplex Rat Unit :=
    { near := { endpoint := { a with outbox := a.outbox ++ noise } }
      far := some { endpoint := { b with outbox := hello :: b.outbox } } }
  have htrial : ((Endpoint.create { helloInterval := 2, mtu := 16, maxInFlight := 3 } [7] .plain ()
      fun _ => blankNonce : Except TunnelError (Endpoint Rat Unit)).toOption.any fun a₀ =>
    (Endpoint.create { helloInterval := 2 } [7] .plain ()
      fun _ => blankNonce : Except TunnelError (Endpoint Rat Unit)).toOption.any fun b₀ =>
    (a₀.performAll [.connect 0, .receive hello 0, .send (List.range 40 |>.map UInt8.ofNat) 0,
      .tick 5]).toOption.any fun a =>
    (b₀.performAll [.receive hello 3, .send [8, 9] 3]).toOption.any fun b =>
    (a.2.outbox ++ noise).length == 8 && (hello :: b.2.outbox).length == 2 &&
      b.2.lastHello == none &&
      ((crowd a.2 b.2).exchangeWithin (3 * nanosPerSecond) 20).toOption.any fun run =>
        !(run.1.contains .outOfRounds)) = true := by decide +kernel
  simp only [Option.any_eq_true, Bool.and_eq_true, beq_iff_eq] at htrial
  obtain ⟨a₀, ha, b₀, hb, ⟨answers, a⟩, hrun, ⟨answers', b⟩, hrun', ⟨⟨hlength, hlength'⟩, hlast⟩,
    ⟨log, settled⟩, hexchange, hend⟩ := htrial
  have hend' : .outOfRounds ∉ log := by simpa using hend
  obtain ⟨rounds, log', n', near, far, -, hdone⟩ := exchange_quiesces (eq_ok_of_toOption ha)
    (eq_ok_of_toOption hb) (eq_ok_of_toOption hrun) (eq_ok_of_toOption hrun') (by decide)
    (by decide) (Joined.start _ _)
    (exchangeWithin_ne_error (eq_ok_of_toOption hexchange) hend')
  exact ⟨_, _, crowd a b, n', near, far, rounds, log', Joined.start _ _, hlength, hlength', hlast,
    hdone⟩

/-! ## HELLOs without end -/

/-- An end that is up and answers every HELLO, because half its interval is nought. -/
structure Echoing (e : Endpoint α σ) (token : Bytes) : Prop where
  up : e.phase = .established
  token_eq : e.token = token
  interval : e.settings.helloInterval < 2

theorem Echoing.drained {e : Endpoint α σ} {token : Bytes} (h : Echoing e token) :
    Echoing e.drainOutbox.2 token ∧ e.drainOutbox.2.outbox = [] := by
  rw [Endpoint.drainOutbox_snd]
  exact ⟨⟨h.up, h.token_eq, h.interval⟩, rfl⟩

variable [Add α] [Sub α] [Mul α] [Seconds α]

theorem Echoing.receive {e e' : Endpoint α σ} {token : Bytes} (h : Echoing e token) {now : Nat}
    (hrun : e.receiveAll now [(Frame.hello token).encode] = .ok e') :
    Echoing e' token ∧ e'.outbox = e.outbox ++ [(Frame.hello token).encode] := by
  have hhalf : e.settings.helloInterval / 2 = 0 := Nat.div_eq_of_lt h.interval
  have hdue : e.helloDue now (e.settings.helloInterval / 2) = true := by
    rw [hhalf]
    cases hlast : e.lastHello with
    | none => rw [Endpoint.helloDue, hlast]
    | some last => exact (Endpoint.helloDue_iff hlast now 0).2 (Nat.zero_le _)
  obtain ⟨e₁, hreceive, hdone⟩ := Endpoint.receiveAll_cons hrun
  obtain rfl := Except.ok.inj hdone
  rw [← h.token_eq, Endpoint.receive_late_hello h.up, if_pos hdue] at hreceive
  obtain rfl := Except.ok.inj hreceive
  refine ⟨⟨h.up, h.token_eq, h.interval⟩, ?_⟩
  rw [← h.token_eq]
  rfl

/-- A HELLO on the way between two such ends is answered in every round, and no number of rounds is
enough. -/
theorem exchange_echoes {n n' : Duplex α σ} {a b : Endpoint α σ} {token : Bytes} {now rounds : Nat}
    {log : List Sighting} (ha : Echoing a token) (hb : Echoing b token)
    (hjoined : Joined n .near a b)
    (hhello : a.outbox = [(Frame.hello token).encode] ∧ b.outbox = [] ∨
      a.outbox = [] ∧ b.outbox = [(Frame.hello token).encode])
    (hrun : n.exchangeWithin now rounds = .ok (log, n')) : .outOfRounds ∈ log := by
  induction rounds generalizing n a b log with
  | zero => exact (Prod.mk.inj (Except.ok.inj hrun)).1 ▸ List.mem_singleton_self _
  | succ rounds ih =>
    obtain ⟨hnear, hfar, -⟩ := hjoined.drain
    have hbusy : ¬ (n.drain.1 = [] ∧ n.drain.2.1 = []) := by
      rw [hnear, hfar]
      rcases hhello with ⟨hout, -⟩ | ⟨-, hout⟩ <;> simp [hout]
    rw [exchangeWithin_busy hbusy] at hrun
    obtain ⟨carried, hrelay, hrest⟩ := bind_eq_ok hrun
    obtain ⟨⟨later, settled⟩, hlater, hpair⟩ := bind_eq_ok hrest
    obtain ⟨rfl, rfl⟩ := Prod.mk.inj (Except.ok.inj hpair)
    obtain ⟨a', b', hheard, hheard', hjoined'⟩ := hjoined.relay hrelay
    obtain ⟨ha₀, hempty⟩ := ha.drained
    obtain ⟨hb₀, hempty'⟩ := hb.drained
    -- the end that hears the HELLO says the next one, and the other end hears nothing
    suffices hmore : .outOfRounds ∈ later from
      List.mem_append_right _ (List.mem_append_right _ hmore)
    rcases hhello with ⟨hout, hout'⟩ | ⟨hout, hout'⟩
    · rw [hout] at hheard
      rw [hout'] at hheard'
      obtain ⟨hb', hanswer⟩ := hb₀.receive hheard
      obtain rfl := Except.ok.inj hheard'
      exact ih ha₀ hb' hjoined' (.inr ⟨hempty, by rw [hanswer, hempty', List.nil_append]⟩) hlater
    · rw [hout] at hheard
      rw [hout'] at hheard'
      obtain ⟨ha', hanswer⟩ := ha₀.receive hheard'
      obtain rfl := Except.ok.inj hheard
      exact ih ha' hb₀ hjoined' (.inl ⟨by rw [hanswer, hempty, List.nil_append], hempty'⟩) hlater

end DatagramTunnel.Network
