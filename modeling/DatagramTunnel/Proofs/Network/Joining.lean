import DatagramTunnel.Network.Exchange
import DatagramTunnel.Proofs.Network.Progress

/-!
# Exchanges on links without rules

`Joined` ties a network, on links that lose, double and swap nothing, to the endpoints at its two
sides, so that an exchange can be followed at the endpoints.  An exchange is a sequence of rounds
(`relay`), and in a round each end hears what the other one had in its outbox, `Joined.relay`.
`Joined.settles` says when an exchange comes to an end.
-/

namespace DatagramTunnel.Network

open Flight Packet Session Wire

variable {α σ : Type}

/-! ## Sides -/

namespace Duplex

@[simp] theorem node?_place (n : Duplex α σ) (x : Node α σ) (side : Side) :
    (n.place x side).node? side = some x := by
  cases side <;> rfl

@[simp] theorem node?_place_other (n : Duplex α σ) (x : Node α σ) (side : Side) :
    (n.place x side.other).node? side = n.node? side := by
  cases side <;> rfl

@[simp] theorem node?_place_this (n : Duplex α σ) (x : Node α σ) (side : Side) :
    (n.place x side).node? side.other = n.node? side.other := by
  cases side <;> rfl

end Duplex

@[simp] theorem Side.other_other (side : Side) : side.other.other = side := by
  cases side <;> rfl

/-- The network has `x` on this side and `y` on the other one, on links without rules. -/
structure Joined (n : Duplex α σ) (side : Side) (x y : Endpoint α σ) : Prop where
  here : ∃ link : Link, link.isClear = true ∧ n.node? side = some ⟨x, link⟩
  there : ∃ link : Link, link.isClear = true ∧ n.node? side.other = some ⟨y, link⟩

namespace Joined

variable {n n' : Duplex α σ} {side : Side} {x y : Endpoint α σ}

theorem turn (h : Joined n side x y) : Joined n side.other y x := by
  refine ⟨h.there, ?_⟩
  rw [Side.other_other]
  exact h.here

/-- Two endpoints that are joined by new links. -/
theorem start (a b : Endpoint α σ) :
    Joined ({ near := { endpoint := a }, far := some { endpoint := b } } : Duplex α σ) .near a b :=
  ⟨⟨{}, rfl, rfl⟩, ⟨{}, rfl, rfl⟩⟩

/-- Emptying both outboxes. -/
theorem drain {a b : Endpoint α σ} (h : Joined n .near a b) :
    n.drain.1 = a.outbox ∧ n.drain.2.1 = b.outbox ∧
      Joined n.drain.2.2 .near a.drainOutbox.2 b.drainOutbox.2 := by
  obtain ⟨⟨link, hclear, hnear⟩, ⟨link', hclear', hfar⟩⟩ := h
  have hnear' : n.near = ⟨a, link⟩ := Option.some.inj hnear
  have hfar' : n.far = some ⟨b, link'⟩ := hfar
  simp only [Duplex.drain, hfar', hnear', Node.drain, ← Endpoint.drainOutbox_fst]
  exact ⟨trivial, trivial, ⟨link, hclear, rfl⟩, ⟨link', hclear', rfl⟩⟩

variable [Add α] [Sub α] [Mul α] [Seconds α]

/-- Over a link without rules every datagram arrives, in order. -/
theorem carry (h : Joined n side x y) {now : Nat} {datagrams : List Bytes}
    (hrun : n.carry side now datagrams = .ok n') :
    ∃ y', y.receiveAll now datagrams = .ok y' ∧ Joined n' side x y' := by
  induction datagrams generalizing n y with
  | nil =>
    have heq : n = n' := Except.ok.inj hrun
    exact ⟨y, rfl, heq ▸ h⟩
  | cons datagram rest ih =>
    obtain ⟨⟨link, hclear, hhere⟩, ⟨link', hclear', hthere⟩⟩ := h
    rw [Duplex.carry, hhere] at hrun
    simp only [Node.transmit, Link.passAll, Link.pass_of_isClear hclear, List.append_nil,
      Duplex.deliver, Duplex.node?_place_this, hthere, Node.receiveAll] at hrun
    obtain ⟨n₁, hdeliver, hrest⟩ := bind_eq_ok hrun
    obtain ⟨node, hnode, hplace⟩ := bind_eq_ok hdeliver
    obtain ⟨y₁, hreceive, hdone⟩ := bind_eq_ok hnode
    have hnode' := Except.ok.inj hdone
    have hn₁ := Except.ok.inj hplace
    subst hnode' hn₁
    have hjoined : Joined ((n.place ⟨x, { link with passed := link.passed + 1 }⟩ side).place
        ⟨y₁, link'⟩ side.other) side x y₁ := by
      refine ⟨⟨{ link with passed := link.passed + 1 }, hclear, ?_⟩, ⟨link', hclear', ?_⟩⟩
      · simp
      · simp
    obtain ⟨y', hrun', hjoined'⟩ := ih hjoined hrest
    refine ⟨y', ?_, hjoined'⟩
    rw [Endpoint.receiveAll, hreceive]
    exact hrun'

end Joined

/-! ## Rounds -/

section Rounds

variable [Add α] [Sub α] [Mul α] [Seconds α]

/-- One round of an exchange: both outboxes are emptied, and then what was in them is delivered. -/
def Duplex.relay (n : Duplex α σ) (now : Nat) : Except TimeError (Duplex α σ) := do
  (← n.drain.2.2.carry .near now n.drain.1).carry .far now n.drain.2.1

theorem exchangeWithin_quiet {n : Duplex α σ} (hnear : n.drain.1 = []) (hfar : n.drain.2.1 = [])
    (now rounds : Nat) : n.exchangeWithin now (rounds + 1) = .ok ([], n.drain.2.2) := by
  rw [Duplex.exchangeWithin]
  simp only [hnear, hfar]
  rfl

theorem exchangeWithin_busy {n : Duplex α σ} (hbusy : ¬ (n.drain.1 = [] ∧ n.drain.2.1 = []))
    (now rounds : Nat) :
    n.exchangeWithin now (rounds + 1) = n.relay now >>= fun carried =>
      carried.exchangeWithin now rounds >>= fun result =>
        .ok (n.drain.1.map (.sent .near) ++ (n.drain.2.1.map (.sent .far) ++ result.1),
          result.2) := by
  have hsome : ¬ (n.drain.1.isEmpty && n.drain.2.1.isEmpty) = true := by
    rw [Bool.and_eq_true, List.isEmpty_iff, List.isEmpty_iff]
    exact hbusy
  rw [Duplex.exchangeWithin]
  simp only [if_neg hsome, Duplex.relay]
  cases n.drain.2.2.carry .near now n.drain.1 with
  | error cause => rfl
  | ok carried => rfl

theorem exchangeWithin_relay {n carried : Duplex α σ} {now : Nat}
    (hbusy : ¬ (n.drain.1 = [] ∧ n.drain.2.1 = [])) (hrelay : n.relay now = .ok carried)
    (rounds : Nat) :
    n.exchangeWithin now (rounds + 1) = carried.exchangeWithin now rounds >>= fun result =>
      .ok (n.drain.1.map (.sent .near) ++ (n.drain.2.1.map (.sent .far) ++ result.1),
        result.2) := by
  rw [exchangeWithin_busy hbusy, hrelay]
  rfl

/-- An exchange that came to its end fails for no number of rounds. -/
theorem exchangeWithin_ne_error {n n' : Duplex α σ} {now rounds : Nat} {log : List Sighting}
    (h : n.exchangeWithin now rounds = .ok (log, n')) (hend : .outOfRounds ∉ log) (others : Nat)
    (cause : TimeError) : n.exchangeWithin now others ≠ .error cause := by
  induction rounds generalizing n log others cause with
  | zero =>
    have hlog := (Prod.mk.inj (Except.ok.inj h)).1
    rw [← hlog] at hend
    exact absurd List.mem_cons_self hend
  | succ rounds ih =>
    intro hfail
    cases others with
    | zero => cases hfail
    | succ others =>
      by_cases hquiet : n.drain.1 = [] ∧ n.drain.2.1 = []
      · rw [exchangeWithin_quiet hquiet.1 hquiet.2] at hfail
        cases hfail
      · rw [exchangeWithin_busy hquiet] at h
        obtain ⟨carried, hrelay, hrest⟩ := bind_eq_ok h
        obtain ⟨⟨later, settled⟩, hlater, hpair⟩ := bind_eq_ok hrest
        obtain ⟨rfl, rfl⟩ := Prod.mk.inj (Except.ok.inj hpair)
        have hend' : .outOfRounds ∉ later := by
          intro hmem
          exact hend (List.mem_append_right _ (List.mem_append_right _ hmem))
        rw [exchangeWithin_relay hquiet hrelay] at hfail
        cases hthen : carried.exchangeWithin now others with
        | error cause' => exact ih hlater hend' others cause' hthen
        | ok result =>
          rw [hthen] at hfail
          cases hfail

/-- A round brings to each end what the other one had in its outbox. -/
theorem Joined.relay {n n' : Duplex α σ} {a b : Endpoint α σ} {now : Nat}
    (h : Joined n .near a b) (hrelay : n.relay now = .ok n') :
    ∃ a' b', b.drainOutbox.2.receiveAll now a.outbox = .ok b' ∧
      a.drainOutbox.2.receiveAll now b.outbox = .ok a' ∧ Joined n' .near a' b' := by
  obtain ⟨hnear, hfar, hdrained⟩ := h.drain
  rw [Duplex.relay, hnear, hfar] at hrelay
  obtain ⟨n₁, hthere, hback⟩ := bind_eq_ok hrelay
  obtain ⟨b', hheard, hjoined⟩ := hdrained.carry hthere
  obtain ⟨a', hheard', hjoined'⟩ := hjoined.turn.carry hback
  exact ⟨a', b', hheard, hheard', hjoined'.turn⟩

/-- An exchange comes to an end if something that can be counted becomes less with every round that
has anything to bring. -/
theorem Joined.settles {n : Duplex α σ} {a b : Endpoint α σ} {now left : Nat}
    {P : Nat → Endpoint α σ → Endpoint α σ → Prop}
    (round : ∀ {left : Nat} {a b a' b' : Endpoint α σ}, P left a b →
      ¬ (a.outbox = [] ∧ b.outbox = []) →
        b.drainOutbox.2.receiveAll now a.outbox = .ok b' →
          a.drainOutbox.2.receiveAll now b.outbox = .ok a' → ∃ fewer < left, P fewer a' b')
    (hjoined : Joined n .near a b) (hstart : P left a b)
    (htimeouts : ∀ rounds cause, n.exchangeWithin now rounds ≠ .error cause) :
    ∃ rounds log n' least a' b', rounds ≤ left + 1 ∧
      n.exchangeWithin now rounds = .ok (log, n') ∧ .outOfRounds ∉ log ∧ P least a' b' ∧
        a'.outbox = [] ∧ b'.outbox = [] ∧ Joined n' .near a'.drainOutbox.2 b'.drainOutbox.2 := by
  induction left using Nat.strongRecOn generalizing n a b with
  | ind left ih =>
    obtain ⟨hnear, hfar, hdrained⟩ := hjoined.drain
    by_cases hquiet : a.outbox = [] ∧ b.outbox = []
    · exact ⟨1, [], n.drain.2.2, left, a, b, Nat.succ_le_succ (Nat.zero_le _),
        exchangeWithin_quiet (hnear.trans hquiet.1) (hfar.trans hquiet.2) now 0,
        List.not_mem_nil, hstart, hquiet.1, hquiet.2, hdrained⟩
    · have hbusy : ¬ (n.drain.1 = [] ∧ n.drain.2.1 = []) := by rwa [hnear, hfar]
      cases hrelay : n.relay now with
      | error cause =>
        have hfail := htimeouts 1 cause
        rw [exchangeWithin_busy hbusy, hrelay] at hfail
        exact absurd rfl hfail
      | ok carried =>
        obtain ⟨a₁, b₁, hheard, hheard', hjoined₁⟩ := hjoined.relay hrelay
        obtain ⟨fewer, hfewer, hstart₁⟩ := round hstart hquiet hheard hheard'
        have htimeouts₁ : ∀ rounds cause, carried.exchangeWithin now rounds ≠ .error cause := by
          intro rounds cause hfail
          apply htimeouts (rounds + 1) cause
          rw [exchangeWithin_relay hbusy hrelay, hfail]
          rfl
        obtain ⟨rounds, log, n', least, a', b', hrounds, hrun, hend, hrest⟩ :=
          ih fewer hfewer hjoined₁ hstart₁ htimeouts₁
        refine ⟨rounds + 1, n.drain.1.map (.sent .near) ++ (n.drain.2.1.map (.sent .far) ++ log),
          n', least, a', b', by omega, ?_, ?_, hrest⟩
        · rw [exchangeWithin_relay hbusy hrelay, hrun]
          rfl
        · simp [hend]

end Rounds

end DatagramTunnel.Network
