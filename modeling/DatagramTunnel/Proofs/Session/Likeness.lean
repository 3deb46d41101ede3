import DatagramTunnel.Proofs.Session.Backlog
import DatagramTunnel.Proofs.Session.Lifecycle

/-!
# Endpoints that are alike

Raw datagrams share the outbox, the events and the counters of an endpoint with everything else.
`withoutRaw` is what is left of an endpoint when they are disregarded, and two endpoints are `Alike`
if the same is left of both.

Two open endpoints that are alike are one and the same endpoint behind two backlogs, and no call but
the polls can tell one backlog from another: `Alike.perform`.  A poll can, unless what it takes has
nothing to do with a raw datagram.
-/

namespace DatagramTunnel.Session

open Flight Packet Wire

/-- Whether the datagram is a raw one. -/
def isPipe (datagram : Bytes) : Bool :=
  match Frame.decode datagram with
  | .ok (.pipe _ _) => true
  | _ => false

@[simp] theorem isPipe_encode (id : UInt8) (payload : Bytes) :
    isPipe (Frame.pipe id payload).encode = true := by
  have hread : Frame.decode (Frame.pipe id payload).encode = .ok (.pipe id payload) :=
    Frame.decode_encode_of_fits trivial
  simp [isPipe, hread]

/-- Whether the event brings a raw datagram. -/
def Event.isRaw : Event → Bool
  | .raw _ _ => true
  | _ => false

/-- Two lists of which the same is kept, and which begin with something that is kept if with
anything. -/
theorem next_eq_of_filter {β : Type} {dropped : β → Bool} {xs ys : List β}
    (hsame : (xs.filter fun x => !dropped x) = ys.filter fun y => !dropped y)
    (hxs : xs.head?.any dropped = false) (hys : ys.head?.any dropped = false) :
    (xs = [] ∧ ys = []) ∨ ∃ x rest others, xs = x :: rest ∧ ys = x :: others ∧
      (rest.filter fun x => !dropped x) = others.filter fun y => !dropped y := by
  cases xs with
  | nil =>
    cases ys with
    | nil => exact .inl ⟨rfl, rfl⟩
    | cons y others => simp_all
  | cons x rest =>
    cases ys with
    | nil => simp_all
    | cons y others =>
      have hx : dropped x = false := hxs
      have hy : dropped y = false := hys
      simp only [List.filter_cons, hx, hy, Bool.not_false, if_true] at hsame
      obtain ⟨rfl, hrest⟩ := List.cons.inj hsame
      exact .inr ⟨x, rest, others, rfl, rfl, hrest⟩

/-- The measurements without those of raw datagrams and of the datagrams that the socket took. -/
def Statistics.withoutRaw (s : Statistics) : Statistics :=
  { s with datagramsSent := 0, rawSent := 0, rawReceived := 0 }

namespace Endpoint

variable {α σ : Type}

/-- The endpoint with everything raw disregarded: the counts of raw datagrams and of the datagrams
that the socket took, the raw datagrams in the outbox and the raw events. -/
def withoutRaw (e : Endpoint α σ) : Endpoint α σ :=
  { e with
    pipes := { mtu := e.pipes.mtu }
    counters := { e.counters with datagramsSent := 0 }
    outbox := e.outbox.filter fun datagram => !isPipe datagram
    events := e.events.filter fun event => !event.isRaw }

/-- The same is left of both when everything raw is disregarded. -/
def Alike (e₁ e₂ : Endpoint α σ) : Prop := e₁.withoutRaw = e₂.withoutRaw

/-- Whether a call sends a raw datagram, brings one, or takes one or the news of one out of a
queue. -/
def handlesRaw (e : Endpoint α σ) : Operation → Bool
  | .sendRaw _ _ => true
  | .receive datagram _ => isPipe datagram
  | .pollTransmit => e.outbox.head?.any isPipe
  | .pollEvent => e.events.head?.any Event.isRaw
  | _ => false

/-- A result with everything raw disregarded in the endpoint. -/
def apart {γ : Type} (result : γ × Endpoint α σ) : γ × Endpoint α σ :=
  (result.1, result.2.withoutRaw)

variable {e₁ e₂ : Endpoint α σ}

/-! ## Open endpoints -/

/-- The endpoint with empty queues, and without the counts of what went through them. -/
def bare (e : Endpoint α σ) : Endpoint α σ :=
  { e with
    pipes := { mtu := e.pipes.mtu }
    counters := { e.counters with datagramsSent := 0, acksSent := 0 }
    outbox := []
    events := [] }

/-- What is in the queues of the endpoint, with the counts of what went through them. -/
def backlog (e : Endpoint α σ) : Backlog where
  datagrams := e.outbox
  news := e.events
  datagramsSent := e.counters.datagramsSent
  acksSent := e.counters.acksSent
  rawSent := e.pipes.sent
  rawReceived := e.pipes.received

theorem bare_behind {e : Endpoint α σ} (hopen : e.phase.isTerminal = false) :
    e.bare.behind e.backlog = e := by
  simp [bare, behind, backlog, hopen]

namespace Alike

/-- What can be read off as well after disregarding is the same at both. -/
theorem read {β : Type} (h : Alike e₁ e₂) {f : Endpoint α σ → β}
    (hf : ∀ e, f e.withoutRaw = f e) : f e₁ = f e₂ := by
  have hsame : e₁.withoutRaw = e₂.withoutRaw := h
  rw [← hf e₁, ← hf e₂, hsame]

theorem phase (h : Alike e₁ e₂) : e₁.phase = e₂.phase := h.read fun _ => rfl

theorem settings (h : Alike e₁ e₂) : e₁.settings = e₂.settings := h.read fun _ => rfl

theorem bare (h : Alike e₁ e₂) : e₁.bare = e₂.bare := h.read fun _ => rfl

/-! ## Queues -/

theorem outbox (h : Alike e₁ e₂) :
    (e₁.outbox.filter fun datagram => !isPipe datagram) =
      e₂.outbox.filter fun datagram => !isPipe datagram :=
  congrArg Endpoint.outbox h

theorem events (h : Alike e₁ e₂) :
    (e₁.events.filter fun event => !event.isRaw) = e₂.events.filter fun event => !event.isRaw :=
  congrArg Endpoint.events h

/-- Behind the one backlog or the other, the same is left when everything raw is disregarded. -/
theorem behind (h : Alike e₁ e₂) (e : Endpoint α σ) :
    Alike (e.behind e₁.backlog) (e.behind e₂.backlog) := by
  have hacks : e₁.counters.acksSent = e₂.counters.acksSent :=
    h.read (f := fun e => e.counters.acksSent) fun _ => rfl
  cases hended : e.phase.isTerminal <;>
    simp [Alike, Endpoint.withoutRaw, Endpoint.behind, backlog, hended, h.outbox, h.events, hacks]

theorem withOutbox (h : Alike e₁ e₂) {rest others : List Bytes}
    (hrest : (rest.filter fun datagram => !isPipe datagram) =
      others.filter fun datagram => !isPipe datagram) :
    Alike { e₁ with outbox := rest } { e₂ with outbox := others } := by
  have hwhole : e₁.withoutRaw = e₂.withoutRaw := h
  show { e₁.withoutRaw with outbox := rest.filter fun datagram => !isPipe datagram } =
    { e₂.withoutRaw with outbox := others.filter fun datagram => !isPipe datagram }
  rw [hwhole, hrest]

theorem withEvents (h : Alike e₁ e₂) {rest others : List Event}
    (hrest : (rest.filter fun event => !event.isRaw) = others.filter fun event => !event.isRaw) :
    Alike { e₁ with events := rest } { e₂ with events := others } := by
  have hwhole : e₁.withoutRaw = e₂.withoutRaw := h
  show { e₁.withoutRaw with events := rest.filter fun event => !event.isRaw } =
    { e₂.withoutRaw with events := others.filter fun event => !event.isRaw }
  rw [hwhole, hrest]

/-- The socket takes the same datagram from both. -/
theorem pollTransmit (h : Alike e₁ e₂) (h₁ : e₁.handlesRaw .pollTransmit = false)
    (h₂ : e₂.handlesRaw .pollTransmit = false) :
    apart e₁.pollTransmit = apart e₂.pollTransmit := by
  rcases next_eq_of_filter h.outbox h₁ h₂ with ⟨hnone₁, hnone₂⟩ |
    ⟨datagram, rest, others, hsome₁, hsome₂, hrest⟩
  · rw [Endpoint.pollTransmit, hnone₁, Endpoint.pollTransmit, hnone₂]
    exact congrArg (fun e => (none, e)) h
  · rw [Endpoint.pollTransmit, hsome₁, Endpoint.pollTransmit, hsome₂]
    exact congrArg (fun e => (some datagram, e)) (h.withOutbox hrest)

theorem shut (h : Alike e₁ e₂) :
    Alike (if e₁.phase = .closing then { e₁ with phase := .closed } else e₁)
      (if e₂.phase = .closing then { e₂ with phase := .closed } else e₂) := by
  by_cases hphase : e₂.phase = .closing
  · have hwhole : e₁.withoutRaw = e₂.withoutRaw := h
    rw [if_pos (h.phase.trans hphase), if_pos hphase]
    show { e₁.withoutRaw with phase := .closed } = { e₂.withoutRaw with phase := .closed }
    rw [hwhole]
  · rw [if_neg (fun hclosing => hphase (h.phase.symm.trans hclosing)), if_neg hphase]
    exact h

/-- The application is told the same by both. -/
theorem pollEvent (h : Alike e₁ e₂) (h₁ : e₁.handlesRaw .pollEvent = false)
    (h₂ : e₂.handlesRaw .pollEvent = false) : apart e₁.pollEvent = apart e₂.pollEvent := by
  rcases next_eq_of_filter h.events h₁ h₂ with ⟨hnone₁, hnone₂⟩ |
    ⟨event, rest, others, hsome₁, hsome₂, hrest⟩
  · have hpoll₁ : e₁.pollEvent =
        (none, if e₁.phase = .closing then { e₁ with phase := .closed } else e₁) := by
      simp [Endpoint.pollEvent, hnone₁]
    have hpoll₂ : e₂.pollEvent =
        (none, if e₂.phase = .closing then { e₂ with phase := .closed } else e₂) := by
      simp [Endpoint.pollEvent, hnone₂]
    rw [hpoll₁, hpoll₂]
    exact congrArg (fun e => (none, e)) h.shut
  · rw [Endpoint.pollEvent, hsome₁, Endpoint.pollEvent, hsome₂]
    exact congrArg (fun e => (some event, e)) (h.withEvents hrest)

/-! ## Measurements -/

section Measurements

variable [Mul α] [Seconds α]

theorem nextTickInterval (h : Alike e₁ e₂) : e₁.nextTickInterval = e₂.nextTickInterval :=
  h.read fun _ => rfl

theorem statistics (h : Alike e₁ e₂) :
    e₁.statistics.map Statistics.withoutRaw = e₂.statistics.map Statistics.withoutRaw :=
  h.read (f := fun e => e.statistics.map Statistics.withoutRaw) fun e => by
    have hround : e.withoutRaw.roundTrip = e.roundTrip := rfl
    unfold Endpoint.statistics
    rw [hround]
    cases e.roundTrip.smoothed with
    | error cause => rfl
    | ok smoothed =>
      cases e.roundTrip.timeout with
      | error cause => rfl
      | ok timeout => rfl

end Measurements

/-! ## Calls -/

variable [Add α] [Sub α] [Mul α] [Seconds α] {op : Operation}

/-- A call that takes nothing out of a queue cannot tell two endpoints apart. -/
theorem perform_of_not_poll (h : Alike e₁ e₂) (hsocket : op ≠ .pollTransmit)
    (hnews : op ≠ .pollEvent) : (e₁.perform op).map apart = (e₂.perform op).map apart := by
  cases hended : e₁.phase.isTerminal with
  | true =>
    have hended₂ : e₂.phase.isTerminal = true := h.phase ▸ hended
    rw [perform_afterEnd hended (fun hop => absurd hop hsocket) hnews,
      perform_afterEnd hended₂ (fun hop => absurd hop hsocket) hnews]
    exact congrArg (fun e => Except.ok (op.afterEnd, e)) h
  | false =>
    have hopen₂ : e₂.phase.isTerminal = false := h.phase ▸ hended
    have hfirst := perform_behind e₁.bare e₁.backlog
      (fun hop => absurd hop hsocket) fun hop => absurd hop hnews
    have hsecond := perform_behind e₂.bare e₂.backlog
      (fun hop => absurd hop hsocket) fun hop => absurd hop hnews
    rw [bare_behind hended] at hfirst
    rw [bare_behind hopen₂, ← h.bare] at hsecond
    rw [hfirst, hsecond]
    cases e₁.bare.perform op with
    | error cause => rfl
    | ok result => exact congrArg (fun e => Except.ok (result.1, e)) (h.behind result.2)

/-- An operation that handles no raw datagram cannot tell two endpoints apart. -/
theorem perform (h : Alike e₁ e₂) (h₁ : e₁.handlesRaw op = false) (h₂ : e₂.handlesRaw op = false) :
    (e₁.perform op).map apart = (e₂.perform op).map apart := by
  by_cases hsocket : op = .pollTransmit
  · subst hsocket
    exact congrArg (fun r => Except.ok (Answer.datagram r.1, r.2)) (h.pollTransmit h₁ h₂)
  · by_cases hnews : op = .pollEvent
    · subst hnews
      exact congrArg (fun r => Except.ok (Answer.event r.1, r.2)) (h.pollEvent h₁ h₂)
    · exact h.perform_of_not_poll hsocket hnews

end Alike

end Endpoint

end DatagramTunnel.Session
