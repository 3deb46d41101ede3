import DatagramTunnel.Network.Exchange
import DatagramTunnel.Proofs.Session.Acts
import DatagramTunnel.Proofs.Session.Receiving
import DatagramTunnel.Proofs.Session.Sending

/-!
# Two endpoints on a path that may do anything but forge

A `Party` is an endpoint with a record of what it has done: the datagrams it put on the path, the
packets it took for delivery, the data frames it numbered, those its window admitted, and the events
it handed out.  On a `Path` two parties act in any order and at any instants.  The path may lose,
double, delay and swap datagrams, so any datagram that one party has sent may reach the other at any
time and any number of times; but nothing else reaches it.  `Reachable a b` are the states that two
endpoints come to in this way, and an operation that has no result leads nowhere.

`Linked` is the invariant that ties the two ends together, for the frames that travel from the near
end to the far one.  `Reachable.linked` says that it holds in every reachable state in which the
near end has numbered at most `2 ^ 31` frames.
-/

namespace DatagramTunnel.Network

open Flight Packet Session Wire

/-! ## Parties -/

/-- An endpoint with a record of what it has done. -/
structure Party (α σ : Type) where
  endpoint : Endpoint α σ
  /-- The datagrams it put on the path. -/
  sent : List Bytes := []
  /-- The events it handed to the application. -/
  taken : List Event := []
  /-- The packets that its application sent and it did not refuse. -/
  accepted : List Bytes := []
  /-- The data frames it numbered. -/
  numbered : List Fragment := []
  /-- The data frames that its window took in. -/
  admitted : List Fragment := []

namespace Party

variable {α σ : Type}

/-- The packets that the party has emitted, whether or not its application has asked for them. -/
def delivered (p : Party α σ) : List Bytes :=
  (p.taken ++ p.endpoint.events).filterMap Event.content?

variable [Add α] [Sub α] [Mul α] [Seconds α]

/-- Does one operation and records it. -/
def perform (p : Party α σ) (op : Operation) : Except TimeError (Party α σ) := do
  let (answer, endpoint) ← p.endpoint.perform op
  return {
    endpoint
    sent := p.sent ++ answer.sent
    taken := p.taken ++ answer.taken
    accepted := p.accepted ++ op.accepted answer
    numbered := p.numbered ++ p.endpoint.numbers op answer
    admitted := p.admitted ++ p.endpoint.admits op }

theorem exists_of_perform {p p' : Party α σ} {op : Operation} (h : p.perform op = .ok p') :
    ∃ answer endpoint, p.endpoint.perform op = .ok (answer, endpoint) ∧
      p' = {
        endpoint
        sent := p.sent ++ answer.sent
        taken := p.taken ++ answer.taken
        accepted := p.accepted ++ op.accepted answer
        numbered := p.numbered ++ p.endpoint.numbers op answer
        admitted := p.admitted ++ p.endpoint.admits op } := by
  obtain ⟨⟨answer, endpoint⟩, hperform, hparty⟩ := bind_eq_ok h
  exact ⟨answer, endpoint, hperform, (Except.ok.inj hparty).symm⟩

theorem perform_eq_ok {p p' : Party α σ} {op : Operation} (h : p.perform op = .ok p') :
    ∃ answer endpoint, p.endpoint.Outcome op answer endpoint ∧
      p' = {
        endpoint
        sent := p.sent ++ answer.sent
        taken := p.taken ++ answer.taken
        accepted := p.accepted ++ op.accepted answer
        numbered := p.numbered ++ p.endpoint.numbers op answer
        admitted := p.admitted ++ p.endpoint.admits op } := by
  obtain ⟨answer, endpoint, hperform, hparty⟩ := exists_of_perform h
  exact ⟨answer, endpoint, Endpoint.perform_outcome hperform, hparty⟩

end Party

/-! ## The path -/

/-- Whether a path on which these datagrams have been put can bring about the operation: only what
was sent arrives. -/
def Permits (sent : List Bytes) : Operation → Prop
  | .receive datagram _ => datagram ∈ sent
  | _ => True

instance (sent : List Bytes) (op : Operation) : Decidable (Permits sent op) :=
  match op with
  | .receive datagram _ => inferInstanceAs (Decidable (datagram ∈ sent))
  | .connect _ | .send _ _ | .sendRaw _ _ | .tick _ | .close | .socketClosed | .pollTransmit
  | .pollEvent => isTrue trivial

/-- Two parties that can hear each other. -/
structure Path (α σ β τ : Type) where
  near : Party α σ
  far : Party β τ

variable {α σ β τ : Type}

section Acts

variable [Add α] [Sub α] [Mul α] [Seconds α] [Add β] [Sub β] [Mul β] [Seconds β]

/-- Lets one party do an operation, if the path can bring it about and it has a result. -/
def Path.act (s : Path α σ β τ) (side : Side) (op : Operation) : Option (Path α σ β τ) :=
  match side with
  | .near =>
    if Permits s.far.sent op then (s.near.perform op).toOption.map fun p => { s with near := p }
    else none
  | .far =>
    if Permits s.near.sent op then (s.far.perform op).toOption.map fun p => { s with far := p }
    else none

/-- The states that two endpoints come to on a path. -/
inductive Reachable (a : Endpoint α σ) (b : Endpoint β τ) : Path α σ β τ → Prop
  | start : Reachable a b { near := { endpoint := a }, far := { endpoint := b } }
  | step {s s' : Path α σ β τ} {side : Side} {op : Operation} (before : Reachable a b s)
    (act : s.act side op = some s') : Reachable a b s'

theorem Path.act_near {s s' : Path α σ β τ} {op : Operation} (h : s.act .near op = some s') :
    ∃ p, Permits s.far.sent op ∧ s.near.perform op = .ok p ∧ s' = { s with near := p } := by
  by_cases hpermits : Permits s.far.sent op
  · rw [act, if_pos hpermits] at h
    obtain ⟨p, hperform, rfl⟩ := Option.map_eq_some_iff.1 h
    exact ⟨p, hpermits, eq_ok_of_toOption hperform, rfl⟩
  · rw [act, if_neg hpermits] at h
    cases h

theorem Path.act_far {s s' : Path α σ β τ} {op : Operation} (h : s.act .far op = some s') :
    ∃ p, Permits s.near.sent op ∧ s.far.perform op = .ok p ∧ s' = { s with far := p } := by
  by_cases hpermits : Permits s.near.sent op
  · rw [act, if_pos hpermits] at h
    obtain ⟨p, hperform, rfl⟩ := Option.map_eq_some_iff.1 h
    exact ⟨p, hpermits, eq_ok_of_toOption hperform, rfl⟩
  · rw [act, if_neg hpermits] at h
    cases h

/-- An act is an operation of one party that the path permits; the other party stays as it is. -/
theorem Path.act_cases {s s' : Path α σ β τ} {side : Side} {op : Operation}
    (h : s.act side op = some s') :
    (∃ p, Permits s.far.sent op ∧ s.near.perform op = .ok p ∧ s' = { s with near := p }) ∨
      ∃ p, Permits s.near.sent op ∧ s.far.perform op = .ok p ∧ s' = { s with far := p } := by
  cases side with
  | near => exact .inl (act_near h)
  | far => exact .inr (act_far h)

/-- Lets the parties do operations one after the other. -/
def Path.run (s : Path α σ β τ) : List (Side × Operation) → Option (Path α σ β τ)
  | [] => some s
  | (side, op) :: rest => (s.act side op).bind fun s' => s'.run rest

theorem Reachable.run {a : Endpoint α σ} {b : Endpoint β τ} {s s' : Path α σ β τ}
    (h : Reachable a b s) {script : List (Side × Operation)} (hrun : s.run script = some s') :
    Reachable a b s' := by
  induction script generalizing s with
  | nil => exact Option.some.inj hrun ▸ h
  | cons call rest ih =>
    obtain ⟨s₁, hact, hrest⟩ := Option.bind_eq_some_iff.1 hrun
    exact ih (h.step hact) hrest

/-- The opening of a connection: each end says HELLO, and each hears the other. -/
def opening (token : Bytes) : List (Side × Operation) :=
  [(.near, .connect 0), (.far, .connect 0), (.near, .pollTransmit), (.far, .pollTransmit),
    (.far, .receive (Frame.hello token).encode 0), (.near, .receive (Frame.hello token).encode 0)]

/-- What two new endpoints come to by a script, in the clear and with exact round-trip times. -/
def Path.trial (settings settings' : Settings) (token : Bytes) (script : List (Side × Operation)) :
    Option (Path Rat Unit Rat Unit) :=
  (Endpoint.create settings token .plain () fun _ => blankNonce).toOption.bind fun a =>
    (Endpoint.create settings' token .plain () fun _ => blankNonce).toOption.bind fun b =>
      Path.run { near := { endpoint := a }, far := { endpoint := b } } script

/-- A script that has a result shows a reachable state. -/
theorem Path.reachable_of_trial {settings settings' : Settings} {token : Bytes}
    {script : List (Side × Operation)} {p : Path Rat Unit Rat Unit → Bool}
    (h : (trial settings settings' token script).any p = true) :
    ∃ a b s, Endpoint.create settings token .plain () (fun _ => blankNonce) = .ok a ∧
      Endpoint.create settings' token .plain () (fun _ => blankNonce) = .ok b ∧
      Reachable a b s ∧ p s = true := by
  obtain ⟨s, hs, hp⟩ := (Option.any_eq_true _ _).1 h
  obtain ⟨a, ha, hrest⟩ := Option.bind_eq_some_iff.1 hs
  obtain ⟨b, hb, hrun⟩ := Option.bind_eq_some_iff.1 hrest
  exact ⟨a, b, s, eq_ok_of_toOption ha, eq_ok_of_toOption hb, Reachable.start.run hrun, hp⟩

end Acts

/-! ## The two ends together -/

/-- What ties the ends together, for the frames that travel from the near one to the far one. -/
structure Linked (s : Path α σ β τ) : Prop where
  sending : s.near.endpoint.Sending s.near.sent s.near.numbered
  receiving : s.far.endpoint.Receiving s.far.sent s.near.numbered s.far.admitted
  settled : s.far.endpoint.Settled
  /-- A frame that the far end has not admitted has not left the queue of the near one. -/
  retained : s.near.endpoint.phase = .established →
    ∀ f ∈ s.near.numbered, f ∉ s.far.admitted → waitingFor f ∈ s.near.endpoint.queue.outstanding

namespace Linked

variable {s : Path α σ β τ}

theorem start {a : Endpoint α σ} {b : Endpoint β τ} {settings settings' : Settings}
    {token token' : Bytes} {transform : Transform σ} {transform' : Transform τ}
    (ha : a.New settings token transform) (hb : b.New settings' token' transform') :
    Linked ({ near := { endpoint := a }, far := { endpoint := b } } : Path α σ β τ) :=
  ⟨.start ha, .start hb, .start hb, fun _ _ hf => absurd hf List.not_mem_nil⟩

theorem nearStep [Add α] [Sub α] [Mul α] [Seconds α] (h : Linked s) {op : Operation}
    {p : Party α σ} (hpermits : Permits s.far.sent op) (hperform : s.near.perform op = .ok p)
    (hlen : p.numbered.length ≤ 2 ^ 31) : Linked { s with near := p } := by
  obtain ⟨answer, endpoint, hout, rfl⟩ := Party.perform_eq_ok hperform
  have hroom : (s.near.numbered ++ s.near.endpoint.numbers op answer).length ≤ 2 ^ 32 := by
    dsimp only at hlen
    omega
  refine ⟨h.sending.step hout hroom, h.receiving.extend _, h.settled, ?_⟩
  intro hup f hf hnot
  obtain ⟨hfresh, hkept⟩ := h.sending.keeps hout hroom hup
  rcases List.mem_append.1 hf with hold | hnew
  · have hphase : s.near.endpoint.phase = .established := by
      by_cases hphase : s.near.endpoint.phase = .established
      · exact hphase
      · have hopen := (hout.phase (Endpoint.isTerminal_of_established hup)).1
        rw [h.sending.numbered_eq_nil hopen hphase] at hold
        exact absurd hold List.not_mem_nil
    rcases hkept _ (h.retained hphase f hold hnot) with hstill | ⟨datagram, now, rfl, hack⟩
    · exact hstill
    · -- the acknowledgement names an admitted frame, and that can only be this one
      exfalso
      have harrived : datagram ∈ s.far.sent ++ s.far.endpoint.outbox :=
        List.mem_append_left _ hpermits
      obtain ⟨g, hg, hseq⟩ := h.receiving.answered datagram harrived _ hack
      have hstream := h.receiving.ordered.admitted_mem g hg
      have hlen' : s.near.numbered.length ≤ 2 ^ 32 := by
        rw [List.length_append] at hroom
        omega
      have hsame := h.sending.consecutive.eq_of_seq_eq hlen' hstream hold hseq
      exact hnot (hsame ▸ hg)
  · exact hfresh f hnew

theorem farStep [Add β] [Sub β] [Mul β] [Seconds β] (h : Linked s) {op : Operation}
    {p : Party β τ} (hpermits : Permits s.near.sent op) (hperform : s.far.perform op = .ok p)
    (hlen : s.near.numbered.length ≤ 2 ^ 31) : Linked { s with far := p } := by
  obtain ⟨answer, endpoint, hout, rfl⟩ := Party.perform_eq_ok hperform
  refine ⟨h.sending, ?_, h.settled.step hout, ?_⟩
  · apply h.receiving.step h.sending.consecutive hlen _ hout
    rintro datagram now f rfl hframe
    have harrived : datagram ∈ s.near.sent ++ s.near.endpoint.outbox :=
      List.mem_append_left _ hpermits
    exact h.sending.emitted datagram harrived f hframe
  · intro hup f hf hnot
    apply h.retained hup f hf
    intro hadmitted
    exact hnot (List.mem_append_left _ hadmitted)

end Linked

variable [Add α] [Sub α] [Mul α] [Seconds α] [Add β] [Sub β] [Mul β] [Seconds β]

/-- A party numbers frames one after the other and never takes one back. -/
theorem Path.numbered_grows {s s' : Path α σ β τ} {side : Side} {op : Operation}
    (h : s.act side op = some s') : s.near.numbered <+: s'.near.numbered := by
  rcases act_cases h with ⟨p, -, hperform, rfl⟩ | ⟨p, -, -, rfl⟩
  · obtain ⟨answer, endpoint, -, rfl⟩ := Party.perform_eq_ok hperform
    exact List.prefix_append _ _
  · exact List.prefix_rfl

/-- The ends stay tied together as long as the near one has not numbered too many frames. -/
theorem Reachable.linked {a : Endpoint α σ} {b : Endpoint β τ} {s : Path α σ β τ}
    {settings settings' : Settings} {token token' : Bytes} {transform : Transform σ}
    {transform' : Transform τ} (h : Reachable a b s) (ha : a.New settings token transform)
    (hb : b.New settings' token' transform') (hlen : s.near.numbered.length ≤ 2 ^ 31) :
    Linked s := by
  induction h with
  | start => exact .start ha hb
  | step before act ih =>
    have hearlier := (Path.numbered_grows act).length_le
    have hlinked := ih (Nat.le_trans hearlier hlen)
    rcases Path.act_cases act with ⟨p, hpermits, hperform, rfl⟩ | ⟨p, hpermits, hperform, rfl⟩
    · exact hlinked.nearStep hpermits hperform hlen
    · exact hlinked.farStep hpermits hperform hlen

end DatagramTunnel.Network
