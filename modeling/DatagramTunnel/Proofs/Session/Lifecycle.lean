import DatagramTunnel.Proofs.Session.Acts
import DatagramTunnel.Proofs.Session.Creation

/-!
# The life of a connection

Whatever the peer, the application and the clock do, a connection passes through its phases in one
direction, and the application is told a complete story: nothing before the connection is up, then
what arrives, and in the end one reason.  `Chronicle phase history` says which stories go with a
phase.  Once the end has been decided nothing is left to be sent or put together, and no call
changes anything any more but the taking of the events that are still queued.

The end may come while an operation is still at work: a violation found in one of the frames that
are read ends the connection before the reading is over.  So the invariant `Lived` is carried
through every single act, and from there through operations and runs.
-/

namespace DatagramTunnel.Session

open Flight Packet Wire

/-- One phase follows another. -/
inductive Phase.Next : Phase → Phase → Prop
  | rise : Next .connecting .established
  | fail : Next .connecting .closing
  | down : Next .established .closing
  | shut : Next .closing .closed

/-- What the application has been told, or is about to be told, of a connection in this phase. -/
inductive Chronicle : Phase → List Event → Prop
  | silent : Chronicle .connecting []
  | up {arrivals : List Event} (arrive : ∀ event ∈ arrivals, event.isArrival = true) :
    Chronicle .established (.up :: arrivals)
  | failed {phase : Phase} (ended : phase.isTerminal = true) (reason : HandshakeFailure) :
    Chronicle phase [.failed reason]
  | down {phase : Phase} (ended : phase.isTerminal = true) {arrivals : List Event}
    (arrive : ∀ event ∈ arrivals, event.isArrival = true) (reason : Outage) :
    Chronicle phase (.up :: (arrivals ++ [.down reason]))

namespace Chronicle

variable {phase phase' : Phase} {history news : List Event}

/-- The story goes on as the phase moves. -/
theorem turn (h : Chronicle phase history) (hturn : Turn phase news phase') :
    Chronicle phase' (history ++ news) := by
  cases hturn with
  | stay => simpa using h
  | rise =>
    cases h with
    | silent => exact .up (by simp)
    | failed ended => cases ended
    | down ended => cases ended
  | fail reason =>
    cases h with
    | silent => exact .failed rfl reason
    | failed ended => cases ended
    | down ended => cases ended
  | @arrive event arrival =>
    cases h with
    | @up arrivals arrive =>
      have hmore : ∀ other ∈ arrivals ++ [event], other.isArrival = true := by
        simpa [or_imp, forall_and, arrival] using arrive
      exact .up hmore
    | failed ended => cases ended
    | down ended => cases ended
  | down reason =>
    cases h with
    | up arrive => exact .down rfl arrive reason
    | failed ended => cases ended
    | down ended => cases ended

/-- The story is over when the last event is queued, not when it is taken. -/
theorem shut (h : Chronicle .closing history) : Chronicle .closed history := by
  cases h with
  | failed _ reason => exact .failed rfl reason
  | down _ arrive reason => exact .down rfl arrive reason

end Chronicle

namespace Turn

variable {phase phase' : Phase} {news : List Event}

/-- A turn moves the phase at most one step forward, and never to the very end. -/
theorem next (h : Turn phase news phase') :
    phase' = phase ∨ phase.Next phase' ∧ phase' ≠ .closed := by
  cases h with
  | stay => exact .inl rfl
  | rise => exact .inr ⟨.rise, nofun⟩
  | fail _ => exact .inr ⟨.fail, nofun⟩
  | arrive _ => exact .inl rfl
  | down _ => exact .inr ⟨.down, nofun⟩

/-- No turn begins where everything is over. -/
theorem of_closed (h : Turn phase news phase') (hclosed : phase' = .closed) :
    phase = .closed ∧ news = [] := by
  cases h with
  | stay => exact ⟨hclosed, rfl⟩
  | _ => cases hclosed

end Turn

/-- How a call is answered once the connection has ended and the queues are empty. -/
def Operation.afterEnd : Operation → Answer
  | .connect _ | .send _ _ | .sendRaw _ _ => .refused .closed
  | .receive _ _ | .tick _ | .close | .socketClosed => .done
  | .pollTransmit => .datagram none
  | .pollEvent => .event none

namespace Phase.Next

/-- Two steps that do not reach the very end lead where one step could have led. -/
theorem trans {first second third : Phase} (h : first.Next second) (h' : second.Next third)
    (hopen : third ≠ .closed) : first.Next third := by
  cases h <;> cases h'
  · exact .fail
  · exact absurd rfl hopen
  · exact absurd rfl hopen

end Phase.Next

namespace Endpoint

variable {α σ : Type}

/-- Nothing waits to be sent, to be acknowledged, to be released or to be put together. -/
structure Emptied (e : Endpoint α σ) : Prop where
  outbox : e.outbox = []
  waiting : e.queue.waiting = []
  inFlight : e.queue.inFlight = []
  schedule : e.queue.schedule = []
  held : e.inlet.window.held = []
  slot : e.inlet.assembler.slot = .idle

theorem finish_emptied (e : Endpoint α σ) (last : Event) : (e.finish last).Emptied :=
  ⟨rfl, rfl, rfl, rfl, rfl, rfl⟩

/-! ## Taking the events -/

theorem takeEvents_phase (e : Endpoint α σ) :
    (takeEvents (e.events.length + 1) e).2.phase =
      if e.phase = .closing then .closed else e.phase := by
  generalize h : e.events = events
  induction events generalizing e with
  | nil =>
    have hpoll : e.pollEvent =
        (none, if e.phase = .closing then { e with phase := .closed } else e) := by
      simp [pollEvent, h]
    simp only [takeEvents, hpoll]
    split <;> rfl
  | cons event rest ih =>
    have hpoll : e.pollEvent = (some event, { e with events := rest }) := by simp [pollEvent, h]
    rw [List.length_cons, takeEvents, hpoll]
    exact ih { e with events := rest } rfl

/-- A connection that has ended is closed once every event has been taken. -/
theorem drainEvents_closed {e : Endpoint α σ} (hended : e.phase.isTerminal = true) :
    e.drainEvents.2.phase = .closed := by
  have hphase : e.drainEvents.2.phase = if e.phase = .closing then .closed else e.phase :=
    takeEvents_phase e
  rw [hphase]
  cases hphase : e.phase <;> simp [hphase, Phase.isTerminal] at hended ⊢

/-! ## The invariant -/

/-- What holds of an endpoint that has handed out the events `past`. -/
structure Lived (past : List Event) (e : Endpoint α σ) : Prop where
  chronicle : Chronicle e.phase (past ++ e.events)
  told : e.phase = .closed → e.events = []
  emptied : e.phase.isTerminal = true → e.Emptied

theorem New.lived {e : Endpoint α σ} {settings : Settings} {token : Bytes}
    {transform : Transform σ} (h : e.New settings token transform) : e.Lived [] := by
  refine ⟨?_, ?_, ?_⟩
  · rw [h.phase_eq, h.events_eq]
    exact .silent
  · intro _
    exact h.events_eq
  · intro hended
    rw [h.phase_eq] at hended
    cases hended

variable [Add α] [Sub α] [Mul α] [Seconds α]

/-! ## After the end -/

/-- Once the connection has ended, no call does anything but take what is in a queue, and how it is
answered depends on the call alone. -/
theorem perform_afterEnd {e : Endpoint α σ} (hended : e.phase.isTerminal = true) {op : Operation}
    (hsocket : op = .pollTransmit → e.outbox = []) (hop : op ≠ .pollEvent) :
    e.perform op = .ok (op.afterEnd, e) := by
  have hphase : e.phase = .closing ∨ e.phase = .closed := by
    cases hphase : e.phase <;> simp [hphase, Phase.isTerminal] at hended ⊢
  cases op with
  | connect now => rcases hphase with hphase | hphase <;> rw [perform, connect, hphase] <;> rfl
  | send packet now =>
    rcases hphase with hphase | hphase <;> rw [perform, send, refusal?, hphase] <;> rfl
  | sendRaw id payload =>
    rcases hphase with hphase | hphase <;> rw [perform, sendRaw, refusal?, hphase] <;> rfl
  | receive datagram now =>
    rw [perform, receive, if_pos hended]
    rfl
  | tick now => rcases hphase with hphase | hphase <;> rw [perform, tick, hphase] <;> rfl
  | close => rcases hphase with hphase | hphase <;> rw [perform, close, hphase] <;> rfl
  | socketClosed =>
    rcases hphase with hphase | hphase <;> rw [perform, socketClosed, hphase] <;> rfl
  | pollTransmit =>
    rw [perform, pollTransmit, hsocket rfl]
    rfl
  | pollEvent => exact absurd rfl hop

theorem perform_of_terminal {e : Endpoint α σ} (hended : e.phase.isTerminal = true)
    (houtbox : e.outbox = []) {op : Operation} (hop : op ≠ .pollEvent) :
    ∃ answer, e.perform op = .ok (answer, e) :=
  ⟨_, perform_afterEnd hended (fun _ => houtbox) hop⟩

/-- An act that ends the connection leaves nothing behind. -/
theorem Act.emptied {op : Operation} {e e' : Endpoint α σ} (h : Act op e e')
    (hkept : e.phase.isTerminal = true → e.Emptied) (hended : e'.phase.isTerminal = true) :
    e'.Emptied := by
  by_cases hbefore : e.phase.isTerminal = true
  · obtain rfl := h.terminal hbefore
    obtain ⟨houtbox, hwaiting, hflight, hschedule, hheld, hslot⟩ := hkept hbefore
    exact ⟨houtbox, hwaiting, hflight, hschedule, hheld, hslot⟩
  · cases h with
    | fail _ _ => exact finish_emptied _ _
    | mismatch _ _ _ => exact finish_emptied _ _
    | down _ _ => exact finish_emptied _ _
    | expire _ _ => exact finish_emptied _ _
    | rise _ _ => cases hended
    | offer _ _ =>
      rw [offered_phase] at hended
      exact absurd hended hbefore
    | _ => exact absurd hended hbefore

/-! ## Acts and operations -/

namespace Lived

variable {past : List Event} {e e' : Endpoint α σ} {op : Operation} {answer : Answer}

theorem act (h : e.Lived past) (hact : Act op e e') : e'.Lived past := by
  obtain ⟨news, hevents, hturn⟩ := hact.turn
  refine ⟨?_, ?_, hact.emptied h.emptied⟩
  · rw [hevents, ← List.append_assoc]
    exact h.chronicle.turn hturn
  · intro hclosed
    obtain ⟨hbefore, rfl⟩ := hturn.of_closed hclosed
    simp [hevents, h.told hbefore]

theorem acts (h : e.Lived past) (hacts : Acts op e e') : e'.Lived past :=
  hacts.induct (P := fun e' => e'.Lived past) (fun ih hact => ih.act hact) h

/-- An event that is taken moves from the queue into the past. -/
theorem perform (h : e.Lived past) (hperform : e.perform op = .ok (answer, e')) :
    e'.Lived (past ++ answer.taken) := by
  cases perform_deed hperform with
  | acts hacts _ taken =>
    rw [taken, List.append_nil]
    exact h.acts hacts
  | @transmit datagram rest outbox =>
    have hopen : ¬ e.phase.isTerminal = true := by
      intro hended
      simp [(h.emptied hended).outbox] at outbox
    refine ⟨?_, h.told, fun hended => absurd hended hopen⟩
    simpa [Answer.taken, count] using h.chronicle
  | @report event rest events =>
    refine ⟨?_, ?_, ?_⟩
    · have hchronicle := h.chronicle
      rw [events] at hchronicle
      simpa [Answer.taken] using hchronicle
    · intro hclosed
      simp [h.told hclosed] at events
    · intro hended
      obtain ⟨houtbox, hwaiting, hflight, hschedule, hheld, hslot⟩ := h.emptied hended
      exact ⟨houtbox, hwaiting, hflight, hschedule, hheld, hslot⟩
  | shut phase events =>
    have hended : e.phase.isTerminal = true := by rw [phase]; rfl
    obtain ⟨houtbox, hwaiting, hflight, hschedule, hheld, hslot⟩ := h.emptied hended
    refine ⟨?_, fun _ => events, fun _ => ⟨houtbox, hwaiting, hflight, hschedule, hheld, hslot⟩⟩
    have hchronicle := h.chronicle
    rw [phase] at hchronicle
    simpa [Answer.taken] using hchronicle.shut

theorem run {ops : List Operation} {answers : List Answer} (h : e.Lived past)
    (hrun : e.performAll ops = .ok (answers, e')) :
    e'.Lived (past ++ answers.flatMap Answer.taken) := by
  have hstart : e.Lived (past ++ ([] : List Answer).flatMap Answer.taken) := by simpa using h
  refine performAll_induct (P := fun done e => e.Lived (past ++ done.flatMap Answer.taken))
    (fun ih hperform => ?_) hstart hrun
  rw [List.flatMap_append, List.flatMap_singleton, ← List.append_assoc]
  exact ih.perform hperform

end Lived

variable {e e' : Endpoint α σ} {op : Operation} {answer : Answer}

/-- The phase of a connection moves at most one step forward in any number of acts. -/
theorem Acts.next (h : Acts op e e') :
    e'.phase = e.phase ∨ e.phase.Next e'.phase ∧ e'.phase ≠ .closed := by
  refine h.induct (P := fun e' => e'.phase = e.phase ∨ e.phase.Next e'.phase ∧ e'.phase ≠ .closed)
    (fun {e₁ e₂} ih act => ?_) (.inl rfl)
  obtain ⟨news, -, hturn⟩ := act.turn
  rcases hturn.next with hsame | ⟨hnext, hopen⟩
  · rw [hsame]
    exact ih
  · rcases ih with hfirst | ⟨hfirst, -⟩
    · exact .inr ⟨hfirst ▸ hnext, hopen⟩
    · exact .inr ⟨hfirst.trans hnext hopen, hopen⟩

/-- Acts only add to the events. -/
theorem Acts.events (h : Acts op e e') : e.events <+: e'.events := by
  refine h.induct (P := fun e' => e.events <+: e'.events) (fun ih act => ?_) List.prefix_rfl
  obtain ⟨news, hevents, -⟩ := act.turn
  exact hevents ▸ ih.trans (List.prefix_append _ _)

theorem perform_next (h : e.perform op = .ok (answer, e')) :
    e'.phase = e.phase ∨ e.phase.Next e'.phase := by
  cases perform_deed h with
  | acts hacts _ _ => exact hacts.next.imp_right And.left
  | transmit _ => exact .inl rfl
  | report _ => exact .inl rfl
  | shut phase _ => exact .inr (phase ▸ .shut)

/-- Events are taken from the front of the queue and added at its end. -/
theorem perform_events (h : e.perform op = .ok (answer, e')) :
    e.events <+: answer.taken ++ e'.events := by
  cases perform_deed h with
  | acts hacts _ taken =>
    rw [taken]
    exact hacts.events
  | transmit _ => exact List.prefix_rfl
  | report events =>
    rw [events]
    exact List.prefix_rfl
  | shut _ _ => exact List.prefix_rfl

/-! ## Every run -/

/-- The life of a connection, whatever happens to it.  Its phases follow one another, the events
tell one story and none of them is lost, and when it has ended, it is empty and stays as it is until
the events have been taken. -/
theorem lifecycle {settings : Settings} {token : Bytes} {transform : Transform σ} {secret : σ}
    {nonces : Nat → Nonce} {e₀ : Endpoint α σ} {ops : List Operation} {answers : List Answer}
    (hcreate : create settings token transform secret nonces = .ok e₀)
    (hrun : e₀.performAll ops = .ok (answers, e)) :
    Chronicle e.phase (answers.flatMap Answer.taken ++ e.events) ∧
      (∀ op answer e', e.perform op = .ok (answer, e') →
        (e'.phase = e.phase ∨ e.phase.Next e'.phase) ∧
          e.events <+: answer.taken ++ e'.events) ∧
      (e.phase = .closed → e.events = []) ∧ e.drainEvents.1 = e.events ∧
      (e.phase.isTerminal = true →
        e.drainEvents.2.phase = .closed ∧ e.Emptied ∧
          ∀ op, op ≠ .pollEvent → ∃ answer, e.perform op = .ok (answer, e)) := by
  have hlived : Lived (answers.flatMap Answer.taken) e := (create_new hcreate).lived.run hrun
  refine ⟨hlived.chronicle, fun op answer e' hperform => ?_, hlived.told, drainEvents_fst e, ?_⟩
  · exact ⟨perform_next hperform, perform_events hperform⟩
  · intro hended
    have hempty := hlived.emptied hended
    exact ⟨drainEvents_closed hended, hempty,
      fun op hop => perform_of_terminal hended hempty.outbox hop⟩

/-- A frame with two faults ends a connection that admits one: both are counted, and one event
tells of it. -/
theorem lifecycle_two_faults : ∃ (nonces : Nat → Nonce) (e₀ e : Endpoint Rat Unit)
    (ops : List Operation) (answers : List Answer),
      create { maxPacketSize := 12, maxProtocolViolations := 1 } [7] .plain () nonces = .ok e₀ ∧
        e₀.performAll ops = .ok (answers, e) ∧ e.violations = 2 ∧
        answers.flatMap Answer.taken = [.up] ∧ e.events = [.down (.protocolViolations 1)] ∧
        e.Emptied ∧ e.drainEvents.2.phase = .closed := by
  let opens : Frame := .data ⟨0, .first 12, [1, 2, 3]⟩
  let interrupts : Frame := .data ⟨1, .first 13, [4, 5, 6]⟩
  obtain ⟨nonces, e₀, answers, e, hcreate, hrun, hend⟩ := exists_of_trial
    (p := fun r => r.2.violations == 2 && r.1.flatMap Answer.taken == [.up] &&
      r.2.events == [.down (.protocolViolations 1)] && r.2.phase == .closing)
    (show (trial { maxPacketSize := 12, maxProtocolViolations := 1 } [7]
      [.connect 0, .receive (Frame.hello [7]).encode 0, .pollEvent, .receive opens.encode 1,
        .receive interrupts.encode 2]).any _ = true by decide +kernel)
  simp only [Bool.and_eq_true, beq_iff_eq] at hend
  obtain ⟨⟨⟨hcount, htaken⟩, hevents⟩, hphase⟩ := hend
  obtain ⟨-, -, -, -, hended⟩ := lifecycle hcreate hrun
  obtain ⟨hclosed, hempty, -⟩ := hended (by rw [hphase]; rfl)
  exact ⟨nonces, e₀, e, _, answers, hcreate, hrun, hcount, htaken, hevents, hempty, hclosed⟩

end Endpoint

end DatagramTunnel.Session
