import DatagramTunnel.Proofs.Session.Lifecycle
import DatagramTunnel.Tunnel.Worker

/-!
# Serving an endpoint

Whoever owns an endpoint has two duties: to pass on what the outside asks, and to empty both queues
afterwards.  `respond` says what a stimulus asks of the endpoint and which reply goes with the
endpoint's own answer, and `Endpoint.polls` are the calls that empty the queues.  `Served` puts the
two together: it describes an endpoint that is served in rounds, and mentions no worker.

`Served.exists_run` turns the rounds into one run of the endpoint.  What goes out to the socket and
to the application is what the polls of that run were answered, and its other calls are those of the
rounds.  `Worker.step_eq_ok` says that a step of a worker is a round and nothing else, and
`Worker.exists_step_iff` when there is one.
-/

namespace DatagramTunnel

namespace Session

open Flight Packet Wire

/-- Whether a call only takes something out of a queue. -/
def Operation.isPoll : Operation → Bool
  | .pollTransmit | .pollEvent => true
  | _ => false

theorem Operation.instant?_of_isPoll {op : Operation} (h : op.isPoll = true) :
    op.instant? = none := by
  cases op <;> first | rfl | cases h

/-- The result that an answer reports. -/
def Answer.toResult : Answer → Except TunnelError Unit
  | .refused cause => .error cause
  | _ => .ok ()

@[simp] theorem Answer.toResult_ofResult (result : Except TunnelError Unit) :
    (Answer.ofResult result).toResult = result := by
  cases result <;> rfl

namespace Endpoint

variable {α σ : Type}

/-! ## Emptying both queues -/

theorem takeEvents_snd (e : Endpoint α σ) :
    (takeEvents (e.events.length + 1) e).2 =
      { e with
        events := []
        phase := if e.phase = .closing then .closed else e.phase } := by
  generalize h : e.events = events
  induction events generalizing e with
  | nil =>
    simp only [takeEvents, pollEvent, h]
    split <;> rw [← h]
  | cons event rest ih =>
    have hpoll : e.pollEvent = (some event, { e with events := rest }) := by simp [pollEvent, h]
    rw [List.length_cons, takeEvents, hpoll]
    exact ih { e with events := rest } rfl

/-- The endpoint after its queues have been emptied. -/
def flushed (e : Endpoint α σ) : Endpoint α σ := e.drainOutbox.2.drainEvents.2

theorem flushed_eq (e : Endpoint α σ) :
    e.flushed =
      { e with
        outbox := []
        events := []
        phase := if e.phase = .closing then .closed else e.phase
        counters := { e.counters with
          datagramsSent := e.counters.datagramsSent + e.outbox.length } } := by
  unfold flushed drainEvents
  rw [drainOutbox_snd]
  exact takeEvents_snd _

@[simp] theorem flushed_outbox (e : Endpoint α σ) : e.flushed.outbox = [] := by rw [flushed_eq]

@[simp] theorem flushed_events (e : Endpoint α σ) : e.flushed.events = [] := by rw [flushed_eq]

theorem flushed_phase_ne_closing (e : Endpoint α σ) : e.flushed.phase ≠ .closing := by
  rw [flushed_eq]
  dsimp only
  split
  · exact nofun
  · assumption

/-- Polls until neither queue has anything left. -/
def polls (e : Endpoint α σ) : List Operation :=
  List.replicate (e.outbox.length + 1) .pollTransmit ++
    List.replicate (e.events.length + 1) .pollEvent

theorem filter_polls (e : Endpoint α σ) : e.polls.filter (fun op => !op.isPoll) = [] := by
  simp [polls, Operation.isPoll]

variable [Add α] [Sub α] [Mul α] [Seconds α]

theorem performAll_pollTransmit (e : Endpoint α σ) :
    e.performAll (List.replicate (e.outbox.length + 1) .pollTransmit) =
      .ok (e.outbox.map (fun datagram => .datagram (some datagram)) ++ [.datagram none],
        e.drainOutbox.2) := by
  unfold drainOutbox
  generalize h : e.outbox = outbox
  induction outbox generalizing e with
  | nil =>
    have hpoll : e.perform .pollTransmit = .ok (.datagram none, e) := by
      simp [perform, pollTransmit, h]
    exact performAll_cons hpoll rfl
  | cons datagram rest ih =>
    have hpoll : e.pollTransmit = (some datagram, { e with outbox := rest }.count fun c =>
        { c with datagramsSent := c.datagramsSent + 1 }) := by
      simp [pollTransmit, h]
    rw [List.length_cons, takeDatagrams, hpoll, List.replicate_succ]
    exact performAll_cons (by rw [perform, hpoll]) (ih _ rfl)

theorem performAll_pollEvent (e : Endpoint α σ) :
    e.performAll (List.replicate (e.events.length + 1) .pollEvent) =
      .ok (e.events.map (fun event => .event (some event)) ++ [.event none],
        e.drainEvents.2) := by
  unfold drainEvents
  generalize h : e.events = events
  induction events generalizing e with
  | nil =>
    have hpoll : e.pollEvent =
        (none, if e.phase = .closing then { e with phase := .closed } else e) := by
      simp [pollEvent, h]
    rw [List.length_nil, takeEvents, hpoll]
    exact performAll_cons (by rw [perform, hpoll]) rfl
  | cons event rest ih =>
    have hpoll : e.pollEvent = (some event, { e with events := rest }) := by simp [pollEvent, h]
    rw [List.length_cons, takeEvents, hpoll, List.replicate_succ]
    exact performAll_cons (by rw [perform, hpoll]) (ih _ rfl)

/-- The polls hand out what is queued, each item once and in order. -/
theorem performAll_polls (e : Endpoint α σ) :
    ∃ answers, e.performAll e.polls = .ok (answers, e.flushed) ∧
      answers.flatMap Answer.sent = e.outbox ∧ answers.flatMap Answer.taken = e.events := by
  have hevents : e.drainOutbox.2.events = e.events := by rw [drainOutbox_snd]
  have hsecond := performAll_pollEvent e.drainOutbox.2
  rw [hevents] at hsecond
  refine ⟨_, performAll_append_eq_ok e.performAll_pollTransmit hsecond, ?_, ?_⟩
  · simp [List.flatMap_append, List.flatMap_map, Answer.sent]
  · simp [List.flatMap_append, List.flatMap_map, Answer.taken]

/-- Only polls take anything out of a queue. -/
theorem perform_of_not_isPoll {e e' : Endpoint α σ} {op : Operation} {answer : Answer}
    (h : e.perform op = .ok (answer, e')) (hop : op.isPoll = false) :
    answer.sent = [] ∧ answer.taken = [] := by
  cases perform_deed h with
  | acts _ sent taken => exact ⟨sent, taken⟩
  | transmit _ => cases hop
  | report _ => cases hop
  | shut _ _ => cases hop

end Endpoint

end Session

namespace Tunnel

open Flight Session

/-! ## One round -/

/-- One round of a worker: what it reacts to, when, and what the clock of the endpoint shows. -/
structure Round where
  stimulus : Stimulus
  now : Nat
  reading : Nat
  deriving DecidableEq, Repr

/-- Whether somebody waits for a reply. -/
def Stimulus.isCommand : Stimulus → Bool
  | .command _ => true
  | _ => false

/-- The call that a stimulus asks for.  A look at the measurements changes nothing and is none. -/
def Round.operation? (r : Round) : Option Operation :=
  match r.stimulus with
  | .tick => some (.tick r.reading)
  | .command (.send packet) => some (.send packet r.reading)
  | .command (.sendRaw id payload) => some (.sendRaw id payload)
  | .command .statistics => none
  | .command .close | .abandoned => some .close
  | .datagram content => some (.receive content r.reading)
  | .receiveEnded => some .socketClosed

theorem Round.not_isPoll {r : Round} {op : Operation} (h : r.operation? = some op) :
    op.isPoll = false := by
  obtain ⟨stimulus, now, reading⟩ := r
  cases stimulus with
  | command request => cases request <;> cases h <;> rfl
  | _ => cases h; rfl

theorem Round.instant_eq {r : Round} {op : Operation} {now : Nat} (h : r.operation? = some op)
    (hnow : op.instant? = some now) : now = r.reading := by
  obtain ⟨stimulus, _, reading⟩ := r
  cases stimulus with
  | command request => cases request <;> cases h <;> cases hnow; rfl
  | tick | datagram =>
    cases h
    cases hnow
    rfl
  | abandoned | receiveEnded =>
    cases h
    cases hnow

/-- The reply that goes with the endpoint's answer to that call. -/
def Stimulus.reply? (stimulus : Stimulus) (answer : Answer) : Option Reply :=
  match stimulus with
  | .command (.send _) | .command (.sendRaw _ _) => some (.result answer.toResult)
  | .command .close => some .closed
  | _ => none

/-! ## Rounds one after the other -/

section Rounds

variable {α σ : Type} [Add α] [Sub α] [Mul α] [Seconds α]

/-- What a round comes to for the endpoint, and the reply.  Either its call is made and the
endpoint's own answer is given, or the measurements are looked at. -/
def respond (e : Endpoint α σ) (r : Round) : Except TimeError (Option Reply × Endpoint α σ) :=
  match r.operation? with
  | some op => do
    let (answer, e') ← e.perform op
    return (r.stimulus.reply? answer, e')
  | none => do return (some (.statistics (← e.statistics)), e)

/-- Whether the endpoint has an answer and, after a tick, the timer can be set. -/
def Answerable (e : Endpoint α σ) (r : Round) : Prop :=
  ∃ reply e', respond e r = .ok (reply, e') ∧ (r.stimulus = .tick → e'.Wakes r.now)

section Respond

variable {e e' : Endpoint α σ} {r : Round} {reply : Option Reply} {op : Operation}

theorem respond_of_call {answer : Answer} (hop : r.operation? = some op)
    (hperform : e.perform op = .ok (answer, e')) :
    respond e r = .ok (r.stimulus.reply? answer, e') := by
  rw [respond, hop]
  dsimp only
  rw [hperform]
  rfl

theorem respond_of_look {values : Statistics} (hop : r.operation? = none)
    (hvalues : e.statistics = .ok values) : respond e r = .ok (some (.statistics values), e) := by
  rw [respond, hop]
  dsimp only
  rw [hvalues]
  rfl

theorem respond_cases (h : respond e r = .ok (reply, e')) :
    (∃ op answer, r.operation? = some op ∧ e.perform op = .ok (answer, e') ∧
        reply = r.stimulus.reply? answer) ∨
      r.operation? = none ∧ e' = e ∧ ∃ values, reply = some (.statistics values) := by
  unfold respond at h
  split at h
  · rename_i op hop
    obtain ⟨⟨answer, e₁⟩, hperform, hpair⟩ := bind_eq_ok h
    obtain ⟨rfl, rfl⟩ := Prod.mk.inj (Except.ok.inj hpair)
    exact .inl ⟨op, answer, hop, hperform, rfl⟩
  · rename_i hop
    obtain ⟨values, -, hpair⟩ := bind_eq_ok h
    obtain ⟨rfl, rfl⟩ := Prod.mk.inj (Except.ok.inj hpair)
    exact .inr ⟨hop, rfl, values, rfl⟩

/-- Exactly the commands get a reply. -/
theorem isSome_reply (h : respond e r = .ok (reply, e')) :
    reply.isSome = r.stimulus.isCommand := by
  obtain ⟨stimulus, now, reading⟩ := r
  rcases respond_cases h with ⟨op, answer, hop, -, rfl⟩ | ⟨hop, -, values, rfl⟩
  · cases stimulus with
    | command request => cases request <;> first | rfl | cases hop
    | _ => rfl
  · cases stimulus with
    | command _ => rfl
    | _ => cases hop

end Respond

/-- An endpoint that is served.  It starts its handshake; after that each round may make one call,
and every time both queues are emptied.  Listed are the rounds with their replies, and what went to
the socket and to the application. -/
inductive Served (e₀ : Endpoint α σ) (reading : Nat) :
    List (Round × Option Reply) → List Bytes → List Event → Endpoint α σ → Prop
  | opened {e : Endpoint α σ} (connect : e₀.connect reading = .ok e) :
    Served e₀ reading [] e.outbox e.events e.flushed
  | round {rounds : List (Round × Option Reply)} {datagrams : List Bytes} {events : List Event}
    {e e' : Endpoint α σ} {r : Round} {reply : Option Reply}
    (before : Served e₀ reading rounds datagrams events e)
    (response : respond e r = .ok (reply, e')) :
    Served e₀ reading (rounds ++ [(r, reply)]) (datagrams ++ e'.outbox) (events ++ e'.events)
      e'.flushed

namespace Served

variable {e₀ e : Endpoint α σ} {reading : Nat} {rounds : List (Round × Option Reply)}
  {datagrams : List Bytes} {events : List Event}

/-- Between two rounds nothing is queued, and no end is half done. -/
theorem settled (h : Served e₀ reading rounds datagrams events e) :
    e.outbox = [] ∧ e.events = [] ∧ e.phase ≠ .closing := by
  cases h <;>
    exact ⟨Endpoint.flushed_outbox _, Endpoint.flushed_events _,
      Endpoint.flushed_phase_ne_closing _⟩

/-- Exactly the commands got a reply. -/
theorem replied (h : Served e₀ reading rounds datagrams events e) :
    ∀ done ∈ rounds, done.2.isSome = done.1.stimulus.isCommand := by
  induction h with
  | opened _ => exact fun _ hdone => absurd hdone List.not_mem_nil
  | round _ response ih =>
    intro done hdone
    rcases List.mem_append.1 hdone with hbefore | hlast
    · exact ih done hbefore
    · obtain rfl := List.mem_singleton.1 hlast
      exact isSome_reply response

/-- Rounds are one run of the endpoint.  Its polls were answered with what went out, and its other
calls are the start of the handshake and those that the rounds ask for. -/
theorem exists_run (h : Served e₀ reading rounds datagrams events e) :
    ∃ ops answers, e₀.performAll ops = .ok (answers, e) ∧
      answers.flatMap Answer.sent = datagrams ∧ answers.flatMap Answer.taken = events ∧
      ops.filter (fun op => !op.isPoll) =
        .connect reading :: rounds.filterMap fun done => done.1.operation? := by
  induction h with
  | @opened e connect =>
    have hperform : e₀.perform (.connect reading) = .ok (.done, e) := by
      rw [Endpoint.perform, connect]
    obtain ⟨others, hpolls, hsent, htaken⟩ := e.performAll_polls
    refine ⟨.connect reading :: e.polls, .done :: others,
      Endpoint.performAll_cons hperform hpolls, ?_, ?_, ?_⟩
    · rw [List.flatMap_cons, hsent]
      rfl
    · rw [List.flatMap_cons, htaken]
      rfl
    · rw [List.filter_cons_of_pos rfl, Endpoint.filter_polls]
      rfl
  | @round rounds datagrams events e e' r reply before response ih =>
    obtain ⟨ops, answers, hrun, hsent, htaken, hcalls⟩ := ih
    obtain ⟨others, hpolls, hsent', htaken'⟩ := e'.performAll_polls
    -- the run so far goes on with the call of the round, if it makes one, and with the polls
    rcases respond_cases response with ⟨op, answer, hop, hperform, -⟩ | ⟨hop, rfl, -⟩
    · obtain ⟨hnosent, hnotaken⟩ := Endpoint.perform_of_not_isPoll hperform (Round.not_isPoll hop)
      have hboth := Endpoint.performAll_append_eq_ok hrun (Endpoint.performAll_cons hperform hpolls)
      refine ⟨ops ++ op :: e'.polls, answers ++ answer :: others, hboth, ?_, ?_, ?_⟩
      · rw [List.flatMap_append, List.flatMap_cons, hsent, hnosent, hsent', List.nil_append]
      · rw [List.flatMap_append, List.flatMap_cons, htaken, hnotaken, htaken', List.nil_append]
      · simp [hcalls, Round.not_isPoll hop, Endpoint.filter_polls, hop]
    · refine ⟨ops ++ e'.polls, answers ++ others,
        Endpoint.performAll_append_eq_ok hrun hpolls, ?_, ?_, ?_⟩
      · rw [List.flatMap_append, hsent, hsent']
      · rw [List.flatMap_append, htaken, htaken']
      · simp [hcalls, Endpoint.filter_polls, hop]

/-- What went to the application is the story of the connection so far. -/
theorem lived (h : Served e₀ reading rounds datagrams events e) (hstart : e₀.Lived []) :
    e.Lived events := by
  obtain ⟨ops, answers, hrun, -, htaken, -⟩ := h.exists_run
  rw [← htaken]
  exact hstart.run hrun

/-- No call of the run lies later than the rounds do. -/
theorem instant_le {longest : Nat} {ops : List Operation}
    (hcalls : ops.filter (fun op => !op.isPoll) =
      .connect reading :: rounds.filterMap fun done => done.1.operation?)
    (hreading : reading ≤ longest) (hrounds : ∀ done ∈ rounds, done.1.reading ≤ longest) :
    ∀ op ∈ ops, ∀ now, op.instant? = some now → now ≤ longest := by
  intro op hop now hnow
  have hcall : op.isPoll = false := by
    by_contra hpoll
    rw [Operation.instant?_of_isPoll (Bool.of_not_eq_false hpoll)] at hnow
    cases hnow
  have hmem : op ∈ ops.filter fun op => !op.isPoll := List.mem_filter.2 ⟨hop, by rw [hcall]; rfl⟩
  rw [hcalls] at hmem
  rcases List.mem_cons.1 hmem with rfl | hround
  · obtain rfl := Option.some.inj hnow
    exact hreading
  · obtain ⟨done, hdone, hoperation⟩ := List.mem_filterMap.1 hround
    rw [Round.instant_eq hoperation hnow]
    exact hrounds done hdone

end Served

end Rounds

/-! ## A step of a worker -/

namespace Worker

variable {α σ : Type}

theorem flush_eq (w : Worker α σ) :
    w.flush =
      ({ datagrams := w.endpoint.outbox, events := w.endpoint.events },
        { w with
          endpoint := w.endpoint.flushed
          status := {
            phase := w.endpoint.flushed.phase
            failure := (lastFailure w.endpoint.events).or w.status.failure } }) := by
  have hevents : w.endpoint.drainOutbox.2.drainEvents.1 = w.endpoint.events := by
    rw [Endpoint.drainEvents_fst, Endpoint.drainOutbox_snd]
  unfold flush
  simp only [Endpoint.drainOutbox_fst, hevents, Endpoint.flushed]

variable [Mul α] [Seconds α] {w w' : Worker α σ} {now : Nat}

theorem setTimer_eq_ok (h : w.setTimer now = .ok w') :
    w.endpoint.Wakes now ∧ w'.endpoint = w.endpoint ∧ w'.status = w.status := by
  obtain ⟨interval, hinterval, hrest⟩ := bind_eq_ok h
  obtain ⟨deadline, hdeadline, hpair⟩ := bind_eq_ok hrest
  obtain rfl := Except.ok.inj hpair
  exact ⟨⟨interval, hinterval, le_lastInstant_of_later hdeadline⟩, rfl, rfl⟩

theorem exists_setTimer (h : w.endpoint.Wakes now) : ∃ w', w.setTimer now = .ok w' := by
  obtain ⟨interval, hinterval, hreach⟩ := h
  refine ⟨{ w with due := nextMilli (now + interval) }, ?_⟩
  rw [setTimer, hinterval]
  show (later now interval >>= fun deadline => pure _) = _
  rw [later_of_le hreach]
  rfl

/-- Sets the timer if it has fired. -/
def rearm (w : Worker α σ) (r : Round) : Except TimeError (Worker α σ) :=
  if r.stimulus = .tick then w.setTimer r.now else .ok w

theorem rearm_eq_ok {r : Round} (h : w.rearm r = .ok w') :
    (r.stimulus = .tick → w.endpoint.Wakes r.now) ∧ w'.endpoint = w.endpoint ∧
      w'.status = w.status := by
  unfold rearm at h
  split at h
  · obtain ⟨hwakes, hsame⟩ := setTimer_eq_ok h
    exact ⟨fun _ => hwakes, hsame⟩
  · rename_i hother
    obtain rfl := Except.ok.inj h
    exact ⟨fun htick => absurd htick hother, rfl, rfl⟩

theorem exists_rearm {r : Round} (h : r.stimulus = .tick → w.endpoint.Wakes r.now) :
    ∃ w', w.rearm r = .ok w' := by
  unfold rearm
  split
  · rename_i htick
    exact exists_setTimer (h htick)
  · exact ⟨w, rfl⟩

variable [Add α] [Sub α] {r : Round} {effects : Effects}

/-- A worker reacts with the endpoint's own answer, and after a tick it sets the timer. -/
theorem react_eq (w : Worker α σ) (r : Round) :
    w.react r.stimulus r.now r.reading = (do
      let (reply, endpoint) ← respond w.endpoint r
      return (reply, ← { w with endpoint : Worker α σ }.rearm r)) := by
  obtain ⟨stimulus, now, reading⟩ := r
  -- one case for each stimulus; only the call that may have no result is taken apart
  cases stimulus with
  | tick =>
    simp only [react, respond, Round.operation?, Endpoint.perform]
    cases w.endpoint.tick reading <;> rfl
  | command request =>
    cases request with
    | send packet =>
      simp only [react, obey, respond, Round.operation?, Endpoint.perform]
      cases w.endpoint.send packet reading with
      | error cause => rfl
      | ok result =>
        show _ = Except.ok (some (Reply.result (Answer.ofResult result.1).toResult), _)
        rw [Answer.toResult_ofResult]
        rfl
    | sendRaw id payload =>
      show _ = Except.ok (some (Reply.result
        (Answer.ofResult (w.endpoint.sendRaw id payload).1).toResult), _)
      rw [Answer.toResult_ofResult]
      rfl
    | statistics =>
      simp only [react, obey, respond, Round.operation?]
      cases w.endpoint.statistics <;> rfl
    | close => rfl
  | abandoned => rfl
  | datagram content =>
    simp only [react, respond, Round.operation?, Endpoint.perform]
    cases w.endpoint.receive content reading <;> rfl
  | receiveEnded => rfl

/-- What a step gives away is what the round has left in the queues of the endpoint. -/
theorem step_eq_ok (h : w.step r.stimulus r.now r.reading = .ok (effects, w')) :
    ∃ e', respond w.endpoint r = .ok (effects.reply, e') ∧
      (r.stimulus = .tick → e'.Wakes r.now) ∧ effects.datagrams = e'.outbox ∧
      effects.events = e'.events ∧ w'.endpoint = e'.flushed ∧ w'.status = {
        phase := e'.flushed.phase
        failure := (lastFailure e'.events).or w.status.failure } := by
  obtain ⟨⟨reply, w₁⟩, hreact, hflush⟩ := bind_eq_ok h
  simp only [flush_eq] at hflush
  obtain ⟨rfl, rfl⟩ := Prod.mk.inj (Except.ok.inj hflush)
  rw [react_eq] at hreact
  obtain ⟨⟨reply, e'⟩, hrespond, hrest⟩ := bind_eq_ok hreact
  obtain ⟨w₂, hrearm, hpair⟩ := bind_eq_ok hrest
  obtain ⟨rfl, rfl⟩ := Prod.mk.inj (Except.ok.inj hpair)
  obtain ⟨htimer, hendpoint, hstatus⟩ := rearm_eq_ok hrearm
  rw [hendpoint, hstatus]
  exact ⟨e', hrespond, htimer, rfl, rfl, rfl, rfl⟩

/-- A step has a result exactly if the endpoint has an answer and, after a tick, the timer can be
set. -/
theorem exists_step_iff :
    (∃ result, w.step r.stimulus r.now r.reading = .ok result) ↔ Answerable w.endpoint r := by
  constructor
  · rintro ⟨⟨effects, w'⟩, hstep⟩
    obtain ⟨e', hrespond, htimer, -⟩ := step_eq_ok hstep
    exact ⟨effects.reply, e', hrespond, htimer⟩
  · rintro ⟨reply, e', hrespond, htimer⟩
    obtain ⟨w', hrearm⟩ := exists_rearm (w := { w with endpoint := e' }) htimer
    have hreact : w.react r.stimulus r.now r.reading = .ok (reply, w') := by
      rw [react_eq, hrespond]
      show ({ w with endpoint := e' }.rearm r >>= fun w' => .ok (reply, w')) = _
      rw [hrearm]
      rfl
    exact ⟨({ w'.flush.1 with reply }, w'.flush.2), by rw [step, hreact]; rfl⟩

end Worker

end Tunnel

end DatagramTunnel
