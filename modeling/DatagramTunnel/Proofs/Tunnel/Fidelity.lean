import DatagramTunnel.Proofs.Tunnel.Course
import DatagramTunnel.Tunnel.Simulation

/-!
# What a tunnel can be relied on for

A worker stands between an endpoint, a socket and an application, and none of the three can tell
that it is there.  `runs_faithfully` says so of every order in which stimuli may come and of every
way in which the socket may refuse datagrams: `Reliable` lists what holds after any rounds.

Whoever waits for the handshake reads only what the worker has published.  That this gives the right
answer (`Status.verdict?`) rests on `Standing`: what is published and what the application has been
sent always fit together.  `Simulation.Follows` carries the statements over to tunnels in simulated
time, from their start (`launch_follows`) through every stimulus.

A worker may die, though, and then the connection never ends.  It happens before the first round
under valid settings whose multiplier takes the first wait out of range (`dies_before_the_end`).
-/

namespace DatagramTunnel.Tunnel

open Flight Session

/-! ## Waiting for the handshake -/

/-- What waiting for the handshake says, given whether there is a worker that may still end it. -/
def Status.verdict? (status : Status) (running : Bool) : Option (Except TunnelError Unit) :=
  match status.phase, status.failure with
  | .connecting, _ => if running then none else some (.error .closed)
  | .established, _ => some (.ok ())
  | _, some reason => some (.error (.handshakeFailed reason))
  | _, none => some (.error .closed)

namespace Standing

variable {status : Status} {history : List Event} {running : Bool}

theorem verdict?_eq_none_iff (h : Standing status history) :
    status.verdict? running = none ↔ status.phase = .connecting ∧ running = true := by
  cases h <;> cases running <;> simp [Status.verdict?]

theorem verdict?_eq_ok_iff (h : Standing status history) :
    status.verdict? running = some (.ok ()) ↔ status.phase = .established := by
  cases h <;> cases running <;> simp [Status.verdict?]

theorem verdict?_eq_failed_iff (h : Standing status history) {reason : HandshakeFailure} :
    status.verdict? running = some (.error (.handshakeFailed reason)) ↔
      .failed reason ∈ history := by
  cases h with
  | waiting => cases running <;> simp [Status.verdict?]
  | @up arrivals arrive =>
    have hsilent : .failed reason ∉ arrivals := not_mem_arrivals arrive rfl
    simpa [Status.verdict?] using hsilent
  | failed other => simp [Status.verdict?, eq_comm]
  | @down arrivals arrive outage =>
    have hsilent : .failed reason ∉ arrivals := not_mem_arrivals arrive rfl
    simpa [Status.verdict?] using hsilent

theorem verdict?_eq_closed_iff (h : Standing status history) :
    status.verdict? running = some (.error .closed) ↔
      (∃ reason, .down reason ∈ history) ∨ status.phase = .connecting ∧ running = false := by
  cases h with
  | waiting => cases running <;> simp [Status.verdict?]
  | @up arrivals arrive =>
    have hsilent (reason : Outage) : .down reason ∉ arrivals := not_mem_arrivals arrive rfl
    simpa [Status.verdict?] using hsilent
  | failed other => simp [Status.verdict?]
  | down arrive outage => simp [Status.verdict?]

end Standing

/-- What waiting for the handshake says at this moment. -/
def Course.verdict? {α σ : Type} (c : Course α σ) : Option (Except TunnelError Unit) :=
  c.worker.status.verdict? c.isRunning

/-! ## Tunnels in simulated time -/

namespace Simulation

variable {α σ : Type}

/-- A tunnel in simulated time shows this course: what has not been taken yet came last, and the
wire carries what the socket did not refuse. -/
structure Follows (s : Simulation α σ) (c : Course α σ) : Prop where
  worker : s.worker = c.worker
  crash : s.crash = c.crash
  peer : s.receiver.peer = c.peer
  mailbox : s.mailbox <:+ c.events
  wire : s.wire.Sublist (c.outlet.calls.map Prod.snd)

variable {s : Simulation α σ} {c : Course α σ}

theorem Follows.isRunning (h : s.Follows c) : s.isRunning = c.isRunning := by
  rw [Simulation.isRunning, Course.isRunning, h.crash, h.worker]

theorem Follows.handOver (h : s.Follows c) (effects : Effects) :
    (s.handOver effects).Follows (c.handOver effects) := by
  refine ⟨h.worker, h.crash, h.peer, ?_, ?_⟩
  · obtain ⟨taken, htaken⟩ := h.mailbox
    exact ⟨taken, by simp only [Simulation.handOver, Course.handOver, ← htaken, List.append_assoc]⟩
  · have hcalls : ((c.handOver effects).outlet.calls).map Prod.snd =
        c.outlet.calls.map Prod.snd ++ effects.datagrams := by
      simp [Course.handOver, Outlet.sendAll_calls, Function.comp_def]
    rw [hcalls, Simulation.handOver]
    dsimp only
    split
    · exact h.wire.trans (List.sublist_append_left _ _)
    · exact h.wire.append_right _

theorem Follows.arm [Mul α] [Seconds α] (h : s.Follows c) (now : Nat) :
    Follows (match s.worker.setTimer now with
      | .error cause => { s with crash := some cause }
      | .ok worker => { s with worker }) (c.arm now) := by
  rw [Course.arm, h.worker]
  cases c.worker.setTimer now with
  | error cause => exact ⟨rfl, rfl, h.peer, h.mailbox, h.wire⟩
  | ok worker => exact ⟨rfl, h.crash, h.peer, h.mailbox, h.wire⟩

/-- A tunnel that is set up shows a course from its beginning, whatever the socket does. -/
theorem launch_follows [Mul α] [Seconds α] {setup : Setup σ} (h : launch setup = .ok s)
    (results : Nat → Except SocketError Unit) :
    ∃ (e₀ : Endpoint α σ) (c : Course α σ),
      Endpoint.create setup.settings setup.token setup.transform setup.secret setup.nonces =
          .ok e₀ ∧
        Course.begin e₀ 0 0 setup.peer results = .ok c ∧ s.Follows c := by
  unfold launch at h
  split at h
  · cases h
  · rename_i localAddress _
    obtain ⟨e₀, hcreate, hrest⟩ := bind_eq_ok h
    obtain ⟨e, hconnect, hpair⟩ := bind_eq_ok hrest
    obtain ⟨c, hc⟩ : ∃ c, Course.opened e 0 setup.peer results = c := ⟨_, rfl⟩
    refine ⟨e₀, c.arm 0, hcreate, by rw [Course.begin, hconnect, ← hc]; rfl, ?_⟩
    rw [Course.opened] at hc
    generalize Worker.start e 0 = started at hpair hc
    obtain ⟨effects, worker⟩ := started
    have hopened : (Simulation.handOver {
        frozen := setup.frozen
        localAddress
        receiver := { peer := setup.peer, bufferSize := setup.settings.recvBufferSize }
        worker } effects).Follows c :=
      hc ▸ Follows.handOver ⟨rfl, rfl, rfl, List.suffix_rfl, .slnil⟩ effects
    obtain rfl := Except.ok.inj hpair
    exact hopened.arm 0

variable [Add α] [Sub α] [Mul α] [Seconds α]

theorem Follows.stimulate (h : s.Follows c) (stimulus : Stimulus) :
    (s.stimulate stimulus).2.Follows (c.round ⟨stimulus, s.now, s.reading⟩) := by
  rw [Simulation.stimulate, h.isRunning]
  rcases c.round_cases ⟨stimulus, s.now, s.reading⟩ with
    ⟨hstopped, hsame⟩ | ⟨hrunning, cause, hstep, hcrash⟩ | ⟨hrunning, effects, worker, hstep, hnext⟩
  · rw [hsame, hstopped]
    exact h
  · dsimp only at hstep
    rw [hcrash, if_pos hrunning, h.worker, hstep]
    exact ⟨rfl, rfl, h.peer, h.mailbox, h.wire⟩
  · dsimp only at hstep
    rw [hnext, if_pos hrunning, h.worker, hstep]
    have hthen : ({ s with worker } : Simulation α σ).Follows
        { c with
          worker
          rounds := c.rounds ++ [(⟨stimulus, s.now, s.reading⟩, effects.reply)] } :=
      ⟨rfl, h.crash, h.peer, h.mailbox, h.wire⟩
    exact hthen.handOver effects

/-- A request is answered with the reply of its round.  If the round does not come to its end, there
is no worker any more. -/
theorem Follows.request (h : s.Follows c) (command : Command) :
    ∃ r : Round, r.stimulus = .command command ∧ (s.request command).2.Follows (c.round r) ∧
      ((∃ reply, (s.request command).1 = .ok reply ∧
          (c.round r).rounds = c.rounds ++ [(r, some reply)]) ∨
        (s.request command).1 = .error .closed ∧ (c.round r).rounds = c.rounds ∧
          (c.round r).isRunning = false) := by
  refine ⟨⟨.command command, s.now, s.reading⟩, rfl, h.stimulate _, ?_⟩
  rw [Simulation.request, Simulation.stimulate, h.isRunning, h.worker]
  rcases c.round_cases ⟨.command command, s.now, s.reading⟩ with
    ⟨hstopped, hsame⟩ | ⟨hrunning, cause, hstep, hcrash⟩ | ⟨hrunning, effects, worker, hstep, hnext⟩
  · rw [hsame, hstopped]
    exact .inr ⟨rfl, rfl, rfl⟩
  · dsimp only at hstep
    rw [hcrash, if_pos hrunning, hstep]
    exact .inr ⟨rfl, rfl, rfl⟩
  · obtain ⟨e', hrespond, -⟩ := Worker.step_eq_ok hstep
    obtain ⟨reply, hreply⟩ := Option.isSome_iff_exists.1 (isSome_reply hrespond)
    dsimp only at hstep
    rw [hnext, if_pos hrunning, hstep]
    refine .inl ⟨reply, ?_, ?_⟩
    · simp only [hreply]
    · simp only [hreply, Course.handOver]

theorem Follows.fire (h : s.Follows c) :
    ∃ r : Round, r.stimulus = .tick ∧ s.fire.Follows (c.round r) := by
  have hthen : ({ s with now := s.worker.due } : Simulation α σ).Follows c :=
    ⟨h.worker, h.crash, h.peer, h.mailbox, h.wire⟩
  exact ⟨_, rfl, hthen.stimulate .tick⟩

/-- Time that passes shows as ticks. -/
theorem Follows.fireWhile (h : s.Follows c) (more : Simulation α σ → Bool) (limit : Nat) :
    ∃ ticks : List Round, (∀ r ∈ ticks, r.stimulus = .tick) ∧
      (s.fireWhile more limit).Follows (c.play ticks) ∧
      ((s.fireWhile more limit).isRunning = true → more (s.fireWhile more limit) = true →
        ticks.length = limit) := by
  induction limit generalizing s c with
  | zero => exact ⟨[], by simp, h, fun _ _ => rfl⟩
  | succ limit ih =>
    rw [Simulation.fireWhile]
    split
    · obtain ⟨r, htick, hfire⟩ := h.fire
      obtain ⟨ticks, hticks, hplay, hlimit⟩ := ih hfire
      refine ⟨r :: ticks, ?_, hplay, fun hrunning hmore => ?_⟩
      · exact List.forall_mem_cons.2 ⟨htick, hticks⟩
      · rw [List.length_cons, hlimit hrunning hmore]
    · rename_i hstop
      refine ⟨[], by simp, h, fun hrunning hmore => ?_⟩
      rw [hrunning, hmore] at hstop
      exact absurd rfl hstop

variable {e₀ : Endpoint α σ} {reading : Nat}

/-- Waiting for the handshake answers what the course says, unless the handshake is still under way
after so many ticks. -/
theorem Follows.awaitHandshake (h : s.Follows c) (hfaithful : c.Faithful e₀ reading)
    (hstart : e₀.Lived []) :
    ∃ ticks : List Round, (∀ r ∈ ticks, r.stimulus = .tick) ∧
      s.awaitHandshake.2.Follows (c.play ticks) ∧
      ((c.play ticks).verdict? = some s.awaitHandshake.1 ∨
        (c.play ticks).verdict? = none ∧
          ticks.length = firings s.worker.endpoint.settings.helloTimeout) := by
  obtain ⟨ticks, hticks, hfollows, hlimit⟩ := h.fireWhile (fun s => s.phase = .connecting)
    (firings s.worker.endpoint.settings.helloTimeout)
  refine ⟨ticks, hticks, hfollows, ?_⟩
  have hstanding := (hfaithful.play ticks).standing hstart
  rw [← hfollows.worker] at hstanding
  rw [Course.verdict?, ← hfollows.worker, ← hfollows.isRunning]
  unfold Simulation.awaitHandshake
  generalize s.fireWhile _ _ = s' at hfollows hlimit hstanding ⊢
  have hwaiting (hrunning : s'.isRunning = true) (hphase : s'.worker.status.phase = .connecting) :=
    hlimit hrunning (decide_eq_true hphase)
  dsimp only [Simulation.phase]
  generalize s'.worker.status = status, (c.play ticks).events = history
    at hwaiting hstanding ⊢
  cases hstanding with
  | waiting =>
    cases hrunning : s'.isRunning with
    | true => exact .inr ⟨rfl, hwaiting hrunning rfl⟩
    | false => exact .inl rfl
  | up _ => exact .inl rfl
  | failed _ => exact .inl rfl
  | down _ _ => exact .inl rfl

end Simulation

/-! ## The whole -/

namespace Course

variable {α σ : Type} [Add α] [Sub α] [Mul α] [Seconds α]

/-- What a worker can be relied on for after rounds in any order.  It serves `e₀`, whose handshake
starts when the clock shows `reading`; its timer is first set at `now`. -/
structure Reliable (e₀ : Endpoint α σ) (now reading : Nat) (schedule : List Round)
    (c : Course α σ) : Prop where
  /-- The rounds are one run of the endpoint.  The application was sent what the polls for events
  took, and the socket was handed what the others took, addressed to the peer, each item once and
  in order.  The remaining calls are those that the rounds ask for. -/
  served : ∃ datagrams ops answers,
    Served e₀ reading c.rounds datagrams c.events c.worker.endpoint ∧
      e₀.performAll ops = .ok (answers, c.worker.endpoint) ∧
      c.events = answers.flatMap Answer.taken ∧ datagrams = answers.flatMap Answer.sent ∧
      c.outlet.calls = datagrams.map (fun datagram => (c.peer, datagram)) ∧
      ops.filter (fun op => !op.isPoll) =
        .connect reading :: c.rounds.filterMap fun done => done.1.operation?
  /-- Nothing is left behind. -/
  emptied : c.worker.endpoint.outbox = [] ∧ c.worker.endpoint.events = []
  /-- A command that is over has one reply, and nothing else has any. -/
  replied : ∀ done ∈ c.rounds, done.2.isSome = done.1.stimulus.isCommand
  /-- The rounds that are over are the first of those that came: all, while the worker runs. -/
  rounds : c.rounds.map Prod.fst <+: schedule ∧
    (c.isRunning = true → c.rounds.map Prod.fst = schedule)
  /-- The published phase is that of the endpoint. -/
  phase : c.worker.status.phase = c.worker.endpoint.phase
  /-- What is published fits what the application was sent. -/
  standing : Standing c.worker.status c.events
  /-- The worker stops when the connection has ended, or when it dies. -/
  stopped : c.isRunning = false ↔ c.worker.endpoint.phase.isTerminal = true ∨ c.crash ≠ none
  /-- Once it has stopped, nothing happens any more. -/
  final : c.isRunning = false → ∀ more, c.play more = c
  /-- It dies in a round exactly if the endpoint has no answer, or if this is a tick after which the
  timer cannot be set. -/
  answered : c.isRunning = true →
    ∀ r, (c.round r).crash = none ↔ Answerable c.worker.endpoint r
  /-- It does not die as long as the endpoint has an answer to everything and the timer can be
  set. -/
  survives : ∀ longest, e₀.Survives longest → now ≤ longest → reading ≤ longest →
    (∀ r ∈ schedule, r.reading ≤ longest ∧ r.now ≤ longest) → c.crash = none
  /-- In simulated time, a request is answered with the reply of its round, or there is no worker
  any more. -/
  requested : ∀ s : Simulation α σ, s.Follows c → ∀ command, ∃ r : Round,
    r.stimulus = .command command ∧ (s.request command).2.Follows (c.round r) ∧
      ((∃ reply, (s.request command).1 = .ok reply ∧
          (c.round r).rounds = c.rounds ++ [(r, some reply)]) ∨
        (s.request command).1 = .error .closed ∧ (c.round r).rounds = c.rounds ∧
          (c.round r).isRunning = false)
  /-- Whoever waits for the handshake waits until it is over or the worker has died, -/
  waits : c.verdict? = none ↔ c.worker.status.phase = .connecting ∧ c.isRunning = true
  /-- and learns that the connection is up, -/
  ok : c.verdict? = some (.ok ()) ↔ c.worker.status.phase = .established
  /-- or why the handshake failed, -/
  failed : ∀ reason, c.verdict? = some (.error (.handshakeFailed reason)) ↔
    .failed reason ∈ c.events
  /-- or that the connection went down, or that there is nobody left to complete it. -/
  closed : c.verdict? = some (.error .closed) ↔
    (∃ reason, .down reason ∈ c.events) ∨
      c.worker.status.phase = .connecting ∧ c.isRunning = false
  /-- In simulated time, waiting lets the timer fire and then says so.  Only if the handshake is
  still under way after so many ticks is the wait given up. -/
  awaited : ∀ s : Simulation α σ, s.Follows c → ∃ ticks : List Round,
    (∀ r ∈ ticks, r.stimulus = .tick) ∧ s.awaitHandshake.2.Follows (c.play ticks) ∧
      ((c.play ticks).verdict? = some s.awaitHandshake.1 ∨
        (c.play ticks).verdict? = none ∧
          ticks.length = Simulation.firings s.worker.endpoint.settings.helloTimeout)

/-- A worker runs its endpoint faithfully, whatever order its stimuli come in and whatever becomes
of the datagrams that it hands to the socket.  It stops before the end of the connection only if it
dies, and it dies only of a call that has no result or of a timer that cannot be set. -/
theorem runs_faithfully {settings : Settings} {token : Bytes} {transform : Transform σ} {secret : σ}
    {nonces : Nat → Wire.Nonce} {e₀ : Endpoint α σ}
    (hcreate : Endpoint.create settings token transform secret nonces = .ok e₀)
    (now reading : Nat) (peer : Address) (results : Nat → Except SocketError Unit) :
    ∃ c₀, begin e₀ now reading peer results = .ok c₀ ∧
      (c₀.crash = none ↔ c₀.worker.endpoint.Wakes now) ∧
      ∀ schedule : List Round,
        (c₀.play schedule).peer = peer ∧ (c₀.play schedule).Reliable e₀ now reading schedule := by
  have hnew := Endpoint.create_new hcreate
  have hlived := hnew.lived
  obtain ⟨e₁, hconnect, hbegin⟩ := exists_begin hnew.phase_eq now reading peer results
  have hopened := Faithful.opened hconnect now peer results
  have hstart : ((opened e₁ now peer results).arm now).rounds = [] := arm_rounds _ now
  have htimer : ((opened e₁ now peer results).arm now).crash = none ↔ _ := arm_crash rfl now
  refine ⟨_, hbegin, by rw [htimer, arm_endpoint], fun schedule => ⟨?_, ?_⟩⟩
  · rw [play_peer, arm_peer]
    rfl
  have hfaithful := (hopened.arm now).play schedule
  have hstanding := hfaithful.standing hlived
  obtain ⟨datagrams, hserved, hcalls⟩ := hfaithful.served
  obtain ⟨ops, answers, hrun, hsent, htaken, hops⟩ := hserved.exists_run
  exact {
    served := ⟨datagrams, ops, answers, hserved, hrun, htaken.symm, hsent.symm, hcalls, hops⟩
    emptied := ⟨hserved.settled.1, hserved.settled.2.1⟩
    replied := hserved.replied
    rounds := rounds_play hstart schedule
    phase := congrArg Status.phase hfaithful.status
    standing := hstanding
    stopped := hfaithful.isRunning_eq_false_iff
    final := fun hstopped => play_of_stopped hstopped
    answered := fun hrunning r => round_crash hrunning
    survives := fun longest hsurvives hnow hreading hschedule =>
      (hopened.arm now).crash_play hsurvives hreading hstart
        (hopened.crash_arm hsurvives hreading rfl rfl hnow) hschedule
    requested := fun s hfollows command => hfollows.request command
    waits := hstanding.verdict?_eq_none_iff
    ok := hstanding.verdict?_eq_ok_iff
    failed := fun reason => hstanding.verdict?_eq_failed_iff
    closed := hstanding.verdict?_eq_closed_iff
    awaited := fun s hfollows => hfollows.awaitHandshake hfaithful hlived }

/-- What the worker of a new endpoint in the clear comes to in these rounds. -/
def trial (settings : Settings) (token : Bytes) (peer : Address)
    (results : Nat → Except SocketError Unit) (schedule : List Round) :
    Option (Course Rat Unit) :=
  (Endpoint.blank settings token).toOption.bind fun e₀ =>
    (begin e₀ 0 0 peer results).toOption.map fun c => c.play schedule

theorem exists_of_trial {settings : Settings} {token : Bytes} {peer : Address}
    {results : Nat → Except SocketError Unit} {schedule : List Round}
    {p : Course Rat Unit → Bool} (h : (trial settings token peer results schedule).any p = true) :
    ∃ nonces e₀ c₀, Endpoint.create settings token .plain () nonces = .ok e₀ ∧
      begin e₀ 0 0 peer results = .ok c₀ ∧ p (c₀.play schedule) = true := by
  obtain ⟨c, hresult, hp⟩ := (Option.any_eq_true _ _).1 h
  obtain ⟨e₀, hcreate, hrest⟩ := Option.bind_eq_some_iff.1 hresult
  obtain ⟨c₀, hbegin, rfl⟩ := Option.map_eq_some_iff.1 hrest
  exact ⟨_, e₀, c₀, eq_ok_of_toOption hcreate, eq_ok_of_toOption hbegin, hp⟩

/-- A socket that refuses everything does not keep a connection from coming up and from being
closed.  Two datagrams are handed over, two commands are replied to, and a third comes too late. -/
theorem runs_faithfully_refused :
    let schedule : List Round := [⟨.datagram (Wire.Frame.hello [7]).encode, 5, 5⟩,
      ⟨.command (.send [1]), 6, 6⟩, ⟨.command .close, 7, 7⟩, ⟨.command (.send [2]), 8, 8⟩]
    ∃ nonces e₀ c₀, Endpoint.create (α := Rat) {} [7] .plain () nonces = .ok e₀ ∧
      begin e₀ 0 0 ⟨"peer", 9⟩ (fun _ => .error ⟨.connectionRefused, "refused"⟩) = .ok c₀ ∧
      let c := c₀.play schedule
      c.crash = none ∧ c.isRunning = false ∧ c.rounds.length = 3 ∧ c.outlet.calls.length = 2 ∧
        c.events = [.up, .down .localClose] ∧ c.verdict? = some (.error .closed) ∧
        c.Reliable e₀ 0 0 schedule := by
  intro schedule
  obtain ⟨nonces, e₀, c₀, hcreate, hbegin, hend⟩ := exists_of_trial
    (p := fun c => !c.isRunning && c.rounds.length == 3 && c.outlet.calls.length == 2 &&
      c.events == [.up, .down .localClose])
    (show (trial {} [7] ⟨"peer", 9⟩ (fun _ => .error ⟨.connectionRefused, "refused"⟩)
      schedule).any _ = true by decide +kernel)
  simp only [Bool.and_eq_true, Bool.not_eq_true', beq_iff_eq] at hend
  obtain ⟨⟨⟨hstopped, hrounds⟩, hcalls⟩, hevents⟩ := hend
  obtain ⟨c₁, hbegin', -, hall⟩ := runs_faithfully hcreate 0 0 ⟨"peer", 9⟩
    fun _ => .error ⟨.connectionRefused, "refused"⟩
  obtain rfl := Except.ok.inj (hbegin.symm.trans hbegin')
  have hreliable := (hall schedule).2
  have hwait : Settings.longestWait {} (10 ^ 20) = .ok (15 * 10 ^ 19) :=
    eq_ok_of_toOption (by decide +kernel)
  have hsurvives : e₀.Survives (10 ^ 20) :=
    Endpoint.create_survives hcreate (by decide) (by decide) hwait (by decide)
  have halive := hreliable.survives (10 ^ 20) hsurvives (by decide) (by decide) (by decide)
  exact ⟨nonces, e₀, c₀, hcreate, hbegin, halive, hstopped, hrounds, hcalls, hevents,
    hreliable.closed.2 (.inl ⟨.localClose, by rw [hevents]; decide⟩), hreliable⟩

/-- Valid settings under which the worker dies before it has set the timer for the first time.  The
handshake is under way and stays so; nobody is told, and no command gets a reply. -/
theorem dies_before_the_end :
    ∃ (settings : Settings) (nonces : Nat → Wire.Nonce) (e₀ : Endpoint Rat Unit)
      (c₀ : Course Rat Unit),
      settings.validate = .ok () ∧ Endpoint.create settings [7] .plain () nonces = .ok e₀ ∧
        begin e₀ 0 0 ⟨"peer", 9⟩ (fun _ => .ok ()) = .ok c₀ ∧
        c₀.crash = some .tooLargeOrNaN ∧ c₀.worker.endpoint.phase = .connecting ∧
        c₀.isRunning = false ∧
        ∀ schedule, (c₀.play schedule).rounds = [] ∧ (c₀.play schedule).events = [] ∧
          (c₀.play schedule).verdict? = some (.error .closed) := by
  let settings : Settings := { retryMultiplier := 1e300 }
  obtain ⟨nonces, e₀, c₀, hcreate, hbegin, hend⟩ := exists_of_trial
    (p := fun c => c.crash == some .tooLargeOrNaN && c.worker.endpoint.phase == .connecting &&
      c.worker.status.phase == .connecting && c.rounds.isEmpty && c.events == [])
    (show (trial settings [7] ⟨"peer", 9⟩ (fun _ => .ok ()) []).any _ = true by decide +kernel)
  simp only [Bool.and_eq_true, beq_iff_eq, List.isEmpty_iff] at hend
  obtain ⟨⟨⟨⟨hcrash, hphase⟩, hpublished⟩, hrounds⟩, hevents⟩ := hend
  have hstopped : c₀.isRunning = false := by
    rw [isRunning, show c₀.crash = _ from hcrash]
    rfl
  refine ⟨settings, nonces, e₀, c₀, (Endpoint.create_eq_ok hcreate).1, hcreate, hbegin, hcrash,
    hphase, hstopped, fun schedule => ?_⟩
  rw [play_of_stopped hstopped]
  refine ⟨hrounds, hevents, ?_⟩
  rw [verdict?, Status.verdict?, show c₀.worker.status.phase = _ from hpublished, hstopped]
  rfl

end Course

end DatagramTunnel.Tunnel
