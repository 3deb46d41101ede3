import DatagramTunnel.Proofs.Session.Timing
import DatagramTunnel.Proofs.Tunnel.Serving
import DatagramTunnel.Tunnel.Receiver

/-!
# The course of a worker

A `Course` is a worker together with all that it has given away: the calls that it made on the
socket, the events that it sent to the application, and the rounds with their replies.  The socket
may refuse any of these calls.  `begin` starts a course, and `play` goes through rounds in whatever
order they come.

`Faithful` says that nothing has been given away but what the endpoint produced, and that all of it
has.  Every round keeps it (`Faithful.round`), also the last one of a worker that dies.  A worker
dies when the endpoint has no answer or the timer cannot be set, so one whose endpoint survives does
not (`crash_play`).
-/

namespace DatagramTunnel.Tunnel

open Flight Session

/-! ## What is published -/

theorem lastFailure_concat (before : List Event) (event : Event) :
    lastFailure (before ++ [event]) = (lastFailure [event]).or (lastFailure before) := by
  rw [lastFailure, List.foldl_append]
  cases event <;> rfl

theorem lastFailure_append (before after : List Event) :
    lastFailure (before ++ after) = (lastFailure after).or (lastFailure before) := by
  induction after using List.reverseRecOn with
  | nil => rw [List.append_nil]; rfl
  | append_singleton after event ih =>
    rw [← List.append_assoc, lastFailure_concat, ih, lastFailure_concat, Option.or_assoc]

theorem mem_of_lastFailure {events : List Event} {reason : HandshakeFailure}
    (h : lastFailure events = some reason) : .failed reason ∈ events := by
  induction events using List.reverseRecOn with
  | nil => cases h
  | append_singleton before event ih =>
    rw [lastFailure_concat] at h
    cases event with
    | failed other =>
      obtain rfl := Option.some.inj h
      exact List.mem_append_right before List.mem_cons_self
    | _ => exact List.mem_append_left _ (ih h)

theorem lastFailure_eq_none {events : List Event} (h : ∀ reason, .failed reason ∉ events) :
    lastFailure events = none :=
  Option.eq_none_iff_forall_ne_some.2 fun reason hlast => h reason (mem_of_lastFailure hlast)

/-- Among what comes from the peer there is no news of the connection itself. -/
theorem not_mem_arrivals {arrivals : List Event} {event : Event}
    (arrive : ∀ event ∈ arrivals, event.isArrival = true) (h : event.isArrival = false) :
    event ∉ arrivals := by
  intro hmem
  rw [arrive event hmem] at h
  cases h

/-- What is published between two rounds, and what the application has been sent by then. -/
inductive Standing : Status → List Event → Prop
  | waiting : Standing { phase := .connecting } []
  | up {arrivals : List Event} (arrive : ∀ event ∈ arrivals, event.isArrival = true) :
    Standing { phase := .established } (.up :: arrivals)
  | failed (reason : HandshakeFailure) :
    Standing { phase := .closed, failure := some reason } [.failed reason]
  | down {arrivals : List Event} (arrive : ∀ event ∈ arrivals, event.isArrival = true)
    (reason : Outage) : Standing { phase := .closed } (.up :: (arrivals ++ [.down reason]))

/-- If the end is never half done, the story of a connection and its last failure are a standing. -/
theorem standing_of_chronicle {phase : Phase} {history : List Event} (h : Chronicle phase history)
    (hopen : phase ≠ .closing) :
    Standing { phase, failure := lastFailure history } history := by
  have hclosed (hended : phase.isTerminal = true) : phase = .closed := by
    cases phase <;> simp [Phase.isTerminal] at hended hopen ⊢
  cases h with
  | silent => exact .waiting
  | up arrive =>
    rw [lastFailure_eq_none fun reason => by simpa using not_mem_arrivals arrive rfl]
    exact .up arrive
  | failed ended reason =>
    rw [hclosed ended]
    exact .failed reason
  | down ended arrive outage =>
    rw [hclosed ended,
      lastFailure_eq_none fun reason => by simpa using not_mem_arrivals arrive rfl]
    exact .down arrive outage

/-! ## Sockets that may refuse -/

/-- A socket as far as sending goes: what becomes of each call, and the calls so far. -/
structure Outlet where
  results : Nat → Except SocketError Unit
  calls : List (Address × Bytes) := []

namespace Outlet

/-- Hands one datagram to the socket. -/
def send (o : Outlet) (peer : Address) (datagram : Bytes) : Except SocketError Unit × Outlet :=
  (o.results o.calls.length, { o with calls := o.calls ++ [(peer, datagram)] })

/-- Hands datagrams to the socket one after the other.  A refused one is given up. -/
def sendAll (o : Outlet) (peer : Address) : List Bytes → Outlet
  | [] => o
  | datagram :: rest =>
    match o.send peer datagram with
    | (.ok (), o') => o'.sendAll peer rest
    | (.error _, o') => o'.sendAll peer rest

/-- Every datagram is handed over once and in order, whatever becomes of those before it. -/
theorem sendAll_calls (o : Outlet) (peer : Address) (datagrams : List Bytes) :
    (o.sendAll peer datagrams).calls =
      o.calls ++ datagrams.map fun datagram => (peer, datagram) := by
  induction datagrams generalizing o with
  | nil => simp [sendAll]
  | cons datagram rest ih =>
    rw [sendAll]
    split <;> rename_i hsend <;>
      · obtain ⟨-, rfl⟩ := Prod.mk.inj hsend
        rw [ih]
        simp

end Outlet

/-! ## Courses -/

/-- A worker and what it has given away. -/
structure Course (α σ : Type) where
  worker : Worker α σ
  peer : Address
  outlet : Outlet
  /-- What the application was sent. -/
  events : List Event := []
  /-- The rounds that are over, each with its reply. -/
  rounds : List (Round × Option Reply) := []
  /-- What the worker died of. -/
  crash : Option TimeError := none

namespace Course

variable {α σ : Type}

/-- Whether the worker waits for a stimulus. -/
def isRunning (c : Course α σ) : Bool := c.crash.isNone && c.worker.isRunning

theorem crash_of_isRunning {c : Course α σ} (h : c.isRunning = true) : c.crash = none := by
  rw [isRunning, Bool.and_eq_true] at h
  exact Option.isNone_iff_eq_none.1 h.1

/-- Hands what a flush produced to the socket and to the application. -/
def handOver (c : Course α σ) (effects : Effects) : Course α σ :=
  { c with
    outlet := c.outlet.sendAll c.peer effects.datagrams
    events := c.events ++ effects.events }

/-- Flushes for the first time. -/
def opened (e : Endpoint α σ) (now : Nat) (peer : Address)
    (results : Nat → Except SocketError Unit) : Course α σ :=
  let (effects, worker) := Worker.start e now
  { worker, peer, outlet := { results } : Course α σ }.handOver effects

section Beginning

variable [Mul α] [Seconds α] {c : Course α σ}

/-- Sets the timer. -/
def arm (c : Course α σ) (now : Nat) : Course α σ :=
  match c.worker.setTimer now with
  | .error cause => { c with crash := some cause }
  | .ok worker => { c with worker }

@[simp] theorem arm_rounds (c : Course α σ) (now : Nat) : (c.arm now).rounds = c.rounds := by
  unfold arm
  split <;> rfl

@[simp] theorem arm_peer (c : Course α σ) (now : Nat) : (c.arm now).peer = c.peer := by
  unfold arm
  split <;> rfl

@[simp] theorem arm_endpoint (c : Course α σ) (now : Nat) :
    (c.arm now).worker.endpoint = c.worker.endpoint := by
  unfold arm
  split
  · rfl
  · rename_i worker htimer
    exact (Worker.setTimer_eq_ok htimer).2.1

theorem arm_crash (h : c.crash = none) (now : Nat) :
    (c.arm now).crash = none ↔ c.worker.endpoint.Wakes now := by
  unfold arm
  split
  · rename_i cause htimer
    refine ⟨nofun, fun hwakes => ?_⟩
    obtain ⟨worker, hworker⟩ := Worker.exists_setTimer hwakes
    cases htimer.symm.trans hworker
  · rename_i worker htimer
    exact ⟨fun _ => (Worker.setTimer_eq_ok htimer).1, fun _ => h⟩

/-- Starts the handshake, flushes and sets the timer. -/
def begin (e₀ : Endpoint α σ) (now reading : Nat) (peer : Address)
    (results : Nat → Except SocketError Unit) : Except TunnelError (Course α σ) := do
  return (opened (← e₀.connect reading) now peer results).arm now

/-- A course of a connecting endpoint begins. -/
theorem exists_begin {e₀ : Endpoint α σ} (h : e₀.phase = .connecting) (now reading : Nat)
    (peer : Address) (results : Nat → Except SocketError Unit) :
    ∃ e, e₀.connect reading = .ok e ∧
      begin e₀ now reading peer results = .ok ((opened e now peer results).arm now) := by
  have hconnect : ∃ e, e₀.connect reading = .ok e := by
    rw [Endpoint.connect, h]
    dsimp only
    split <;> exact ⟨_, rfl⟩
  obtain ⟨e, hconnect⟩ := hconnect
  exact ⟨e, hconnect, by rw [begin, hconnect]; rfl⟩

end Beginning

variable [Add α] [Sub α] [Mul α] [Seconds α]

/-- One round.  A worker that has stopped takes no stimulus, and one that dies gives nothing
away. -/
def round (c : Course α σ) (r : Round) : Course α σ :=
  if c.isRunning then
    match c.worker.step r.stimulus r.now r.reading with
    | .error cause => { c with crash := some cause }
    | .ok (effects, worker) =>
      { c with worker, rounds := c.rounds ++ [(r, effects.reply)] }.handOver effects
  else c

/-- Rounds one after the other. -/
def play (c : Course α σ) (schedule : List Round) : Course α σ := schedule.foldl round c

variable {c : Course α σ} {r : Round}

theorem round_of_stopped (h : c.isRunning = false) : c.round r = c := by
  rw [round, h]
  rfl

theorem play_of_stopped (h : c.isRunning = false) (schedule : List Round) :
    c.play schedule = c := by
  induction schedule with
  | nil => rfl
  | cons r rest ih =>
    rw [play, List.foldl_cons, round_of_stopped h]
    exact ih

theorem play_concat (c : Course α σ) (schedule : List Round) (r : Round) :
    c.play (schedule ++ [r]) = (c.play schedule).round r := List.foldl_append

@[simp] theorem round_peer (c : Course α σ) (r : Round) : (c.round r).peer = c.peer := by
  unfold round
  split
  · split <;> rfl
  · rfl

@[simp] theorem play_peer (c : Course α σ) (schedule : List Round) :
    (c.play schedule).peer = c.peer := by
  induction schedule using List.reverseRecOn with
  | nil => rfl
  | append_singleton schedule r ih => rw [play_concat, round_peer, ih]

/-- Nothing happens in a round, or the worker dies, or it takes a step. -/
theorem round_cases (c : Course α σ) (r : Round) :
    (c.isRunning = false ∧ c.round r = c) ∨
      (c.isRunning = true ∧ ∃ cause, c.worker.step r.stimulus r.now r.reading = .error cause ∧
        c.round r = { c with crash := some cause }) ∨
      (c.isRunning = true ∧ ∃ effects worker,
        c.worker.step r.stimulus r.now r.reading = .ok (effects, worker) ∧
        c.round r =
          { c with worker, rounds := c.rounds ++ [(r, effects.reply)] }.handOver effects) := by
  cases hrunning : c.isRunning with
  | false => exact .inl ⟨rfl, round_of_stopped hrunning⟩
  | true =>
    cases hstep : c.worker.step r.stimulus r.now r.reading with
    | error cause =>
      exact .inr (.inl ⟨rfl, cause, rfl, by rw [round, hrunning, if_pos rfl, hstep]⟩)
    | ok result =>
      exact .inr (.inr ⟨rfl, result.1, result.2, rfl, by rw [round, hrunning, if_pos rfl, hstep]⟩)

/-! ## Nothing is lost, and nothing is made up -/

/-- The endpoint has been served in the rounds, and what it produced has been given away. -/
structure Faithful (e₀ : Endpoint α σ) (reading : Nat) (c : Course α σ) : Prop where
  served : ∃ datagrams, Served e₀ reading c.rounds datagrams c.events c.worker.endpoint ∧
    c.outlet.calls = datagrams.map fun datagram => (c.peer, datagram)
  status : c.worker.status = {
    phase := c.worker.endpoint.phase
    failure := lastFailure c.events }

namespace Faithful

variable {e₀ e : Endpoint α σ} {reading : Nat}

theorem opened (hconnect : e₀.connect reading = .ok e) (now : Nat) (peer : Address)
    (results : Nat → Except SocketError Unit) :
    (opened e now peer results).Faithful e₀ reading := by
  have hstart : Worker.start e now = _ := Worker.flush_eq _
  refine ⟨⟨e.outbox, ?_, ?_⟩, ?_⟩
  · simp only [Course.opened, handOver, hstart]
    exact .opened hconnect
  · simp only [Course.opened, handOver, hstart, Outlet.sendAll_calls]
    rfl
  · simp only [Course.opened, handOver, hstart, Option.or_none]
    rfl

theorem arm (h : c.Faithful e₀ reading) (now : Nat) : (c.arm now).Faithful e₀ reading := by
  unfold Course.arm
  split
  · exact ⟨h.served, h.status⟩
  · rename_i worker htimer
    obtain ⟨-, hendpoint, hstatus⟩ := Worker.setTimer_eq_ok htimer
    obtain ⟨datagrams, hserved, hcalls⟩ := h.served
    refine ⟨⟨datagrams, ?_, hcalls⟩, ?_⟩
    · rw [← hendpoint] at hserved
      exact hserved
    · rw [hstatus, hendpoint]
      exact h.status

theorem round (h : c.Faithful e₀ reading) (r : Round) :
    (c.round r).Faithful e₀ reading := by
  rcases c.round_cases r with
    ⟨-, hsame⟩ | ⟨-, cause, -, hcrash⟩ | ⟨-, effects, worker, hstep, hnext⟩
  · rw [hsame]
    exact h
  · rw [hcrash]
    exact ⟨h.served, h.status⟩
  · obtain ⟨e', hrespond, -, hdatagrams, hevents, hendpoint, hstatus⟩ := Worker.step_eq_ok hstep
    obtain ⟨datagrams, hserved, hcalls⟩ := h.served
    rw [hnext]
    refine ⟨⟨datagrams ++ e'.outbox, ?_, ?_⟩, ?_⟩
    · simp only [handOver, hevents, hendpoint]
      exact hserved.round hrespond
    · simp only [handOver, Outlet.sendAll_calls, hcalls, hdatagrams, List.map_append]
    · simp only [handOver, hstatus, hendpoint, hevents, lastFailure_append, h.status]

theorem play (h : c.Faithful e₀ reading) (schedule : List Round) :
    (c.play schedule).Faithful e₀ reading := by
  induction schedule using List.reverseRecOn with
  | nil => exact h
  | append_singleton schedule r ih =>
    rw [play_concat]
    exact ih.round r

/-- A worker stops when the connection has ended, or when it dies. -/
theorem isRunning_eq_false_iff (h : c.Faithful e₀ reading) :
    c.isRunning = false ↔ c.worker.endpoint.phase.isTerminal = true ∨ c.crash ≠ none := by
  obtain ⟨datagrams, hserved, -⟩ := h.served
  have hopen := hserved.settled.2.2
  have hended : c.worker.isRunning = false ↔ c.worker.endpoint.phase.isTerminal = true := by
    unfold Worker.isRunning
    cases hphase : c.worker.endpoint.phase <;> simp [hphase, Phase.isTerminal] at hopen ⊢
  rw [isRunning, Bool.and_eq_false_iff, hended, or_comm]
  cases c.crash <;> simp

/-- What is published and what has been sent fit together. -/
theorem standing (h : c.Faithful e₀ reading) (hstart : e₀.Lived []) :
    Standing c.worker.status c.events := by
  obtain ⟨datagrams, hserved, -⟩ := h.served
  obtain ⟨-, hevents, hopen⟩ := hserved.settled
  have hstory := (hserved.lived hstart).chronicle
  rw [hevents, List.append_nil] at hstory
  rw [h.status]
  exact standing_of_chronicle hstory hopen

end Faithful

/-! ## Which rounds are gone through -/

/-- A worker goes through the rounds in the order in which they come, up to its end. -/
theorem rounds_play (hstart : c.rounds = []) (schedule : List Round) :
    (c.play schedule).rounds.map Prod.fst <+: schedule ∧
      ((c.play schedule).isRunning = true → (c.play schedule).rounds.map Prod.fst = schedule) := by
  induction schedule using List.reverseRecOn with
  | nil => simp [play, hstart]
  | append_singleton schedule r ih =>
    obtain ⟨hpart, hall⟩ := ih
    rw [play_concat]
    rcases (c.play schedule).round_cases r with
      ⟨hstopped, hsame⟩ | ⟨hrunning, cause, -, hcrash⟩ | ⟨hrunning, effects, worker, -, hnext⟩
    · rw [hsame]
      refine ⟨hpart.trans (List.prefix_append _ _), fun hrunning => ?_⟩
      rw [hstopped] at hrunning
      cases hrunning
    · rw [hcrash]
      refine ⟨hpart.trans (List.prefix_append _ _), fun hrunning => ?_⟩
      cases hrunning
    · have hrounds : ((c.play schedule).round r).rounds.map Prod.fst = schedule ++ [r] := by
        rw [hnext]
        simp [handOver, hall hrunning]
      exact ⟨hrounds ▸ List.prefix_rfl, fun _ => hrounds⟩

/-! ## When a worker dies -/

/-- A running worker survives a round exactly if its endpoint has an answer. -/
theorem round_crash (h : c.isRunning = true) :
    (c.round r).crash = none ↔ Answerable c.worker.endpoint r := by
  rw [← Worker.exists_step_iff]
  rcases c.round_cases r with
    ⟨hstopped, -⟩ | ⟨-, cause, hstep, hcrash⟩ | ⟨-, effects, worker, hstep, hnext⟩
  · rw [h] at hstopped
    cases hstopped
  · refine ⟨fun halive => ?_, fun ⟨result, hresult⟩ => ?_⟩
    · rw [hcrash] at halive
      cases halive
    · cases hstep.symm.trans hresult
  · refine ⟨fun _ => ⟨(effects, worker), hstep⟩, fun _ => ?_⟩
    rw [hnext]
    show c.crash = none
    exact crash_of_isRunning h

section Survival

variable {e₀ e : Endpoint α σ} {longest reading : Nat}

/-- An endpoint that survives goes on to survive. -/
theorem survives_later {ops : List Operation} {answers : List Answer} (h : e₀.Survives longest)
    (hrun : e₀.performAll ops = .ok (answers, e))
    (hops : ∀ op ∈ ops, ∀ now, op.instant? = some now → now ≤ longest) : e.Survives longest := by
  intro more hmore
  have hinstants : ∀ op ∈ ops ++ more, ∀ now, op.instant? = some now → now ≤ longest := by
    simpa [or_imp, forall_and] using ⟨hops, hmore⟩
  obtain ⟨answers', e', hall, hread⟩ := h (ops ++ more) hinstants
  obtain ⟨first, e₁, others, hfirst, hothers, -⟩ := Endpoint.performAll_append_cases hall
  obtain ⟨rfl, rfl⟩ := Prod.mk.inj (Except.ok.inj (hrun.symm.trans hfirst))
  exact ⟨others, e', hothers, hread⟩

theorem answerable_of_survives (h : e.Survives longest) (hreading : r.reading ≤ longest)
    (hnow : r.now ≤ longest) : Answerable e r := by
  cases hop : r.operation? with
  | none =>
    obtain ⟨answers, e', hrun, -, values, hvalues⟩ := h [] (by simp)
    obtain ⟨-, rfl⟩ := Prod.mk.inj (Except.ok.inj hrun)
    refine ⟨_, e, respond_of_look hop hvalues, fun htick => ?_⟩
    rw [Round.operation?, htick] at hop
    cases hop
  | some op =>
    have hinstant : ∀ other ∈ [op], ∀ now, other.instant? = some now → now ≤ longest := by
      intro other hother now hnow
      rw [List.mem_singleton.1 hother] at hnow
      exact (Round.instant_eq hop hnow).trans_le hreading
    obtain ⟨answers, e', hrun, hwakes, -⟩ := h [op] hinstant
    obtain ⟨⟨answer, e₁⟩, hperform, hrest⟩ := bind_eq_ok hrun
    obtain ⟨-, rfl⟩ := Prod.mk.inj (Except.ok.inj hrest)
    exact ⟨_, e₁, respond_of_call hop hperform, fun _ => hwakes.mono hnow⟩

/-- The endpoint of a course whose rounds do not lie too late survives. -/
theorem Faithful.survives (h : c.Faithful e₀ reading) (hsurvives : e₀.Survives longest)
    (hreading : reading ≤ longest) (hrounds : ∀ done ∈ c.rounds, done.1.reading ≤ longest) :
    c.worker.endpoint.Survives longest := by
  obtain ⟨datagrams, hserved, -⟩ := h.served
  obtain ⟨ops, answers, hrun, -, -, hcalls⟩ := hserved.exists_run
  exact survives_later hsurvives hrun (Served.instant_le hcalls hreading hrounds)

/-- A worker does not die over its first timer if its endpoint survives. -/
theorem Faithful.crash_arm (h : c.Faithful e₀ reading) (hsurvives : e₀.Survives longest)
    (hreading : reading ≤ longest) (hstart : c.rounds = []) (halive : c.crash = none) {now : Nat}
    (hnow : now ≤ longest) : (c.arm now).crash = none := by
  have hrounds : ∀ done ∈ c.rounds, done.1.reading ≤ longest := by simp [hstart]
  obtain ⟨answers, e, hrun, hwakes, -⟩ := h.survives hsurvives hreading hrounds [] (by simp)
  obtain ⟨-, rfl⟩ := Prod.mk.inj (Except.ok.inj hrun)
  exact (arm_crash halive now).2 (hwakes.mono hnow)

/-- A worker does not die if its endpoint survives. -/
theorem Faithful.crash_play (h : c.Faithful e₀ reading) (hsurvives : e₀.Survives longest)
    (hreading : reading ≤ longest) (hstart : c.rounds = []) (halive : c.crash = none)
    {schedule : List Round}
    (hschedule : ∀ r ∈ schedule, r.reading ≤ longest ∧ r.now ≤ longest) :
    (c.play schedule).crash = none := by
  induction schedule using List.reverseRecOn with
  | nil => exact halive
  | append_singleton schedule r ih =>
    have hbefore := ih fun other hother => hschedule other (List.mem_append_left _ hother)
    rw [play_concat]
    cases hrunning : (c.play schedule).isRunning with
    | false => rwa [round_of_stopped hrunning]
    | true =>
      have hrounds : ∀ done ∈ (c.play schedule).rounds, done.1.reading ≤ longest := by
        intro done hdone
        have hmem := List.mem_map_of_mem (f := Prod.fst) hdone
        rw [(rounds_play hstart schedule).2 hrunning] at hmem
        exact (hschedule done.1 (List.mem_append_left _ hmem)).1
      obtain ⟨hlast, hnow⟩ := hschedule r (by simp)
      rw [round_crash hrunning]
      exact answerable_of_survives ((h.play schedule).survives hsurvives hreading hrounds) hlast
        hnow

end Survival

end Course

end DatagramTunnel.Tunnel
