import DatagramTunnel.Proofs.Tunnel.Fidelity
import DatagramTunnel.Proofs.Tunnel.Tandem

/-!
# From the socket to the endpoint

What reaches an endpoint through a receiver and a worker is exactly what its peer sent before the
socket failed.  `conveys` says so of every interleaving of the two with ticks and commands:
`Conveyed` lists what holds after any steps.

The account of a `Tandem` speaks of the rounds of the worker, and here these are turned into the
calls on the endpoint (`handed`, `closed`).  What the receiver passes over makes no difference
(`Run.alike`): the worker gets to the same point without it.  Tunnels in simulated time take such
steps, one after the other (`Accompanies`).
-/

namespace DatagramTunnel

namespace Session

/-- The datagram that a call gives the endpoint. -/
def Operation.received? : Operation → Option Bytes
  | .receive datagram _ => some datagram
  | _ => none

/-- Polls give the endpoint nothing. -/
theorem filterMap_received? (ops : List Operation) :
    (ops.filter fun op => !op.isPoll).filterMap Operation.received? =
      ops.filterMap Operation.received? := by
  rw [List.filterMap_filter]
  congr 1
  funext op
  cases op <;> rfl

/-- If one call is the last but for polls, nothing but polls follows it. -/
theorem exists_split_of_filter {ops calls : List Operation} {op : Operation}
    (h : (ops.filter fun op => !op.isPoll) = calls ++ [op]) :
    ∃ earlier polls, ops = earlier ++ op :: polls ∧
      (earlier.filter fun op => !op.isPoll) = calls ∧ ∀ other ∈ polls, other.isPoll = true := by
  obtain ⟨first, second, rfl, hfirst, hsecond⟩ := List.filter_eq_append_iff.1 h
  obtain ⟨skipped, polls, rfl, hskipped, -, hpolls⟩ := List.filter_eq_cons_iff.1 hsecond
  have hnone : (skipped.filter fun op => !op.isPoll) = [] := List.filter_eq_nil_iff.2 hskipped
  refine ⟨first ++ skipped, polls, (List.append_assoc _ _ _).symm, ?_, ?_⟩
  · rw [List.filter_append, hfirst, hnone, List.append_nil]
  · simpa using hpolls

end Session

namespace Tunnel

open Flight Session

/-! ## The calls of the worker -/

theorem Round.bind_received? (r : Round) :
    r.operation?.bind Operation.received? = r.stimulus.content? := by
  obtain ⟨stimulus, now, reading⟩ := r
  cases stimulus with
  | command request => cases request <;> rfl
  | _ => rfl

theorem Round.stimulus_of_socketClosed {r : Round} (h : r.operation? = some .socketClosed) :
    r.stimulus = .receiveEnded := by
  obtain ⟨stimulus, now, reading⟩ := r
  cases stimulus with
  | command request => cases request <;> cases h
  | receiveEnded => rfl
  | _ => cases h

section Calls

variable {ops : List Operation} {reading : Nat} {rounds : List Round}

/-- The calls of some rounds give the endpoint the datagrams of these rounds. -/
theorem filterMap_received?_of_calls
    (h : (ops.filter fun op => !op.isPoll) =
      .connect reading :: rounds.filterMap Round.operation?) :
    ops.filterMap Operation.received? = contents rounds := by
  rw [← filterMap_received?, h, List.filterMap_cons_none rfl, List.filterMap_filterMap]
  exact congrArg (rounds.filterMap ·) (funext Round.bind_received?)

theorem exists_round_of_socketClosed
    (h : (ops.filter fun op => !op.isPoll) = .connect reading :: rounds.filterMap Round.operation?)
    (hclosed : .socketClosed ∈ ops) :
    ∃ r ∈ rounds, r.operation? = some .socketClosed ∧ r.stimulus = .receiveEnded := by
  have hcall : .socketClosed ∈ ops.filter fun op => !op.isPoll :=
    List.mem_filter.2 ⟨hclosed, rfl⟩
  rw [h, List.mem_cons, or_iff_right nofun] at hcall
  obtain ⟨r, hr, hoperation⟩ := List.mem_filterMap.1 hcall
  exact ⟨r, hr, hoperation, Round.stimulus_of_socketClosed hoperation⟩

end Calls

namespace Tandem.Accounts

variable {α σ : Type} [Add α] [Sub α] [Mul α] [Seconds α] {peer : Address} {size : Nat}
  {script : List Arrival} {c₀ : Course α σ} {schedule : List Round} {t : Tandem α σ}
  {reading : Nat} {ops : List Operation}

/-- All of it is handed on, unless the worker dies of the last. -/
theorem handed (h : Accounts peer size script c₀ schedule t)
    (hcalls : (ops.filter fun op => !op.isPoll) =
      .connect reading :: (t.course.rounds.map Prod.fst).filterMap Round.operation?) :
    ∃ lost : Option Bytes, contents schedule = ops.filterMap Operation.received? ++ lost.toList ∧
      (t.course.crash = none → lost = none) := by
  obtain ⟨last, hschedule, hnone⟩ := h.finished
  have hlast : contents last.toList = (last.bind fun r => r.stimulus.content?).toList := by
    cases last with
    | none => rfl
    | some r => exact contents_singleton r
  refine ⟨last.bind fun r => r.stimulus.content?, ?_, fun hcrash => by rw [hnone hcrash]; rfl⟩
  rw [filterMap_received?_of_calls hcalls, ← hlast, ← contents_append, ← hschedule]

/-- The endpoint is told that the socket is closed once, and last.  Before that the socket has
returned a lasting error, and the endpoint has been given all that the peer sent before that. -/
theorem closed (h : Accounts peer size script c₀ schedule t)
    (hcalls : (ops.filter fun op => !op.isPoll) =
      .connect reading :: (t.course.rounds.map Prod.fst).filterMap Round.operation?)
    (hclosed : .socketClosed ∈ ops) :
    ∃ earlier polls before kind, ops = earlier ++ .socketClosed :: polls ∧
      .socketClosed ∉ earlier ∧ (∀ op ∈ polls, op.isPoll = true) ∧
      script = before ++ .failure kind :: t.script ∧ kind.isTransient = false ∧
      (∀ a ∈ before, a.isFatal = false) ∧
      earlier.filterMap Operation.received? =
        (before.map (Arrival.cut size)).filterMap (Arrival.content? peer) := by
  obtain ⟨lost, hschedule, -⟩ := h.finished
  obtain ⟨r, hround, hoperation, hend⟩ := exists_round_of_socketClosed hcalls hclosed
  have hmem : r ∈ schedule := hschedule ▸ List.mem_append_left _ hround
  obtain ⟨earlier, before, kind, hlast, hfirst, hscript, hkind, hbefore, hgiven⟩ := h.last hmem hend
  rw [hschedule] at hlast
  cases lost with
  | some other =>
    -- then the worker has died of the last round, and this one is earlier
    rw [List.append_inj_left' hlast rfl] at hround
    exact absurd hend (hfirst r hround)
  | none =>
    rw [Option.toList_none, List.append_nil] at hlast
    rw [hlast, List.filterMap_append, List.filterMap_cons_some hoperation, List.filterMap_nil,
      ← List.cons_append] at hcalls
    obtain ⟨first, polls, hops, hcalls', hpolls⟩ := exists_split_of_filter hcalls
    refine ⟨first, polls, before, kind, hops, fun hagain => ?_, hpolls, hscript, hkind, hbefore,
      (filterMap_received?_of_calls hcalls').trans hgiven⟩
    obtain ⟨again, hround', -, hend'⟩ := exists_round_of_socketClosed hcalls' hagain
    exact hfirst again hround' hend'

end Tandem.Accounts

/-! ## What does not matter -/

/-- Whether it makes a difference for a receiver that listens to this peer. -/
def Arrival.matters (peer : Address) (a : Arrival) : Bool := a.isFatal || (a.content? peer).isSome

theorem Arrival.matters_cut (peer : Address) (size : Nat) (a : Arrival) :
    (a.cut size).matters peer = a.matters peer := by
  cases a with
  | datagram sender content =>
    by_cases h : sender = peer <;> simp [matters, cut, content?, isFatal, h]
  | failure kind => rfl

/-- What does not matter is not heard, and hides nothing. -/
theorem heard_filter (peer : Address) (script : List Arrival) :
    heard peer (script.filter (Arrival.matters peer)) = heard peer script := by
  induction script with
  | nil => rfl
  | cons a rest ih =>
    by_cases hfatal : a.isFatal = true
    · rw [List.filter_cons_of_pos (by simp [Arrival.matters, hfatal]), heard_fatal hfatal,
        heard_fatal hfatal]
    · have hopen : ∀ b ∈ [a], b.isFatal = false := by simpa using hfatal
      rw [← List.singleton_append, heard_append hopen, ← ih, List.filter_append]
      by_cases hpeer : (a.content? peer).isSome = true
      · rw [List.filter_cons_of_pos (by simp [Arrival.matters, hpeer])]
        exact heard_append hopen _
      · rw [List.filter_cons_of_neg (by simp [Arrival.matters, hfatal, hpeer]), heard_singleton]
        simp_all

/-- Who receives the same of what matters hears the same. -/
theorem heard_congr {peer : Address} {script other : List Arrival} (size : Nat)
    (h : other.filter (Arrival.matters peer) = script.filter (Arrival.matters peer)) :
    heard peer (other.map (Arrival.cut size)) = heard peer (script.map (Arrival.cut size)) := by
  have hcut : Arrival.matters peer ∘ Arrival.cut size = Arrival.matters peer :=
    funext (Arrival.matters_cut peer size)
  rw [← heard_filter, ← heard_filter peer (script.map _), List.filter_map, List.filter_map, hcut, h]

/-- What does not matter is not passed on. -/
theorem Receiver.take_of_not_matters {r : Receiver} {a : Arrival}
    (h : a.matters r.peer = false) : r.take a = (none, r) := by
  obtain ⟨hopen, hother⟩ := Bool.or_eq_false_iff.1 h
  unfold Receiver.take
  split
  · rfl
  · cases a with
    | datagram sender content =>
      have hsender : sender ≠ r.peer := fun heq => by simp [Arrival.content?, heq] at hother
      simp [hsender]
    | failure kind =>
      have hkind : kind.isTransient = true := by simpa [Arrival.isFatal] using hopen
      simp [hkind]

namespace Tandem

variable {α σ : Type} [Add α] [Sub α] [Mul α] [Seconds α] {peer : Address} {size : Nat}
  {script : List Arrival} {c₀ : Course α σ} {schedule rounds : List Round} {t t' : Tandem α σ}

/-- Two tandems that differ only in what does not matter of what the socket has yet to return. -/
structure Alike (t u : Tandem α σ) : Prop where
  receiver : u.receiver = t.receiver
  pending : u.pending = t.pending
  channel : u.channel = t.channel
  course : u.course = t.course
  script : u.script.filter (Arrival.matters t.receiver.peer) =
    t.script.filter (Arrival.matters t.receiver.peer)

/-- Looking at something that does not matter changes nothing else. -/
theorem Step.pass {u : Tandem α σ} (hidle : u.pending = none) (hopen : u.receiver.stopped = false)
    {a : Arrival} {rest : List Arrival} (hscript : u.script = a :: rest)
    (hother : a.matters u.receiver.peer = false) : u.Step [] { u with script := rest } := by
  have hlisten := Step.listen hidle hopen hscript
  rw [Receiver.take_of_not_matters hother, Option.bind_none, ← hidle] at hlisten
  exact hlisten

theorem run_skip {u : Tandem α σ} (hidle : u.pending = none) (hopen : u.receiver.stopped = false)
    {skipped rest : List Arrival} (hscript : u.script = skipped ++ rest)
    (hskipped : ∀ a ∈ skipped, a.matters u.receiver.peer = false) :
    u.Run [] { u with script := rest } := by
  induction skipped generalizing u with
  | nil =>
    obtain rfl : u.script = rest := hscript
    exact .start
  | cons a skipped ih =>
    have hfirst := Step.pass hidle hopen hscript (hskipped a List.mem_cons_self)
    exact (Run.one hfirst).trans
      (ih (u := { u with script := skipped ++ rest }) hidle hopen rfl
        fun b hb => hskipped b (List.mem_cons_of_mem _ hb))

theorem Step.alike {u : Tandem α σ} (h : t.Step rounds t') (halike : t.Alike u) :
    ∃ u', u.Run rounds u' ∧ t'.Alike u' := by
  obtain ⟨receiver, script, pending, channel, course⟩ := u
  obtain ⟨rfl, rfl, rfl, rfl, hscript⟩ := halike
  dsimp only at hscript
  cases h with
  | @listen a rest idle opened next =>
    rw [next] at hscript
    have hpeer : (t.receiver.take a).2.peer = t.receiver.peer := by
      rw [(Receiver.take_of_open opened a).2]
    by_cases hmatters : a.matters t.receiver.peer = true
    · rw [List.filter_cons_of_pos hmatters] at hscript
      obtain ⟨skipped, later, rfl, hskipped, -, hlater⟩ := List.filter_eq_cons_iff.1 hscript
      have hskip := run_skip (u := { t with script := skipped ++ a :: later }) idle opened rfl
        (by simpa using hskipped)
      have hstep := Step.listen (t := { t with script := a :: later }) idle opened rfl
      exact ⟨_, hskip.trans (.one hstep), rfl, rfl, rfl, rfl, hpeer ▸ hlater⟩
    · rw [List.filter_cons_of_neg hmatters] at hscript
      have hnothing := Receiver.take_of_not_matters (Bool.eq_false_of_not_eq_true hmatters)
      rw [hnothing]
      exact ⟨_, .start, rfl, idle, rfl, rfl, hscript⟩
  | deposit waiting room =>
    exact ⟨_, .one (.deposit (t := { t with script }) waiting room), rfl, rfl, rfl, rfl, hscript⟩
  | handle running next now reading =>
    have hstep := Step.handle (t := { t with script }) running next now reading
    exact ⟨_, .one hstep, rfl, rfl, rfl, rfl, hscript⟩
  | report running idle empty stopped now reading =>
    have hstep := Step.report (t := { t with script }) running idle empty stopped now reading
    exact ⟨_, .one hstep, rfl, rfl, rfl, rfl, hscript⟩
  | serve running other =>
    have hstep := Step.serve (t := { t with script }) running other
    exact ⟨_, .one hstep, rfl, rfl, rfl, rfl, hscript⟩

theorem Run.alike {t₀ u₀ : Tandem α σ} (h : t₀.Run schedule t) (halike : t₀.Alike u₀) :
    ∃ u, u₀.Run schedule u ∧ t.Alike u := by
  induction h with
  | start => exact ⟨u₀, .start, halike⟩
  | step _ next ih =>
    obtain ⟨u, hrun, hu⟩ := ih
    obtain ⟨u', hrun', hu'⟩ := next.alike hu
    exact ⟨u', hrun.trans hrun', hu'⟩

/-- The worker gets to the same point whichever of two scripts the socket follows. -/
theorem Run.exists_run_of_filter {other : List Arrival}
    (h : (fresh peer size script c₀).Run schedule t)
    (hother : other.filter (Arrival.matters peer) = script.filter (Arrival.matters peer)) :
    ∃ t', (fresh peer size other c₀).Run schedule t' ∧ t'.course = t.course ∧
      t'.channel = t.channel ∧ t'.pending = t.pending := by
  have halike : (fresh peer size script c₀).Alike (fresh peer size other c₀) :=
    ⟨rfl, rfl, rfl, rfl, hother⟩
  obtain ⟨u, hrun, hu⟩ := h.alike halike
  exact ⟨u, hrun, hu.course, hu.channel, hu.pending⟩

end Tandem

/-! ## Simulated time -/

theorem Receiver.take_cases (r : Receiver) (a : Arrival) :
    r.take a = (some .ended, { r with stopped := true }) ∨
      (∃ content, r.take a = (some (.datagram content), r)) ∨ r.take a = (none, r) := by
  unfold Receiver.take
  split
  · exact .inr (.inr rfl)
  · cases a with
    | datagram sender content =>
      by_cases hsender : sender = r.peer
      · exact .inr (.inl ⟨content.take r.bufferSize, by simp [hsender]⟩)
      · exact .inr (.inr (by simp [hsender]))
    | failure kind => cases hkind : kind.isTransient <;> simp [hkind]

namespace Simulation

variable {α σ : Type} {s : Simulation α σ} {t : Tandem α σ} {c : Course α σ}
  {rest : List Arrival}

/-- A tunnel in simulated time goes along with a tandem in which nothing waits, until the worker
stops. -/
structure Accompanies (s : Simulation α σ) (t : Tandem α σ) (rest : List Arrival) : Prop where
  follows : s.Follows t.course
  settled : s.isRunning = true → s.receiver = t.receiver ∧ t.receiver.stopped = false ∧
    t.pending = none ∧ t.channel = [] ∧ t.script = rest

theorem Follows.withReceiver (h : s.Follows c) {r : Receiver} (hpeer : r.peer = s.receiver.peer) :
    ({ s with receiver := r } : Simulation α σ).Follows c :=
  ⟨h.worker, h.crash, hpeer.trans h.peer, h.mailbox, h.wire⟩

/-- Once the worker has stopped, there is nothing more to it. -/
theorem Accompanies.of_stopped (h : s.Follows t.course) (hstopped : t.course.isRunning = false) :
    s.Accompanies t rest :=
  ⟨h, fun hon => nomatch (h.isRunning.trans hstopped).symm.trans hon⟩

section Launch

variable [Mul α] [Seconds α] {setup : Setup σ}

theorem launch_receiver (h : launch setup = .ok s) :
    s.receiver = { peer := setup.peer, bufferSize := setup.settings.recvBufferSize } := by
  unfold launch at h
  split at h
  · cases h
  · obtain ⟨e₀, -, hrest⟩ := bind_eq_ok h
    obtain ⟨e, -, hpair⟩ := bind_eq_ok hrest
    obtain rfl := Except.ok.inj hpair
    dsimp only
    split <;> rfl

/-- A tunnel in simulated time that has been set up goes along with a receiver that has heard
nothing. -/
theorem launch_accompanies (h : launch setup = .ok s) (results : Nat → Except SocketError Unit)
    (script : List Arrival) :
    ∃ (e₀ : Endpoint α σ) (c₀ : Course α σ),
      Endpoint.create setup.settings setup.token setup.transform setup.secret
          setup.nonces = .ok e₀ ∧
        Course.begin e₀ 0 0 setup.peer results = .ok c₀ ∧
        s.Accompanies (.fresh setup.peer setup.settings.recvBufferSize script c₀) script := by
  obtain ⟨e₀, c₀, hcreate, hbegin, hfollows⟩ := launch_follows h results
  exact ⟨e₀, c₀, hcreate, hbegin, hfollows, fun _ => ⟨launch_receiver h, rfl, rfl, rfl, rfl⟩⟩

end Launch

variable [Add α] [Sub α] [Mul α] [Seconds α]

theorem stimulate_receiver (s : Simulation α σ) (stimulus : Stimulus) :
    (s.stimulate stimulus).2.receiver = s.receiver := by
  unfold stimulate
  split
  · split <;> rfl
  · rfl

/-- Whatever arrives, a worker that has stopped does not go on. -/
theorem Follows.arrive_of_stopped (h : s.Follows c) (hstopped : c.isRunning = false)
    (a : Arrival) : (s.arrive a).Follows c := by
  have hstill : ∀ (r : Receiver) (stimulus : Stimulus), r.peer = s.receiver.peer →
      ({ s with receiver := r }.stimulate stimulus).2.Follows c := fun r stimulus hpeer => by
    have hround := (h.withReceiver hpeer).stimulate stimulus
    rwa [Course.round_of_stopped hstopped] at hround
  unfold Simulation.arrive
  rcases s.receiver.take_cases a with htake | ⟨content, htake⟩ | htake <;> rw [htake]
  · exact hstill _ _ rfl
  · exact hstill _ _ rfl
  · exact h

/-- An arrival is looked at, put into the channel and taken from it in one go. -/
theorem Accompanies.arrive {a : Arrival} (h : s.Accompanies t (a :: rest)) :
    ∃ rounds t', t.Run rounds t' ∧ (s.arrive a).Accompanies t' rest := by
  cases hrunning : t.course.isRunning with
  | false => exact ⟨[], t, .start, .of_stopped (h.follows.arrive_of_stopped hrunning a) hrunning⟩
  | true =>
    obtain ⟨hreceiver, hopen, hidle, hempty, hscript⟩ :=
      h.settled (h.follows.isRunning.trans hrunning)
    have hlisten := Tandem.Step.listen hidle hopen hscript
    have hpeer : t.receiver.peer = s.receiver.peer := congrArg Receiver.peer hreceiver.symm
    unfold Simulation.arrive
    rw [hreceiver]
    rcases t.receiver.take_cases a with htake | ⟨content, htake⟩ | htake <;>
      rw [htake] at hlisten ⊢
    · -- the receiver stops, and the worker learns of it at once
      have hreport := Tandem.Step.report (t := { t with
        receiver := { t.receiver with stopped := true }, script := rest, pending := none })
        hrunning rfl hempty rfl s.now s.reading
      have hfollows := (h.follows.withReceiver (r := { t.receiver with stopped := true })
        hpeer).stimulate .receiveEnded
      exact ⟨_, _, (Tandem.Run.one hlisten).step hreport,
        .of_stopped hfollows (isRunning_receiveEnded rfl)⟩
    · have hdeposit := Tandem.Step.deposit
        (t := { t with script := rest, pending := some content }) rfl
        (by simp [hempty, channelCapacity])
      have hnext : t.channel ++ [content] = [content] := by rw [hempty, List.nil_append]
      have hhandle := Tandem.Step.handle
        (t := { t with script := rest, pending := none, channel := t.channel ++ [content] })
        hrunning hnext s.now s.reading
      have hfollows := (h.follows.withReceiver hpeer).stimulate (.datagram content)
      exact ⟨_, _, ((Tandem.Run.one hlisten).step hdeposit).step hhandle, hfollows,
        fun _ => ⟨stimulate_receiver _ _, hopen, rfl, rfl, rfl⟩⟩
    · exact ⟨_, _, .one hlisten, h.follows.withReceiver hpeer,
        fun _ => ⟨rfl, hopen, rfl, hempty, rfl⟩⟩

theorem Accompanies.arriveAll {arrivals : List Arrival} (h : s.Accompanies t (arrivals ++ rest)) :
    ∃ rounds t', t.Run rounds t' ∧ (s.arriveAll arrivals).Accompanies t' rest := by
  induction arrivals generalizing s t with
  | nil => exact ⟨[], t, .start, h⟩
  | cons a arrivals ih =>
    obtain ⟨first, t₁, hfirst, h₁⟩ := h.arrive
    obtain ⟨others, t', hothers, h'⟩ := ih h₁
    exact ⟨first ++ others, t', hfirst.trans hothers, h'⟩

/-- A tick, or something that the application wants, is served. -/
theorem Accompanies.stimulate (h : s.Accompanies t rest) {stimulus : Stimulus}
    (hother : stimulus.isInput = false) :
    ∃ rounds t', t.Run rounds t' ∧ (s.stimulate stimulus).2.Accompanies t' rest := by
  have hfollows := h.follows.stimulate stimulus
  cases hrunning : t.course.isRunning with
  | false =>
    rw [Course.round_of_stopped hrunning] at hfollows
    exact ⟨[], t, .start, .of_stopped hfollows hrunning⟩
  | true =>
    obtain ⟨hreceiver, hsettled⟩ := h.settled (h.follows.isRunning.trans hrunning)
    have hserve := Tandem.Step.serve (t := t) (r := ⟨stimulus, s.now, s.reading⟩) hrunning hother
    exact ⟨_, _, .one hserve, hfollows,
      fun _ => ⟨(stimulate_receiver _ _).trans hreceiver, hsettled⟩⟩

end Simulation

/-! ## The whole -/

/-- Nothing is cut off a datagram for which there is room. -/
theorem map_cut_of_fits {size : Nat} {script : List Arrival}
    (h : ∀ sender content, .datagram sender content ∈ script → content.length ≤ size) :
    script.map (Arrival.cut size) = script := by
  have hsame : ∀ a ∈ script, a.cut size = id a := fun a ha => by
    cases a with
    | datagram sender content => rw [Arrival.cut, List.take_of_length_le (h sender content ha), id]
    | failure kind => rfl
  rw [List.map_congr_left hsame, List.map_id]

namespace Tandem

variable {α σ : Type} [Add α] [Sub α] [Mul α] [Seconds α]

/-- What the calls on an endpoint have to do with what the socket returns, after any steps of a
receiver and a worker. -/
structure Conveyed (peer : Address) (size : Nat) (script : List Arrival) (c₀ : Course α σ)
    (reading : Nat) (schedule : List Round) (t : Tandem α σ) (ops : List Operation) : Prop where
  /-- The worker goes through its rounds as if it were alone, and makes their calls. -/
  course : t.course = c₀.play schedule
  calls : (ops.filter fun op => !op.isPoll) =
    .connect reading :: (t.course.rounds.map Prod.fst).filterMap Round.operation?
  /-- It hands on each datagram that it is given, unless it dies of one. -/
  handed : ∃ lost : Option Bytes,
    contents schedule = ops.filterMap Operation.received? ++ lost.toList ∧
      (t.course.crash = none → lost = none)
  /-- It is given what there is to hear, in order and from the first on. -/
  given : contents schedule <+: heard peer (script.map (Arrival.cut size))
  /-- Datagrams for which there is room are passed on as they are. -/
  whole : (∀ sender content, .datagram sender content ∈ script → content.length ≤ size) →
    script.map (Arrival.cut size) = script
  /-- Of what the receiver has looked at, nothing is lost: the rest is on its way. -/
  underway : ∃ looked, script = looked ++ t.script ∧
    heard peer (looked.map (Arrival.cut size)) = contents schedule ++ t.channel ++ t.pending.toList
  /-- Once nothing is on its way any more, the worker has been given everything, -/
  complete : t.IsDrained → contents schedule = heard peer (script.map (Arrival.cut size))
  /-- and while it runs, this can always be brought about. -/
  drains : t.course.isRunning = true → ∃ more t', t.Run more t' ∧
    (∀ r ∈ more, r.stimulus.content?.isSome = true) ∧
      (t'.IsDrained ∨ t'.course.isRunning = false)
  /-- The endpoint is told that the socket is closed once and last: after a lasting error, and after
  all that the peer sent before that. -/
  closed : .socketClosed ∈ ops → ∃ earlier polls before kind,
    ops = earlier ++ .socketClosed :: polls ∧ .socketClosed ∉ earlier ∧
      (∀ op ∈ polls, op.isPoll = true) ∧
      script = before ++ .failure kind :: t.script ∧ kind.isTransient = false ∧
      (∀ a ∈ before, a.isFatal = false) ∧
      earlier.filterMap Operation.received? =
        (before.map (Arrival.cut size)).filterMap (Arrival.content? peer)
  /-- Datagrams of others and passing errors make no difference, wherever they come. -/
  unaffected : ∀ other,
    other.filter (Arrival.matters peer) = script.filter (Arrival.matters peer) →
      heard peer (other.map (Arrival.cut size)) = heard peer (script.map (Arrival.cut size)) ∧
      ∃ t', (fresh peer size other c₀).Run schedule t' ∧ t'.course = t.course ∧
        t'.channel = t.channel ∧ t'.pending = t.pending
  /-- A tunnel in simulated time takes such steps, whatever arrives -/
  arrives : ∀ (s : Simulation α σ) arrivals rest, s.Accompanies t (arrivals ++ rest) →
    ∃ more t', t.Run more t' ∧ (s.arriveAll arrivals).Accompanies t' rest
  /-- and whatever else happens. -/
  serves : ∀ (s : Simulation α σ) rest stimulus, s.Accompanies t rest → stimulus.isInput = false →
    ∃ more t', t.Run more t' ∧ (s.stimulate stimulus).2.Accompanies t' rest

/-- However receiver and worker take turns, the endpoint is given exactly what the peer sent before
the first lasting error, and learns of the error when it has been given all of that. -/
theorem conveys {settings : Settings} {token : Bytes} {transform : Transform σ} {secret : σ}
    {nonces : Nat → Wire.Nonce} {e₀ : Endpoint α σ}
    (hcreate : Endpoint.create settings token transform secret nonces = .ok e₀)
    (now reading : Nat) (peer : Address) (results : Nat → Except SocketError Unit) :
    ∃ c₀, Course.begin e₀ now reading peer results = .ok c₀ ∧
      ∀ (script : List Arrival) (schedule : List Round) (t : Tandem α σ),
        (fresh peer settings.recvBufferSize script c₀).Run schedule t →
        ∃ ops answers, e₀.performAll ops = .ok (answers, t.course.worker.endpoint) ∧
          t.Conveyed peer settings.recvBufferSize script c₀ reading schedule ops := by
  have hphase := (Endpoint.create_new hcreate).phase_eq
  obtain ⟨e₁, hconnect, hbegin⟩ := Course.exists_begin hphase now reading peer results
  have hopened := Course.Faithful.opened hconnect now peer results
  have hstart : ((Course.opened e₁ now peer results).arm now).rounds = [] := Course.arm_rounds _ now
  refine ⟨_, hbegin, fun script schedule t hrun => ?_⟩
  have haccounts := accounts_run hstart hrun
  obtain ⟨datagrams, hserved, -⟩ := (haccounts.course ▸ (hopened.arm now).play schedule).served
  obtain ⟨ops, answers, hperform, -, -, hcalls⟩ := hserved.exists_run
  have hrounds : (t.course.rounds.map Prod.fst).filterMap Round.operation? =
      t.course.rounds.filterMap fun done => done.1.operation? := List.filterMap_map
  rw [← hrounds] at hcalls
  obtain ⟨looked, hscript, -, hheard⟩ := haccounts.arrived
  exact ⟨ops, answers, hperform, {
    course := haccounts.course
    calls := hcalls
    handed := haccounts.handed hcalls
    given := haccounts.given
    whole := map_cut_of_fits
    underway := ⟨looked, hscript, hheard⟩
    complete := haccounts.complete
    drains := exists_drain
    closed := haccounts.closed hcalls
    unaffected := fun other hother => ⟨heard_congr _ hother, hrun.exists_run_of_filter hother⟩
    arrives := fun s arrivals rest h => h.arriveAll
    serves := fun s rest stimulus h hother => h.stimulate hother }⟩

/-- A stranger's datagram and a refused call are passed over, the peer's HELLO comes through, and a
command is obeyed before the socket fails for good.  What the peer sends after that is not read. -/
theorem conveys_until_failure :
    let peer : Address := ⟨"peer", 9⟩
    let hello := (Wire.Frame.hello [7]).encode
    let script : List Arrival := [.datagram ⟨"stranger", 9⟩ hello, .failure .connectionRefused,
      .datagram peer hello, .failure (.lasting "NotConnected"), .datagram peer [1]]
    let schedule : List Round := [⟨.datagram hello, 5, 5⟩, ⟨.command (.send [1]), 6, 6⟩,
      ⟨.receiveEnded, 7, 7⟩]
    ∃ nonces e₀ c₀ t ops answers, Endpoint.create (α := Rat) {} [7] .plain () nonces = .ok e₀ ∧
      Course.begin e₀ 0 0 peer (fun _ => .ok ()) = .ok c₀ ∧
      (fresh peer 65535 script c₀).Run schedule t ∧ t.script = [.datagram peer [1]] ∧
      t.course.events = [.up, .down .socketClosed] ∧
      e₀.performAll ops = .ok (answers, t.course.worker.endpoint) ∧
      ops.filterMap Operation.received? = [hello] ∧ .socketClosed ∈ ops ∧
      t.Conveyed peer 65535 script c₀ 0 schedule ops := by
  intro peer hello script schedule
  obtain ⟨nonces, e₀, c₀, hcreate, hbegin, hend⟩ := Course.exists_of_trial
    (p := fun c => c.isRunning && (c.play (schedule.take 1)).isRunning &&
      (c.play (schedule.take 2)).isRunning && (c.play schedule).crash == none &&
      (c.play schedule).rounds.map Prod.fst == schedule &&
      (c.play schedule).events == [.up, .down .socketClosed])
    (show (Course.trial {} [7] peer (fun _ => .ok ()) []).any _ = true by decide +kernel)
  simp only [Bool.and_eq_true, beq_iff_eq] at hend
  obtain ⟨⟨⟨⟨⟨hfirst, hsecond⟩, hthird⟩, hcrash⟩, hrounds⟩, hevents⟩ := hend
  have htake : (Receiver.take { peer, bufferSize := 65535 } (.datagram peer hello)).1.bind
      Intake.content? = some hello := by decide +kernel
  -- the receiver passes over two of what the socket returns and looks at the third
  have hskip : (fresh peer 65535 script c₀).Run [] (fresh peer 65535 (script.drop 2) c₀) :=
    (Run.one (.pass rfl rfl rfl rfl)).step (.pass rfl rfl rfl rfl)
  have hlook := Step.listen (t := fresh peer 65535 (script.drop 2) c₀)
    (a := .datagram peer hello) rfl rfl rfl
  have hlisten : (fresh peer 65535 script c₀).Run []
      { fresh peer 65535 (script.drop 3) c₀ with pending := some hello } :=
    hskip.step (htake ▸ hlook)
  have hserve : (fresh peer 65535 script c₀).Run (schedule.take 2)
      (fresh peer 65535 (script.drop 3) (c₀.play (schedule.take 2))) :=
    ((hlisten.step (.deposit rfl (Nat.zero_lt_succ _))).step (.handle hfirst rfl 5 5)).step
      (.serve hsecond rfl)
  have hrun : (fresh peer 65535 script c₀).Run schedule
      { fresh peer 65535 (script.drop 4) (c₀.play schedule) with
        receiver := { peer, bufferSize := 65535, stopped := true } } :=
    (hserve.step (.listen rfl rfl rfl)).step (.report hthird rfl rfl rfl 7 7)
  obtain ⟨c₁, hbegin', hall⟩ := conveys hcreate 0 0 peer fun _ => .ok ()
  obtain rfl := Except.ok.inj (hbegin.symm.trans hbegin')
  obtain ⟨ops, answers, hperform, hconveyed⟩ := hall script schedule _ hrun
  obtain ⟨lost, hhanded, hnone⟩ := hconveyed.handed
  have hclosed : .socketClosed ∈ ops.filter fun op => !op.isPoll := by
    rw [hconveyed.calls, hconveyed.course,
      show (c₀.play schedule).rounds.map Prod.fst = schedule from hrounds]
    decide
  refine ⟨nonces, e₀, c₀, _, ops, answers, hcreate, hbegin, hrun, rfl, hevents, hperform, ?_,
    (List.mem_filter.1 hclosed).1, hconveyed⟩
  rw [hnone hcrash, Option.toList_none, List.append_nil] at hhanded
  exact hhanded.symm

end Tandem

end Tunnel

end DatagramTunnel
