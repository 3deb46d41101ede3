import DatagramTunnel.Proofs.Tunnel.Course
import Mathlib.Data.List.TakeWhile

/-!
# Receiver and worker side by side

The receiver looks at what the socket returns, one thing at a time, and puts the datagrams of the
peer into a channel; while there is no room it waits and looks at nothing.  The worker takes from
the channel when it likes, between ticks and commands, and finds it ended only when nothing is left
in it.  `Tandem.Step` lists the ways in which the two go on, and a `Tandem.Run` is any interleaving
of them.

`heard` reads off a script of what the socket returns which datagrams the worker has to see.
`Accounts` is the invariant: these are the ones that the worker has been given, then those in the
channel, then the one for which there has been no room.  `exists_drain` says that nothing gets
stuck on the way.
-/

namespace DatagramTunnel.Tunnel

open Flight Session

/-! ## Scripts -/

namespace Arrival

/-- Whether nothing is received after it. -/
def isFatal : Arrival → Bool
  | .datagram _ _ => false
  | .failure kind => !kind.isTransient

/-- What the peer sent, if it was the peer. -/
def content? (peer : Address) : Arrival → Option Bytes
  | .datagram sender content => if sender = peer then some content else none
  | .failure _ => none

/-- What a receive call returns that has room for so many bytes. -/
def cut (size : Nat) : Arrival → Arrival
  | .datagram sender content => .datagram sender (content.take size)
  | .failure kind => .failure kind

@[simp] theorem isFatal_cut (size : Nat) (a : Arrival) : (a.cut size).isFatal = a.isFatal := by
  cases a <;> rfl

theorem content?_of_isFatal {a : Arrival} (h : a.isFatal = true) (peer : Address) :
    a.content? peer = none := by
  cases a with
  | datagram _ _ => cases h
  | failure _ => rfl

end Arrival

/-- The datagrams of the peer up to the first lasting error, in the order of the script. -/
def heard (peer : Address) (script : List Arrival) : List Bytes :=
  (script.takeWhile fun a => !a.isFatal).filterMap (Arrival.content? peer)

section Heard

variable {peer : Address} {arrived : List Arrival}

theorem heard_eq (h : ∀ a ∈ arrived, a.isFatal = false) :
    heard peer arrived = arrived.filterMap (Arrival.content? peer) := by
  rw [heard, List.takeWhile_eq_self_iff.2 (by simpa using h)]

theorem heard_append (h : ∀ a ∈ arrived, a.isFatal = false) (rest : List Arrival) :
    heard peer (arrived ++ rest) = heard peer arrived ++ heard peer rest := by
  rw [heard_eq h, heard, List.takeWhile_append_of_pos (by simpa using h), List.filterMap_append]
  rfl

/-- Nothing is heard after a lasting error. -/
theorem heard_fatal {a : Arrival} (h : a.isFatal = true) (rest : List Arrival) :
    heard peer (a :: rest) = [] := by
  simp [heard, h]

theorem heard_singleton (peer : Address) (a : Arrival) :
    heard peer [a] = (a.content? peer).toList := by
  cases a with
  | datagram sender content =>
    by_cases h : sender = peer <;> simp [heard, Arrival.isFatal, Arrival.content?, h]
  | failure kind => cases hkind : kind.isTransient <;> simp [heard, Arrival.isFatal,
      Arrival.content?, hkind]

end Heard

/-! ## What is passed on -/

/-- The datagram that is passed on. -/
def Intake.content? : Intake → Option Bytes
  | .datagram content => some content
  | .ended => none

/-- A receiver that has not stopped passes on what the peer sent, and stops at a lasting error. -/
theorem Receiver.take_of_open {r : Receiver} (h : r.stopped = false) (a : Arrival) :
    (r.take a).1.bind Intake.content? = (a.cut r.bufferSize).content? r.peer ∧
      (r.take a).2 = { r with stopped := a.isFatal } := by
  obtain ⟨peer, size, stopped⟩ := r
  obtain rfl : stopped = false := h
  cases a with
  | datagram sender content =>
    by_cases hpeer : sender = peer <;>
      simp [Receiver.take, Arrival.cut, Arrival.content?, Arrival.isFatal, Intake.content?, hpeer]
  | failure kind =>
    cases hkind : kind.isTransient <;>
      simp [Receiver.take, Arrival.cut, Arrival.content?, Arrival.isFatal, Intake.content?, hkind]

/-- Whether the stimulus comes from the receiver. -/
def Stimulus.isInput : Stimulus → Bool
  | .datagram _ | .receiveEnded => true
  | _ => false

/-- The datagram that the worker is given. -/
def Stimulus.content? : Stimulus → Option Bytes
  | .datagram content => some content
  | _ => none

/-- The datagrams that the worker is given in these rounds. -/
def contents (schedule : List Round) : List Bytes :=
  schedule.filterMap fun r => r.stimulus.content?

theorem contents_append (first second : List Round) :
    contents (first ++ second) = contents first ++ contents second :=
  List.filterMap_append

theorem contents_singleton (r : Round) : contents [r] = r.stimulus.content?.toList := by
  cases hcontent : r.stimulus.content? <;> simp [contents, hcontent]

/-! ## Receiver and worker -/

/-- How many datagrams the channel holds at most. -/
def channelCapacity : Nat := 1024

/-- A receiver and a worker with the channel between them. -/
structure Tandem (α σ : Type) where
  receiver : Receiver
  /-- What the socket has yet to return. -/
  script : List Arrival
  /-- The datagram for which the receiver waits to find room in the channel. -/
  pending : Option Bytes := none
  /-- The datagrams that the worker has not taken, oldest first. -/
  channel : List Bytes := []
  course : Course α σ

namespace Tandem

variable {α σ : Type}

/-- A receiver that has heard nothing, beside a worker. -/
def fresh (peer : Address) (size : Nat) (script : List Arrival) (c : Course α σ) : Tandem α σ where
  receiver := { peer, bufferSize := size }
  script := script
  course := c

/-- Whether all that will be heard has reached the worker. -/
def IsDrained (t : Tandem α σ) : Prop :=
  t.pending = none ∧ t.channel = [] ∧ (t.receiver.stopped = true ∨ t.script = [])

variable [Add α] [Sub α] [Mul α] [Seconds α]

/-- The worker goes through a round. -/
def round (t : Tandem α σ) (r : Round) : Tandem α σ := { t with course := t.course.round r }

/-- One step of the receiver or of the worker, with the round if it is one. -/
inductive Step : Tandem α σ → List Round → Tandem α σ → Prop
  /-- The receiver looks at what the socket returns. -/
  | listen {t : Tandem α σ} {a : Arrival} {rest : List Arrival} (idle : t.pending = none)
    (opened : t.receiver.stopped = false) (next : t.script = a :: rest) :
    Step t [] { t with
      receiver := (t.receiver.take a).2
      script := rest
      pending := (t.receiver.take a).1.bind Intake.content? }
  /-- There is room in the channel. -/
  | deposit {t : Tandem α σ} {content : Bytes} (waiting : t.pending = some content)
    (room : t.channel.length < channelCapacity) :
    Step t [] { t with pending := none, channel := t.channel ++ [content] }
  /-- The worker takes a datagram from the channel. -/
  | handle {t : Tandem α σ} {content : Bytes} {rest : List Bytes}
    (running : t.course.isRunning = true) (next : t.channel = content :: rest)
    (now reading : Nat) :
    Step t [⟨.datagram content, now, reading⟩]
      ({ t with channel := rest }.round ⟨.datagram content, now, reading⟩)
  /-- The worker finds the channel ended: the receiver has stopped, and nothing is left. -/
  | report {t : Tandem α σ} (running : t.course.isRunning = true) (idle : t.pending = none)
    (empty : t.channel = []) (stopped : t.receiver.stopped = true) (now reading : Nat) :
    Step t [⟨.receiveEnded, now, reading⟩] (t.round ⟨.receiveEnded, now, reading⟩)
  /-- The timer fires, or the application wants something. -/
  | serve {t : Tandem α σ} {r : Round} (running : t.course.isRunning = true)
    (other : r.stimulus.isInput = false) : Step t [r] (t.round r)

/-- Steps one after the other, with all the rounds. -/
inductive Run (t₀ : Tandem α σ) : List Round → Tandem α σ → Prop
  | start : Run t₀ [] t₀
  | step {schedule rounds : List Round} {t t' : Tandem α σ} (before : Run t₀ schedule t)
    (next : Step t rounds t') : Run t₀ (schedule ++ rounds) t'

namespace Run

variable {t₀ t t' : Tandem α σ} {schedule rounds : List Round}

theorem one (h : Step t rounds t') : t.Run rounds t' := .step .start h

theorem trans (first : t₀.Run schedule t) (second : t.Run rounds t') :
    t₀.Run (schedule ++ rounds) t' := by
  induction second with
  | start => rwa [List.append_nil]
  | step _ next ih =>
    rw [← List.append_assoc]
    exact ih.step next

end Run

end Tandem

/-! ## Rounds -/

section Rounds

variable {α σ : Type}

theorem isTerminal_socketClosed (e : Endpoint α σ) : e.socketClosed.phase.isTerminal = true := by
  unfold Endpoint.socketClosed
  cases hphase : e.phase with
  | connecting => simp [Endpoint.fail, hphase, Endpoint.finish, Phase.isTerminal]
  | established => simp [Endpoint.goDown, hphase, Endpoint.finish, Phase.isTerminal]
  | closing => simp [hphase, Phase.isTerminal]
  | closed => simp [hphase, Phase.isTerminal]

/-- A connection that has ended is closed once its queues have been emptied. -/
theorem flushed_phase_eq_closed {e : Endpoint α σ} (h : e.phase.isTerminal = true) :
    e.flushed.phase = .closed := by
  rw [Endpoint.flushed_eq]
  cases hphase : e.phase <;> simp_all [Phase.isTerminal]

variable [Add α] [Sub α] [Mul α] [Seconds α] {c : Course α σ} {r : Round}

/-- A round is the last of those that are over, unless the worker dies of it. -/
theorem rounds_round (hrunning : c.isRunning = true) :
    ∃ last : Option Round,
      c.rounds.map Prod.fst ++ [r] = (c.round r).rounds.map Prod.fst ++ last.toList ∧
        ((c.round r).crash = none → last = none) := by
  rcases c.round_cases r with ⟨hstopped, -⟩ | ⟨-, cause, -, hcrash⟩ | ⟨-, effects, worker, -, hnext⟩
  · cases hstopped.symm.trans hrunning
  · rw [hcrash]
    exact ⟨some r, rfl, nofun⟩
  · rw [hnext]
    exact ⟨none, by simp [Course.handOver], fun _ => rfl⟩

/-- A worker that is told that nothing will come any more stops. -/
theorem isRunning_receiveEnded (hended : r.stimulus = .receiveEnded) :
    (c.round r).isRunning = false := by
  rcases c.round_cases r with
    ⟨hstopped, hsame⟩ | ⟨-, cause, -, hcrash⟩ | ⟨-, effects, worker, hstep, hnext⟩
  · rwa [hsame]
  · rw [hcrash]
    rfl
  · obtain ⟨e', hrespond, -, -, -, hendpoint, -⟩ := Worker.step_eq_ok hstep
    have hoperation : r.operation? = some .socketClosed := by rw [Round.operation?, hended]
    have hclosed : worker.endpoint.phase = .closed := by
      rcases respond_cases hrespond with ⟨op, answer, hop, hperform, -⟩ | ⟨hop, -⟩
      · obtain rfl := Option.some.inj (hoperation.symm.trans hop)
        obtain ⟨-, rfl⟩ := Prod.mk.inj (Except.ok.inj hperform)
        rw [hendpoint]
        exact flushed_phase_eq_closed (isTerminal_socketClosed _)
      · cases hoperation.symm.trans hop
    rw [hnext]
    simp [Course.handOver, Course.isRunning, Worker.isRunning, hclosed]

end Rounds

/-! ## The invariant -/

/-- What a receiver has looked at: nothing but a last error has stopped it. -/
inductive Looked : Bool → List Arrival → Prop
  | going {arrived : List Arrival} (passing : ∀ a ∈ arrived, a.isFatal = false) :
    Looked false arrived
  | failed {arrived : List Arrival} {last : Arrival} (passing : ∀ a ∈ arrived, a.isFatal = false)
    (fatal : last.isFatal = true) : Looked true (arrived ++ [last])

namespace Looked

variable {arrived : List Arrival}

theorem passing (h : Looked false arrived) : ∀ a ∈ arrived, a.isFatal = false := by
  cases h with
  | going passing => exact passing

theorem next (h : Looked false arrived) (a : Arrival) : Looked a.isFatal (arrived ++ [a]) := by
  cases hfatal : a.isFatal with
  | false =>
    refine .going fun b hb => ?_
    rcases List.mem_append.1 hb with hold | hnew
    · exact h.passing b hold
    · rwa [List.mem_singleton.1 hnew]
  | true => exact .failed h.passing hfatal

/-- What comes after a receiver has stopped is not heard. -/
theorem heard_append {stopped : Bool} (h : Looked stopped arrived) (peer : Address) (size : Nat)
    (rest : List Arrival) :
    heard peer ((arrived ++ rest).map (Arrival.cut size)) =
      heard peer (arrived.map (Arrival.cut size)) ++
        if stopped then [] else heard peer (rest.map (Arrival.cut size)) := by
  cases h with
  | going passing =>
    rw [List.map_append, Tunnel.heard_append (by simpa using passing), if_neg Bool.false_ne_true]
  | @failed before last passing fatal =>
    have hover : ∀ others, heard peer (last.cut size :: others) = [] :=
      heard_fatal ((Arrival.isFatal_cut size last).trans fatal)
    have hopen : ∀ a ∈ before.map (Arrival.cut size), a.isFatal = false := by simpa using passing
    simp [Tunnel.heard_append hopen, hover]

end Looked

namespace Tandem

variable {α σ : Type} [Add α] [Sub α] [Mul α] [Seconds α] {peer : Address} {size : Nat}
  {script : List Arrival} {c₀ : Course α σ} {schedule rounds : List Round} {t t' : Tandem α σ}

/-- What has become of a script in these rounds. -/
structure Accounts (peer : Address) (size : Nat) (script : List Arrival) (c₀ : Course α σ)
    (schedule : List Round) (t : Tandem α σ) : Prop where
  peer_eq : t.receiver.peer = peer
  size_eq : t.receiver.bufferSize = size
  course : t.course = c₀.play schedule
  finished : ∃ last : Option Round, schedule = t.course.rounds.map Prod.fst ++ last.toList ∧
    (t.course.crash = none → last = none)
  arrived : ∃ arrived, script = arrived ++ t.script ∧ Looked t.receiver.stopped arrived ∧
    heard peer (arrived.map (Arrival.cut size)) = contents schedule ++ t.channel ++ t.pending.toList
  idle : t.receiver.stopped = true → t.pending = none
  ended : ∀ r ∈ schedule, r.stimulus = .receiveEnded →
    t.course.isRunning = false ∧ t.receiver.stopped = true ∧ t.channel = [] ∧
      ∃ earlier, schedule = earlier ++ [r] ∧ ∀ r ∈ earlier, r.stimulus ≠ .receiveEnded

namespace Accounts

/-- The worker goes through a round, and may take a datagram from the channel. -/
theorem round (h : Accounts peer size script c₀ schedule t) (hrunning : t.course.isRunning = true)
    {r : Round} {channel : List Bytes}
    (hchannel : t.channel = r.stimulus.content?.toList ++ channel)
    (hended : r.stimulus = .receiveEnded → t.receiver.stopped = true ∧ channel = []) :
    Accounts peer size script c₀ (schedule ++ [r]) ({ t with channel := channel }.round r) := by
  obtain ⟨arrived, hscript, hlooked, hheard⟩ := h.arrived
  have hbefore : ∀ other ∈ schedule, other.stimulus ≠ .receiveEnded := fun other hmem hend => by
    rw [(h.ended other hmem hend).1] at hrunning
    cases hrunning
  refine ⟨h.peer_eq, h.size_eq, ?_, ?_, ⟨arrived, hscript, hlooked, ?_⟩, h.idle, ?_⟩
  · rw [Course.play_concat, ← h.course]
    rfl
  · obtain ⟨last, hschedule, hnone⟩ := h.finished
    rw [hschedule, hnone (Course.crash_of_isRunning hrunning), Option.toList_none, List.append_nil]
    exact rounds_round hrunning
  · rw [hheard, contents_append, contents_singleton, hchannel]
    simp [Tandem.round]
  · intro last hmem hend
    rcases List.mem_append.1 hmem with hold | hnew
    · exact absurd hend (hbefore last hold)
    · obtain rfl := List.mem_singleton.1 hnew
      obtain ⟨hstopped, hempty⟩ := hended hend
      exact ⟨isRunning_receiveEnded hend, hstopped, hempty, schedule, rfl, hbefore⟩

theorem step (h : Accounts peer size script c₀ schedule t) (next : t.Step rounds t') :
    Accounts peer size script c₀ (schedule ++ rounds) t' := by
  cases next with
  | @listen a rest idle opened next =>
    obtain ⟨arrived, hscript, hlooked, hheard⟩ := h.arrived
    obtain ⟨hpassed, hreceiver⟩ := Receiver.take_of_open opened a
    rw [opened] at hlooked
    rw [List.append_nil, hreceiver]
    refine ⟨h.peer_eq, h.size_eq, h.course, h.finished, ⟨arrived ++ [a], ?_, hlooked.next a, ?_⟩,
      fun hfatal => ?_, fun r hr hend => ?_⟩
    · rw [hscript, next, List.append_assoc]
      rfl
    · have hopen : ∀ b ∈ arrived.map (Arrival.cut size), b.isFatal = false := by
        simpa using hlooked.passing
      rw [List.map_append, heard_append hopen, hheard, idle, List.map_singleton, heard_singleton,
        hpassed, h.peer_eq, h.size_eq]
      simp
    · show (t.receiver.take a).1.bind Intake.content? = none
      rw [hpassed]
      exact Arrival.content?_of_isFatal ((Arrival.isFatal_cut _ a).trans hfatal) _
    · cases opened.symm.trans (h.ended r hr hend).2.1
  | @deposit content waiting room =>
    obtain ⟨arrived, hscript, hlooked, hheard⟩ := h.arrived
    rw [List.append_nil]
    refine ⟨h.peer_eq, h.size_eq, h.course, h.finished, ⟨arrived, hscript, hlooked, ?_⟩,
      fun _ => rfl, fun r hr hend => ?_⟩
    · rw [hheard, waiting]
      simp
    · have hidle := h.idle (h.ended r hr hend).2.1
      cases hidle.symm.trans waiting
  | @handle content rest running next now reading =>
    exact h.round running next nofun
  | report running idle empty stopped now reading =>
    exact h.round (r := ⟨.receiveEnded, now, reading⟩) running rfl fun _ => ⟨stopped, empty⟩
  | @serve r running other =>
    have hcontent : r.stimulus.content? = none := by
      cases hstimulus : r.stimulus <;> simp_all [Stimulus.isInput, Stimulus.content?]
    refine h.round running (by rw [hcontent]; rfl) fun hend => ?_
    rw [hend] at other
    cases other

/-- The worker has been given the first of what there is to hear. -/
theorem given (h : Accounts peer size script c₀ schedule t) :
    contents schedule <+: heard peer (script.map (Arrival.cut size)) := by
  obtain ⟨arrived, hscript, hlooked, hheard⟩ := h.arrived
  rw [hscript, hlooked.heard_append, hheard]
  simp only [List.append_assoc]
  exact List.prefix_append _ _

/-- Once nothing is on its way any more, it has been given all of it. -/
theorem complete (h : Accounts peer size script c₀ schedule t) (hdrained : t.IsDrained) :
    contents schedule = heard peer (script.map (Arrival.cut size)) := by
  obtain ⟨arrived, hscript, hlooked, hheard⟩ := h.arrived
  obtain ⟨hidle, hempty, hover⟩ := hdrained
  rw [hscript, hlooked.heard_append, hheard, hidle, hempty]
  rcases hover with hstopped | hnone
  · simp [hstopped]
  · simp [hnone, heard]

/-- The end is reported once, as the last thing, after a lasting error, and after everything that
came from the peer before that error has been handled. -/
theorem last (h : Accounts peer size script c₀ schedule t) {r : Round} (hr : r ∈ schedule)
    (hend : r.stimulus = .receiveEnded) :
    ∃ earlier before kind, schedule = earlier ++ [r] ∧
      (∀ other ∈ earlier, other.stimulus ≠ .receiveEnded) ∧
      script = before ++ .failure kind :: t.script ∧ kind.isTransient = false ∧
      (∀ a ∈ before, a.isFatal = false) ∧
      contents earlier = (before.map (Arrival.cut size)).filterMap (Arrival.content? peer) := by
  obtain ⟨arrived, hscript, hlooked, hheard⟩ := h.arrived
  obtain ⟨-, hstopped, hempty, earlier, rfl, hfirst⟩ := h.ended r hr hend
  rw [hempty, h.idle hstopped, contents_append] at hheard
  rw [hstopped] at hlooked
  cases hlooked with
  | @failed before fatal passing hfatal =>
    cases fatal with
    | datagram _ _ => cases hfatal
    | failure kind =>
      have hopen : ∀ a ∈ before.map (Arrival.cut size), a.isFatal = false := by simpa using passing
      have hlasting : kind.isTransient = false := by simpa [Arrival.isFatal] using hfatal
      refine ⟨earlier, before, kind, rfl, hfirst, ?_, hlasting, passing, ?_⟩
      · rw [hscript, List.append_assoc]
        rfl
      · have hnone : contents [r] = [] := by simp [contents, hend, Stimulus.content?]
        rw [List.map_append, heard_append hopen, List.map_singleton, heard_singleton,
          hnone] at hheard
        rw [← heard_eq hopen]
        simpa [Arrival.cut, Arrival.content?] using hheard.symm

end Accounts

theorem accounts_run (hstart : c₀.rounds = []) (h : (fresh peer size script c₀).Run schedule t) :
    Accounts peer size script c₀ schedule t := by
  induction h with
  | start =>
    refine ⟨rfl, rfl, rfl, ⟨none, ?_, fun _ => rfl⟩, ⟨[], rfl, .going (by simp), rfl⟩, nofun,
      by simp⟩
    rw [show (fresh peer size script c₀).course.rounds = [] from hstart]
    rfl
  | step _ next ih => exact ih.step next

/-! ## Nothing gets stuck -/

/-- How far the receiving side is from having nothing left to do. -/
def backlog (t : Tandem α σ) : Nat :=
  3 * t.script.length + 2 * t.pending.toList.length + t.channel.length

/-- While the worker runs, what is still to be heard can be brought to it without anything else
happening. -/
theorem exists_drain {t : Tandem α σ} (hrunning : t.course.isRunning = true) :
    ∃ more t', t.Run more t' ∧ (∀ r ∈ more, r.stimulus.content?.isSome = true) ∧
      (t'.IsDrained ∨ t'.course.isRunning = false) := by
  induction hsize : t.backlog using Nat.strong_induction_on generalizing t with
  | _ n ih =>
    -- one step that brings the end nearer, and the rest
    have hthen : ∀ {rounds : List Round} {t₁ : Tandem α σ}, t.Step rounds t₁ →
        (∀ r ∈ rounds, r.stimulus.content?.isSome = true) → t₁.backlog < t.backlog →
        ∃ more t', t.Run more t' ∧ (∀ r ∈ more, r.stimulus.content?.isSome = true) ∧
          (t'.IsDrained ∨ t'.course.isRunning = false) := by
      intro rounds t₁ hstep hcontent hless
      cases hrunning₁ : t₁.course.isRunning with
      | false => exact ⟨rounds, t₁, .one hstep, hcontent, .inr hrunning₁⟩
      | true =>
        obtain ⟨more, t', hrun, hmore, hend⟩ := ih _ (hsize ▸ hless) hrunning₁ rfl
        refine ⟨rounds ++ more, t', (Run.one hstep).trans hrun, fun r hr => ?_, hend⟩
        exact (List.mem_append.1 hr).elim (hcontent r) (hmore r)
    cases hchannel : t.channel with
    | cons content rest =>
      refine hthen (.handle hrunning hchannel 0 0) (by simp [Stimulus.content?]) ?_
      simp [backlog, Tandem.round, hchannel]
    | nil =>
      cases hpending : t.pending with
      | some content =>
        refine hthen (.deposit hpending (by simp [hchannel, channelCapacity])) (by simp) ?_
        simp [backlog, hpending, hchannel]
      | none =>
        cases hstopped : t.receiver.stopped with
        | true => exact ⟨[], t, .start, by simp, .inl ⟨hpending, hchannel, .inl hstopped⟩⟩
        | false =>
          cases hscript : t.script with
          | nil => exact ⟨[], t, .start, by simp, .inl ⟨hpending, hchannel, .inr hscript⟩⟩
          | cons a rest =>
            refine hthen (.listen hpending hstopped hscript) (by simp) ?_
            have hone : ((t.receiver.take a).1.bind Intake.content?).toList.length ≤ 1 :=
              Option.length_toList_le
            simp only [backlog, hscript, hpending, List.length_cons, Option.toList_none,
              List.length_nil]
            omega

end Tandem

end DatagramTunnel.Tunnel
