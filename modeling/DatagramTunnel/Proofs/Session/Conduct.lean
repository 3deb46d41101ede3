import DatagramTunnel.Session.Operation

/-!
# What an endpoint does beside moving data

Most of what an endpoint does leaves its data alone: it answers a PING, repeats a HELLO, counts,
tells the application something, or ends the connection and drops everything at once.  `Move e m e'`
says that `e` becomes `e'` by such steps, and `m` lists what of it concerns delivery: the packets
handed over and the violations counted.

The `_move` theorems say this of one function after the other.  The steps that do move data are
few: an endpoint queues a packet, lets the send queue run, or takes in an acknowledgement or a data
frame.
-/

namespace DatagramTunnel.Wire

/-- Neither a piece of a packet nor its acknowledgement. -/
def Frame.IsControl : Frame → Prop
  | .data _ | .ack _ => False
  | _ => True

end DatagramTunnel.Wire

namespace DatagramTunnel.Session

open Flight Packet Wire

/-- The packet that the event hands over, if it does. -/
def Event.content? : Event → Option Bytes
  | .packet content => some content
  | _ => none

namespace Endpoint

variable {α σ : Type}

/-- The part of an endpoint on which the data that pass through it depend. -/
structure Core (α σ : Type) where
  settings : Settings
  token : Bytes
  transform : Transform σ
  phase : Phase
  splitter : Splitter
  queue : SendQueue
  roundTrip : RoundTrip α
  inlet : Inlet
  faults : Nat
  outbox : List Bytes
  events : List Event

def core (e : Endpoint α σ) : Core α σ where
  settings := e.settings
  token := e.token
  transform := e.transform
  phase := e.phase
  splitter := e.splitter
  queue := e.queue
  roundTrip := e.roundTrip
  inlet := e.inlet
  faults := e.counters.protocolViolations
  outbox := e.outbox
  events := e.events

/-- What a step does that concerns delivery. -/
inductive Mark where
  /-- A violation is counted. -/
  | fault
  /-- A packet is handed to the application. -/
  | packet (content : Bytes)
  deriving DecidableEq

/-- The packet that the mark reports as handed over. -/
def Mark.content? : Mark → Option Bytes
  | .fault => none
  | .packet content => some content

/-- Counts a violation, without looking at the limit. -/
def recordFault (e : Endpoint α σ) : Endpoint α σ :=
  { e with violations := e.violations + 1 }.count fun c =>
    { c with protocolViolations := c.protocolViolations + 1 }

/-- Steps that leave the data of a connection alone or drop all of it. -/
inductive Move : Endpoint α σ → List Mark → Endpoint α σ → Prop
  | adjust {e e' : Endpoint α σ} (same : e'.core = e.core) (fewer : e'.violations ≤ e.violations) :
    Move e [] e'
  | rise {e : Endpoint α σ} (phase : e.phase = .connecting) :
    Move e [] ({ e with phase := .established }.notify .up)
  | post {e : Endpoint α σ} (frame : Frame) (phase : e.phase.isTerminal = false)
    (control : frame.IsControl) : Move e [] (e.post frame.encode)
  | tell {e : Endpoint α σ} {event : Event} (phase : e.phase.isTerminal = false)
    (other : event.content? = none) : Move e [] (e.notify event)
  | hand {e : Endpoint α σ} (phase : e.phase.isTerminal = false) (content : Bytes) :
    Move e [.packet content] (e.notify (.packet content))
  | fault {e : Endpoint α σ} : Move e [.fault] e.recordFault
  | finish {e : Endpoint α σ} {last : Event} (phase : e.phase.isTerminal = false)
    (other : last.content? = none) : Move e [] (e.finish last)
  | shut {e : Endpoint α σ} (phase : e.phase = .closing) : Move e [] { e with phase := .closed }
  | trans {e e' e'' : Endpoint α σ} {m m' : List Mark} (first : Move e m e')
    (second : Move e' m' e'') : Move e (m ++ m') e''

theorem isTerminal_of_connecting {e : Endpoint α σ} (h : e.phase = .connecting) :
    e.phase.isTerminal = false := by rw [h]; rfl

theorem isTerminal_of_established {e : Endpoint α σ} (h : e.phase = .established) :
    e.phase.isTerminal = false := by rw [h]; rfl

namespace Move

variable {e e' : Endpoint α σ} {m : List Mark}

theorem refl (e : Endpoint α σ) : Move e [] e := .adjust rfl (Nat.le_refl _)

/-- Two moves of which the second leaves no mark. -/
theorem andThen {e'' : Endpoint α σ} (first : Move e m e') (second : Move e' [] e'') :
    Move e m e'' := by
  simpa using first.trans second

/-- An adjustment before a move shows nowhere. -/
theorem adjusted {e₀ : Endpoint α σ} (same : e.core = e₀.core)
    (fewer : e.violations ≤ e₀.violations) (next : Move e m e') : Move e₀ m e' := by
  simpa using (Move.adjust same fewer).trans next

/-- The private state of the transform may change before a move. -/
theorem afterSecret (secret : σ) (next : Move { e with secret := secret } m e') : Move e m e' :=
  .adjusted (e := { e with secret := secret }) rfl (Nat.le_refl _) next

/-! ## What a move keeps -/

/-- What both ends agreed on stays. -/
theorem constants (h : Move e m e') :
    e'.settings = e.settings ∧ e'.token = e.token ∧ e'.transform = e.transform := by
  induction h with
  | adjust same _ =>
    exact ⟨congrArg Core.settings same, congrArg Core.token same, congrArg Core.transform same⟩
  | trans _ _ ih₁ ih₂ => exact ⟨ih₂.1.trans ih₁.1, ih₂.2.1.trans ih₁.2.1, ih₂.2.2.trans ih₁.2.2⟩
  | _ => exact ⟨rfl, rfl, rfl⟩

/-- A connection that has ended does not come back. -/
theorem isTerminal (h : Move e m e') (hopen : e'.phase.isTerminal = false) :
    e.phase.isTerminal = false := by
  induction h with
  | adjust same _ =>
    have hphase := congrArg Core.phase same
    exact (congrArg Phase.isTerminal hphase).symm.trans hopen
  | rise phase => exact isTerminal_of_connecting phase
  | post _ phase _ => exact phase
  | tell phase _ => exact phase
  | hand phase _ => exact phase
  | fault => exact hopen
  | finish phase _ => exact phase
  | shut _ => cases hopen
  | trans _ _ ih₁ ih₂ => exact ih₁ (ih₂ hopen)

/-- An established connection stays up or ends. -/
theorem established (h : Move e m e') (hup : e.phase = .established)
    (hopen : e'.phase.isTerminal = false) : e'.phase = .established := by
  induction h with
  | adjust same _ => exact (congrArg Core.phase same).trans hup
  | rise _ => rfl
  | finish _ _ => cases hopen
  | shut _ => cases hopen
  | trans _ second ih₁ ih₂ => exact ih₂ (ih₁ hup (second.isTerminal hopen)) hopen
  | _ => exact hup

/-- As long as the connection has not ended, the data stay where they are. -/
theorem data (h : Move e m e') (hopen : e'.phase.isTerminal = false) :
    e'.splitter = e.splitter ∧ e'.queue = e.queue ∧ e'.roundTrip = e.roundTrip ∧
      e'.inlet = e.inlet := by
  induction h with
  | adjust same _ =>
    exact ⟨congrArg Core.splitter same, congrArg Core.queue same, congrArg Core.roundTrip same,
      congrArg Core.inlet same⟩
  | finish _ _ => cases hopen
  | shut _ => cases hopen
  | trans _ second ih₁ ih₂ =>
    obtain ⟨hsplitter, hqueue, hround, hinlet⟩ := ih₁ (second.isTerminal hopen)
    obtain ⟨hsplitter', hqueue', hround', hinlet'⟩ := ih₂ hopen
    exact ⟨hsplitter'.trans hsplitter, hqueue'.trans hqueue, hround'.trans hround,
      hinlet'.trans hinlet⟩
  | _ => exact ⟨rfl, rfl, rfl, rfl⟩

/-- In any case the data stay where they are, or all of them are dropped. -/
theorem data_or_dropped (h : Move e m e') :
    e'.queue = e.queue ∧ e'.inlet = e.inlet ∨
      e'.queue = e.queue.clear ∧
        e'.inlet = { window := e.inlet.window.clear, assembler := e.inlet.assembler.reset } := by
  induction h with
  | adjust same _ => exact .inl ⟨congrArg Core.queue same, congrArg Core.inlet same⟩
  | finish _ _ => exact .inr ⟨rfl, rfl⟩
  | trans _ _ ih₁ ih₂ =>
    rcases ih₁ with ⟨hqueue, hinlet⟩ | ⟨hqueue, hinlet⟩ <;>
      rcases ih₂ with ⟨hqueue', hinlet'⟩ | ⟨hqueue', hinlet'⟩
    · exact .inl ⟨hqueue'.trans hqueue, hinlet'.trans hinlet⟩
    · exact .inr ⟨by rw [hqueue', hqueue], by rw [hinlet', hinlet]⟩
    · exact .inr ⟨hqueue'.trans hqueue, hinlet'.trans hinlet⟩
    · -- dropping the data twice is dropping them once
      exact .inr ⟨by rw [hqueue', hqueue]; rfl, by rw [hinlet', hinlet]; rfl⟩
  | _ => exact .inl ⟨rfl, rfl⟩

/-- Nothing leaves the outbox unless the connection ends. -/
theorem outbox_grows (h : Move e m e') (hopen : e'.phase.isTerminal = false) :
    e.outbox <+: e'.outbox := by
  induction h with
  | @adjust e₁ e₂ same _ =>
    have hsame : e₂.outbox = e₁.outbox := congrArg Core.outbox same
    exact hsame ▸ List.prefix_rfl
  | post _ _ _ => exact List.prefix_append _ _
  | finish _ _ => cases hopen
  | shut _ => cases hopen
  | trans _ second ih₁ ih₂ => exact (ih₁ (second.isTerminal hopen)).trans (ih₂ hopen)
  | _ => exact List.prefix_rfl

/-- The events that a move adds hand over the packets that it is marked with. -/
theorem events (h : Move e m e') :
    ∃ news, e'.events = e.events ++ news ∧
      news.filterMap Event.content? = m.filterMap Mark.content? := by
  induction h with
  | @adjust e₁ e₂ same _ =>
    have hsame : e₂.events = e₁.events := congrArg Core.events same
    exact ⟨[], by rw [hsame, List.append_nil], rfl⟩
  | rise _ => exact ⟨[.up], rfl, rfl⟩
  | @tell e event _ other => exact ⟨[event], rfl, by simp [other]⟩
  | hand _ content => exact ⟨[.packet content], rfl, rfl⟩
  | @finish e last _ other => exact ⟨[last], rfl, by simp [other]⟩
  | trans _ _ ih₁ ih₂ =>
    obtain ⟨news, hnews, hmarks⟩ := ih₁
    obtain ⟨news', hnews', hmarks'⟩ := ih₂
    refine ⟨news ++ news', ?_, ?_⟩
    · rw [hnews', hnews, List.append_assoc]
    · rw [List.filterMap_append, List.filterMap_append, hmarks, hmarks']
  | _ => exact ⟨[], (List.append_nil _).symm, rfl⟩

/-- Without a mark for it, no violation is counted. -/
theorem faultless (h : Move e m e') (hclean : Mark.fault ∉ m) :
    e'.counters.protocolViolations = e.counters.protocolViolations ∧
      e'.violations ≤ e.violations := by
  induction h with
  | adjust same fewer => exact ⟨congrArg Core.faults same, fewer⟩
  | fault => exact absurd List.mem_cons_self hclean
  | trans _ _ ih₁ ih₂ =>
    rw [List.mem_append, not_or] at hclean
    obtain ⟨hfaults, hfewer⟩ := ih₁ hclean.1
    obtain ⟨hfaults', hfewer'⟩ := ih₂ hclean.2
    exact ⟨hfaults'.trans hfaults, Nat.le_trans hfewer' hfewer⟩
  | _ => exact ⟨rfl, Nat.le_refl _⟩

end Move

/-! ## Endings -/

theorem goDown_move (e : Endpoint α σ) (reason : Outage) : Move e [] (e.goDown reason) := by
  unfold goDown
  split
  · rename_i h
    exact .finish (isTerminal_of_established h) rfl
  · exact .refl e

theorem fail_move (e : Endpoint α σ) (reason : HandshakeFailure) : Move e [] (e.fail reason) := by
  unfold fail
  split
  · rename_i h
    exact .finish (isTerminal_of_connecting h) rfl
  · exact .refl e

theorem close_move (e : Endpoint α σ) : Move e [] e.close := by
  unfold close
  split
  · exact fail_move e _
  · exact goDown_move e _
  · exact .refl e
  · exact .refl e

theorem socketClosed_move (e : Endpoint α σ) : Move e [] e.socketClosed := by
  unfold socketClosed
  split
  · exact fail_move e _
  · exact goDown_move e _
  · exact .refl e
  · exact .refl e

/-! ## Handshake -/

theorem sendHello_move {e : Endpoint α σ} (h : e.phase.isTerminal = false) (now : Nat) :
    Move e [] (e.sendHello now) := by
  refine Move.adjusted (e := { e with lastHello := some now }) rfl (Nat.le_refl _) ?_
  exact .post (.hello e.token) h trivial

theorem connect_move {e e' : Endpoint α σ} {now : Nat} (h : e.connect now = .ok e') :
    Move e [] e' := by
  unfold connect at h
  split at h
  · rename_i hphase
    split at h
    · have heq := Except.ok.inj h
      subst heq
      let e₁ : Endpoint α σ := { e with handshakeStarted := some now }
      have hhello : Move e₁ [] (e₁.sendHello now) :=
        sendHello_move (e := e₁) (isTerminal_of_connecting hphase) now
      exact Move.adjusted (e := e₁) rfl (Nat.le_refl _) hhello
    · exact Except.ok.inj h ▸ .refl e
  · exact Except.ok.inj h ▸ .refl e
  · cases h
  · cases h

theorem tickHandshake_move {e : Endpoint α σ} (h : e.phase = .connecting) (now : Nat) :
    Move e [] (e.tickHandshake now) := by
  unfold tickHandshake
  split
  · exact .refl e
  · split
    · exact fail_move e _
    · split
      · exact sendHello_move (isTerminal_of_connecting h) now
      · exact .refl e

theorem onHello_move (e : Endpoint α σ) (token : Bytes) (now : Nat) :
    Move e [] (e.onHello token now) := by
  unfold onHello
  cases hphase : e.phase with
  | connecting =>
    dsimp only
    split
    · exact .rise hphase
    · exact fail_move e _
  | established =>
    dsimp only
    split
    · split
      · exact sendHello_move (isTerminal_of_established hphase) now
      · exact .refl e
    · exact .adjust rfl (Nat.le_refl _)
  | closing => exact .refl e
  | closed => exact .refl e

/-! ## Arriving packets -/

theorem violation_move (e : Endpoint α σ) : Move e [.fault] e.violation := by
  have hfault : Move e [.fault] e.recordFault := .fault
  unfold violation
  dsimp only
  split
  · exact hfault.andThen (goDown_move _ _)
  · exact hfault

theorem deliver_move {e : Endpoint α σ} (h : e.phase.isTerminal = false) (packet : Bytes) :
    ∃ m, Move e m (e.deliver packet) := by
  unfold deliver
  dsimp only
  split
  · refine ⟨_, Move.adjusted ?_ ?_ (.hand ?_ _)⟩
    · rfl
    · exact Nat.zero_le _
    · exact h
  · exact ⟨[.fault], .afterSecret _ (violation_move _)⟩

/-- In the clear, what is put together is handed over as it is. -/
theorem deliver_move_of_plain {e : Endpoint α σ} (h : e.phase.isTerminal = false)
    (hplain : e.transform = .plain) (packet : Bytes) :
    Move e [.packet packet] (e.deliver packet) := by
  have hopen : e.transform.unwrap e.secret packet = (.ok packet, e.secret) := by
    rw [hplain]
    rfl
  unfold deliver
  rw [hopen]
  refine Move.adjusted ?_ ?_ (.hand ?_ packet)
  · rfl
  · exact Nat.zero_le _
  · exact h

theorem foldl_violation_move (errors : List AssemblyError) (e : Endpoint α σ) :
    ∃ m, Move e m (errors.foldl (fun e _ => e.violation) e) := by
  induction errors generalizing e with
  | nil => exact ⟨[], .refl e⟩
  | cons error errors ih =>
    obtain ⟨m, hm⟩ := ih e.violation
    exact ⟨_, (violation_move e).trans hm⟩

theorem absorb_move (e : Endpoint α σ) (out : Assembled) : ∃ m, Move e m (e.absorb out) := by
  obtain ⟨m, hm⟩ := foldl_violation_move out.errors e
  unfold absorb
  dsimp only
  split
  · rename_i hup
    split
    · obtain ⟨m', hm'⟩ := deliver_move (isTerminal_of_established hup) _
      exact ⟨_, hm.trans hm'⟩
    · exact ⟨m, hm⟩
  · exact ⟨m, hm⟩

/-- In the clear, a frame that reveals no fault hands over the packet it completes. -/
theorem absorb_move_of_plain {e : Endpoint α σ} (hup : e.phase = .established)
    (hplain : e.transform = .plain) {out : Assembled} (hclean : out.errors = []) :
    Move e (out.packet.toList.map .packet) (e.absorb out) := by
  unfold absorb
  rw [hclean]
  simp only [List.foldl_nil, hup, if_true]
  cases out.packet with
  | none => exact .refl e
  | some packet => exact deliver_move_of_plain (isTerminal_of_established hup) hplain packet

theorem onPipe_move {e : Endpoint α σ} (h : e.phase.isTerminal = false) (id : UInt8)
    (payload : Bytes) :
    ∃ m, Move e m (e.onPipe id payload) ∧ (∀ content, Mark.packet content ∉ m) ∧
      (e.transform = .plain → m = []) := by
  unfold onPipe
  by_cases hraw : e.settings.transformRaw = true
  · rw [if_pos hraw]
    generalize hopen : e.transform.unwrap e.secret payload = result
    obtain ⟨opened, secret⟩ := result
    cases opened with
    | ok content =>
      refine ⟨_, Move.adjusted ?_ ?_ (.tell ?_ rfl), by simp, fun _ => rfl⟩
      · rfl
      · exact Nat.le_refl _
      · exact h
    | error cause =>
      refine ⟨[.fault], .afterSecret secret (violation_move _), by simp, fun hplain => ?_⟩
      rw [hplain] at hopen
      cases congrArg Prod.fst hopen
  · rw [if_neg hraw]
    refine ⟨_, Move.adjusted ?_ ?_ (.tell ?_ rfl), by simp, fun _ => rfl⟩
    · rfl
    · exact Nat.le_refl _
    · exact h

/-! ## Departing raw datagrams -/

theorem refusal?_eq_none_iff {e : Endpoint α σ} : e.refusal? = none ↔ e.phase = .established := by
  cases hphase : e.phase <;> simp [refusal?, hphase]

theorem outbound_eq_ok {p p' : Pipes} {id : UInt8} {payload datagram : Bytes}
    (h : p.outbound id payload = .ok (datagram, p')) :
    payload.length ≤ p.maxPayload ∧ datagram = (Frame.pipe id payload).encode ∧
      p' = { p with sent := p.sent + 1 } := by
  unfold Pipes.outbound at h
  split at h
  · cases h
  · rename_i hfits
    obtain ⟨rfl, rfl⟩ := Prod.mk.inj (Except.ok.inj h)
    exact ⟨Nat.le_of_not_lt hfits, rfl, rfl⟩

theorem sendRaw_move (e : Endpoint α σ) (id : UInt8) (payload : Bytes) :
    Move e [] (e.sendRaw id payload).2 := by
  unfold sendRaw
  cases hrefusal : e.refusal? with
  | some cause => exact .refl e
  | none =>
    have hup := isTerminal_of_established (refusal?_eq_none_iff.1 hrefusal)
    dsimp only
    split
    · exact .adjust rfl (Nat.le_refl _)
    · rename_i wrapped _
      split
      · exact .adjust rfl (Nat.le_refl _)
      · rename_i datagram pipes hpipe
        rw [(outbound_eq_ok hpipe).2.1]
        refine Move.adjusted ?_ ?_ (.post (.pipe id wrapped) ?_ trivial)
        · rfl
        · exact Nat.le_refl _
        · exact hup

end Endpoint

end DatagramTunnel.Session
