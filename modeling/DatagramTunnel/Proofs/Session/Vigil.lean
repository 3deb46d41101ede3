import DatagramTunnel.Proofs.Session.Greeting
import DatagramTunnel.Proofs.Session.Liveness
import DatagramTunnel.Proofs.Session.Repeats
import Mathlib.Data.List.Chain

/-!
# When a peer is given up

A connection that is up sends its first PING at its first tick.  From then on it waits for the peer:
since that tick, or since the last PONG after it.  `waitingSince?` reads off the calls of a run when
the present wait began, and `Watching` ties it and the PINGs sent to the two instants that the
keepalive remembers.

So what a tick does is settled by the history alone: `watch_exact`.
-/

namespace DatagramTunnel.Session

open Flight Packet Wire

theorem Settings.pongTimeout_pos {s : Settings} (h : s.validate = .ok ()) :
    0 < s.pongTimeout := by
  have hrule := Settings.validate_eq_ok_iff.1 h
    (s.pingInterval < s.pongTimeout, .pongTimeoutTooShort) (by simp [rules])
  exact Nat.zero_lt_of_lt (of_decide_eq_true hrule)

/-! ## What concerns the keepalive -/

/-- A call that concerns the keepalive while the connection is up. -/
inductive Beat where
  | tick (now : Nat)
  /-- A PONG arrives. -/
  | pong (now : Nat)
  deriving DecidableEq, Repr

/-- The instant, if a PONG arrives. -/
def Beat.pong? : Beat → Option Nat
  | .tick _ => none
  | .pong now => some now

/-- Since when the peer has been waited for: since the last PONG after the first tick, or else since
that tick. -/
def waitingSince? : List Beat → Option Nat
  | [] => none
  | .pong _ :: later => waitingSince? later
  | .tick first :: later => some ((later.filterMap Beat.pong?).getLastD first)

/-- The call as one that concerns the keepalive. -/
def Operation.beat? : Operation → Option Beat
  | .tick now => some (.tick now)
  | .receive datagram now =>
    match Frame.decode datagram with
    | .ok (.pong _) => some (.pong now)
    | _ => none
  | _ => none

theorem Operation.beat?_eq_tick_iff {op : Operation} {now : Nat} :
    op.beat? = some (.tick now) ↔ op = .tick now := by
  cases op with
  | receive datagram _ =>
    rw [Operation.beat?]
    split <;> simp
  | _ => simp [Operation.beat?]

theorem Operation.beat?_eq_pong_iff {op : Operation} {now : Nat} :
    op.beat? = some (.pong now) ↔
      ∃ datagram nonce, op = .receive datagram now ∧ Frame.decode datagram = .ok (.pong nonce) := by
  cases op with
  | receive datagram _ =>
    rw [Operation.beat?]
    split
    · rename_i nonce hframe
      simp [hframe]
    · rename_i hother
      simp only [reduceCtorEq, false_iff]
      rintro ⟨datagram', nonce, heq, hframe⟩
      cases heq
      exact hother nonce hframe
  | _ => simp [Operation.beat?]

/-- A tick starts the wait, if it has not begun. -/
theorem waitingSince?_tick (beats : List Beat) (now : Nat) :
    waitingSince? (beats ++ [.tick now]) = some ((waitingSince? beats).getD now) := by
  induction beats with
  | nil => rfl
  | cons beat later ih =>
    cases beat with
    | tick first => simp [waitingSince?, Beat.pong?]
    | pong _ => exact ih

/-- A PONG starts the wait anew, if it has begun. -/
theorem waitingSince?_pong (beats : List Beat) (now : Nat) :
    waitingSince? (beats ++ [.pong now]) = (waitingSince? beats).map fun _ => now := by
  induction beats with
  | nil => rfl
  | cons beat later ih =>
    cases beat with
    | tick first => simp [waitingSince?, Beat.pong?]
    | pong _ => exact ih

/-- What the keepalive remembers after these beats and PINGs. -/
inductive Remembers : List Beat → List Nat → Watch → Prop
  | idle {beats : List Beat} (unstarted : waitingSince? beats = none) : Remembers beats [] .idle
  | active {beats : List Beat} {sent : List Nat} {last since : Nat}
    (waiting : waitingSince? beats = some since) (latest : sent.getLast? = some last) :
    Remembers beats sent (.active last since)

/-- PINGs have been sent exactly if the wait has begun. -/
theorem Remembers.latest {beats : List Beat} {sent : List Nat} {watch : Watch}
    (h : Remembers beats sent watch) :
    (waitingSince? beats = none → sent = []) ∧
      ∀ since, waitingSince? beats = some since → ∃ last, sent.getLast? = some last := by
  cases h with
  | idle unstarted => simp [unstarted]
  | active waiting latest => simp [waiting, latest]

/-- A PONG is remembered. -/
theorem Remembers.heardPong {beats : List Beat} {sent : List Nat} {k : Keepalive}
    (h : Remembers beats sent k.watch) (now : Nat) :
    Remembers (beats ++ [.pong now]) sent (k.heardPong now).watch := by
  obtain ⟨interval, limit, watch⟩ := k
  cases h with
  | idle unstarted => exact .idle (by rw [waitingSince?_pong, unstarted]; rfl)
  | active waiting latest => exact .active (by rw [waitingSince?_pong, waiting]; rfl) latest

/-- A tick is remembered, and so is the PING that it asks for. -/
theorem Remembers.tick {beats : List Beat} {sent : List Nat} {k : Keepalive}
    (h : Remembers beats sent k.watch) {now : Nat} (hintime : (k.tick now).1 ≠ some .timedOut) :
    Remembers (beats ++ [.tick now]) (sent ++ if (k.tick now).1 = some .ping then [now] else [])
      (k.tick now).2.watch := by
  obtain ⟨interval, limit, watch⟩ := k
  cases h with
  | idle unstarted => exact .active (by rw [waitingSince?_tick, unstarted]; rfl) rfl
  | @active _ last since waiting latest =>
    have hwaiting : waitingSince? (beats ++ [.tick now]) = some since := by
      rw [waitingSince?_tick, waiting]
      rfl
    by_cases hlate : limit ≤ elapsed now since
    · simp [Keepalive.tick, hlate] at hintime
    · by_cases hdue : interval ≤ elapsed now last
      · simp only [Keepalive.tick, if_neg hlate, if_pos hdue]
        exact .active hwaiting (by simp)
      · simp only [Keepalive.tick, if_neg hlate, if_neg hdue]
        exact .active hwaiting (by simp [latest])

/-- The peer is given up exactly if the wait has begun and has been too long. -/
theorem Remembers.timedOut_iff {beats : List Beat} {sent : List Nat} {k : Keepalive}
    (h : Remembers beats sent k.watch) (now : Nat) :
    (k.tick now).1 = some .timedOut ↔
      ∃ since, waitingSince? beats = some since ∧ k.pongTimeout ≤ elapsed now since := by
  obtain ⟨interval, limit, watch⟩ := k
  cases h with
  | idle unstarted => simp [Keepalive.tick, unstarted]
  | @active _ last since waiting latest =>
    by_cases hlate : limit ≤ elapsed now since
    · simp [Keepalive.tick, waiting, hlate]
    · by_cases hdue : interval ≤ elapsed now last <;> simp [Keepalive.tick, waiting, hlate, hdue]

/-- If the peer is not given up, a PING is due exactly if the last one has been long ago. -/
theorem Remembers.ping_iff {beats : List Beat} {sent : List Nat} {k : Keepalive}
    (h : Remembers beats sent k.watch) {now : Nat} (hintime : (k.tick now).1 ≠ some .timedOut) :
    (k.tick now).1 = some .ping ↔ ∀ last ∈ sent.getLast?, k.pingInterval ≤ elapsed now last := by
  obtain ⟨interval, limit, watch⟩ := k
  cases h with
  | idle unstarted => simp [Keepalive.tick]
  | @active _ last since waiting latest =>
    have hearly : ¬ limit ≤ elapsed now since := fun hlate => by
      simp [Keepalive.tick, hlate] at hintime
    by_cases hdue : interval ≤ elapsed now last <;> simp [Keepalive.tick, latest, hearly, hdue]

/-! ## PINGs among datagrams -/

theorem pingsAmong_append (first second : List Bytes) :
    pingsAmong (first ++ second) = pingsAmong first ++ pingsAmong second :=
  List.filterMap_append

/-- A PING is one. -/
theorem pingsAmong_ping (nonce : Nonce) : pingsAmong [(Frame.ping nonce).encode] = [nonce] := by
  simp [pingsAmong, Frame.decode_encode_of_fits (f := .ping nonce) trivial]

/-- No other frame is a PING. -/
theorem pingsAmong_encode {f : Frame} (h : ∀ nonce, f ≠ .ping nonce) :
    pingsAmong [f.encode] = [] := by
  rw [pingsAmong, List.filterMap_cons, Frame.decode_encode]
  cases f with
  | ping nonce => exact absurd rfl (h nonce)
  | _ => rfl

/-- Data frames are no PINGs. -/
theorem pingsAmong_eq_nil {datagrams : List Bytes}
    (h : ∀ datagram ∈ datagrams, ∃ f, datagram = (Frame.data f).encode) :
    pingsAmong datagrams = [] := by
  induction datagrams with
  | nil => rfl
  | cons datagram rest ih =>
    obtain ⟨f, rfl⟩ := h datagram List.mem_cons_self
    rw [← List.singleton_append, pingsAmong_append, pingsAmong_encode (by simp),
      List.nil_append]
    exact ih fun other hother => h other (List.mem_cons_of_mem _ hother)

/-- The send queue sends no PINGs. -/
theorem pingsAmong_ticked {q : SendQueue} (hdata : HoldsData q) (now timeout : Nat) :
    pingsAmong (q.ticked now timeout).1.datagrams = [] := by
  refine pingsAmong_eq_nil fun datagram hdatagram => ?_
  obtain ⟨w, hw, rfl⟩ := (q.mem_outstanding_ticked now timeout).2 datagram hdatagram
  exact hdata w hw

namespace Endpoint

variable {α σ : Type} {e e' : Endpoint α σ} {op : Operation} {answer : Answer} {past : List Event}

/-- What a call means to the keepalive. -/
def beats (e : Endpoint α σ) (op : Operation) : List Beat :=
  if e.phase = .established then op.beat?.toList else []

theorem beats_cases (e : Endpoint α σ) (op : Operation) :
    e.beats op = [] ∨
      e.phase = .established ∧ ∃ beat, op.beat? = some beat ∧ e.beats op = [beat] := by
  unfold beats
  split
  · rename_i hup
    cases hbeat : op.beat? with
    | none => exact .inl rfl
    | some beat => exact .inr ⟨hup, beat, rfl, rfl⟩
  · exact .inl rfl

/-- A tick of a connection that is up concerns the keepalive. -/
theorem not_up_of_beats (h : e.beats op = []) : op.isTick = true → e.phase ≠ .established := by
  intro htick hup
  cases op <;> simp_all [Operation.isTick, beats, Operation.beat?]

variable [Mul α] [Seconds α]

/-- The PINGs that are posted before the send queue runs are all of them. -/
theorem pingsAmong_pump {e₁ : Endpoint α σ} {posted : List Bytes} {now : Nat}
    (hpump : e₁.pump now = .ok e') (houtbox : e₁.outbox = e.outbox ++ posted)
    (hdata : HoldsData e₁.queue) :
    pingsAmong (e'.outbox.drop e.outbox.length) = pingsAmong posted := by
  obtain ⟨timeout, -, rfl⟩ := pump_eq_ok hpump
  show pingsAmong ((e₁.outbox ++ _).drop _) = _
  rw [houtbox, List.append_assoc, List.drop_left, pingsAmong_append, pingsAmong_ticked hdata,
    List.append_nil]

variable [Add α] [Sub α]

/-- The PINGs that a call adds to the outbox, each as the instant of the call. -/
def pings (e : Endpoint α σ) (op : Operation) : List Nat :=
  (pingsAmong (e.emits op)).map fun _ => op.instant?.getD 0

/-! ## Calls that do not concern the keepalive -/

/-- An act of such a call leaves the keepalive alone, unless it ends the connection. -/
theorem Act.keepalive (h : Act op e e') (hfree : op.isTick = true → e.phase ≠ .established)
    (hdeaf : ∀ now, op.beat? ≠ some (.pong now)) (hopen : e'.phase.isTerminal = false) :
    e'.keepalive = e.keepalive := by
  cases h with
  | fail _ _ => cases hopen
  | mismatch _ _ _ => cases hopen
  | down _ _ => cases hopen
  | expire up _ => exact absurd up (hfree rfl)
  | ping up _ => exact absurd up (hfree rfl)
  | @heard _ now _ _ _ frame => exact absurd (by simp [Operation.beat?, frame]) (hdeaf now)
  | offer _ _ => rw [offered_eq]
  | _ => rfl

/-- No other act than that of a tick posts a PING. -/
theorem Act.pingsAmong_outbox (h : Act op e e') (hfree : op.isTick = true → e.phase ≠ .established)
    (hdata : HoldsData e.queue) (hnone : pingsAmong e.outbox = []) :
    pingsAmong e'.outbox = [] := by
  have hpost : ∀ {f : Frame}, (∀ nonce, f ≠ .ping nonce) →
      pingsAmong (e.outbox ++ [f.encode]) = [] := fun hother => by
    rw [pingsAmong_append, hnone, pingsAmong_encode hother, List.nil_append]
  cases h with
  | start _ _ => exact hpost nofun
  | retry _ _ _ => exact hpost nofun
  | greet _ _ _ => exact hpost nofun
  | fail _ _ => rfl
  | mismatch _ _ _ => rfl
  | down _ _ => rfl
  | expire _ _ => rfl
  | ping up _ => exact absurd up (hfree rfl)
  | answer _ _ => exact hpost nofun
  | @offer _ _ _ f _ _ =>
    rw [offered_outbox]
    split
    · exact hpost nofun
    · rwa [List.append_nil]
  | @pump _ now _ timeout _ _ _ =>
    show pingsAmong (e.outbox ++ _) = []
    rw [pingsAmong_append, hnone, pingsAmong_ticked hdata, List.nil_append]
  | launch _ outbound =>
    obtain ⟨-, rfl, rfl⟩ := outbound_eq_ok outbound
    exact hpost nofun
  | _ => exact hnone

theorem Act.opened (h : Act op e e') (hopen : e'.phase.isTerminal = false) :
    e.phase.isTerminal = false := by
  cases hended : e.phase.isTerminal with
  | false => rfl
  | true =>
    rw [h.terminal hended] at hopen
    exact nomatch hended.symm.trans hopen

theorem Acts.keepalive (h : Acts op e e') (hfree : op.isTick = true → e.phase ≠ .established)
    (hdeaf : ∀ now, op.beat? ≠ some (.pong now)) (hopen : e'.phase.isTerminal = false) :
    e'.keepalive = e.keepalive := by
  suffices hall : (op.isTick = true → e'.phase ≠ .established) ∧
      (e'.phase.isTerminal = false → e'.keepalive = e.keepalive) from hall.2 hopen
  refine h.induct (P := fun e' => (op.isTick = true → e'.phase ≠ .established) ∧
    (e'.phase.isTerminal = false → e'.keepalive = e.keepalive)) (fun {e₁ e₂} ih act => ?_)
    ⟨hfree, fun _ => rfl⟩
  obtain ⟨hfree₁, hsame⟩ := ih
  refine ⟨act.free hfree₁, fun hopen₂ => ?_⟩
  exact (act.keepalive hfree₁ hdeaf hopen₂).trans (hsame (act.opened hopen₂))

theorem Acts.pingsAmong_outbox (h : Acts op e e')
    (hfree : op.isTick = true → e.phase ≠ .established) (hdata : HoldsData e.queue)
    (hnone : pingsAmong e.outbox = []) : pingsAmong e'.outbox = [] := by
  suffices hall : (op.isTick = true → e'.phase ≠ .established) ∧ HoldsData e'.queue ∧
      pingsAmong e'.outbox = [] from hall.2.2
  refine h.induct (P := fun e' => (op.isTick = true → e'.phase ≠ .established) ∧
    HoldsData e'.queue ∧ pingsAmong e'.outbox = []) (fun {e₁ e₂} ih act => ?_)
    ⟨hfree, hdata, hnone⟩
  obtain ⟨hfree₁, hdata₁, hnone₁⟩ := ih
  exact ⟨act.free hfree₁, act.holdsData hdata₁, act.pingsAmong_outbox hfree₁ hdata₁ hnone₁⟩

/-- Only ticks of a connection that is up send PINGs. -/
theorem Lived.pings_eq_nil (h : e.Lived past) (hdata : HoldsData e.queue)
    (hperform : e.perform op = .ok (answer, e'))
    (hfree : op.isTick = true → e.phase ≠ .established) : e.pings op = [] := by
  suffices hnone : pingsAmong (e.emits op) = [] by rw [pings, hnone, List.map_nil]
  by_cases hop : op = .pollTransmit
  · subst hop
    obtain ⟨-, -, -, -, hemits, -⟩ := perform_pollTransmit e
    rw [hemits]
    rfl
  · obtain ⟨e₁, hbare, -⟩ := (h.perform_eq_ok_iff hop).1 hperform
    rw [h.emits_eq_outbox hop hbare]
    cases perform_deed hbare with
    | acts hacts _ _ => exact hacts.pingsAmong_outbox hfree hdata rfl
    | transmit _ => exact absurd rfl hop
    | report _ => rfl
    | shut _ _ => rfl

/-- A call that does not concern the keepalive leaves it alone, unless it ends the connection. -/
theorem keepalive_of_perform (hperform : e.perform op = .ok (answer, e'))
    (hquiet : e.beats op = []) (hopen : e'.phase.isTerminal = false) :
    e'.keepalive = e.keepalive := by
  by_cases hdeaf : ∀ now, op.beat? ≠ some (.pong now)
  · cases perform_deed hperform with
    | acts hacts _ _ => exact hacts.keepalive (not_up_of_beats hquiet) hdeaf hopen
    | transmit _ => rfl
    | report _ => rfl
    | shut _ _ => rfl
  · obtain ⟨now, hpong⟩ := Classical.not_forall.1 hdeaf
    rw [ne_eq, Classical.not_not] at hpong
    have hdown : e.phase ≠ .established := fun hup => by simp [beats, hup, hpong] at hquiet
    obtain ⟨datagram, nonce, rfl, hframe⟩ := Operation.beat?_eq_pong_iff.1 hpong
    have hother : ∀ token, Frame.pong nonce ≠ .hello token := by simp
    rw [perform, receive_of_down hdown hframe hother now] at hperform
    obtain ⟨-, rfl⟩ := Prod.mk.inj (Except.ok.inj hperform)
    rfl

/-! ## Calls that concern the keepalive -/

/-- A PONG is heard, and nothing else happens. -/
theorem perform_pong {now : Nat} (hup : e.phase = .established)
    (hpong : op.beat? = some (.pong now)) (hperform : e.perform op = .ok (answer, e')) :
    op.isTick = false ∧ e'.keepalive = e.keepalive.heardPong now := by
  obtain ⟨datagram, nonce, rfl, hframe⟩ := Operation.beat?_eq_pong_iff.1 hpong
  rw [perform, receive_pong hup hframe now] at hperform
  obtain ⟨-, rfl⟩ := Prod.mk.inj (Except.ok.inj hperform)
  exact ⟨rfl, rfl⟩

/-- A tick of a connection that is up ends it. -/
theorem perform_tick_timedOut {now : Nat} (hup : e.phase = .established)
    (halarm : (e.keepalive.tick now).1 = some .timedOut) :
    ∃ e', e.perform (.tick now) = .ok (.done, e') ∧ e'.phase = .closing ∧
      e'.events = e.events ++ [.down .pongTimeout] ∧ e.pings (.tick now) = [] := by
  have hperform : e.perform (.tick now) = .ok (.done,
      { e with keepalive := (e.keepalive.tick now).2 }.finish (.down .pongTimeout)) := by
    rw [perform, tick, hup]
    dsimp only [tickEstablished]
    rw [halarm]
    dsimp only
    rw [goDown, if_pos hup]
    rfl
  refine ⟨_, hperform, rfl, rfl, ?_⟩
  rw [pings, emits_eq hperform]
  simp [finish, pingsAmong]

/-- A tick of a connection that is up leaves it up, and a PING goes out exactly if one is due. -/
theorem perform_tick_intime {now : Nat} (hup : e.phase = .established) (hdata : HoldsData e.queue)
    (halarm : (e.keepalive.tick now).1 ≠ some .timedOut)
    (hperform : e.perform (.tick now) = .ok (answer, e')) :
    e'.phase = .established ∧ e'.keepalive = (e.keepalive.tick now).2 ∧ e'.events = e.events ∧
      e.pings (.tick now) = if (e.keepalive.tick now).1 = some .ping then [now] else [] := by
  obtain ⟨e₁, htick, hpair⟩ := bind_eq_ok hperform
  obtain ⟨-, rfl⟩ := Prod.mk.inj (Except.ok.inj hpair)
  obtain ⟨hup', hevents, hkeepalive, -⟩ := tick_watched hup htick halarm
  refine ⟨hup', hkeepalive, hevents, ?_⟩
  rw [pings, emits_eq hperform]
  rw [tick, hup] at htick
  dsimp only [tickEstablished] at htick
  cases hask : (e.keepalive.tick now).1 with
  | none =>
    rw [hask] at htick
    dsimp only at htick
    rw [pingsAmong_pump htick (List.append_nil e.outbox).symm hdata]
    rfl
  | some alarm =>
    rw [hask] at htick
    cases alarm with
    | timedOut => exact absurd hask halarm
    | ping =>
      dsimp only at htick
      rw [pingsAmong_pump (e := e) htick rfl hdata, pingsAmong_ping]
      rfl

/-- A tick of a connection that is up has a result if frames can be sent. -/
theorem perform_tick_of_pumpable (hup : e.phase = .established) {now : Nat}
    (hready : e.Pumpable now) : ∃ e', e.perform (.tick now) = .ok (.done, e') := by
  suffices htick : ∃ e', e.tick now = .ok e' by
    obtain ⟨e', htick⟩ := htick
    exact ⟨e', by rw [perform, htick]; rfl⟩
  rw [tick, hup]
  dsimp only [tickEstablished]
  split
  · exact ⟨_, rfl⟩
  · exact exists_pump_iff.2 hready
  · exact exists_pump_iff.2 hready

/-- No call changes the limits of the keepalive. -/
theorem limits_of_perform (h : e.perform op = .ok (answer, e')) :
    e.keepalive.SameLimits e'.keepalive := by
  cases perform_deed h with
  | acts hacts _ _ =>
    refine hacts.induct (P := fun e' => e.keepalive.SameLimits e'.keepalive) (fun ih act => ?_)
      ⟨rfl, rfl⟩
    exact ⟨act.limits.1.trans ih.1, act.limits.2.trans ih.2⟩
  | transmit _ => exact ⟨rfl, rfl⟩
  | report _ => exact ⟨rfl, rfl⟩
  | shut _ _ => exact ⟨rfl, rfl⟩

/-- A connection that has ended does not come back. -/
theorem opened_of_perform (h : e.perform op = .ok (answer, e'))
    (hopen : e'.phase.isTerminal = false) : e.phase.isTerminal = false := by
  rcases perform_next h with hsame | hnext
  · exact hsame ▸ hopen
  · revert hopen
    generalize e.phase = before, e'.phase = after at hnext
    cases hnext <;> simp [Phase.isTerminal]

/-! ## Runs -/

/-- The endpoint remembers what it needs of these beats and PINGs. -/
structure Watching (e : Endpoint α σ) (settings : Settings) (beats : List Beat) (sent : List Nat) :
    Prop where
  pingInterval : e.keepalive.pingInterval = settings.pingInterval
  pongTimeout : e.keepalive.pongTimeout = settings.pongTimeout
  remembers : e.phase.isTerminal = false → Remembers beats sent e.keepalive.watch
  spaced : sent.IsChain fun earlier later => earlier + settings.pingInterval ≤ later

namespace Watching

variable {settings : Settings} {before : List Beat} {sent : List Nat}

/-- A tick of a connection that is up is remembered, and a PING that goes out keeps its distance. -/
theorem tick (h : Watching e settings before sent) (hpos : 0 < settings.pingInterval)
    (hdata : HoldsData e.queue) (hup : e.phase = .established) {now : Nat}
    (hperform : e.perform (.tick now) = .ok (answer, e')) :
    Watching e' settings (before ++ [.tick now]) (sent ++ e.pings (.tick now)) := by
  have hlimits := limits_of_perform hperform
  have hping := hlimits.1.trans h.pingInterval
  have hpong := hlimits.2.trans h.pongTimeout
  have hmemory := h.remembers (isTerminal_of_established hup)
  by_cases halarm : (e.keepalive.tick now).1 = some .timedOut
  · obtain ⟨e₁, hperform₁, hphase, -, hsilent⟩ := perform_tick_timedOut hup halarm
    obtain ⟨-, rfl⟩ := Prod.mk.inj (Except.ok.inj (hperform.symm.trans hperform₁))
    rw [hsilent, List.append_nil]
    exact ⟨hping, hpong, fun hopen => by simp [hphase, Phase.isTerminal] at hopen, h.spaced⟩
  · obtain ⟨-, hkeepalive, -, hsent⟩ := perform_tick_intime hup hdata halarm hperform
    rw [hsent]
    refine ⟨hping, hpong, fun _ => hkeepalive ▸ hmemory.tick halarm, ?_⟩
    split
    · rename_i hdue
      refine List.isChain_append.2 ⟨h.spaced, .singleton now, fun last hlast next hnext => ?_⟩
      obtain rfl : now = next := Option.some.inj hnext
      have hgap := (hmemory.ping_iff halarm).1 hdue last hlast
      rw [h.pingInterval, elapsed] at hgap
      omega
    · rw [List.append_nil]
      exact h.spaced

/-- Any call is remembered as far as it matters. -/
theorem step (h : Watching e settings before sent) (hpos : 0 < settings.pingInterval)
    (hlived : e.Lived past) (hdata : HoldsData e.queue)
    (hperform : e.perform op = .ok (answer, e')) :
    Watching e' settings (before ++ e.beats op) (sent ++ e.pings op) := by
  have hlimits := limits_of_perform hperform
  have hping := hlimits.1.trans h.pingInterval
  have hpong := hlimits.2.trans h.pongTimeout
  rcases e.beats_cases op with hquiet | ⟨hup, beat, hbeat, hbeats⟩
  · rw [hlived.pings_eq_nil hdata hperform (not_up_of_beats hquiet), hquiet, List.append_nil,
      List.append_nil]
    refine ⟨hping, hpong, fun hopen => ?_, h.spaced⟩
    rw [keepalive_of_perform hperform hquiet hopen]
    exact h.remembers (opened_of_perform hperform hopen)
  · rw [hbeats]
    cases beat with
    | tick now =>
      obtain rfl := Operation.beat?_eq_tick_iff.1 hbeat
      exact h.tick hpos hdata hup hperform
    | pong now =>
      obtain ⟨hother, hheard⟩ := perform_pong hup hbeat hperform
      rw [hlived.pings_eq_nil hdata hperform (by simp [hother]), List.append_nil]
      have hmemory := h.remembers (isTerminal_of_established hup)
      exact ⟨hping, hpong, fun _ => hheard ▸ hmemory.heardPong now, h.spaced⟩

/-- A tick of a connection that is up has a result if frames can be sent, and also if the peer is
given up. -/
theorem exists_tick (h : Watching e settings before sent) (hup : e.phase = .established) {now : Nat}
    (hready : e.Pumpable now ∨
      ∃ since, waitingSince? before = some since ∧ since + settings.pongTimeout ≤ now) :
    ∃ e', e.perform (.tick now) = .ok (.done, e') := by
  rcases hready with hready | ⟨since, hsince, hwaited⟩
  · exact perform_tick_of_pumpable hup hready
  · have hmemory := h.remembers (isTerminal_of_established hup)
    have hlate : e.keepalive.pongTimeout ≤ elapsed now since := by
      rw [h.pongTimeout, elapsed]
      omega
    obtain ⟨e', hperform, -⟩ :=
      perform_tick_timedOut hup ((hmemory.timedOut_iff now).2 ⟨since, hsince, hlate⟩)
    exact ⟨e', hperform⟩

/-- What a tick of a connection that is up does is settled by what is remembered. -/
theorem tick_exact (h : Watching e settings before sent) (hvalid : settings.validate = .ok ())
    (hdata : HoldsData e.queue) (hup : e.phase = .established) {now : Nat}
    (hperform : e.perform (.tick now) = .ok (answer, e')) :
    (waitingSince? before = none → e'.events = e.events ∧ e.pings (.tick now) = [now]) ∧
      ∀ since, waitingSince? before = some since →
        (since + settings.pongTimeout ≤ now →
          e'.events = e.events ++ [.down .pongTimeout] ∧ e.pings (.tick now) = []) ∧
        (now < since + settings.pongTimeout → e'.events = e.events ∧
          ∃ last, sent.getLast? = some last ∧ e.pings (.tick now) =
            if last + settings.pingInterval ≤ now then [now] else []) := by
  have hmemory := h.remembers (isTerminal_of_established hup)
  have hlate := hmemory.timedOut_iff now
  rw [h.pongTimeout] at hlate
  have hpingPos := Settings.pingInterval_pos hvalid
  have hpongPos := Settings.pongTimeout_pos hvalid
  constructor
  · intro hnone
    have hintime : (e.keepalive.tick now).1 ≠ some .timedOut := by simp [hlate, hnone]
    obtain ⟨-, -, hevents, hsent⟩ := perform_tick_intime hup hdata hintime hperform
    have hdue : (e.keepalive.tick now).1 = some .ping := by
      simp [hmemory.ping_iff hintime, hmemory.latest.1 hnone]
    exact ⟨hevents, by rw [hsent, if_pos hdue]⟩
  · intro since hsince
    have hlate' : (e.keepalive.tick now).1 = some .timedOut ↔
        settings.pongTimeout ≤ now - since := by
      simp [hlate, hsince, elapsed]
    constructor
    · intro hwaited
      obtain ⟨e₁, hperform₁, -, hevents, hsilent⟩ :=
        perform_tick_timedOut hup (hlate'.2 (by omega))
      obtain ⟨-, rfl⟩ := Prod.mk.inj (Except.ok.inj (hperform.symm.trans hperform₁))
      exact ⟨hevents, hsilent⟩
    · intro hwaiting
      have hintime : (e.keepalive.tick now).1 ≠ some .timedOut := fun halarm => by
        have hwaited := hlate'.1 halarm
        omega
      obtain ⟨-, -, hevents, hsent⟩ := perform_tick_intime hup hdata hintime hperform
      obtain ⟨last, hlast⟩ := hmemory.latest.2 since hsince
      have hdue : (e.keepalive.tick now).1 = some .ping ↔ last + settings.pingInterval ≤ now := by
        simp only [hmemory.ping_iff hintime, hlast, Option.mem_some, forall_eq', h.pingInterval,
          elapsed]
        omega
      refine ⟨hevents, last, hlast, ?_⟩
      rw [hsent]
      simp only [hdue]

end Watching

/-- The peer is given up at most once. -/
theorem count_pongTimeout_le {phase : Phase} {told : List Event} (h : Chronicle phase told) :
    told.count (.down .pongTimeout) ≤ 1 := by
  have hnone : ∀ {arrivals : List Event}, (∀ event ∈ arrivals, event.isArrival = true) →
      arrivals.count (.down .pongTimeout) = 0 := fun harrive =>
    List.count_eq_zero.2 fun hmem => nomatch harrive _ hmem
  cases h with
  | silent => simp
  | up arrive => simp [hnone arrive]
  | failed _ _ => simp
  | down _ arrive reason =>
    simp only [List.count_cons, List.count_append, hnone arrive, List.count_nil]
    split <;> simp

/-- Throughout a run the endpoint remembers what it needs. -/
theorem watching_run {settings : Settings} {token : Bytes} {transform : Transform σ} {secret : σ}
    {nonces : Nat → Nonce} {e₀ : Endpoint α σ} {ops : List Operation} {answers : List Answer}
    (hcreate : create settings token transform secret nonces = .ok e₀)
    (hrun : e₀.performAll ops = .ok (answers, e)) :
    Watching e settings (e₀.history beats ops) (e₀.history pings ops) := by
  obtain ⟨hvalid, -, hnew, -, hkeepalive⟩ := create_eq_ok hcreate
  have hstart : Watching e₀ settings [] [] := by
    constructor
    · rw [hkeepalive]
    · rw [hkeepalive]
    · rw [hkeepalive]
      exact fun _ => .idle rfl
    · exact .nil
  refine performAll_induct_past
    (P := fun ops _ e => Watching e settings (e₀.history beats ops) (e₀.history pings ops))
    (fun {ops answers e₁ e₂ op answer} hrun₁ ih hperform => ?_) hstart hrun
  rw [history_concat beats hrun₁, history_concat pings hrun₁]
  exact ih.step (Settings.pingInterval_pos hvalid) (hnew.lived.run hrun₁)
    (holdsData_run hcreate hrun₁) hperform

/-- When a tick of a connection that is up gives up the peer or sends a PING is settled by the
history of the run.  The first one sends a PING.  A later one gives up the peer if the last PONG
after the first tick, or else that tick, is `pongTimeout` ago; if not, it sends a PING if the last
one is `pingInterval` ago.  No other call does either.  So PINGs keep their distance, and the peer
is given up at most once.  Only for a tick that does not give up the peer the retransmit timeout,
and the deadlines that are computed with it, must have values. -/
theorem watch_exact {settings : Settings} {token : Bytes} {transform : Transform σ} {secret : σ}
    {nonces : Nat → Nonce} {e₀ : Endpoint α σ} {ops : List Operation} {answers : List Answer}
    (hcreate : create settings token transform secret nonces = .ok e₀)
    (hrun : e₀.performAll ops = .ok (answers, e)) :
    (e.phase = .established → ∀ now,
      (e.Pumpable now ∨
          (∃ since, waitingSince? (e₀.history beats ops) = some since ∧
            since + settings.pongTimeout ≤ now) →
        ∃ e', e.perform (.tick now) = .ok (.done, e')) ∧
      ∀ answer e', e.perform (.tick now) = .ok (answer, e') →
        (waitingSince? (e₀.history beats ops) = none →
          e'.events = e.events ∧ e.pings (.tick now) = [now]) ∧
        ∀ since, waitingSince? (e₀.history beats ops) = some since →
          (since + settings.pongTimeout ≤ now →
            e'.events = e.events ++ [.down .pongTimeout] ∧ e.pings (.tick now) = []) ∧
          (now < since + settings.pongTimeout → e'.events = e.events ∧
            ∃ last, (e₀.history pings ops).getLast? = some last ∧ e.pings (.tick now) =
              if last + settings.pingInterval ≤ now then [now] else [])) ∧
    (∀ op answer e', e.perform op = .ok (answer, e') →
      (op.isTick = true → e.phase ≠ .established) → e.pings op = [] ∧
        ∃ news, answer.taken ++ e'.events = e.events ++ news ∧ .down .pongTimeout ∉ news) ∧
    ((e₀.history pings ops).IsChain fun earlier later =>
      earlier + settings.pingInterval ≤ later) ∧
    (answers.flatMap Answer.taken ++ e.events).count (.down .pongTimeout) ≤ 1 := by
  have hvalid := (create_eq_ok hcreate).1
  have hlived := (create_new hcreate).lived.run hrun
  have hdata := holdsData_run hcreate hrun
  have hwatching := watching_run hcreate hrun
  refine ⟨fun hup now => ⟨hwatching.exists_tick hup, ?_⟩, ?_, hwatching.spaced, ?_⟩
  · intro answer e' hperform
    exact hwatching.tick_exact hvalid hdata hup hperform
  · intro op answer e' hperform hfree
    exact ⟨hlived.pings_eq_nil hdata hperform hfree, (perform_calm hperform hfree).2.2⟩
  · exact count_pongTimeout_le hlived.chronicle

/-- The PONG before the first tick counts for nothing, and the one at 9 starts the wait anew.  So a
tick at 20 sends a PING, and a tick at 21 gives up the peer. -/
theorem watch_exact_twelve : ∃ (nonces : Nat → Nonce) (e₀ e : Endpoint Rat Unit)
    (ops : List Operation) (answers : List Answer),
      create { pingInterval := 5, pongTimeout := 12 } [7] .plain () nonces = .ok e₀ ∧
        e₀.performAll ops = .ok (answers, e) ∧
        e₀.history beats ops = [.pong 1, .tick 2, .tick 6, .tick 7, .pong 9, .tick 13] ∧
        e₀.history pings ops = [2, 7, 13] ∧ e.pings (.tick 20) = [20] ∧
        ∃ e', e.perform (.tick 21) = .ok (.done, e') ∧
          e'.events = e.events ++ [.down .pongTimeout] := by
  let pong : Bytes := (Frame.pong blankNonce).encode
  let ops : List Operation := [.connect 0, .receive (Frame.hello [7]).encode 0, .receive pong 1,
    .tick 2, .tick 6, .tick 7, .receive pong 9, .tick 13]
  obtain ⟨e₀, hcreate, hrest⟩ := exists_of_any_toOption
    (show (blank { pingInterval := 5, pongTimeout := 12 } [7]).toOption.any (fun e₀ =>
      (e₀.history beats ops == [.pong 1, .tick 2, .tick 6, .tick 7, .pong 9, .tick 13] &&
        e₀.history pings ops == [2, 7, 13]) &&
          (e₀.performAll ops).toOption.any fun r =>
            r.2.phase == .established && r.2.roundTrip.timeout.toOption.any fun timeout =>
              decide (r.2.queue.schedule.InReach 20 timeout)) = true
      by decide +kernel)
  simp only [Bool.and_eq_true, beq_iff_eq] at hrest
  obtain ⟨⟨hbeats, hpings⟩, hrest⟩ := hrest
  obtain ⟨⟨answers, e⟩, hrun, hready⟩ := exists_of_any_toOption hrest
  rw [Bool.and_eq_true, beq_iff_eq] at hready
  obtain ⟨hup, hready⟩ := hready
  obtain ⟨timeout, htimeout, hreach⟩ := exists_of_any_toOption hready
  have hticks := (watch_exact hcreate hrun).1 hup
  have hsince : waitingSince? (e₀.history beats ops) = some 9 := by
    rw [hbeats]
    rfl
  obtain ⟨hdone, hlater⟩ := hticks 20
  obtain ⟨e₁, htick₁⟩ := hdone (.inl ⟨timeout, htimeout, of_decide_eq_true hreach⟩)
  obtain ⟨-, last, hlast, hping⟩ := ((hlater _ _ htick₁).2 9 hsince).2 (by decide)
  rw [hpings] at hlast
  obtain rfl : 13 = last := Option.some.inj hlast
  obtain ⟨hdone, hlater⟩ := hticks 21
  obtain ⟨e₂, htick₂⟩ := hdone (.inr ⟨9, hsince, by decide⟩)
  exact ⟨_, e₀, e, ops, answers, hcreate, hrun, hbeats, hpings, hping, e₂, htick₂,
    (((hlater _ _ htick₂).2 9 hsince).1 (by decide)).1⟩

end Endpoint

end DatagramTunnel.Session
