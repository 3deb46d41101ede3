import DatagramTunnel.Proofs.Session.Acts
import DatagramTunnel.Proofs.Session.Creation

/-!
# A peer that answers is not given up

The driver of an endpoint ticks it whenever the interval that it asked for after the last tick has
passed, and the peer answers every PING at the instant of the tick that sent it.  `Driven` is an
endpoint in such hands, and `Driven.call` refuses a call that would break the rules: a tick at
another time, or a later instant while a PING is unanswered.

A PING and the end of the wait for its answer are both noticed only at ticks, and a tick judges the
wait before it sends the next PING.  So the wait can last for a PING interval and one interval
between ticks more, though every PING is answered at once.  `answered_never_times_out` says that the
connection is safe if this sum does not exceed the PONG timeout, and `answered_times_out` shows
settings, valid ones, for which it does.
-/

namespace DatagramTunnel.Session

open Flight Packet Wire

theorem Settings.pingInterval_pos {s : Settings} (h : s.validate = .ok ()) :
    0 < s.pingInterval := by
  have hrule := Settings.validate_eq_ok_iff.1 h (s.pingInterval != 0, .zeroPingInterval)
    (by simp [rules])
  simpa [Nat.pos_iff_ne_zero] using hrule

/-- Whether the call is a tick. -/
def Operation.isTick : Operation → Bool
  | .tick _ => true
  | _ => false

namespace Keepalive

/-- The settings of a keepalive are what they were. -/
def SameLimits (k k' : Keepalive) : Prop :=
  k'.pingInterval = k.pingInterval ∧ k'.pongTimeout = k.pongTimeout

theorem tick_limits (k : Keepalive) (now : Nat) : k.SameLimits (k.tick now).2 := by
  unfold tick
  split
  · exact ⟨rfl, rfl⟩
  · split
    · exact ⟨rfl, rfl⟩
    · split <;> exact ⟨rfl, rfl⟩
  · exact ⟨rfl, rfl⟩

theorem heardPong_limits (k : Keepalive) (now : Nat) : k.SameLimits (k.heardPong now) := by
  unfold heardPong
  split <;> exact ⟨rfl, rfl⟩

theorem heardPong_idle {k : Keepalive} (h : k.watch = .idle) (now : Nat) :
    k.heardPong now = k := by
  simp [heardPong, h]

theorem heardPong_heardPong (k : Keepalive) (now : Nat) :
    (k.heardPong now).heardPong now = k.heardPong now := by
  cases h : k.watch <;> simp [heardPong, h]

end Keepalive

namespace Endpoint

variable {α σ : Type} {e e' e'' : Endpoint α σ} {op : Operation}

/-- What a call other than a tick of a connection that is up does to the keepalive: it is set back,
or it hears a PONG at most, and then the connection stays up. -/
def Minds (op : Operation) (e e' : Endpoint α σ) : Prop :=
  e'.keepalive.watch = .idle ∨
    (e.phase = .established → e'.phase = .established) ∧
      (e'.keepalive = e.keepalive ∨
        ∃ now, op.instant? = some now ∧ e'.keepalive = e.keepalive.heardPong now)

theorem Minds.trans (first : Minds op e e') (second : Minds op e' e'') : Minds op e e'' := by
  rcases second with hidle | ⟨hup', hsame' | ⟨now, hnow, hheard'⟩⟩
  · exact .inl hidle
  · rcases first with hidle | ⟨hup, hsame⟩
    · exact .inl (hsame' ▸ hidle)
    · exact .inr ⟨fun h => hup' (hup h), hsame' ▸ hsame⟩
  · rcases first with hidle | ⟨hup, hsame | ⟨now₁, hnow₁, hheard⟩⟩
    · rw [Keepalive.heardPong_idle hidle] at hheard'
      exact .inl (hheard' ▸ hidle)
    · exact .inr ⟨fun h => hup' (hup h), .inr ⟨now, hnow, hsame ▸ hheard'⟩⟩
    · obtain rfl : now₁ = now := Option.some.inj (hnow₁.symm.trans hnow)
      rw [hheard, Keepalive.heardPong_heardPong] at hheard'
      exact .inr ⟨fun h => hup' (hup h), .inr ⟨now₁, hnow, hheard'⟩⟩

variable [Mul α] [Seconds α]

/-- A tick of a connection that is up leaves it up unless the wait has been too long, and a PING
that is due goes out. -/
theorem tick_watched {now : Nat} (hup : e.phase = .established) (h : e.tick now = .ok e')
    (hintime : (e.keepalive.tick now).1 ≠ some .timedOut) :
    e'.phase = .established ∧ e'.events = e.events ∧ e'.keepalive = (e.keepalive.tick now).2 ∧
      ((e.keepalive.tick now).1 = some .ping →
        ∃ others, e'.outbox =
          e.outbox ++ (Frame.ping (e.nonces e.counters.pingsSent)).encode :: others) := by
  rw [tick, hup] at h
  dsimp only [tickEstablished] at h
  cases halarm : (e.keepalive.tick now).1 with
  | none =>
    rw [halarm] at h
    obtain ⟨timeout, -, rfl⟩ := pump_eq_ok h
    refine ⟨hup, rfl, rfl, fun hping => ?_⟩
    cases hping
  | some alarm =>
    rw [halarm] at h
    cases alarm with
    | timedOut => exact absurd halarm hintime
    | ping =>
      obtain ⟨timeout, -, rfl⟩ := pump_eq_ok h
      exact ⟨hup, rfl, rfl, fun _ => ⟨_, List.append_assoc _ _ _⟩⟩

/-- The interval between ticks of a connection that is up is never nought. -/
theorem nextTickInterval_pos (hup : e.phase = .established) {gap : Nat}
    (h : e.nextTickInterval = .ok gap) : 0 < gap := by
  obtain ⟨interval, hinterval, hgap⟩ := bind_eq_ok h
  obtain ⟨timeout, -, hrest⟩ := bind_eq_ok hinterval
  obtain ⟨part, -, hpart⟩ := bind_eq_ok hrest
  have hle : RoundTrip.minTickInterval ≤ interval :=
    Except.ok.inj hpart ▸ Nat.le_max_right part RoundTrip.minTickInterval
  have hpos : 0 < RoundTrip.minTickInterval := by decide
  rw [hup] at hgap
  obtain rfl : interval = gap := Except.ok.inj hgap
  omega

variable [Add α] [Sub α]

theorem Act.limits (h : Act op e e') : e.keepalive.SameLimits e'.keepalive := by
  cases h with
  | expire _ _ => exact e.keepalive.tick_limits _
  | ping _ _ => exact e.keepalive.tick_limits _
  | heard _ _ => exact e.keepalive.heardPong_limits _
  | offer _ _ =>
    rw [offered_eq]
    exact ⟨rfl, rfl⟩
  | _ => exact ⟨rfl, rfl⟩

theorem Act.minds (h : Act op e e') (hfree : op.isTick = true → e.phase ≠ .established) :
    Minds op e e' := by
  cases h with
  | fail _ _ => exact .inl rfl
  | mismatch _ _ _ => exact .inl rfl
  | down _ _ => exact .inl rfl
  | expire up _ => exact absurd up (hfree rfl)
  | ping up _ => exact absurd up (hfree rfl)
  | rise _ _ => exact .inr ⟨fun _ => rfl, .inl rfl⟩
  | heard _ _ => exact .inr ⟨id, .inr ⟨_, rfl, rfl⟩⟩
  | offer _ _ =>
    rw [offered_eq]
    exact .inr ⟨id, .inl rfl⟩
  | _ => exact .inr ⟨id, .inl rfl⟩

/-- Only a tick of a connection that is up reports that the peer stopped answering. -/
theorem Act.no_timeout (h : Act op e e') (hfree : op.isTick = true → e.phase ≠ .established) :
    ∃ news, e'.events = e.events ++ news ∧ Event.down .pongTimeout ∉ news := by
  cases h with
  | @fail _ _ _ reason _ => exact ⟨[.failed reason], rfl, by simp⟩
  | mismatch _ _ _ => exact ⟨[.failed .tokenMismatch], rfl, by simp⟩
  | @down _ _ _ reason other => exact ⟨[.down reason], rfl, by simp [other.symm]⟩
  | expire up _ => exact absurd up (hfree rfl)
  | rise _ _ => exact ⟨[.up], rfl, by simp⟩
  | packet _ content => exact ⟨[.packet content], rfl, by simp⟩
  | raw _ id content => exact ⟨[.raw id content], rfl, by simp⟩
  | offer _ _ =>
    rw [offered_eq]
    exact ⟨[], by simp, by simp⟩
  | _ => exact ⟨[], (List.append_nil _).symm, List.not_mem_nil⟩

/-- A tick does not bring a connection up. -/
theorem Act.free (h : Act op e e') (hfree : op.isTick = true → e.phase ≠ .established) :
    op.isTick = true → e'.phase ≠ .established := by
  intro htick
  cases h with
  | fail _ _ => exact nofun
  | mismatch _ _ _ => exact nofun
  | down _ _ => exact nofun
  | expire _ _ => exact nofun
  | rise _ _ => cases htick
  | offer _ _ => cases htick
  | _ => exact hfree htick

/-- What a call other than a tick of a connection that is up does to the keepalive and the
events. -/
structure Calm (op : Operation) (e e' : Endpoint α σ) : Prop where
  limits : e.keepalive.SameLimits e'.keepalive
  minds : Minds op e e'
  news : ∃ news, e'.events = e.events ++ news ∧ Event.down .pongTimeout ∉ news

theorem Acts.calm (h : Acts op e e') (hfree : op.isTick = true → e.phase ≠ .established) :
    Calm op e e' := by
  have hall : (op.isTick = true → e'.phase ≠ .established) ∧ Calm op e e' := by
    refine h.induct (P := fun e' => (op.isTick = true → e'.phase ≠ .established) ∧ Calm op e e')
      (fun {e₁ e₂} ih act => ?_) ?_
    · obtain ⟨hfree₁, hcalm⟩ := ih
      obtain ⟨news, hnews, hnone⟩ := hcalm.news
      obtain ⟨news', hnews', hnone'⟩ := act.no_timeout hfree₁
      refine ⟨act.free hfree₁, ⟨?_, hcalm.minds.trans (act.minds hfree₁), news ++ news', ?_, ?_⟩⟩
      · exact ⟨act.limits.1.trans hcalm.limits.1, act.limits.2.trans hcalm.limits.2⟩
      · rw [hnews', hnews, List.append_assoc]
      · simp [hnone, hnone']
    · exact ⟨hfree, ⟨rfl, rfl⟩, .inr ⟨id, .inl rfl⟩, [], by simp, by simp⟩
  exact hall.2

/-- What a call other than a tick of a connection that is up does, with what it hands out. -/
theorem perform_calm {answer : Answer} (h : e.perform op = .ok (answer, e'))
    (hfree : op.isTick = true → e.phase ≠ .established) :
    e.keepalive.SameLimits e'.keepalive ∧ Minds op e e' ∧
      ∃ news, answer.taken ++ e'.events = e.events ++ news ∧ Event.down .pongTimeout ∉ news := by
  cases perform_deed h with
  | acts hacts _ taken =>
    obtain ⟨hlimits, hminds, hnews⟩ := hacts.calm hfree
    rw [taken]
    exact ⟨hlimits, hminds, hnews⟩
  | transmit _ => exact ⟨⟨rfl, rfl⟩, .inr ⟨id, .inl rfl⟩, [], by simp [Answer.taken, count]⟩
  | report events =>
    exact ⟨⟨rfl, rfl⟩, .inr ⟨id, .inl rfl⟩, [], by simp [Answer.taken, events]⟩
  | shut phase _ =>
    have hdown : e.phase ≠ .established := by simp [phase]
    exact ⟨⟨rfl, rfl⟩, .inr ⟨fun hup => absurd hup hdown, .inl rfl⟩, [], by simp [Answer.taken]⟩

end Endpoint

/-- The PINGs among datagrams. -/
def pingsAmong (datagrams : List Bytes) : List Nonce :=
  datagrams.filterMap fun datagram =>
    match Frame.decode datagram with
    | .ok (.ping nonce) => some nonce
    | _ => none

/-- What is left to answer after the call. -/
def Operation.settle (owed : List Nonce) : Operation → List Nonce
  | .receive datagram _ =>
    match Frame.decode datagram with
    | .ok (.pong nonce) => owed.erase nonce
    | _ => owed
  | _ => owed

/-- An endpoint with a driver that ticks it on time and a peer that answers PINGs at once. -/
structure Driven (α σ : Type) where
  endpoint : Endpoint α σ
  /-- The instant of the latest call. -/
  now : Nat := 0
  /-- The latest tick while the connection was up, with the interval that was asked for then. -/
  beat : Option (Nat × Nat) := none
  /-- The PINGs that have to be answered at this instant. -/
  owed : List Nonce := []
  /-- The intervals that have passed between ticks while the connection was up. -/
  gaps : List Nat := []
  /-- The events that the application has taken. -/
  told : List Event := []

namespace Driven

variable {α σ : Type}

/-- Time does not run backwards, and it stands still while a PING is unanswered. -/
def Follows (s : Driven α σ) (now : Nat) : Prop := s.now ≤ now ∧ (s.owed = [] ∨ now = s.now)

instance (s : Driven α σ) (now : Nat) : Decidable (s.Follows now) :=
  inferInstanceAs (Decidable (_ ∧ _))

variable [Mul α] [Seconds α]

/-- Ticks an endpoint that is up, and asks when to do so again. -/
def tick (s : Driven α σ) (now : Nat) : Except TimeError (Driven α σ) := do
  let endpoint ← s.endpoint.tick now
  let gap ← endpoint.nextTickInterval
  return { s with
    endpoint, now
    beat := some (now, gap)
    owed := s.owed ++ pingsAmong (endpoint.outbox.drop s.endpoint.outbox.length)
    gaps := s.gaps ++ (s.beat.map Prod.snd).toList }

theorem tick_eq_ok {s s' : Driven α σ} {now : Nat} (h : s.tick now = .ok s') :
    ∃ gap, s.endpoint.tick now = .ok s'.endpoint ∧ s'.endpoint.nextTickInterval = .ok gap ∧
      s'.now = now ∧ s'.beat = some (now, gap) ∧
      s'.owed = s.owed ++ pingsAmong (s'.endpoint.outbox.drop s.endpoint.outbox.length) ∧
      s'.gaps = s.gaps ++ (s.beat.map Prod.snd).toList ∧ s'.told = s.told := by
  obtain ⟨endpoint, htick, hrest⟩ := bind_eq_ok h
  obtain ⟨gap, hgap, hs'⟩ := bind_eq_ok hrest
  obtain rfl := Except.ok.inj hs'
  exact ⟨gap, htick, hgap, rfl, rfl, rfl, rfl, rfl⟩

variable [Add α] [Sub α]

/-- Makes any other call. -/
def perform (s : Driven α σ) (op : Operation) : Except TimeError (Driven α σ) := do
  let (answer, endpoint) ← s.endpoint.perform op
  return { s with
    endpoint
    now := op.instant?.getD s.now
    owed := op.settle s.owed
    told := s.told ++ answer.taken }

/-- Makes a call, if it may be made: a connection that is up is ticked when it is due. -/
def call (s : Driven α σ) (op : Operation) : Option (Driven α σ) :=
  let now := op.instant?.getD s.now
  if s.Follows now then
    if s.endpoint.phase = .established ∧ op.isTick then
      if ∀ beat ∈ s.beat, now = beat.1 + beat.2 then (s.tick now).toOption else none
    else (s.perform op).toOption
  else none

/-- The states that the calls lead to. -/
inductive Run (s₀ : Driven α σ) : Driven α σ → Prop
  | start : Run s₀ s₀
  | step {s s' : Driven α σ} {op : Operation} (before : Run s₀ s) (call : s.call op = some s') :
    Run s₀ s'

theorem perform_eq_ok {s s' : Driven α σ} {op : Operation} (h : s.perform op = .ok s') :
    ∃ answer, s.endpoint.perform op = .ok (answer, s'.endpoint) ∧
      s'.now = op.instant?.getD s.now ∧ s'.beat = s.beat ∧ s'.owed = op.settle s.owed ∧
      s'.gaps = s.gaps ∧ s'.told = s.told ++ answer.taken := by
  obtain ⟨⟨answer, endpoint⟩, hperform, hs'⟩ := bind_eq_ok h
  obtain rfl := Except.ok.inj hs'
  exact ⟨answer, hperform, rfl, rfl, rfl, rfl, rfl⟩

/-- A call is a tick of a connection that is up, at its time, or any other operation. -/
theorem call_cases {s s' : Driven α σ} {op : Operation} (h : s.call op = some s') :
    (∃ now, s.Follows now ∧ s.endpoint.phase = .established ∧
      (∀ beat ∈ s.beat, now = beat.1 + beat.2) ∧ s.tick now = .ok s') ∨
    s.Follows (op.instant?.getD s.now) ∧ (op.isTick = true → s.endpoint.phase ≠ .established) ∧
      s.perform op = .ok s' := by
  unfold call at h
  dsimp only at h
  split at h
  · rename_i hfollows
    split at h
    · rename_i hbeat
      split at h
      · rename_i hdue
        exact .inl ⟨_, hfollows, hbeat.1, hdue, eq_ok_of_toOption h⟩
      · cases h
    · rename_i hfree
      refine .inr ⟨hfollows, fun htick hup => hfree ⟨hup, htick⟩, eq_ok_of_toOption h⟩
  · cases h

end Driven

/-! ## The invariant -/

theorem Operation.settle_cases (op : Operation) (owed : List Nonce) :
    op.settle owed = owed ∨
      ∃ datagram now nonce, op = .receive datagram now ∧
        Frame.decode datagram = .ok (.pong nonce) := by
  unfold Operation.settle
  split
  · split
    · rename_i hframe
      exact .inr ⟨_, _, _, rfl, hframe⟩
    · exact .inl rfl
  · exact .inl rfl

/-- A PING that is answered while the connection is up is heard to be answered. -/
theorem Endpoint.heard_or_owed {α σ : Type} [Add α] [Sub α] [Mul α] [Seconds α]
    {e e' : Endpoint α σ} {op : Operation} {answer : Answer} (hup : e.phase = .established)
    (hperform : e.perform op = .ok (answer, e')) (hsame : e'.keepalive = e.keepalive)
    (owed : List Nonce) :
    op.settle owed = owed ∨
      ∃ now, op.instant? = some now ∧ e'.keepalive = e.keepalive.heardPong now := by
  rcases op.settle_cases owed with hsettle | ⟨datagram, now, nonce, rfl, hframe⟩
  · exact .inl hsettle
  · rw [perform, receive_pong hup hframe] at hperform
    obtain ⟨-, rfl⟩ := Prod.mk.inj (Except.ok.inj hperform)
    exact .inr ⟨now, rfl, rfl⟩

namespace Driven

variable {α σ : Type} {settings : Settings} {s s' : Driven α σ}

/-- The latest PING went out at one of the ticks, and no other was due at the last of them. -/
def Pinged (settings : Settings) (s : Driven α σ) (lastPing : Nat) : Prop :=
  s.endpoint.phase = .established ∧ ∃ last gap, s.beat = some (last, gap) ∧ 0 < gap ∧
    lastPing ≤ last ∧ last ≤ s.now ∧ last < lastPing + settings.pingInterval

/-- How far the keepalive may have come: the latest PING has been answered, or still has to be at
this instant. -/
def OnTime (settings : Settings) (s : Driven α σ) : Watch → Prop
  | .idle => True
  | .active lastPing lastPong =>
    Pinged settings s lastPing ∧ (lastPing ≤ lastPong ∨ s.owed ≠ [] ∧ lastPing = s.now)
  | .timedOut _ _ => False

/-- Until the next tick nothing changes about the latest PING. -/
theorem Pinged.later {lastPing : Nat} (h : Pinged settings s lastPing)
    (hup : s'.endpoint.phase = .established) (hbeat : s'.beat = s.beat) (hnow : s.now ≤ s'.now) :
    Pinged settings s' lastPing := by
  obtain ⟨-, last, gap, hsome, hgap, hping, hlast, hrecent⟩ := h
  exact ⟨hup, last, gap, hbeat.trans hsome, hgap, hping, Nat.le_trans hlast hnow, hrecent⟩

theorem Pinged.le_now {lastPing : Nat} (h : Pinged settings s lastPing) : lastPing ≤ s.now := by
  obtain ⟨-, last, gap, -, -, hping, hlast, -⟩ := h
  exact Nat.le_trans hping hlast

/-- A call that the keepalive does not notice leaves it on time, if it answers no PING. -/
theorem OnTime.keep {watch : Watch} (h : OnTime settings s watch)
    (hup : s.endpoint.phase = .established → s'.endpoint.phase = .established)
    (hbeat : s'.beat = s.beat) (hnow : s.now ≤ s'.now)
    (howed : s.endpoint.phase = .established → s.owed ≠ [] → s'.owed = s.owed ∧ s'.now = s.now) :
    OnTime settings s' watch := by
  cases watch with
  | idle => trivial
  | timedOut lastPing lastPong => exact h.elim
  | active lastPing lastPong =>
    obtain ⟨hpinged, hanswer⟩ := h
    refine ⟨hpinged.later (hup hpinged.1) hbeat hnow, hanswer.imp_right ?_⟩
    rintro ⟨hsome, hping⟩
    obtain ⟨hsame, hstill⟩ := howed hpinged.1 hsome
    exact ⟨hsame.symm ▸ hsome, hping.trans hstill.symm⟩

/-- A PONG answers whatever PING went out before. -/
theorem OnTime.hear {k : Keepalive} (h : OnTime settings s k.watch)
    (hup : s.endpoint.phase = .established → s'.endpoint.phase = .established)
    (hbeat : s'.beat = s.beat) (hnow : s.now ≤ s'.now) :
    OnTime settings s' (k.heardPong s'.now).watch := by
  cases hwatch : k.watch with
  | idle =>
    rw [Keepalive.heardPong_idle hwatch, hwatch]
    trivial
  | timedOut lastPing lastPong =>
    rw [hwatch] at h
    exact h.elim
  | active lastPing lastPong =>
    rw [hwatch] at h
    have hpinged := h.1
    have hheard : (k.heardPong s'.now).watch = .active lastPing s'.now := by
      simp [Keepalive.heardPong, hwatch]
    rw [hheard]
    exact ⟨hpinged.later (hup hpinged.1) hbeat hnow, .inl (Nat.le_trans hpinged.le_now hnow)⟩

/-- What holds of an endpoint whose driver is punctual and whose peer answers. -/
structure Attended (settings : Settings) (s : Driven α σ) : Prop where
  interval : s.endpoint.keepalive.pingInterval = settings.pingInterval
  timeout : s.endpoint.keepalive.pongTimeout = settings.pongTimeout
  calm : Event.down .pongTimeout ∉ s.told ++ s.endpoint.events
  onTime : OnTime settings s s.endpoint.keepalive.watch

namespace Attended

/-- When a tick comes, the wait has not been too long: at the tick before it no PING was due, so
less than a PING interval had passed since the latest one, which was answered at once. -/
theorem tick_watch (h : Attended settings s) (hpos : 0 < settings.pingInterval) {now : Nat}
    (hfollows : s.Follows now) (hdue : ∀ beat ∈ s.beat, now = beat.1 + beat.2)
    (hroom : ∀ beat ∈ s.beat, settings.pingInterval + beat.2 ≤ settings.pongTimeout) :
    ∃ lastPing lastPong, (s.endpoint.keepalive.tick now).1 ≠ some .timedOut ∧
      (s.endpoint.keepalive.tick now).2.watch = .active lastPing lastPong ∧ lastPing ≤ now ∧
      now < lastPing + settings.pingInterval ∧
      (lastPing ≤ lastPong ∨
        (s.endpoint.keepalive.tick now).1 = some .ping ∧ lastPing = now) := by
  have honTime := h.onTime
  cases hwatch : s.endpoint.keepalive.watch with
  | idle =>
    have htick : s.endpoint.keepalive.tick now =
        (some .ping, { s.endpoint.keepalive with watch := .active now now }) := by
      simp [Keepalive.tick, hwatch]
    rw [htick]
    exact ⟨now, now, nofun, rfl, Nat.le_refl _, by omega, .inl (Nat.le_refl _)⟩
  | timedOut lastPing lastPong =>
    rw [hwatch] at honTime
    exact honTime.elim
  | active lastPing lastPong =>
    rw [hwatch] at honTime
    obtain ⟨⟨-, last, gap, hbeat, hgap, hping, hlast, hrecent⟩, hanswer⟩ := honTime
    have hnow : now = last + gap := hdue _ hbeat
    have hsum : settings.pingInterval + gap ≤ settings.pongTimeout := hroom _ hbeat
    have hanswered : lastPing ≤ lastPong := by
      rcases hanswer with hanswered | ⟨howed, hstill⟩
      · exact hanswered
      · have hsame : now = s.now := hfollows.2.resolve_left howed
        omega
    have hwait : ¬ s.endpoint.keepalive.pongTimeout ≤ elapsed now lastPong := by
      rw [h.timeout, elapsed]
      omega
    by_cases hagain : s.endpoint.keepalive.pingInterval ≤ elapsed now lastPing
    · have htick : s.endpoint.keepalive.tick now =
          (some .ping, { s.endpoint.keepalive with watch := .active now lastPong }) := by
        simp [Keepalive.tick, hwatch, hwait, hagain]
      rw [htick]
      exact ⟨now, lastPong, nofun, rfl, Nat.le_refl _, by omega, .inr ⟨rfl, rfl⟩⟩
    · have htick : s.endpoint.keepalive.tick now = (none, s.endpoint.keepalive) := by
        simp [Keepalive.tick, hwatch, hwait, hagain]
      rw [htick]
      rw [h.interval, elapsed] at hagain
      exact ⟨lastPing, lastPong, nofun, hwatch, by omega, by omega, .inl hanswered⟩

theorem tick [Mul α] [Seconds α] (h : Attended settings s) (hpos : 0 < settings.pingInterval)
    {now : Nat} (hfollows : s.Follows now) (hup : s.endpoint.phase = .established)
    (hdue : ∀ beat ∈ s.beat, now = beat.1 + beat.2)
    (hroom : ∀ beat ∈ s.beat, settings.pingInterval + beat.2 ≤ settings.pongTimeout)
    (htick : s.tick now = .ok s') : Attended settings s' := by
  obtain ⟨gap, he', hgap, rfl, hbeat, howed, -, htold⟩ := tick_eq_ok htick
  obtain ⟨lastPing, lastPong, hintime, hwatch, hle, hlt, hanswer⟩ :=
    h.tick_watch hpos hfollows hdue hroom
  obtain ⟨hup', hevents, hkeepalive, hposts⟩ := Endpoint.tick_watched hup he' hintime
  obtain ⟨hinterval, htimeout⟩ := s.endpoint.keepalive.tick_limits s'.now
  refine ⟨?_, ?_, ?_, ?_⟩
  · rw [hkeepalive, hinterval, h.interval]
  · rw [hkeepalive, htimeout, h.timeout]
  · rw [htold, hevents]
    exact h.calm
  · rw [hkeepalive, hwatch]
    have hgap' := Endpoint.nextTickInterval_pos hup' hgap
    refine ⟨⟨hup', s'.now, gap, hbeat, hgap', hle, Nat.le_refl _, hlt⟩, ?_⟩
    refine hanswer.imp_right fun ⟨halarm, hsame⟩ => ⟨?_, hsame⟩
    obtain ⟨others, houtbox⟩ := hposts halarm
    simp [howed, houtbox, pingsAmong, Frame.decode_encode_of_fits (f := .ping _) trivial]

theorem perform [Add α] [Sub α] [Mul α] [Seconds α] (h : Attended settings s) {op : Operation}
    (hfollows : s.Follows (op.instant?.getD s.now))
    (hfree : op.isTick = true → s.endpoint.phase ≠ .established)
    (hperform : s.perform op = .ok s') : Attended settings s' := by
  obtain ⟨answer, he', hnow, hbeat, howed, -, htold⟩ := perform_eq_ok hperform
  obtain ⟨⟨hinterval, htimeout⟩, hminds, news, hnews, hcalm⟩ := Endpoint.perform_calm he' hfree
  rw [← hnow] at hfollows
  refine ⟨hinterval.trans h.interval, htimeout.trans h.timeout, ?_, ?_⟩
  · rw [htold, List.append_assoc, hnews, ← List.append_assoc]
    simpa [hcalm] using h.calm
  · rcases hminds with hidle | ⟨hup, hmoves⟩
    · rw [hidle]
      trivial
    · have hhear : ∀ now, op.instant? = some now →
          s'.endpoint.keepalive = s.endpoint.keepalive.heardPong now →
          OnTime settings s' s'.endpoint.keepalive.watch := by
        intro now hinstant hheard
        have hsame : s'.now = now := by simp [hnow, hinstant]
        rw [hheard, ← hsame]
        exact h.onTime.hear hup hbeat hfollows.1
      rcases hmoves with hsame | ⟨now, hinstant, hheard⟩
      · by_cases hphase : s.endpoint.phase = .established
        · -- unless the call hands over a PONG, what is owed stays owed, and time stands still
          rcases Endpoint.heard_or_owed hphase he' hsame s.owed with
            hsettle | ⟨now, hinstant, hheard⟩
          · rw [hsame]
            exact h.onTime.keep hup hbeat hfollows.1
              fun _ hsome => ⟨howed.trans hsettle, hfollows.2.resolve_left hsome⟩
          · exact hhear now hinstant hheard
        · rw [hsame]
          exact h.onTime.keep hup hbeat hfollows.1 fun hphase' => absurd hphase' hphase
      · exact hhear now hinstant hheard

end Attended

/-! ## Every run -/

variable [Add α] [Sub α] [Mul α] [Seconds α]

/-- The intervals that have passed are not forgotten. -/
theorem gaps_grow {op : Operation} (h : s.call op = some s') : s.gaps <+: s'.gaps := by
  rcases call_cases h with ⟨now, -, -, -, htick⟩ | ⟨-, -, hperform⟩
  · obtain ⟨gap, -, -, -, -, -, hgaps, -⟩ := tick_eq_ok htick
    exact hgaps ▸ List.prefix_append _ _
  · obtain ⟨answer, -, -, -, -, hgaps, -⟩ := perform_eq_ok hperform
    exact hgaps ▸ List.prefix_rfl

theorem Attended.call (h : Attended settings s) (hpos : 0 < settings.pingInterval)
    {op : Operation} (hcall : s.call op = some s')
    (hroom : ∀ gap ∈ s'.gaps, settings.pingInterval + gap ≤ settings.pongTimeout) :
    Attended settings s' := by
  rcases call_cases hcall with ⟨now, hfollows, hup, hdue, htick⟩ | ⟨hfollows, hfree, hperform⟩
  · obtain ⟨-, -, -, -, -, -, hgaps, -⟩ := tick_eq_ok htick
    refine h.tick hpos hfollows hup hdue (fun beat hbeat => hroom _ ?_) htick
    have hlast : s.beat = some beat := hbeat
    simp [hgaps, hlast]
  · exact h.perform hfollows hfree hperform

theorem Run.attended {s₀ : Driven α σ} (hrun : Run s₀ s) (h : Attended settings s₀)
    (hpos : 0 < settings.pingInterval)
    (hroom : ∀ gap ∈ s.gaps, settings.pingInterval + gap ≤ settings.pongTimeout) :
    Attended settings s := by
  induction hrun with
  | start => exact h
  | step before call ih =>
    have hearlier := ih fun gap hgap => hroom gap ((gaps_grow call).subset hgap)
    exact hearlier.call hpos call hroom

/-- An endpoint that is ticked on time, and whose PINGs are answered at once, never reports that its
peer stopped answering, as long as a PING interval and any interval between two ticks together do
not exceed the PONG timeout. -/
theorem answered_never_times_out {settings : Settings} {token : Bytes} {transform : Transform σ}
    {secret : σ} {nonces : Nat → Nonce} {e₀ : Endpoint α σ} {s : Driven α σ}
    (hcreate : Endpoint.create settings token transform secret nonces = .ok e₀)
    (hrun : Run { endpoint := e₀ } s)
    (hroom : ∀ gap ∈ s.gaps, settings.pingInterval + gap ≤ settings.pongTimeout) :
    Event.down .pongTimeout ∉ s.told ++ s.endpoint.events := by
  obtain ⟨hvalid, -, hnew, -, hkeepalive⟩ := Endpoint.create_eq_ok hcreate
  have hstart : Attended settings { endpoint := e₀ } := by
    refine ⟨?_, ?_, ?_, ?_⟩
    · simp [hkeepalive]
    · simp [hkeepalive]
    · simp [hnew.events_eq]
    · simp [hkeepalive, OnTime]
  exact (hrun.attended hstart (Settings.pingInterval_pos hvalid) hroom).calm

/-- Makes calls one after the other. -/
def callAll (s : Driven α σ) : List Operation → Option (Driven α σ)
  | [] => some s
  | op :: rest => (s.call op).bind fun s' => s'.callAll rest

theorem Run.callAll {s₀ : Driven α σ} (hrun : Run s₀ s) {ops : List Operation}
    (h : s.callAll ops = some s') : Run s₀ s' := by
  induction ops generalizing s with
  | nil => exact Option.some.inj h ▸ hrun
  | cons op rest ih =>
    obtain ⟨s₁, hcall, hrest⟩ := Option.bind_eq_some_iff.1 h
    exact ih (hrun.step hcall) hrest

/-- What a new endpoint comes to by these calls. -/
def trial (settings : Settings) (token : Bytes) (ops : List Operation) : Option (Driven Rat Unit) :=
  (Endpoint.blank settings token).toOption.bind fun e => callAll { endpoint := e } ops

theorem exists_of_trial {settings : Settings} {token : Bytes} {ops : List Operation}
    {p : Driven Rat Unit → Bool} (h : (trial settings token ops).any p = true) :
    ∃ nonces e₀ s, Endpoint.create settings token .plain () nonces = .ok e₀ ∧
      Run { endpoint := e₀ } s ∧ p s = true := by
  obtain ⟨s, hresult, hp⟩ := (Option.any_eq_true _ _).1 h
  obtain ⟨e₀, hcreate, hcalls⟩ := Option.bind_eq_some_iff.1 hresult
  exact ⟨_, e₀, s, eq_ok_of_toOption hcreate, Run.start.callAll hcalls, hp⟩

/-- A PING every 90 ms, answered at once, where ticks come every 45 ms and a PING is due every
50 ms: the PONG timeout leaves just room for that. -/
theorem answered_never_times_out_barely : ∃ (nonces : Nat → Nonce) (e₀ : Endpoint Rat Unit)
    (s : Driven Rat Unit),
      Endpoint.create { pingInterval := 50 * nanosPerMilli, pongTimeout := 95 * nanosPerMilli } [7]
        .plain () nonces = .ok e₀ ∧ Run { endpoint := e₀ } s ∧
        s.gaps = List.replicate 4 (45 * nanosPerMilli) ∧ s.endpoint.counters.pingsSent = 3 ∧
        Event.down .pongTimeout ∉ s.told ++ s.endpoint.events := by
  let pong : Bytes := (Frame.pong blankNonce).encode
  obtain ⟨nonces, e₀, s, hcreate, hrun, hs⟩ := exists_of_trial
    (p := fun s => s.gaps == List.replicate 4 (45 * nanosPerMilli) &&
      s.endpoint.counters.pingsSent == 3)
    (show (trial { pingInterval := 50 * nanosPerMilli, pongTimeout := 95 * nanosPerMilli } [7]
      [.connect 0, .receive (Frame.hello [7]).encode 0, .tick 0, .receive pong 0,
        .tick (45 * nanosPerMilli), .tick (90 * nanosPerMilli),
        .receive pong (90 * nanosPerMilli), .tick (135 * nanosPerMilli),
        .tick (180 * nanosPerMilli)]).any _ = true by decide +kernel)
  simp only [Bool.and_eq_true, beq_iff_eq] at hs
  obtain ⟨hgaps, hpings⟩ := hs
  refine ⟨nonces, e₀, s, hcreate, hrun, hgaps, hpings, ?_⟩
  refine answered_never_times_out hcreate hrun fun gap hgap => ?_
  obtain ⟨-, rfl⟩ := List.mem_replicate.1 (hgaps ▸ hgap)
  decide

/-- With a shorter PONG timeout, though it is longer than the PING interval as it has to be, the
second tick after the PING ends the connection: the next PING, which is due at that tick, comes
second. -/
theorem answered_times_out : ∃ (nonces : Nat → Nonce) (e₀ : Endpoint Rat Unit)
    (s : Driven Rat Unit),
      Endpoint.create { pingInterval := 50 * nanosPerMilli, pongTimeout := 60 * nanosPerMilli } [7]
        .plain () nonces = .ok e₀ ∧ Run { endpoint := e₀ } s ∧ s.owed = [] ∧
        s.gaps = List.replicate 2 (45 * nanosPerMilli) ∧
        Event.down .pongTimeout ∈ s.endpoint.events := by
  let pong : Bytes := (Frame.pong blankNonce).encode
  obtain ⟨nonces, e₀, s, hcreate, hrun, hs⟩ := exists_of_trial
    (p := fun s => s.owed == [] && s.gaps == List.replicate 2 (45 * nanosPerMilli) &&
      s.endpoint.events.contains (.down .pongTimeout))
    (show (trial { pingInterval := 50 * nanosPerMilli, pongTimeout := 60 * nanosPerMilli } [7]
      [.connect 0, .receive (Frame.hello [7]).encode 0, .tick 0, .receive pong 0,
        .tick (45 * nanosPerMilli), .tick (90 * nanosPerMilli)]).any _ = true by decide +kernel)
  simp only [Bool.and_eq_true, beq_iff_eq, List.contains_iff_mem] at hs
  obtain ⟨⟨howed, hgaps⟩, hdown⟩ := hs
  exact ⟨nonces, e₀, s, hcreate, hrun, howed, hgaps, hdown⟩

end Driven

end DatagramTunnel.Session
