import DatagramTunnel.Session.Endpoint

/-!
# A new endpoint

An endpoint is created only if its settings are valid, so whoever holds a new endpoint knows the
bounds that the rules guarantee: `Settings.Sound` names those on which the passage of data depends,
and `New` says what a new endpoint looks like.
-/

namespace DatagramTunnel.Session

open Flight Packet Wire

/-- What valid settings guarantee. -/
structure Settings.Sound (s : Settings) : Prop where
  mtu : minMtu ≤ s.mtu
  maxInFlight : 0 < s.maxInFlight
  minRto : 0 < s.minRto
  /-- Whatever may be in flight fits into the reorder window of an end with the same settings. -/
  window : s.maxInFlight ≤ s.reorderWindow
  reorderWindow : s.reorderWindow ≤ maxReorderWindow
  maxPacketSize : s.maxPacketSize ≤ maxTotal

theorem Settings.sound_of_validate {s : Settings} (h : s.validate = .ok ()) : s.Sound := by
  have hrules := Settings.validate_eq_ok_iff.1 h
  simp only [Settings.rules, List.mem_cons, List.not_mem_nil, or_false, forall_eq_or_imp,
    forall_eq, decide_eq_true_eq, bne_iff_ne, ne_eq, Bool.and_eq_true] at hrules
  obtain ⟨hmtu, hflight, -, -, -, -, ⟨-, hrto⟩, -, hwindow, hreorder, ⟨-, hsize⟩, -⟩ := hrules
  exact ⟨hmtu, Nat.pos_of_ne_zero hflight, Nat.pos_of_ne_zero hrto, hwindow, hreorder, hsize⟩

namespace Endpoint

variable {α σ : Type}

/-- An endpoint with valid settings to which nothing has happened. -/
structure New (e : Endpoint α σ) (settings : Settings) (token : Bytes) (transform : Transform σ) :
    Prop where
  sound : settings.Sound
  settings_eq : e.settings = settings
  token_eq : e.token = token
  transform_eq : e.transform = transform
  phase_eq : e.phase = .connecting
  splitter_eq : e.splitter = { mtu := settings.mtu }
  queue_eq : e.queue = { window := settings.maxInFlight }
  floor_eq : e.roundTrip.floor = settings.minRto
  inlet_eq : e.inlet = {
    window := { size := settings.reorderWindow }
    assembler := { limit := settings.maxPacketSize } }
  handshakeStarted_eq : e.handshakeStarted = none
  lastHello_eq : e.lastHello = none
  violations_eq : e.violations = 0
  counters_eq : e.counters = {}
  outbox_eq : e.outbox = []
  events_eq : e.events = []

/-- An endpoint is created if the settings are valid and the token fits into a HELLO. -/
theorem create_eq_ok [Mul α] [Seconds α] {settings : Settings} {token : Bytes}
    {transform : Transform σ} {secret : σ} {nonces : Nat → Nonce} {e : Endpoint α σ}
    (h : create settings token transform secret nonces = .ok e) :
    settings.validate = .ok () ∧ kindSize + token.length ≤ settings.mtu ∧
      e.New settings token transform ∧ e.pipes = { mtu := settings.mtu } ∧
      e.keepalive = {
        pingInterval := settings.pingInterval
        pongTimeout := settings.pongTimeout } := by
  unfold create at h
  cases hvalid : settings.validate with
  | error cause =>
    rw [hvalid] at h
    cases h
  | ok done =>
    rw [hvalid] at h
    dsimp only at h
    split at h
    · cases h
    · rename_i htoken
      have heq := Except.ok.inj h
      subst heq
      refine ⟨rfl, Nat.le_of_not_lt htoken, ?_, rfl, rfl⟩
      exact ⟨Settings.sound_of_validate hvalid, rfl, rfl, rfl, rfl, rfl, rfl, rfl, rfl, rfl, rfl,
        rfl, rfl, rfl, rfl⟩

theorem create_new [Mul α] [Seconds α] {settings : Settings} {token : Bytes}
    {transform : Transform σ} {secret : σ} {nonces : Nat → Nonce} {e : Endpoint α σ}
    (h : create settings token transform secret nonces = .ok e) :
    e.New settings token transform := (create_eq_ok h).2.2.1

end Endpoint

end DatagramTunnel.Session
