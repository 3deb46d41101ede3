import DatagramTunnel.Decimal.Shortest
import DatagramTunnel.Time
import DatagramTunnel.Wire.Kind

/-!
# Settings

The options of a connection and the rules they have to meet. `Settings.rules` pairs each rule with
the error of breaking it, and `Settings.validate` reports the first rule that is broken;
`validate_eq_ok_iff` says that valid settings are those that break none.
-/

namespace DatagramTunnel.Session

/-- The options of a connection. Times are in nanoseconds. -/
structure Settings where
  /-- The largest datagram the path carries. -/
  mtu : Nat := 1500
  /-- How many data frames may be unacknowledged. -/
  maxInFlight : Nat := 50
  pingInterval : Nat := 5 * nanosPerSecond
  pongTimeout : Nat := 30 * nanosPerSecond
  /-- The weight of a new round-trip sample. -/
  rttDecay : Float := 0.05
  /-- The retransmit timeout as a multiple of the mean round-trip time. -/
  retryMultiplier : Float := 1.5
  /-- The round-trip time assumed before the first sample. -/
  initialRtt : Nat := 100 * nanosPerMilli
  /-- The least retransmit timeout. -/
  minRto : Nat := 10 * nanosPerMilli
  /-- The time between attempts at the handshake. -/
  helloInterval : Nat := nanosPerSecond
  /-- The time after which the handshake is given up. -/
  helloTimeout : Nat := 10 * nanosPerSecond
  /-- How far ahead of the next frame an arriving one may be. -/
  reorderWindow : Nat := 1024
  /-- The longest packet, before and after it is wrapped. -/
  maxPacketSize : Nat := Wire.maxTotal
  /-- How many violations in a row end the connection. -/
  maxProtocolViolations : Nat := 32
  /-- Whether raw pipe payloads are wrapped as packets are. -/
  transformRaw : Bool := false
  /-- Room for one arriving datagram. -/
  recvBufferSize : Nat := 65535

/-- The widest reorder window in which numbers modulo `2 ^ 32` can be compared. -/
def maxReorderWindow : Nat := (1 <<< 31) - 1

/-- Why settings are rejected. -/
inductive SettingsError where
  | mtuTooSmall (mtu min : Nat)
  | emptyWindow
  | zeroPingInterval
  | pongTimeoutTooShort
  | invalidDecay (decay : Float)
  | invalidRetryMultiplier (multiplier : Float)
  | zeroTiming
  | invalidHelloTiming
  | reorderWindowTooSmall (window inFlight : Nat)
  | reorderWindowTooLarge (window max : Nat)
  | invalidMaxPacketSize (size max : Nat)
  | zeroViolationThreshold
  | recvBufferTooSmall (size mtu : Nat)

/-- A short name for logs. -/
def SettingsError.code : SettingsError → String
  | .mtuTooSmall _ _ => "MtuTooSmall"
  | .emptyWindow => "EmptyWindow"
  | .zeroPingInterval => "ZeroPingInterval"
  | .pongTimeoutTooShort => "PongTimeoutTooShort"
  | .invalidDecay _ => "InvalidDecay"
  | .invalidRetryMultiplier _ => "InvalidRetryMultiplier"
  | .zeroTiming => "ZeroTiming"
  | .invalidHelloTiming => "InvalidHelloTiming"
  | .reorderWindowTooSmall _ _ => "ReorderWindowTooSmall"
  | .reorderWindowTooLarge _ _ => "ReorderWindowTooLarge"
  | .invalidMaxPacketSize _ _ => "InvalidMaxPacketSize"
  | .zeroViolationThreshold => "ZeroViolationThreshold"
  | .recvBufferTooSmall _ _ => "RecvBufferTooSmall"

def SettingsError.message : SettingsError → String
  | mtuTooSmall mtu min =>
    "mtu " ++ toString mtu ++ " is below the minimum of " ++ toString min
  | emptyWindow => "max_in_flight must be at least 1"
  | zeroPingInterval => "ping_interval must be non-zero"
  | pongTimeoutTooShort => "pong_timeout must exceed ping_interval"
  | invalidDecay decay => "rtt_decay must be in (0, 1], got " ++ plainText decay
  | invalidRetryMultiplier multiplier =>
    "retry_multiplier must be at least 1.0, got " ++ plainText multiplier
  | zeroTiming => "initial_rtt and min_rto must be non-zero"
  | invalidHelloTiming =>
    "hello_timeout must be at least hello_interval, and both non-zero"
  | reorderWindowTooSmall window inFlight =>
    "reorder_window " ++ toString window ++ " is smaller than max_in_flight " ++ toString inFlight
  | reorderWindowTooLarge window max =>
    "reorder_window " ++ toString window ++ " exceeds " ++ toString max
  | invalidMaxPacketSize size max =>
    "max_packet_size " ++ toString size ++ " outside 1..=" ++ toString max
  | zeroViolationThreshold => "max_protocol_violations must be at least 1"
  | recvBufferTooSmall size mtu =>
    "recv_buffer_size " ++ toString size ++ " is smaller than mtu " ++ toString mtu

/-- Whether a number is a weight: above zero and at most one. -/
def isWeight (x : Float) : Bool :=
  match (Binary64.ofFloat x).rational? with
  | some value => 0 < value && value ≤ 1
  | none => false

/-- Whether a number stretches what it multiplies: at least one, and finite. -/
def isStretch (x : Float) : Bool :=
  match (Binary64.ofFloat x).rational? with
  | some value => 1 ≤ value
  | none => false

/-- Each rule, with the error of breaking it, in the order in which they are checked. -/
def Settings.rules (s : Settings) : List (Bool × SettingsError) :=
  [(Wire.minMtu ≤ s.mtu, .mtuTooSmall s.mtu Wire.minMtu),
   (s.maxInFlight != 0, .emptyWindow),
   (s.pingInterval != 0, .zeroPingInterval),
   (s.pingInterval < s.pongTimeout, .pongTimeoutTooShort),
   (isWeight s.rttDecay, .invalidDecay s.rttDecay),
   (isStretch s.retryMultiplier, .invalidRetryMultiplier s.retryMultiplier),
   (s.initialRtt != 0 && s.minRto != 0, .zeroTiming),
   (s.helloInterval != 0 && s.helloInterval ≤ s.helloTimeout, .invalidHelloTiming),
   (s.maxInFlight ≤ s.reorderWindow, .reorderWindowTooSmall s.reorderWindow s.maxInFlight),
   (s.reorderWindow ≤ maxReorderWindow,
    .reorderWindowTooLarge s.reorderWindow maxReorderWindow),
   (s.maxPacketSize != 0 && s.maxPacketSize ≤ Wire.maxTotal,
    .invalidMaxPacketSize s.maxPacketSize Wire.maxTotal),
   (s.maxProtocolViolations != 0, .zeroViolationThreshold),
   (s.mtu ≤ s.recvBufferSize, .recvBufferTooSmall s.recvBufferSize s.mtu)]

/-- Checks every rule and reports the first that is broken. -/
def Settings.validate (s : Settings) : Except SettingsError Unit :=
  match s.rules.find? fun rule => !rule.1 with
  | some broken => .error broken.2
  | none => .ok ()

theorem Settings.validate_eq_ok_iff {s : Settings} :
    s.validate = .ok () ↔ ∀ rule ∈ s.rules, rule.1 = true := by
  unfold validate
  cases h : s.rules.find? fun rule => !rule.1 with
  | none =>
    simpa using List.find?_eq_none.1 h
  | some broken =>
    have hb := List.find?_some h
    have hm := List.mem_of_find?_eq_some h
    refine ⟨fun hok => (by cases hok), fun hall => ?_⟩
    rw [hall broken hm] at hb
    cases hb

end DatagramTunnel.Session
