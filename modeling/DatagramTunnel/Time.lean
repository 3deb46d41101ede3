/-!
# Time

Instants and durations are natural numbers of nanoseconds. An instant is a distance from the origin
of the clock that supplies it. The clock may go backwards, so the time between two instants is cut
off at zero; and it counts its seconds in signed words of 64 bits, so an instant is never after
`lastInstant`. What would be is no instant but an error, as is a number of seconds that is no
duration.
-/

namespace DatagramTunnel

/-- Nanoseconds in a second. -/
def nanosPerSecond : Nat := 1000000000

/-- Nanoseconds in a millisecond. -/
def nanosPerMilli : Nat := 1000000

/-- Why a duration or an instant cannot be computed. -/
inductive TimeError where
  | negative
  | tooLargeOrNaN
  /-- The instant would be after the last one. -/
  | outOfReach
  deriving DecidableEq, Repr

def TimeError.message : TimeError → String
  | negative => "cannot convert float seconds to Duration: value is negative"
  | tooLargeOrNaN => "cannot convert float seconds to Duration: value is either too big or NaN"
  | outOfReach => "overflow when adding duration to instant"

/-- The last instant that a clock can show. -/
def lastInstant : Nat := (1 <<< 63) * nanosPerSecond - 1

/-- The instant that is `duration` after another one. -/
def later (instant duration : Nat) : Except TimeError Nat :=
  if instant + duration ≤ lastInstant then .ok (instant + duration) else .error .outOfReach

/-- The time from `earlier` to `now`, zero if the clock went backwards between them. -/
def elapsed (now earlier : Nat) : Nat := now - earlier

/-- The first whole millisecond at or after `due`: timers do not fire between milliseconds. -/
def nextMilli (due : Nat) : Nat :=
  (due + (nanosPerMilli - 1)) / nanosPerMilli * nanosPerMilli

theorem later_of_le {instant duration : Nat} (h : instant + duration ≤ lastInstant) :
    later instant duration = .ok (instant + duration) := if_pos h

theorem le_lastInstant_of_later {instant duration deadline : Nat}
    (h : later instant duration = .ok deadline) : instant + duration ≤ lastInstant := by
  unfold later at h
  split at h
  · assumption
  · cases h

theorem later_of_lt {instant duration : Nat} (h : lastInstant < instant + duration) :
    later instant duration = .error .outOfReach := if_neg (Nat.not_le.2 h)

/-! ## Computations that may have no result -/

/-- A computation in two parts has a result if both parts have one. -/
theorem bind_eq_ok {ε γ δ : Type} {first : Except ε γ} {second : γ → Except ε δ} {result : δ}
    (h : first >>= second = .ok result) : ∃ x, first = .ok x ∧ second x = .ok result := by
  cases first with
  | error cause => cases h
  | ok x => exact ⟨x, rfl, h⟩

/-- A computation in two parts has none if the first part has none, or else the second. -/
theorem bind_eq_error {ε γ δ : Type} {first : Except ε γ} {second : γ → Except ε δ} {cause : ε}
    (h : first >>= second = .error cause) :
    first = .error cause ∨ ∃ x, first = .ok x ∧ second x = .error cause := by
  cases first with
  | error other => exact .inl (congrArg Except.error (Except.error.inj h))
  | ok x => exact .inr ⟨x, rfl, h⟩

end DatagramTunnel
