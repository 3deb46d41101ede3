import DatagramTunnel.Flight.RoundTrip
import Mathlib.Algebra.Order.Archimedean.Basic
import Mathlib.Data.Rat.Floor
import Mathlib.Tactic.Linarith
import Mathlib.Tactic.Ring

/-!
# Exact round-trip times

In rational arithmetic an estimate is an average in the strict sense: each sample moves the mean
towards itself by the part `decay` of the distance.  So the mean never leaves an interval that holds
both where it started and all samples (`mean_updateAll_mem`), and enough equal samples bring it as
near to them as one likes (`exists_mean_updateAll_gt`).

A number of seconds is a duration from zero on and below `maxSeconds`.  The mean always is one.  The
retransmit timeout is one exactly if the mean times the multiplier stays below `maxSeconds`, and
then so is the tick interval, which is a part of it.
-/

namespace DatagramTunnel.Flight

/-- The number of nanoseconds is one that a duration can have. -/
def IsDuration (nanos : Nat) : Prop := nanos < maxSeconds * nanosPerSecond

instance (nanos : Nat) : Decidable (IsDuration nanos) := inferInstanceAs (Decidable (_ < _))

/-- The seconds in a number of nanoseconds. -/
def seconds (nanos : Nat) : Rat := Seconds.ofDuration nanos

theorem seconds_eq (nanos : Nat) : seconds nanos = nanos / nanosPerSecond :=
  Rat.mkRat_eq_div nanos nanosPerSecond

theorem nanosPerSecond_pos : (0 : Rat) < nanosPerSecond := by
  rw [nanosPerSecond]
  norm_num

theorem seconds_nonneg (nanos : Nat) : 0 ≤ seconds nanos := by
  rw [seconds_eq]
  exact div_nonneg (Nat.cast_nonneg nanos) nanosPerSecond_pos.le

theorem seconds_le {shorter longer : Nat} (h : shorter ≤ longer) :
    seconds shorter ≤ seconds longer := by
  rw [seconds_eq, seconds_eq]
  exact div_le_div_of_nonneg_right (by exact_mod_cast h) nanosPerSecond_pos.le

theorem seconds_lt_iff {nanos : Nat} : seconds nanos < maxSeconds ↔ IsDuration nanos := by
  rw [seconds_eq, div_lt_iff₀ nanosPerSecond_pos, IsDuration]
  exact_mod_cast Iff.rfl

/-! ## Durations -/

theorem toDuration_of_mem {q : Rat} (hnonneg : 0 ≤ q) (hbelow : q < maxSeconds) :
    (Seconds.toDuration q : Except TimeError Nat) =
      .ok (nearestInt (q.num.toNat * nanosPerSecond) q.den) := by
  show (if q < 0 then _ else if (maxSeconds : Rat) ≤ q then _ else _) = _
  rw [if_neg (not_lt.2 hnonneg), if_neg (not_le.2 hbelow)]

theorem toDuration_eq_error {q : Rat} (habove : (maxSeconds : Rat) ≤ q) :
    (Seconds.toDuration q : Except TimeError Nat) = .error .tooLargeOrNaN := by
  have hpos : ¬ q < 0 := not_lt.2 ((Nat.cast_nonneg maxSeconds).trans habove)
  show (if q < 0 then _ else if (maxSeconds : Rat) ≤ q then _ else _) = _
  rw [if_neg hpos, if_pos habove]

/-- A number of seconds that becomes a duration is neither negative nor too large, and it is rounded
to the nearest nanosecond. -/
theorem toDuration_eq_ok {q : Rat} {nanos : Nat}
    (h : (Seconds.toDuration q : Except TimeError Nat) = .ok nanos) :
    0 ≤ q ∧ q < maxSeconds ∧ nanos = nearestInt (q.num.toNat * nanosPerSecond) q.den := by
  by_cases hneg : q < 0
  · have herror : (Seconds.toDuration q : Except TimeError Nat) = .error .negative :=
      if_pos hneg
    rw [herror] at h
    cases h
  · have hnonneg : 0 ≤ q := not_lt.1 hneg
    by_cases habove : (maxSeconds : Rat) ≤ q
    · rw [toDuration_eq_error habove] at h
      cases h
    · rw [toDuration_of_mem hnonneg (not_le.1 habove)] at h
      exact ⟨hnonneg, not_le.1 habove, (Except.ok.inj h).symm⟩

theorem exists_toDuration_iff {q : Rat} :
    (∃ nanos, (Seconds.toDuration q : Except TimeError Nat) = .ok nanos) ↔
      0 ≤ q ∧ q < maxSeconds := by
  constructor
  · rintro ⟨nanos, h⟩
    obtain ⟨hnonneg, hbelow, -⟩ := toDuration_eq_ok h
    exact ⟨hnonneg, hbelow⟩
  · exact fun ⟨hnonneg, hbelow⟩ => ⟨_, toDuration_of_mem hnonneg hbelow⟩

/-- A number that is not negative is the quotient of its numerator, as a natural number, and its
denominator. -/
theorem mul_den_eq_toNat {q : Rat} (hnonneg : 0 ≤ q) : q * q.den = q.num.toNat := by
  have hnum : (q.num.toNat : Int) = q.num := Int.toNat_of_nonneg (Rat.num_nonneg.2 hnonneg)
  rw [Rat.mul_den_eq_num, ← hnum]
  rfl

/-- Rounding moves a number of seconds by half a nanosecond at most. -/
theorem seconds_toDuration_near {q : Rat} {nanos : Nat}
    (h : (Seconds.toDuration q : Except TimeError Nat) = .ok nanos) :
    |seconds nanos - q| ≤ 1 / (2 * nanosPerSecond) := by
  obtain ⟨hnonneg, -, hnanos⟩ := toDuration_eq_ok h
  have hden : (0 : Rat) < q.den := by exact_mod_cast q.den_pos
  obtain ⟨hlow, hhigh⟩ := @nearestInt_bounds (q.num.toNat * nanosPerSecond) _ q.den_pos
  rw [← hnanos] at hlow hhigh
  have hlow' : 2 * (q * nanosPerSecond) ≤ 2 * (nanos : Rat) + 1 := by
    have hcast : (2 : Rat) * (q.num.toNat * nanosPerSecond) ≤ (2 * nanos + 1) * q.den := by
      exact_mod_cast hlow
    rw [← mul_den_eq_toNat hnonneg] at hcast
    exact le_of_mul_le_mul_right (by linarith) hden
  have hhigh' : 2 * (nanos : Rat) ≤ 2 * (q * nanosPerSecond) + 1 := by
    have hcast : (2 : Rat) * nanos * q.den ≤ 2 * (q.num.toNat * nanosPerSecond) + q.den := by
      exact_mod_cast hhigh
    rw [← mul_den_eq_toNat hnonneg] at hcast
    exact le_of_mul_le_mul_right (by linarith) hden
  have hseconds : seconds nanos * nanosPerSecond = nanos := by
    rw [seconds_eq, div_mul_cancel₀ _ nanosPerSecond_pos.ne']
  have htwice : (0 : Rat) < 2 * nanosPerSecond := mul_pos two_pos nanosPerSecond_pos
  rw [abs_le, neg_le, le_div_iff₀ htwice, le_div_iff₀ htwice]
  constructor <;> linarith

/-- Of two numbers of seconds the smaller one does not become the longer duration. -/
theorem toDuration_mono {p q : Rat} (hpq : p ≤ q) {shorter longer : Nat}
    (hp : (Seconds.toDuration p : Except TimeError Nat) = .ok shorter)
    (hq : (Seconds.toDuration q : Except TimeError Nat) = .ok longer) : shorter ≤ longer := by
  by_contra hlt
  have hnext : seconds longer + 1 / nanosPerSecond ≤ seconds shorter := by
    rw [seconds_eq, seconds_eq, ← add_div]
    refine div_le_div_of_nonneg_right ?_ nanosPerSecond_pos.le
    exact_mod_cast Nat.lt_of_not_le hlt
  -- each is within half a nanosecond of what it stands for, so both stand for the same number
  have hbelow := (abs_le.1 (seconds_toDuration_near hp)).2
  have habove := (abs_le.1 (seconds_toDuration_near hq)).1
  have hhalf : (1 : Rat) / nanosPerSecond = 2 * (1 / (2 * nanosPerSecond)) := by
    rw [nanosPerSecond]
    norm_num
  have heq : p = q := by linarith
  rw [heq, hq] at hp
  exact hlt (Except.ok.inj hp).ge

/-! ## Averages -/

/-- The average of numbers that come in one after the other: each counts `decay`, and what came
before it the rest. -/
def average (decay start : Rat) (values : List Rat) : Rat :=
  values.foldl (fun mean value => (1 - decay) * mean + decay * value) start

theorem average_cons (decay start value : Rat) (values : List Rat) :
    average decay start (value :: values) =
      average decay ((1 - decay) * start + decay * value) values := rfl

/-- An average does not leave an interval that holds all that it is taken of. -/
theorem average_mem {decay start low high : Rat} {values : List Rat} (hnonneg : 0 ≤ decay)
    (hle : decay ≤ 1) (hstart : low ≤ start ∧ start ≤ high)
    (hvalues : ∀ value ∈ values, low ≤ value ∧ value ≤ high) :
    low ≤ average decay start values ∧ average decay start values ≤ high := by
  have hkeep : 0 ≤ 1 - decay := sub_nonneg.2 hle
  induction values generalizing start with
  | nil => exact hstart
  | cons value values ih =>
    obtain ⟨hlow, hhigh⟩ := hvalues value List.mem_cons_self
    refine ih ⟨?_, ?_⟩ fun other hother => hvalues other (List.mem_cons_of_mem value hother)
    · calc low = (1 - decay) * low + decay * low := by ring
        _ ≤ (1 - decay) * start + decay * value :=
          add_le_add (mul_le_mul_of_nonneg_left hstart.1 hkeep)
            (mul_le_mul_of_nonneg_left hlow hnonneg)
    · calc (1 - decay) * start + decay * value
          ≤ (1 - decay) * high + decay * high :=
          add_le_add (mul_le_mul_of_nonneg_left hstart.2 hkeep)
            (mul_le_mul_of_nonneg_left hhigh hnonneg)
        _ = high := by ring

/-- Equal numbers take the average towards them, each by the same part of the distance. -/
theorem average_replicate (decay start value : Rat) (times : Nat) :
    average decay start (List.replicate times value) - value =
      (1 - decay) ^ times * (start - value) := by
  induction times generalizing start with
  | zero =>
    rw [pow_zero, one_mul]
    rfl
  | succ times ih =>
    rw [List.replicate_succ, average_cons, ih, pow_succ]
    ring

namespace RoundTrip

/-! ## The mean -/

/-- The estimate when these samples have come in, one after the other. -/
def updateAll {α : Type} [Add α] [Sub α] [Mul α] [Seconds α] (r : RoundTrip α)
    (samples : List Nat) : RoundTrip α := samples.foldl update r

/-- The parameters of an estimate that make it an average: a sample counts some part, and the
timeout is not below the mean. -/
structure Weighted (r : RoundTrip Rat) : Prop where
  decay_pos : 0 < r.decay
  decay_le : r.decay ≤ 1
  one_le : 1 ≤ r.multiplier
  floor : IsDuration r.floor

theorem ofFloat_one : (Seconds.ofFloat 1.0 : Rat) = 1 := by decide +kernel

variable {r : RoundTrip Rat}

theorem mean_update (r : RoundTrip Rat) (sample : Nat) :
    (r.update sample).mean = (1 - r.decay) * r.mean + r.decay * seconds sample := by
  rw [← ofFloat_one]
  rfl

theorem Weighted.update (h : r.Weighted) (sample : Nat) : (r.update sample).Weighted :=
  ⟨h.decay_pos, h.decay_le, h.one_le, h.floor⟩

theorem Weighted.updateAll (h : r.Weighted) (samples : List Nat) :
    (r.updateAll samples).Weighted := by
  induction samples generalizing r with
  | nil => exact h
  | cons sample samples ih => exact ih (h.update sample)

theorem updateAll_multiplier (r : RoundTrip Rat) (samples : List Nat) :
    (r.updateAll samples).multiplier = r.multiplier := by
  induction samples generalizing r with
  | nil => rfl
  | cons sample samples ih => exact ih (r.update sample)

theorem updateAll_floor (r : RoundTrip Rat) (samples : List Nat) :
    (r.updateAll samples).floor = r.floor := by
  induction samples generalizing r with
  | nil => rfl
  | cons sample samples ih => exact ih (r.update sample)

theorem updateAll_append {α : Type} [Add α] [Sub α] [Mul α] [Seconds α] (r : RoundTrip α)
    (samples others : List Nat) :
    r.updateAll (samples ++ others) = (r.updateAll samples).updateAll others :=
  List.foldl_append

/-- The mean is the average of what is assumed at first and the samples. -/
theorem mean_updateAll (r : RoundTrip Rat) (samples : List Nat) :
    (r.updateAll samples).mean = average r.decay r.mean (samples.map seconds) := by
  induction samples generalizing r with
  | nil => rfl
  | cons sample samples ih =>
    rw [List.map_cons, average_cons, ← mean_update]
    exact ih (r.update sample)

theorem mean_updateAll_mem (h : r.Weighted) {low high : Rat}
    (hmean : low ≤ r.mean ∧ r.mean ≤ high) {samples : List Nat}
    (hsamples : ∀ sample ∈ samples, low ≤ seconds sample ∧ seconds sample ≤ high) :
    low ≤ (r.updateAll samples).mean ∧ (r.updateAll samples).mean ≤ high := by
  rw [mean_updateAll]
  exact average_mem h.decay_pos.le h.decay_le hmean (List.forall_mem_map.2 hsamples)

theorem mean_updateAll_replicate (r : RoundTrip Rat) (sample times : Nat) :
    (r.updateAll (List.replicate times sample)).mean - seconds sample =
      (1 - r.decay) ^ times * (r.mean - seconds sample) := by
  rw [mean_updateAll, List.map_replicate, average_replicate]

/-- Enough equal samples take the mean above anything below them. -/
theorem exists_mean_updateAll_gt (h : r.Weighted) (hmean : 0 ≤ r.mean) {sample : Nat} {low : Rat}
    (hlow : low < seconds sample) :
    ∃ times, low < (r.updateAll (List.replicate times sample)).mean := by
  have hgap : 0 < seconds sample - low := sub_pos.2 hlow
  have hscale : (0 : Rat) < seconds sample + 1 :=
    add_pos_of_nonneg_of_pos (seconds_nonneg sample) one_pos
  have hkeep : 0 ≤ 1 - r.decay := sub_nonneg.2 h.decay_le
  obtain ⟨times, htimes⟩ := exists_pow_lt_of_lt_one (div_pos hgap hscale)
    (sub_lt_self 1 h.decay_pos)
  refine ⟨times, ?_⟩
  have hmove := mean_updateAll_replicate r sample times
  have hpow : 0 ≤ (1 - r.decay) ^ times := pow_nonneg hkeep times
  rw [lt_div_iff₀ hscale] at htimes
  have hleft : -((1 - r.decay) ^ times * (seconds sample + 1)) ≤
      (1 - r.decay) ^ times * (r.mean - seconds sample) := by
    rw [← mul_neg]
    exact mul_le_mul_of_nonneg_left (by linarith) hpow
  linarith

/-! ## What is read off the estimate -/

/-- All that is read off the estimate is a duration. -/
structure Converts {α : Type} [Mul α] [Seconds α] (r : RoundTrip α) : Prop where
  smoothed : ∃ nanos, r.smoothed = .ok nanos
  timeout : ∃ nanos, r.timeout = .ok nanos
  tickInterval : ∃ nanos, r.tickInterval = .ok nanos

theorem exists_smoothed (hnonneg : 0 ≤ r.mean) (hbelow : r.mean < maxSeconds) :
    ∃ nanos, r.smoothed = .ok nanos := exists_toDuration_iff.2 ⟨hnonneg, hbelow⟩

theorem scaled_nonneg (h : r.Weighted) (hnonneg : 0 ≤ r.mean) : 0 ≤ r.mean * r.multiplier :=
  mul_nonneg hnonneg (zero_le_one.trans h.one_le)

/-- The timeout is the stretched mean, rounded, or the floor if that is longer. -/
theorem timeout_eq_ok_iff {timeout : Nat} :
    r.timeout = .ok timeout ↔
      ∃ scaled,
        (Seconds.toDuration (r.mean * r.multiplier) : Except TimeError Nat) = .ok scaled ∧
          max scaled r.floor = timeout := by
  unfold RoundTrip.timeout
  cases (Seconds.toDuration (r.mean * r.multiplier) : Except TimeError Nat) with
  | error cause => exact ⟨nofun, nofun⟩
  | ok scaled =>
    constructor
    · exact fun h => ⟨scaled, rfl, Except.ok.inj h⟩
    · rintro ⟨_, hscaled, rfl⟩
      cases hscaled
      rfl

/-- The timeout is a duration as long as the stretched mean is one. -/
theorem exists_timeout_iff_mem :
    (∃ nanos, r.timeout = .ok nanos) ↔
      0 ≤ r.mean * r.multiplier ∧ r.mean * r.multiplier < maxSeconds := by
  rw [← exists_toDuration_iff]
  simp only [timeout_eq_ok_iff]
  constructor
  · exact fun ⟨_, scaled, hscaled, _⟩ => ⟨scaled, hscaled⟩
  · exact fun ⟨scaled, hscaled⟩ => ⟨_, scaled, hscaled, rfl⟩

theorem exists_timeout_iff (h : r.Weighted) (hnonneg : 0 ≤ r.mean) :
    (∃ nanos, r.timeout = .ok nanos) ↔ r.mean * r.multiplier < maxSeconds := by
  rw [exists_timeout_iff_mem, and_iff_right (scaled_nonneg h hnonneg)]

theorem tickFactor_bounds :
    0 ≤ (Seconds.ofFloat tickFactor : Rat) ∧ (Seconds.ofFloat tickFactor : Rat) ≤ 1 / 2 := by
  decide +kernel

/-- A timeout that is a duration is one that can be divided into ticks. -/
theorem exists_tickInterval_of_timeout (h : r.Weighted) (hnonneg : 0 ≤ r.mean) {timeout : Nat}
    (htimeout : r.timeout = .ok timeout) : ∃ nanos, r.tickInterval = .ok nanos := by
  obtain ⟨hfactor, hhalf⟩ := tickFactor_bounds
  have hscaled := (exists_timeout_iff h hnonneg).1 ⟨timeout, htimeout⟩
  have hlong : seconds timeout ≤ maxSeconds + 1 := by
    obtain ⟨scaled, hconv, hmax⟩ := timeout_eq_ok_iff.1 htimeout
    rcases le_total scaled r.floor with hle | hle
    · rw [← hmax, max_eq_right hle]
      exact ((seconds_lt_iff.2 h.floor).trans (lt_add_one _)).le
    · have hround := (abs_le.1 (seconds_toDuration_near hconv)).2
      have hfine : (1 : Rat) / (2 * nanosPerSecond) ≤ 1 := by
        rw [nanosPerSecond]
        norm_num
      rw [← hmax, max_eq_left hle]
      linarith
  have hpart : 0 ≤ Seconds.ofFloat tickFactor * seconds timeout :=
    mul_nonneg hfactor (seconds_nonneg timeout)
  have hbelow : Seconds.ofFloat tickFactor * seconds timeout < maxSeconds := by
    have hle : Seconds.ofFloat tickFactor * seconds timeout ≤ 1 / 2 * (maxSeconds + 1) :=
      mul_le_mul hhalf hlong (seconds_nonneg timeout) (by norm_num)
    have hmany : (1 : Rat) < maxSeconds := by exact_mod_cast (by decide : 1 < maxSeconds)
    linarith
  obtain ⟨part, hconv⟩ := exists_toDuration_iff.2 ⟨hpart, hbelow⟩
  have hconv' : (Seconds.toDuration ((Seconds.ofFloat tickFactor : Rat) *
      Seconds.ofDuration timeout) : Except TimeError Nat) = .ok part := hconv
  refine ⟨max part minTickInterval, ?_⟩
  rw [RoundTrip.tickInterval, htimeout]
  show (do let part ← Seconds.toDuration ((Seconds.ofFloat tickFactor : Rat) *
      Seconds.ofDuration timeout); pure (max part minTickInterval)) = _
  rw [hconv']
  rfl

/-- The tick interval is a duration exactly if the timeout is one. -/
theorem exists_tickInterval_iff (h : r.Weighted) (hnonneg : 0 ≤ r.mean) :
    (∃ nanos, r.tickInterval = .ok nanos) ↔ r.mean * r.multiplier < maxSeconds := by
  rw [← exists_timeout_iff h hnonneg]
  constructor
  · rintro ⟨nanos, hinterval⟩
    unfold tickInterval at hinterval
    cases htimeout : r.timeout with
    | error cause =>
      rw [htimeout] at hinterval
      cases hinterval
    | ok timeout => exact ⟨timeout, rfl⟩
  · exact fun ⟨timeout, htimeout⟩ => exists_tickInterval_of_timeout h hnonneg htimeout

/-- What bounds the stretched mean bounds the timeout, but for the floor. -/
theorem timeout_le {timeout scaled : Nat} (h : r.timeout = .ok timeout) {high : Rat}
    (hle : r.mean * r.multiplier ≤ high)
    (hhigh : (Seconds.toDuration high : Except TimeError Nat) = .ok scaled) :
    timeout ≤ max scaled r.floor := by
  obtain ⟨own, hown, rfl⟩ := timeout_eq_ok_iff.1 h
  exact max_le_max (toDuration_mono hle hown hhigh) le_rfl

/-- Two ticks are no further apart than the timeout is long, but for the least time between them. -/
theorem tickInterval_le {interval : Nat} (h : r.tickInterval = .ok interval) :
    ∃ timeout, r.timeout = .ok timeout ∧ interval ≤ max timeout minTickInterval := by
  unfold tickInterval at h
  cases htimeout : r.timeout with
  | error cause =>
    rw [htimeout] at h
    cases h
  | ok timeout =>
    rw [htimeout] at h
    change (do let part ← Seconds.toDuration ((Seconds.ofFloat tickFactor : Rat) *
      Seconds.ofDuration timeout); pure (max part minTickInterval)) = _ at h
    cases hconv : (Seconds.toDuration ((Seconds.ofFloat tickFactor : Rat) *
        Seconds.ofDuration timeout) : Except TimeError Nat) with
    | error cause =>
      rw [hconv] at h
      cases h
    | ok part =>
      rw [hconv] at h
      obtain rfl : max part minTickInterval = interval := Except.ok.inj h
      have hround := (abs_le.1 (seconds_toDuration_near hconv)).2
      have hhalf : Seconds.ofFloat tickFactor * seconds timeout ≤ 1 / 2 * seconds timeout :=
        mul_le_mul_of_nonneg_right tickFactor_bounds.2 (seconds_nonneg timeout)
      have hscaled : (2 : Rat) * part ≤ timeout + 1 := by
        have hpart : seconds part ≤ 1 / 2 * seconds timeout + 1 / (2 * nanosPerSecond) :=
          (sub_le_iff_le_add'.1 hround).trans (add_le_add hhalf le_rfl)
        rw [seconds_eq, seconds_eq] at hpart
        have hnanos := nanosPerSecond_pos
        field_simp at hpart
        linarith
      have hpart : 2 * part ≤ timeout + 1 := by exact_mod_cast hscaled
      exact ⟨timeout, rfl, max_le_max (by omega) le_rfl⟩

/-- Everything is a duration as long as the stretched mean is one. -/
theorem converts_iff (h : r.Weighted) (hnonneg : 0 ≤ r.mean) :
    r.Converts ↔ r.mean * r.multiplier < maxSeconds := by
  refine ⟨fun hconv => (exists_timeout_iff h hnonneg).1 hconv.timeout, fun hbelow => ⟨?_, ?_, ?_⟩⟩
  · refine exists_smoothed hnonneg (lt_of_le_of_lt ?_ hbelow)
    exact le_mul_of_one_le_right hnonneg h.one_le
  · exact (exists_timeout_iff h hnonneg).2 hbelow
  · exact (exists_tickInterval_iff h hnonneg).2 hbelow

end RoundTrip

end DatagramTunnel.Flight
