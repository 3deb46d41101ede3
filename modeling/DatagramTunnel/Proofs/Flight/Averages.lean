import DatagramTunnel.Proofs.Flight.Estimate
import Mathlib.Algebra.BigOperators.Fin

/-!
# The averages that an estimate keeps

In rational arithmetic the mean and the mean square of an estimate are averages with the same
weights: the `i`-th of `n` samples counts `decay * (1 - decay) ^ (n - i)`, and what is assumed at
first counts the rest, `average_map_eq_sum`.  The square of an average is at most the average of
the squares.  One sample more keeps it so, `square_blend_le`, and that is why neither the mean
square nor the variance is ever cut off: `Balanced` is what every update keeps, and
`Balanced.meanSquare_update` says that the update did not have to see to it.

The timeout is a multiple of the mean, rounded to nanoseconds.  Rounding respects the order of two
numbers and moves each by half a nanosecond at most.  So a multiplier of at least one takes the
timeout above the mean.  `averages_exact` is the account of any samples.
-/

namespace DatagramTunnel.Flight

/-! ## Weights -/

/-- In an average the `i`-th of `n` numbers counts `decay * (1 - decay) ^ (n - i)`; the places here
are counted from zero. -/
theorem average_map_eq_sum {ι : Type} (decay start : Rat) (value : ι → Rat) (items : List ι) :
    average decay start (items.map value) =
      (1 - decay) ^ items.length * start +
        ∑ i : Fin items.length,
          decay * (1 - decay) ^ (items.length - (i + 1)) * value items[i] := by
  induction items generalizing start with
  | nil => simp [average]
  | cons item rest ih =>
    have hfirst : ∑ i : Fin (item :: rest).length,
        decay * (1 - decay) ^ ((item :: rest).length - (i + 1)) * value (item :: rest)[i] =
          decay * (1 - decay) ^ rest.length * value item +
            ∑ i : Fin rest.length,
              decay * (1 - decay) ^ (rest.length - (i + 1)) * value rest[i] := by
      refine (Fin.sum_univ_succ _).trans ?_
      congr 1
      refine Finset.sum_congr rfl fun i _ => ?_
      have hplace : (item :: rest).length - (i.succ + 1) = rest.length - (i + 1) := by
        rw [List.length_cons, Fin.val_succ]
        omega
      rw [hplace]
      rfl
    rw [List.map_cons, average_cons, ih, hfirst, List.length_cons, pow_succ]
    ring

/-- One number more keeps the square of a mean below the mean of the squares. -/
theorem square_blend_le {decay mean square : Rat} (hnonneg : 0 ≤ decay) (hle : decay ≤ 1)
    (h : mean * mean ≤ square) (value : Rat) :
    ((1 - decay) * mean + decay * value) * ((1 - decay) * mean + decay * value) ≤
      (1 - decay) * square + decay * value * value := by
  have hkeep : 0 ≤ 1 - decay := sub_nonneg.2 hle
  have hspread : 0 ≤ decay * (1 - decay) * ((mean - value) * (mean - value)) :=
    mul_nonneg (mul_nonneg hnonneg hkeep) (mul_self_nonneg _)
  calc ((1 - decay) * mean + decay * value) * ((1 - decay) * mean + decay * value)
      = (1 - decay) * (mean * mean) + decay * value * value -
          decay * (1 - decay) * ((mean - value) * (mean - value)) := by ring
    _ ≤ (1 - decay) * (mean * mean) + decay * value * value := sub_le_self _ hspread
    _ ≤ (1 - decay) * square + decay * value * value :=
      add_le_add_left (mul_le_mul_of_nonneg_left h hkeep) _

/-- The average of an assumed round trip and samples lies between the least and the greatest of
them. -/
theorem average_seconds_mem {decay : Rat} (hnonneg : 0 ≤ decay) (hle : decay ≤ 1) (initial : Nat)
    (samples : List Nat) :
    seconds ((initial :: samples).min (List.cons_ne_nil _ _)) ≤
        average decay (seconds initial) (samples.map seconds) ∧
      average decay (seconds initial) (samples.map seconds) ≤
        seconds ((initial :: samples).max (List.cons_ne_nil _ _)) := by
  have hmem : ∀ s ∈ initial :: samples,
      seconds ((initial :: samples).min (List.cons_ne_nil _ _)) ≤ seconds s ∧
        seconds s ≤ seconds ((initial :: samples).max (List.cons_ne_nil _ _)) := fun s hs =>
    ⟨seconds_le (List.min_le_of_mem hs), seconds_le (List.le_max_of_mem hs)⟩
  exact average_mem hnonneg hle (hmem initial List.mem_cons_self)
    (List.forall_mem_map.2 fun s hs => hmem s (List.mem_cons_of_mem initial hs))

/-- The distance to equal samples shrinks by the same factor with each of them. -/
theorem abs_average_sub {decay : Rat} (hle : decay ≤ 1) (start : Rat) {sample : Nat}
    {samples : List Nat} (hsame : ∀ s ∈ samples, s = sample) :
    |average decay start (samples.map seconds) - seconds sample| =
      (1 - decay) ^ samples.length * |start - seconds sample| := by
  have hkeep : 0 ≤ (1 - decay) ^ samples.length := pow_nonneg (sub_nonneg.2 hle) _
  have hmove := average_replicate decay start (seconds sample) samples.length
  rw [← List.map_replicate, ← List.eq_replicate_of_mem hsame] at hmove
  rw [hmove, abs_mul, abs_of_nonneg hkeep]

namespace RoundTrip

variable {r : RoundTrip Rat}

/-! ## The mean square -/

/-- What becomes of the mean square with one more sample, before it is compared with the square of
the mean. -/
def blendedSquare (r : RoundTrip Rat) (sample : Nat) : Rat :=
  (1 - r.decay) * r.meanSquare + r.decay * seconds sample * seconds sample

/-- A sample counts some part, and the square of the mean is not above the mean square. -/
structure Balanced (r : RoundTrip Rat) : Prop where
  decay_nonneg : 0 ≤ r.decay
  decay_le : r.decay ≤ 1
  square_le : r.mean * r.mean ≤ r.meanSquare

theorem Balanced.square_mean_update_le (h : r.Balanced) (sample : Nat) :
    (r.update sample).mean * (r.update sample).mean ≤ r.blendedSquare sample := by
  rw [mean_update]
  exact square_blend_le h.decay_nonneg h.decay_le h.square_le (seconds sample)

/-- The square of the mean never takes the place of the mean square. -/
theorem Balanced.meanSquare_update (h : r.Balanced) (sample : Nat) :
    (r.update sample).meanSquare = r.blendedSquare sample := by
  have hcut : (r.update sample).meanSquare =
      Seconds.larger ((Seconds.ofFloat 1.0 - r.decay) * r.meanSquare +
        r.decay * seconds sample * seconds sample)
        ((r.update sample).mean * (r.update sample).mean) := rfl
  rw [hcut, ofFloat_one]
  exact if_neg (not_lt.2 (h.square_mean_update_le sample))

theorem Balanced.update (h : r.Balanced) (sample : Nat) : (r.update sample).Balanced where
  decay_nonneg := h.decay_nonneg
  decay_le := h.decay_le
  square_le := by
    rw [h.meanSquare_update]
    exact h.square_mean_update_le sample

theorem Balanced.updateAll (h : r.Balanced) (samples : List Nat) :
    (r.updateAll samples).Balanced := by
  induction samples generalizing r with
  | nil => exact h
  | cons sample samples ih => exact ih (h.update sample)

/-- The mean square is the average of the squares. -/
theorem Balanced.meanSquare_updateAll (h : r.Balanced) (samples : List Nat) :
    (r.updateAll samples).meanSquare =
      average r.decay r.meanSquare (samples.map fun s => seconds s * seconds s) := by
  induction samples generalizing r with
  | nil => rfl
  | cons sample samples ih =>
    have hnext : (1 - r.decay) * r.meanSquare + r.decay * (seconds sample * seconds sample) =
        (r.update sample).meanSquare := by
      rw [h.meanSquare_update, blendedSquare, mul_assoc]
    rw [List.map_cons, average_cons, hnext]
    exact ih (h.update sample)

theorem ofFloat_zero : (Seconds.ofFloat 0.0 : Rat) = 0 := by decide +kernel

/-- The variance is never cut off at zero. -/
theorem Balanced.variance_eq (h : r.Balanced) :
    r.variance = r.meanSquare - r.mean * r.mean := by
  have hcut : r.variance = Seconds.larger (r.meanSquare - r.mean * r.mean) (Seconds.ofFloat 0.0) :=
    rfl
  rw [hcut, ofFloat_zero]
  exact if_neg (not_lt.2 (sub_nonneg.2 h.square_le))

/-! ## The timeout -/

/-- A multiplier of at least one takes the timeout above the mean, but for the rounding of both. -/
theorem mean_le_timeout {timeout : Nat} (h : r.timeout = .ok timeout) (hnonneg : 0 ≤ r.mean)
    (hone : 1 ≤ r.multiplier) :
    r.mean ≤ seconds timeout + 1 / (2 * nanosPerSecond) ∧
      ∀ mean, r.smoothed = .ok mean → mean ≤ timeout := by
  obtain ⟨scaled, hconv, rfl⟩ := timeout_eq_ok_iff.1 h
  have hstretch : r.mean ≤ r.mean * r.multiplier := le_mul_of_one_le_right hnonneg hone
  constructor
  · have hlong : seconds scaled ≤ seconds (max scaled r.floor) := seconds_le (le_max_left _ _)
    have hround := (abs_le.1 (seconds_toDuration_near hconv)).1
    linarith
  · exact fun mean hmean => (toDuration_mono hstretch hmean hconv).trans (le_max_left _ _)

/-! ## Any samples -/

/-- An estimate before any sample, with parameters that need not be doubles. -/
def seed (initial : Nat) (decay multiplier : Rat) (floor : Nat) : RoundTrip Rat :=
  { start initial 0.0 0.0 floor with decay := decay, multiplier := multiplier }

theorem start_eq_seed (initial : Nat) (decay multiplier : Float) (floor : Nat) :
    (start initial decay multiplier floor : RoundTrip Rat) =
      seed initial (Seconds.ofFloat decay) (Seconds.ofFloat multiplier) floor := rfl

/-- The account of any samples: what the mean and the mean square are averages of, and that neither
the mean square nor the variance had to be cut off; within which bounds the mean stays, and how near
equal samples take it; when there is a timeout, and what it is not below. -/
theorem averages_exact (initial floor : Nat) {decay : Rat} (hpos : 0 < decay) (hle : decay ≤ 1)
    (multiplier : Rat) (samples : List Nat) :
    let r : RoundTrip Rat := (seed initial decay multiplier floor).updateAll samples
    let n := samples.length
    (∀ weight stretch : Float, (start initial weight stretch floor : RoundTrip Rat) =
      seed initial (Seconds.ofFloat weight) (Seconds.ofFloat stretch) floor) ∧
    r.mean = (1 - decay) ^ n * seconds initial +
        ∑ i : Fin n, decay * (1 - decay) ^ (n - (i + 1)) * seconds samples[i] ∧
    (seconds ((initial :: samples).min (List.cons_ne_nil _ _)) ≤ r.mean ∧
      r.mean ≤ seconds ((initial :: samples).max (List.cons_ne_nil _ _))) ∧
    (∀ sample, (∀ s ∈ samples, s = sample) →
      |r.mean - seconds sample| = (1 - decay) ^ n * |seconds initial - seconds sample|) ∧
    r.meanSquare = (1 - decay) ^ n * (seconds initial * seconds initial) +
        ∑ i : Fin n,
          decay * (1 - decay) ^ (n - (i + 1)) * (seconds samples[i] * seconds samples[i]) ∧
    (∀ sample, (r.update sample).mean * (r.update sample).mean ≤ r.blendedSquare sample ∧
      (r.update sample).meanSquare = r.blendedSquare sample) ∧
    (r.mean * r.mean ≤ r.meanSquare ∧ r.variance = r.meanSquare - r.mean * r.mean) ∧
    ((∃ timeout, r.timeout = .ok timeout) ↔
      0 ≤ r.mean * multiplier ∧ r.mean * multiplier < maxSeconds) ∧
    ∀ timeout, r.timeout = .ok timeout →
      floor ≤ timeout ∧
      (1 ≤ multiplier → r.mean ≤ seconds timeout + 1 / (2 * nanosPerSecond) ∧
        ∀ mean, r.smoothed = .ok mean → mean ≤ timeout) := by
  intro r n
  let r₀ := seed initial decay multiplier floor
  have hr₀ : r₀.Balanced := ⟨hpos.le, hle, le_refl _⟩
  have hr : r.Balanced := hr₀.updateAll samples
  have hmean : r.mean = average decay (seconds initial) (samples.map seconds) :=
    mean_updateAll r₀ samples
  have hfloor : r.floor = floor := updateAll_floor r₀ samples
  have hmultiplier : r.multiplier = multiplier := updateAll_multiplier r₀ samples
  have hbounds := average_seconds_mem hpos.le hle initial samples
  rw [← hmean] at hbounds
  refine ⟨fun weight stretch => start_eq_seed initial weight stretch floor, ?_, hbounds, ?_, ?_, ?_,
    ⟨hr.square_le, hr.variance_eq⟩, ?_, ?_⟩
  · rw [hmean]
    exact average_map_eq_sum decay (seconds initial) seconds samples
  · intro sample hsame
    rw [hmean]
    exact abs_average_sub hle (seconds initial) hsame
  · refine (hr₀.meanSquare_updateAll samples).trans ?_
    exact average_map_eq_sum decay _ (fun s => seconds s * seconds s) samples
  · exact fun sample => ⟨hr.square_mean_update_le sample, hr.meanSquare_update sample⟩
  · rw [← hmultiplier]
    exact exists_timeout_iff_mem
  · intro timeout htimeout
    refine ⟨hfloor ▸ floor_le_timeout htimeout, fun hone => ?_⟩
    have hnonneg : 0 ≤ r.mean := (seconds_nonneg _).trans hbounds.1
    exact mean_le_timeout htimeout hnonneg (hmultiplier ▸ hone)

/-- Three samples with a weight of a quarter, and a timeout of one and a half means. -/
theorem averages_exact_three :
    let r := (seed 100000000 (1 / 4) (3 / 2) 10000000).updateAll [300000000, 0, 40000000]
    (0 : Rat) < 1 / 4 ∧ (1 / 4 : Rat) ≤ 1 ∧ r.mean = 151 / 1600 ∧
      r.mean * r.mean ≤ r.meanSquare ∧
      ∃ timeout, r.timeout = .ok timeout ∧ 10000000 ≤ timeout := by
  intro r
  have hpos : (0 : Rat) < 1 / 4 := by decide +kernel
  have hle : (1 / 4 : Rat) ≤ 1 := by decide +kernel
  obtain ⟨-, -, -, -, -, -, ⟨hsquare, -⟩, hexists, htimeout⟩ :=
    averages_exact 100000000 10000000 hpos hle (3 / 2) [300000000, 0, 40000000]
  obtain ⟨timeout, hok⟩ := hexists.2 (by decide +kernel)
  exact ⟨hpos, hle, by decide +kernel, hsquare, timeout, hok, (htimeout timeout hok).1⟩

end RoundTrip

end DatagramTunnel.Flight
