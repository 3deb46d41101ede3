import DatagramTunnel.Proofs.Decimal.Spacing
import DatagramTunnel.Proofs.Flight.Estimate
import DatagramTunnel.Proofs.Flight.Orderly
import DatagramTunnel.Proofs.Session.Acts
import DatagramTunnel.Proofs.Session.Creation

/-!
# When round-trip times are durations

Nearly every operation of an established endpoint asks the round-trip estimate for a duration, and
has no result if what it gets is too large for one.  The rules for settings ask of the multiplier
only that it be finite and at least one.  So there are valid settings under which not even the round
trip that is assumed at first can be stretched to a timeout, and the first packet that is sent ends
the program.

`durations_in_range` says what the rules do give.  The mean is always a duration; the timeout and
the tick interval are durations precisely as long as the stretched mean is.  No samples at all can
lead out of range only if the multiplier is exactly one: doubles have no value just above it.  If no
instant of a run lies so far out that the multiplier stretches it beyond all durations, then no
operation of the run fails for that reason.

What may fail then is only a deadline.  An operation without a result is one in which the send queue
has none when it runs (`pump_of_perform_error`), and what is scheduled was sent at an instant of the
run (`Clocked`).  So if the longest wait, counted from the last of these instants, does not lead
beyond the last instant of all, every operation has a result.
-/

namespace DatagramTunnel.Session

open Flight Packet Wire

namespace Settings

/-- The round-trip estimate of a new endpoint. -/
def estimate (s : Settings) : RoundTrip Rat :=
  .start s.initialRtt s.rttDecay s.retryMultiplier s.minRto

/-- The value of the multiplier. -/
def stretch (s : Settings) : Rat := Seconds.ofFloat s.retryMultiplier

variable {s : Settings}

theorem mem_of_isWeight {x : Float} (h : isWeight x = true) :
    0 < (Seconds.ofFloat x : Rat) ∧ (Seconds.ofFloat x : Rat) ≤ 1 := by
  show 0 < (Binary64.ofFloat x).rational?.getD 0 ∧ (Binary64.ofFloat x).rational?.getD 0 ≤ 1
  unfold isWeight at h
  cases hvalue : (Binary64.ofFloat x).rational? with
  | none =>
    rw [hvalue] at h
    cases h
  | some value =>
    rw [hvalue] at h
    simpa using h

theorem exists_of_isStretch {x : Float} (h : isStretch x = true) :
    ∃ value, (Binary64.ofFloat x).rational? = some value ∧ 1 ≤ value := by
  unfold isStretch at h
  cases hvalue : (Binary64.ofFloat x).rational? with
  | none =>
    rw [hvalue] at h
    cases h
  | some value =>
    rw [hvalue] at h
    exact ⟨value, rfl, by simpa using h⟩

theorem rtt_of_validate (h : s.validate = .ok ()) :
    isWeight s.rttDecay = true ∧ isStretch s.retryMultiplier = true := by
  have hrules := Settings.validate_eq_ok_iff.1 h
  simp only [rules, List.mem_cons, List.not_mem_nil, or_false, forall_eq_or_imp] at hrules
  exact ⟨hrules.2.2.2.2.1, hrules.2.2.2.2.2.1⟩

theorem one_le_stretch (h : s.validate = .ok ()) : 1 ≤ s.stretch := by
  obtain ⟨value, hvalue, hone⟩ := exists_of_isStretch (rtt_of_validate h).2
  show 1 ≤ (Binary64.ofFloat s.retryMultiplier).rational?.getD 0
  rw [hvalue]
  exact hone

/-- A multiplier that is not one is above it by what a double can show. -/
theorem stretch_spacing (h : s.validate = .ok ()) (hne : s.stretch ≠ 1) :
    1 + 1 / 2 ^ 52 ≤ s.stretch := by
  have habove := lt_of_le_of_ne (one_le_stretch h) hne.symm
  obtain ⟨value, hvalue, -⟩ := exists_of_isStretch (rtt_of_validate h).2
  have hstretch : s.stretch = value := by
    show (Binary64.ofFloat s.retryMultiplier).rational?.getD 0 = value
    rw [hvalue]
    rfl
  rw [hstretch] at habove ⊢
  exact Binary64.rational?_spacing hvalue habove

theorem estimate_weighted (hvalid : s.validate = .ok ()) (hfloor : IsDuration s.minRto) :
    s.estimate.Weighted := by
  obtain ⟨hpos, hle⟩ := mem_of_isWeight (rtt_of_validate hvalid).1
  exact ⟨hpos, hle, one_le_stretch hvalid, hfloor⟩

/-- The mean lies between zero and the longest of the samples and the assumed round trip. -/
theorem estimate_mean_mem (hvalid : s.validate = .ok ()) (hfloor : IsDuration s.minRto)
    {longest : Nat} (hinitial : s.initialRtt ≤ longest) {samples : List Nat}
    (hsamples : ∀ sample ∈ samples, sample ≤ longest) :
    0 ≤ (s.estimate.updateAll samples).mean ∧
      (s.estimate.updateAll samples).mean ≤ seconds longest :=
  RoundTrip.mean_updateAll_mem (estimate_weighted hvalid hfloor)
    ⟨seconds_nonneg s.initialRtt, seconds_le hinitial⟩
    fun sample hsample => ⟨seconds_nonneg sample, seconds_le (hsamples sample hsample)⟩

/-- As long as the multiplier does not stretch the longest sample too far, nothing is too long. -/
theorem converts_of_stretch_lt (hvalid : s.validate = .ok ()) (hfloor : IsDuration s.minRto)
    {longest : Nat} (hinitial : s.initialRtt ≤ longest)
    (hstretch : seconds longest * s.stretch < maxSeconds) {samples : List Nat}
    (hsamples : ∀ sample ∈ samples, sample ≤ longest) :
    (s.estimate.updateAll samples).Converts := by
  obtain ⟨hnonneg, hmean⟩ := estimate_mean_mem hvalid hfloor hinitial hsamples
  have hweighted := (estimate_weighted hvalid hfloor).updateAll samples
  refine (RoundTrip.converts_iff hweighted hnonneg).2 (lt_of_le_of_lt ?_ hstretch)
  rw [RoundTrip.updateAll_multiplier]
  exact mul_le_mul_of_nonneg_right hmean (zero_le_one.trans (one_le_stretch hvalid))

/-- The longest time until a retransmission or the next tick, if no sample is longer than
`longest`. -/
def longestWait (s : Settings) (longest : Nat) : Except TimeError Nat := do
  let stretched ← Seconds.toDuration (seconds longest * s.stretch)
  return max (max stretched s.minRto) RoundTrip.minTickInterval

/-- There is a longest wait exactly if the multiplier does not stretch the longest sample too
far. -/
theorem exists_longestWait_iff (h : s.validate = .ok ()) {longest : Nat} :
    (∃ wait, s.longestWait longest = .ok wait) ↔ seconds longest * s.stretch < maxSeconds := by
  have hnonneg : 0 ≤ seconds longest * s.stretch :=
    mul_nonneg (seconds_nonneg longest) (zero_le_one.trans (one_le_stretch h))
  constructor
  · rintro ⟨wait, hwait⟩
    obtain ⟨stretched, hstretched, -⟩ := bind_eq_ok hwait
    exact (exists_toDuration_iff.1 ⟨stretched, hstretched⟩).2
  · intro hbelow
    obtain ⟨stretched, hstretched⟩ := exists_toDuration_iff.2 ⟨hnonneg, hbelow⟩
    exact ⟨_, by rw [longestWait, hstretched]; rfl⟩

/-- With such samples no timeout, and no time between two ticks, is longer. -/
theorem timeout_le_longestWait (hvalid : s.validate = .ok ()) (hfloor : IsDuration s.minRto)
    {longest wait : Nat} (hinitial : s.initialRtt ≤ longest)
    (hwait : s.longestWait longest = .ok wait) {samples : List Nat}
    (hsamples : ∀ sample ∈ samples, sample ≤ longest) {timeout : Nat}
    (h : (s.estimate.updateAll samples).timeout = .ok timeout) :
    max timeout RoundTrip.minTickInterval ≤ wait := by
  obtain ⟨stretched, hstretched, hrest⟩ := bind_eq_ok hwait
  rw [← Except.ok.inj hrest]
  have hscaled : (s.estimate.updateAll samples).mean *
      (s.estimate.updateAll samples).multiplier ≤ seconds longest * s.stretch := by
    rw [RoundTrip.updateAll_multiplier]
    exact mul_le_mul_of_nonneg_right (estimate_mean_mem hvalid hfloor hinitial hsamples).2
      (zero_le_one.trans (one_le_stretch hvalid))
  have hle := RoundTrip.timeout_le h hscaled hstretched
  rw [RoundTrip.updateAll_floor] at hle
  exact max_le_max hle le_rfl

/-- The longest duration. -/
def longestDuration : Nat := maxSeconds * nanosPerSecond - 1

theorem le_longestDuration_iff {nanos : Nat} : nanos ≤ longestDuration ↔ IsDuration nanos := by
  have hpos : 0 < maxSeconds * nanosPerSecond := by decide
  rw [IsDuration, longestDuration]
  omega

/-- A multiplier above one takes the longest duration out of range. -/
theorem stretched_longest (h : s.validate = .ok ()) (hne : s.stretch ≠ 1) :
    (maxSeconds : Rat) / s.stretch < seconds longestDuration := by
  have hspacing := stretch_spacing h hne
  have hpos : 0 < s.stretch := zero_lt_one.trans_le (one_le_stretch h)
  have hlongest : (maxSeconds : Rat) < (1 + 1 / 2 ^ 52) * seconds longestDuration := by
    decide +kernel
  rw [div_lt_iff₀ hpos, mul_comm]
  exact hlongest.trans_le (mul_le_mul_of_nonneg_right hspacing (seconds_nonneg longestDuration))

/-- No samples lead out of range exactly if the multiplier is one. -/
theorem converts_iff_stretch (hvalid : s.validate = .ok ()) (hinitial : IsDuration s.initialRtt)
    (hfloor : IsDuration s.minRto) :
    (∀ samples : List Nat, (∀ sample ∈ samples, IsDuration sample) →
      (s.estimate.updateAll samples).Converts) ↔ s.stretch = 1 := by
  have hweighted := estimate_weighted hvalid hfloor
  constructor
  · intro hall
    by_contra hne
    -- samples of the longest duration take the mean so high that its multiple is out of range
    obtain ⟨times, htimes⟩ := RoundTrip.exists_mean_updateAll_gt hweighted
      (seconds_nonneg s.initialRtt) (stretched_longest hvalid hne)
    have hsamples : ∀ sample ∈ List.replicate times longestDuration, IsDuration sample := by
      intro sample hsample
      rw [List.eq_of_mem_replicate hsample]
      exact le_longestDuration_iff.1 le_rfl
    have hnonneg := (estimate_mean_mem hvalid hfloor (le_longestDuration_iff.2 hinitial)
      fun sample hsample => le_longestDuration_iff.2 (hsamples sample hsample)).1
    have hbelow := (RoundTrip.converts_iff (hweighted.updateAll _) hnonneg).1 (hall _ hsamples)
    rw [RoundTrip.updateAll_multiplier] at hbelow
    have hpos : 0 < s.stretch := zero_lt_one.trans_le (one_le_stretch hvalid)
    rw [div_lt_iff₀ hpos] at htimes
    exact lt_asymm hbelow htimes
  · intro hone samples hsamples
    refine converts_of_stretch_lt hvalid hfloor (le_longestDuration_iff.2 hinitial) ?_
      fun sample hsample => le_longestDuration_iff.2 (hsamples sample hsample)
    rw [hone, mul_one]
    exact seconds_lt_iff.2 (le_longestDuration_iff.1 le_rfl)

end Settings

namespace Endpoint

variable {α σ : Type} [Mul α] [Seconds α]

/-! ## Readings -/

theorem exists_nextTickInterval {e : Endpoint α σ} (h : e.roundTrip.Converts) :
    ∃ interval, e.nextTickInterval = .ok interval := by
  obtain ⟨interval, hinterval⟩ := h.tickInterval
  exact ⟨_, by rw [nextTickInterval, hinterval]; rfl⟩

/-- The time to the next tick is at most the tick interval. -/
theorem nextTickInterval_le {e : Endpoint α σ} {interval : Nat}
    (h : e.nextTickInterval = .ok interval) :
    ∃ whole, e.roundTrip.tickInterval = .ok whole ∧ interval ≤ whole := by
  obtain ⟨whole, hwhole, hpart⟩ := bind_eq_ok h
  refine ⟨whole, hwhole, ?_⟩
  rw [← Except.ok.inj hpart]
  split
  · exact Nat.min_le_left _ _
  · exact Nat.le_refl whole

theorem exists_statistics {e : Endpoint α σ} (h : e.roundTrip.Converts) :
    ∃ measured, e.statistics = .ok measured := by
  obtain ⟨smoothed, hsmoothed⟩ := h.smoothed
  obtain ⟨timeout, htimeout⟩ := h.timeout
  exact ⟨_, by rw [statistics, hsmoothed, htimeout]; rfl⟩

/-! ## Operations without a result -/

variable [Add α] [Sub α]

/-- What an operation may do before the send queue runs, as far as that depends on it: the estimate
may get a sample, and frames may leave the schedule. -/
structure Prepares (e : Endpoint α σ) (now : Nat) (e₁ : Endpoint α σ) : Prop where
  roundTrip : e₁.roundTrip = e.roundTrip ∨
    ∃ sample ≤ now, e₁.roundTrip = e.roundTrip.update sample
  schedule : e₁.queue.schedule ⊆ e.queue.schedule

/-- The sample that an acknowledgement gives is no longer than the time that has passed. -/
theorem sample_le {q q' : SendQueue} {seq : UInt32} {now sample : Nat}
    (h : q.acknowledge? seq now = some (sample, q')) : sample ≤ now := by
  obtain ⟨f, -, hpair⟩ := Option.map_eq_some_iff.1 h
  obtain ⟨rfl, -⟩ := Prod.mk.inj hpair
  exact Nat.sub_le now f.firstSentAt

/-- An acknowledgement adds nothing to the schedule. -/
theorem schedule_subset {q q' : SendQueue} {seq : UInt32} {now sample : Nat}
    (h : q.acknowledge? seq now = some (sample, q')) : q'.schedule ⊆ q.schedule := by
  obtain ⟨f, -, hpair⟩ := Option.map_eq_some_iff.1 h
  obtain ⟨-, rfl⟩ := Prod.mk.inj hpair
  exact fun entry hentry => (List.mem_filter.1 hentry).1

section Failing

variable {e : Endpoint α σ} {now : Nat} {cause : TimeError}

theorem pump_of_send_error {packet : Bytes} (h : e.send packet now = .error cause) :
    ∃ e₁, e.Prepares now e₁ ∧ e₁.pump now = .error cause := by
  unfold send at h
  split at h
  · cases h
  · dsimp only at h
    split at h
    · cases h
    · split at h
      · cases h
      · split at h
        · cases h
        · rcases bind_eq_error h with hpump | ⟨e', -, hdone⟩
          · refine ⟨_, ?_, hpump⟩
            exact ⟨.inl rfl, List.Subset.refl _⟩
          · cases hdone

theorem pump_of_tick_error (h : e.tick now = .error cause) :
    ∃ e₁, e.Prepares now e₁ ∧ e₁.pump now = .error cause := by
  unfold tick at h
  split at h
  · cases h
  · unfold tickEstablished at h
    dsimp only at h
    split at h
    · cases h
    · refine ⟨_, ?_, h⟩
      exact ⟨.inl rfl, List.Subset.refl _⟩
    · refine ⟨_, ?_, h⟩
      exact ⟨.inl rfl, List.Subset.refl _⟩
  · cases h
  · cases h

theorem pump_of_onAck_error {seq : UInt32} (h : e.onAck seq now = .error cause) :
    ∃ e₁, e.Prepares now e₁ ∧ e₁.pump now = .error cause := by
  unfold onAck at h
  split at h
  · cases h
  · rename_i sample queue hknown
    refine ⟨_, ?_, h⟩
    exact ⟨.inr ⟨sample, sample_le hknown, rfl⟩, schedule_subset hknown⟩

/-- Of the datagrams that arrive, only an acknowledgement makes the send queue run. -/
theorem pump_of_receive_error {datagram : Bytes} (h : e.receive datagram now = .error cause) :
    ∃ e₁, e.Prepares now e₁ ∧ e₁.pump now = .error cause := by
  unfold receive at h
  split at h
  · cases h
  · split at h
    · cases h
    · unfold onFrame at h
      split at h
      · cases h
      · split at h
        · split at h
          all_goals first | exact pump_of_onAck_error h | cases h
        · cases h

/-- An operation has no result only because the send queue, when it runs, has none. -/
theorem pump_of_perform_error {op : Operation} (h : e.perform op = .error cause) :
    ∃ now e₁, op.instant? = some now ∧ e.Prepares now e₁ ∧ e₁.pump now = .error cause := by
  cases op with
  | connect now =>
    rw [perform] at h
    split at h <;> cases h
  | send packet now =>
    rcases bind_eq_error h with hsend | ⟨result, -, hdone⟩
    · obtain ⟨e₁, hprepares, hpump⟩ := pump_of_send_error hsend
      exact ⟨now, e₁, rfl, hprepares, hpump⟩
    · cases hdone
  | receive datagram now =>
    rcases bind_eq_error h with hreceive | ⟨e', -, hdone⟩
    · obtain ⟨e₁, hprepares, hpump⟩ := pump_of_receive_error hreceive
      exact ⟨now, e₁, rfl, hprepares, hpump⟩
    · cases hdone
  | tick now =>
    rcases bind_eq_error h with htick | ⟨e', -, hdone⟩
    · obtain ⟨e₁, hprepares, hpump⟩ := pump_of_tick_error htick
      exact ⟨now, e₁, rfl, hprepares, hpump⟩
    · cases hdone
  | _ => cases h

/-- A run has no result only because one of its operations has none. -/
theorem perform_of_performAll_error {ops : List Operation} (h : e.performAll ops = .error cause) :
    ∃ before op after answers e₁, ops = before ++ op :: after ∧
      e.performAll before = .ok (answers, e₁) ∧ e₁.perform op = .error cause := by
  induction ops generalizing e with
  | nil => cases h
  | cons first rest ih =>
    rcases bind_eq_error h with hfirst | ⟨⟨answer, e₁⟩, hfirst, hrest⟩
    · exact ⟨[], first, rest, [], e, rfl, rfl, hfirst⟩
    rcases bind_eq_error hrest with hothers | ⟨_, -, hdone⟩
    · obtain ⟨before, op, after, answers, e₂, rfl, hbefore, hfails⟩ := ih hothers
      exact ⟨first :: before, op, after, answer :: answers, e₂, rfl, performAll_cons hfirst hbefore,
        hfails⟩
    · cases hdone

end Failing

/-! ## The estimate and the schedule during a run -/

/-- One act leaves the estimate alone or adds a sample to it. -/
theorem Act.roundTrip {op : Operation} {e e' : Endpoint α σ} (h : Act op e e') :
    e'.roundTrip = e.roundTrip ∨
      ∃ now sample, op.instant? = some now ∧ sample ≤ now ∧
        e'.roundTrip = e.roundTrip.update sample := by
  cases h with
  | @retire _ now _ _ sample _ _ _ known => exact .inr ⟨now, sample, rfl, sample_le known, rfl⟩
  | offer _ _ =>
    rw [offered_eq]
    exact .inl rfl
  | _ => exact .inl rfl

/-- What is scheduled was so before, or has just been sent. -/
theorem Act.mem_schedule {op : Operation} {e e' : Endpoint α σ} (h : Act op e e') {entry : Entry}
    (hentry : entry ∈ e'.queue.schedule) :
    entry ∈ e.queue.schedule ∨ op.instant? = some entry.sentAt := by
  cases h with
  | @pump _ now _ timeout instant _ _ =>
    rcases SendQueue.mem_schedule_after (c := .tick now timeout) hentry with hold | ⟨_, hnow⟩
    · exact .inl hold
    · cases hnow
      exact .inr instant
  | retire _ _ known => exact .inl (schedule_subset known hentry)
  | fail | mismatch | down | expire => exact absurd hentry List.not_mem_nil
  | offer _ _ =>
    rw [offered_eq] at hentry
    exact .inl hentry
  | _ => exact .inl hentry

/-- The estimate is the one of the settings with samples that are no longer than this. -/
def Measured (settings : Settings) (longest : Nat) (e : Endpoint Rat σ) : Prop :=
  ∃ samples : List Nat, (∀ sample ∈ samples, sample ≤ longest) ∧
    e.roundTrip = settings.estimate.updateAll samples

/-- Nothing that is scheduled was sent later than this. -/
def Dated (longest : Nat) (e : Endpoint α σ) : Prop :=
  ∀ entry ∈ e.queue.schedule, entry.sentAt ≤ longest

/-- The endpoint has come so far at instants up to `longest`. -/
structure Clocked (settings : Settings) (longest : Nat) (e : Endpoint Rat σ) : Prop where
  measured : Measured settings longest e
  dated : e.Dated longest

section Clocked

variable {settings : Settings} {longest : Nat} {e e' : Endpoint Rat σ}

theorem Measured.update (h : Measured settings longest e) {sample : Nat} (hle : sample ≤ longest)
    (hround : e'.roundTrip = e.roundTrip.update sample) : Measured settings longest e' := by
  obtain ⟨samples, hsamples, hsame⟩ := h
  refine ⟨samples ++ [sample], ?_, ?_⟩
  · intro other hother
    rcases List.mem_append.1 hother with hold | hnew
    · exact hsamples other hold
    · exact List.mem_singleton.1 hnew ▸ hle
  · rw [hround, hsame, RoundTrip.updateAll_append]
    rfl

theorem Measured.same (h : Measured settings longest e) (hround : e'.roundTrip = e.roundTrip) :
    Measured settings longest e' := by
  obtain ⟨samples, hsamples, hsame⟩ := h
  exact ⟨samples, hsamples, hround.trans hsame⟩

theorem Clocked.prepares (h : Clocked settings longest e) {now : Nat} (hnow : now ≤ longest)
    (hprepares : e.Prepares now e') : Clocked settings longest e' := by
  refine ⟨?_, fun entry hentry => h.dated entry (hprepares.schedule hentry)⟩
  rcases hprepares.roundTrip with hsame | ⟨sample, hle, hround⟩
  · exact h.measured.same hsame
  · exact h.measured.update (hle.trans hnow) hround

theorem Clocked.perform (h : Clocked settings longest e) {op : Operation} {answer : Answer}
    (hinstant : ∀ now, op.instant? = some now → now ≤ longest)
    (hstep : e.perform op = .ok (answer, e')) : Clocked settings longest e' := by
  cases perform_deed hstep with
  | acts acts =>
    refine acts.induct (P := Clocked settings longest) (fun {e₁ e₂} ih act => ⟨?_, ?_⟩) h
    · rcases act.roundTrip with hsame | ⟨now, sample, hnow, hle, hround⟩
      · exact ih.measured.same hsame
      · exact ih.measured.update (hle.trans (hinstant now hnow)) hround
    · intro entry hentry
      rcases act.mem_schedule hentry with hold | hnew
      · exact ih.dated entry hold
      · exact hinstant _ hnew
  | transmit | report | shut => exact ⟨h.measured, h.dated⟩

theorem Clocked.performAll (h : Clocked settings longest e) {ops : List Operation}
    {answers : List Answer} (hops : ∀ op ∈ ops, ∀ now, op.instant? = some now → now ≤ longest)
    (hrun : e.performAll ops = .ok (answers, e')) : Clocked settings longest e' := by
  induction ops generalizing e answers with
  | nil =>
    obtain ⟨-, rfl⟩ := Prod.mk.inj (Except.ok.inj hrun)
    exact h
  | cons op ops ih =>
    obtain ⟨answer, e₁, others, hfirst, hothers, -⟩ := performAll_cons_cases hrun
    exact ih (h.perform (hops op List.mem_cons_self) hfirst)
      (fun other hother => hops other (List.mem_cons_of_mem op hother)) hothers

theorem create_clocked {token : Bytes} {transform : Transform σ} {secret : σ}
    {nonces : Nat → Nonce} (h : create settings token transform secret nonces = .ok e)
    (longest : Nat) : Clocked settings longest e := by
  unfold create at h
  split at h
  · cases h
  · split at h
    · cases h
    · obtain rfl := Except.ok.inj h
      exact ⟨⟨[], fun _ hsample => absurd hsample List.not_mem_nil, rfl⟩,
        fun _ hentry => absurd hentry List.not_mem_nil⟩

end Clocked

/-! ## What a run can be relied on for -/

/-- At instants up to `longest` no conversion fails: an operation has no result only if a deadline
is out of reach, and what can be read off the estimate always has one. -/
def Computes (longest : Nat) (e₀ : Endpoint α σ) : Prop :=
  ∀ ops : List Operation, (∀ op ∈ ops, ∀ now, op.instant? = some now → now ≤ longest) →
    (∀ cause, e₀.performAll ops = .error cause → cause = .outOfReach) ∧
      ∀ answers e, e₀.performAll ops = .ok (answers, e) →
        (∃ interval, e.nextTickInterval = .ok interval) ∧ ∃ measured, e.statistics = .ok measured

/-- Whatever is asked of the endpoint at instants up to `longest` has a result, and then the timer
can be set. -/
def Survives (longest : Nat) (e₀ : Endpoint α σ) : Prop :=
  ∀ ops : List Operation, (∀ op ∈ ops, ∀ now, op.instant? = some now → now ≤ longest) →
    ∃ answers e, e₀.performAll ops = .ok (answers, e) ∧ e.Wakes longest ∧
      ∃ measured, e.statistics = .ok measured

section Clocked

variable {settings : Settings} {longest : Nat} {e : Endpoint Rat σ}

/-- In a run that has no result, the send queue has none when it runs. -/
theorem Clocked.pump_of_error (h : Clocked settings longest e) {ops : List Operation}
    (hops : ∀ op ∈ ops, ∀ now, op.instant? = some now → now ≤ longest) {cause : TimeError}
    (hrun : e.performAll ops = .error cause) :
    ∃ (now : Nat) (e₁ : Endpoint Rat σ), Clocked settings longest e₁ ∧
      e₁.pump now = .error cause := by
  obtain ⟨before, op, after, answers, e₂, rfl, hbefore, hop⟩ := perform_of_performAll_error hrun
  obtain ⟨now, e₁, hnow, hprepares, hpump⟩ := pump_of_perform_error hop
  have hle := hops op (List.mem_append_right _ List.mem_cons_self) now hnow
  exact ⟨now, e₁, (h.performAll (fun other hother =>
    hops other (List.mem_append_left _ hother)) hbefore).prepares hle hprepares, hpump⟩

theorem Clocked.converts
    (hconv : ∀ samples : List Nat, (∀ sample ∈ samples, sample ≤ longest) →
      (settings.estimate.updateAll samples).Converts)
    (h : Clocked settings longest e) : e.roundTrip.Converts := by
  obtain ⟨samples, hsamples, hround⟩ := h.measured
  exact hround ▸ hconv samples hsamples

/-- No conversion fails if no samples up to `longest` lead out of range. -/
theorem Clocked.computes
    (hconv : ∀ samples : List Nat, (∀ sample ∈ samples, sample ≤ longest) →
      (settings.estimate.updateAll samples).Converts)
    (h : Clocked settings longest e) : e.Computes longest := by
  intro ops hops
  constructor
  · intro cause hrun
    obtain ⟨now, e₁, hclocked, hpump⟩ := h.pump_of_error hops hrun
    rcases pump_eq_error hpump with hfails | ⟨_, -, hcause, -⟩
    · obtain ⟨timeout, htimeout⟩ := (hclocked.converts hconv).timeout
      cases hfails.symm.trans htimeout
    · exact hcause
  · intro answers e' hrun
    have hthere := (h.performAll hops hrun).converts hconv
    exact ⟨exists_nextTickInterval hthere, exists_statistics hthere⟩

/-- An endpoint survives if no samples up to `longest` lead out of range, and no timeout that they
lead to leads beyond the last instant. -/
theorem Clocked.survives
    (hconv : ∀ samples : List Nat, (∀ sample ∈ samples, sample ≤ longest) →
      (settings.estimate.updateAll samples).Converts)
    {wait : Nat} (hwait : ∀ samples : List Nat, (∀ sample ∈ samples, sample ≤ longest) →
      ∀ timeout, (settings.estimate.updateAll samples).timeout = .ok timeout →
        max timeout RoundTrip.minTickInterval ≤ wait)
    (hreach : longest + wait ≤ lastInstant) (h : Clocked settings longest e) :
    e.Survives longest := by
  have hshort {e₁ : Endpoint Rat σ} (hclocked : Clocked settings longest e₁) {timeout : Nat}
      (htimeout : e₁.roundTrip.timeout = .ok timeout) :
      max timeout RoundTrip.minTickInterval ≤ wait := by
    obtain ⟨samples, hsamples, hround⟩ := hclocked.measured
    exact hwait samples hsamples timeout (hround ▸ htimeout)
  intro ops hops
  cases hrun : e.performAll ops with
  | error cause =>
    obtain ⟨now, e₁, hclocked, hpump⟩ := h.pump_of_error hops hrun
    rcases pump_eq_error hpump with hfails | ⟨timeout, htimeout, -, hbeyond⟩
    · obtain ⟨timeout, htimeout⟩ := (hclocked.converts hconv).timeout
      cases hfails.symm.trans htimeout
    · have hbound := hshort hclocked htimeout
      refine absurd (Schedule.inReach_of_forall (fun entry hentry => ?_) now) hbeyond
      have hsent := hclocked.dated entry hentry
      omega
  | ok result =>
    obtain ⟨answers, e'⟩ := result
    have hclocked := h.performAll hops hrun
    have hthere := hclocked.converts hconv
    obtain ⟨interval, hinterval⟩ := exists_nextTickInterval hthere
    obtain ⟨whole, hwhole, hle⟩ := nextTickInterval_le hinterval
    obtain ⟨timeout, htimeout, hpart⟩ := RoundTrip.tickInterval_le hwhole
    have hbound := hshort hclocked htimeout
    exact ⟨answers, e', rfl, ⟨interval, hinterval, by omega⟩, exists_statistics hthere⟩

/-- With valid settings an endpoint survives as long as the longest wait that can come up does not
lead beyond the last instant. -/
theorem create_survives {token : Bytes} {transform : Transform σ} {secret : σ}
    {nonces : Nat → Nonce} (hcreate : create settings token transform secret nonces = .ok e)
    (hfloor : IsDuration settings.minRto) (hinitial : settings.initialRtt ≤ longest) {wait : Nat}
    (hwait : settings.longestWait longest = .ok wait) (hreach : longest + wait ≤ lastInstant) :
    e.Survives longest := by
  have hvalid := (create_eq_ok hcreate).1
  exact (create_clocked hcreate longest).survives
    (fun samples => Settings.converts_of_stretch_lt hvalid hfloor hinitial
      ((Settings.exists_longestWait_iff hvalid).1 ⟨wait, hwait⟩))
    (fun samples hsamples timeout htimeout =>
      Settings.timeout_le_longestWait hvalid hfloor hinitial hwait hsamples htimeout) hreach

end Clocked

/-- Under valid settings the mean is a duration whatever the samples, and the timeout and the tick
interval are durations exactly as long as the stretched mean is one.  Samples cannot lead out of
range exactly if the multiplier is one.  As long as no instant is so far out that the multiplier
stretches it beyond all durations, samples do not lead out of range, and no operation fails for that
reason; and as long as no wait leads beyond the last instant, none fails at all. -/
theorem durations_in_range {settings : Settings} (hvalid : settings.validate = .ok ())
    (hinitial : IsDuration settings.initialRtt) (hfloor : IsDuration settings.minRto) :
    (∀ samples : List Nat, (∀ sample ∈ samples, IsDuration sample) →
      let r := settings.estimate.updateAll samples
      (∃ nanos, r.smoothed = .ok nanos) ∧
        ((∃ nanos, r.timeout = .ok nanos) ↔ r.mean * settings.stretch < maxSeconds) ∧
        ((∃ nanos, r.tickInterval = .ok nanos) ↔ r.mean * settings.stretch < maxSeconds)) ∧
      ((∀ samples : List Nat, (∀ sample ∈ samples, IsDuration sample) →
        (settings.estimate.updateAll samples).Converts) ↔ settings.stretch = 1) ∧
      ∀ longest : Nat, settings.initialRtt ≤ longest →
        seconds longest * settings.stretch < maxSeconds →
          (∀ samples : List Nat, (∀ sample ∈ samples, sample ≤ longest) →
            (settings.estimate.updateAll samples).Converts) ∧
          ∃ wait, settings.longestWait longest = .ok wait ∧
            ∀ {token : Bytes} {transform : Transform σ} {secret : σ} {nonces : Nat → Nonce}
              {e₀ : Endpoint Rat σ},
              create settings token transform secret nonces = .ok e₀ →
                e₀.Computes longest ∧ (longest + wait ≤ lastInstant → e₀.Survives longest) := by
  refine ⟨fun samples hsamples => ?_, Settings.converts_iff_stretch hvalid hinitial hfloor,
    fun longest hlongest hstretch => ?_⟩
  · obtain ⟨hnonneg, hmean⟩ := Settings.estimate_mean_mem hvalid hfloor
      (Settings.le_longestDuration_iff.2 hinitial)
      fun sample hsample => Settings.le_longestDuration_iff.2 (hsamples sample hsample)
    have hweighted := (Settings.estimate_weighted hvalid hfloor).updateAll samples
    have hbelow : (settings.estimate.updateAll samples).mean < maxSeconds :=
      hmean.trans_lt (seconds_lt_iff.2 (Settings.le_longestDuration_iff.1 le_rfl))
    have htimeout := RoundTrip.exists_timeout_iff hweighted hnonneg
    have htick := RoundTrip.exists_tickInterval_iff hweighted hnonneg
    rw [RoundTrip.updateAll_multiplier] at htimeout htick
    exact ⟨RoundTrip.exists_smoothed hnonneg hbelow, htimeout, htick⟩
  · have hconv : ∀ samples : List Nat, (∀ sample ∈ samples, sample ≤ longest) →
        (settings.estimate.updateAll samples).Converts :=
      fun samples => Settings.converts_of_stretch_lt hvalid hfloor hlongest hstretch
    obtain ⟨wait, hwait⟩ := (Settings.exists_longestWait_iff hvalid).2 hstretch
    exact ⟨hconv, wait, hwait, fun hcreate => ⟨(create_clocked hcreate longest).computes hconv,
      create_survives hcreate hfloor hlongest hwait⟩⟩

/-- With the settings that are assumed, an endpoint survives for ages, whatever it measures. -/
theorem durations_in_range_assumed :
    Settings.validate {} = .ok () ∧ Settings.stretch {} = 3 / 2 ∧
      ((Settings.estimate {}).updateAll [0, 10 ^ 20]).Converts ∧
      ∃ nonces e₀, create (α := Rat) {} [1] .plain () nonces = .ok e₀ ∧ e₀.Survives (10 ^ 20) := by
  have hvalid : Settings.validate {} = .ok () := eq_ok_of_toOption (by decide +kernel)
  have hstretch : seconds (10 ^ 20) * Settings.stretch {} < maxSeconds := by decide +kernel
  have hlongest : Settings.longestWait {} (10 ^ 20) = .ok (15 * 10 ^ 19) :=
    eq_ok_of_toOption (by decide +kernel)
  obtain ⟨hsamples, wait, hwait, hcreated⟩ := (durations_in_range (σ := Unit) hvalid (by decide)
    (by decide)).2.2 (10 ^ 20) (by decide) hstretch
  obtain rfl := Except.ok.inj (hlongest.symm.trans hwait)
  refine ⟨hvalid, by decide +kernel, hsamples [0, 10 ^ 20] (by decide), ?_⟩
  obtain ⟨e₀, hcreate, -⟩ := exists_of_any_toOption (p := fun _ => true)
    (show (blank {} [1]).toOption.any (fun _ => true) = true by decide +kernel)
  exact ⟨_, e₀, hcreate, (hcreated hcreate).2 (by decide)⟩

/-- Whether there is no result because a number of seconds is too large. -/
def overflows {γ : Type} : Except TimeError γ → Bool
  | .error .tooLargeOrNaN => true
  | _ => false

theorem eq_error_of_overflows {γ : Type} {result : Except TimeError γ}
    (h : overflows result = true) : result = .error .tooLargeOrNaN := by
  unfold overflows at h
  split at h
  · rfl
  · cases h

/-- Valid settings under which the round trip that is assumed at first has no timeout: once the
handshake is complete, neither a packet nor a tick nor a look at the measurements has a result. -/
theorem timeout_out_of_range :
    ∃ (settings : Settings) (nonces : Nat → Nonce) (e₀ : Endpoint Rat Unit) (answers : List Answer)
      (e : Endpoint Rat Unit),
      settings.validate = .ok () ∧ IsDuration settings.initialRtt ∧ IsDuration settings.minRto ∧
        ¬ settings.estimate.Converts ∧
        create settings [1] .plain () nonces = .ok e₀ ∧
        e₀.performAll [.connect 0, .receive (Frame.hello [1]).encode 0] = .ok (answers, e) ∧
        e.send [7] 0 = .error .tooLargeOrNaN ∧ e.tick 0 = .error .tooLargeOrNaN ∧
        e.nextTickInterval = .error .tooLargeOrNaN ∧ e.statistics = .error .tooLargeOrNaN := by
  let settings : Settings := { retryMultiplier := 1e300 }
  have htimeout : settings.estimate.timeout = .error .tooLargeOrNaN :=
    eq_error_of_overflows (by decide +kernel)
  obtain ⟨nonces, e₀, answers, e, hcreate, hrun, hall⟩ := exists_of_trial
    (p := fun result => overflows (result.2.send [7] 0) && overflows (result.2.tick 0) &&
      overflows result.2.nextTickInterval && overflows result.2.statistics)
    (show (trial settings [1] [.connect 0, .receive (Frame.hello [1]).encode 0]).any _ = true by
      decide +kernel)
  simp only [Bool.and_eq_true] at hall
  obtain ⟨⟨⟨hsend, htick⟩, hinterval⟩, hstatistics⟩ := hall
  refine ⟨settings, nonces, e₀, answers, e, (create_eq_ok hcreate).1, by decide, by decide, ?_,
    hcreate, hrun, eq_error_of_overflows hsend, eq_error_of_overflows htick,
    eq_error_of_overflows hinterval, eq_error_of_overflows hstatistics⟩
  intro hconv
  obtain ⟨nanos, hnanos⟩ := hconv.timeout
  cases htimeout.symm.trans hnanos

end Endpoint

end DatagramTunnel.Session
