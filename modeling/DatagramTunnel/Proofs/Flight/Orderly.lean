import DatagramTunnel.Proofs.Flight.Occupancy
import Mathlib.Data.List.Induction

/-!
# Numbers that are free when they are used

A send queue takes whatever number it is given.  A run is `Orderly` if no frame is queued under a
number that is outstanding at the time; the numbers of frames that were acknowledged may come back.
Such a run keeps the queue `Regular`: the schedule mirrors the frames in flight, and a number is
outstanding once.

What a tick needs is less.  `Unambiguous` asks that a number is outstanding once and that the
schedule holds no transmission of a frame in flight but its latest, and allows transmissions of
frames that are gone.  A run that is not orderly may leave both behind.
-/

namespace DatagramTunnel.Flight.SendQueue

/-- A frame may be queued under a number that is not outstanding; nothing else is restricted. -/
def Admits (q : SendQueue) : Call → Prop
  | .enqueue seq _ => seq ∉ q.outstanding.map Waiting.seq
  | .tick _ _ | .acknowledge _ _ | .clear => True

instance (q : SendQueue) : DecidablePred q.Admits
  | .enqueue seq _ => inferInstanceAs (Decidable (seq ∉ q.outstanding.map Waiting.seq))
  | .tick _ _ => isTrue trivial
  | .acknowledge _ _ => isTrue trivial
  | .clear => isTrue trivial

/-- No frame is queued under a number that is outstanding. A run ends with a call that has no
result. -/
def Orderly (q : SendQueue) : List Call → Prop
  | [] => True
  | c :: rest => q.Admits c ∧
    match q.call c with
    | .ok q' => q'.Orderly rest
    | .error _ => True

instance decidableOrderly (q : SendQueue) : (calls : List Call) → Decidable (q.Orderly calls)
  | [] => isTrue trivial
  | c :: rest =>
    have : Decidable (match q.call c with
        | .ok q' => q'.Orderly rest
        | .error _ => True) :=
      match q.call c with
      | .ok q' => decidableOrderly q' rest
      | .error _ => isTrue trivial
    inferInstanceAs (Decidable (q.Admits c ∧ _))

theorem Orderly.next {q q' : SendQueue} {c : Call} {rest : List Call} (h : q.Orderly (c :: rest))
    (hcall : q.call c = .ok q') : q'.Orderly rest := by
  have hrest := h.2
  rwa [hcall] at hrest

theorem Orderly.of_prefix {q : SendQueue} {early calls : List Call} (h : q.Orderly calls)
    (hearly : early <+: calls) : q.Orderly early := by
  induction early generalizing q calls with
  | nil => trivial
  | cons c rest ih =>
    obtain ⟨later, rfl⟩ := hearly
    refine ⟨h.1, ?_⟩
    cases hcall : q.call c with
    | error cause => trivial
    | ok q' => exact ih (h.next hcall) (List.prefix_append rest later)

/-! ## Any run -/

theorem Tracked.after {q : SendQueue} (h : q.Tracked []) (c : Call) : (q.after c).Tracked [] := by
  cases c with
  | enqueue seq datagram => exact h.withWaiting _
  | tick now timeout => exact h.ticked now timeout
  | acknowledge seq now =>
    rw [SendQueue.after]
    cases hack : q.acknowledge? seq now with
    | none => exact h
    | some result => exact h.acknowledge hack
  | clear => exact Tracked.empty rfl rfl

/-- Whatever is called, every frame in flight stays on the schedule. -/
theorem tracked_callAll {window : Nat} {calls : List Call} {q : SendQueue}
    (hrun : callAll { window } calls = .ok q) : q.Tracked [] :=
  callAll_induction (P := fun q => q.Tracked []) (fun c h => h.after c) (Tracked.empty rfl rfl) hrun

theorem mem_schedule_resendAll {now : Nat} {late : List UInt32} {q : SendQueue} {x : Entry}
    (hx : x ∈ (resendAll now late q).2.schedule) : x ∈ q.schedule ∨ x.sentAt = now := by
  induction late generalizing q with
  | nil => exact .inl hx
  | cons seq rest ih =>
    rcases ih (q := (q.resend now seq).2) hx with hx | hnow
    · cases hfind : q.find? seq with
      | none =>
        rw [resend_of_missing hfind] at hx
        exact .inl hx
      | some f =>
        rw [resend_of_find hfind] at hx
        exact (Schedule.mem_insert hx).symm.imp_right fun heq => congrArg Entry.sentAt heq
    · exact .inr hnow

theorem mem_schedule_fill {now : Nat} {frames : List Waiting} {q : SendQueue} {x : Entry}
    (hx : x ∈ (fill now frames q).2.schedule) : x ∈ q.schedule ∨ x.sentAt = now := by
  induction frames generalizing q with
  | nil => exact .inl hx
  | cons f rest ih =>
    by_cases hroom : q.inFlight.length < q.window
    · rw [fill_of_room hroom] at hx
      rcases ih hx with hx | hnow
      · exact (Schedule.mem_insert hx).symm.imp_right fun heq => congrArg Entry.sentAt heq
      · exact .inr hnow
    · rw [fill_of_full hroom] at hx
      exact .inl hx

/-- A transmission enters the schedule at the instant of the tick that makes it. -/
theorem mem_schedule_after {q : SendQueue} {c : Call} {x : Entry}
    (hx : x ∈ (q.after c).schedule) :
    x ∈ q.schedule ∨ ∃ timeout, c = .tick x.sentAt timeout := by
  cases c with
  | enqueue seq datagram => exact .inl hx
  | tick now timeout =>
    rcases mem_schedule_fill hx with hx | rfl
    · rcases mem_schedule_resendAll hx with hx | rfl
      · exact .inl ((List.dropWhile_sublist _).subset hx)
      · exact .inr ⟨timeout, rfl⟩
    · exact .inr ⟨timeout, rfl⟩
  | acknowledge seq now =>
    rw [SendQueue.after] at hx
    cases hack : q.acknowledge? seq now with
    | none =>
      rw [hack] at hx
      exact .inl hx
    | some result =>
      rw [hack] at hx
      obtain ⟨f, -, rfl⟩ := Option.map_eq_some_iff.1 hack
      exact .inl (List.mem_filter.1 hx).1
  | clear => exact absurd hx List.not_mem_nil

/-- Every transmission on the schedule was made by one of the ticks. -/
theorem mem_schedule_callAll {q q' : SendQueue} {calls : List Call}
    (hrun : q.callAll calls = .ok q') {x : Entry} (hx : x ∈ q'.schedule) :
    x ∈ q.schedule ∨ ∃ timeout, .tick x.sentAt timeout ∈ calls := by
  induction calls generalizing q with
  | nil =>
    obtain rfl : q = q' := Except.ok.inj hrun
    exact .inl hx
  | cons c rest ih =>
    obtain ⟨q₁, hcall, hrest⟩ := exists_call_of_callAll hrun
    rcases ih hrest with hx | ⟨timeout, hmem⟩
    · rw [eq_after hcall] at hx
      rcases mem_schedule_after hx with hx | ⟨timeout, rfl⟩
      · exact .inl hx
      · exact .inr ⟨timeout, List.mem_cons_self⟩
    · exact .inr ⟨timeout, List.mem_cons_of_mem c hmem⟩

/-- A deadline is the instant of an earlier tick plus the timeout of a later one. -/
theorem exists_callAll {window : Nat} {calls : List Call}
    (h : ∀ sentAt before now timeout, .tick sentAt before ∈ calls → .tick now timeout ∈ calls →
      sentAt + timeout ≤ lastInstant) : ∃ q, callAll { window } calls = .ok q := by
  induction calls using List.reverseRecOn with
  | nil => exact ⟨_, rfl⟩
  | append_singleton calls c ih =>
    obtain ⟨q, hrun⟩ := ih fun sentAt before now timeout hmade hnow =>
      h sentAt before now timeout (List.mem_append_left _ hmade) (List.mem_append_left _ hnow)
    have hcall : q.call c = .ok (q.after c) := by
      refine call_eq_after fun now timeout htick => ?_
      subst htick
      refine Schedule.inReach_of_forall (fun x hx => ?_) now
      rcases mem_schedule_callAll hrun hx with hx | ⟨before, hmade⟩
      · exact absurd hx List.not_mem_nil
      · exact h x.sentAt before now timeout (List.mem_append_left _ hmade) (by simp)
    refine ⟨q.after c, ?_⟩
    rw [callAll_append, hrun]
    show q.callAll [c] = _
    rw [callAll_cons, hcall]
    rfl

/-! ## Orderly runs -/

/-- The schedule mirrors the frames in flight, and a number is outstanding once. -/
structure Regular (q : SendQueue) : Prop where
  scheduled : q.Scheduled []
  distinct : (q.outstanding.map Waiting.seq).Nodup

theorem Regular.new (window : Nat) : Regular { window } where
  scheduled := (Tracked.empty rfl rfl).scheduled fun _ hx => absurd hx List.not_mem_nil
  distinct := List.nodup_nil

theorem Regular.admissible {q : SendQueue} (h : q.Regular) : q.Admissible q.waiting :=
  admissible_of_nodup h.distinct

theorem Regular.after {q : SendQueue} (h : q.Regular) {c : Call} (hc : q.Admits c) :
    (q.after c).Regular := by
  cases c with
  | enqueue seq datagram =>
    refine ⟨h.scheduled.enqueueAll _, ?_⟩
    rw [SendQueue.after, enqueue, outstanding_enqueueAll, List.map_append]
    refine List.nodup_append.2 ⟨h.distinct, List.pairwise_singleton _ seq, ?_⟩
    rintro other hother _ hseq rfl
    rw [List.map_singleton, List.mem_singleton] at hseq
    subst hseq
    exact hc hother
  | tick now timeout =>
    refine ⟨(h.scheduled.ticked h.admissible now timeout).1, ?_⟩
    rw [SendQueue.after, h.scheduled.outstanding_ticked h.admissible]
    exact h.distinct
  | acknowledge seq now =>
    rw [SendQueue.after]
    cases hack : q.acknowledge? seq now with
    | none => exact h
    | some result =>
      refine ⟨(h.scheduled.acknowledge hack).1, ?_⟩
      rw [Option.map_some, Option.getD_some, h.scheduled.outstanding_acknowledge h.distinct hack]
      exact h.distinct.sublist (List.filter_sublist.map _)
  | clear => exact ⟨Scheduled.clear, List.nodup_nil⟩

theorem Regular.callAll {q q' : SendQueue} (h : q.Regular) {calls : List Call}
    (hcalls : q.Orderly calls) (hrun : q.callAll calls = .ok q') : q'.Regular := by
  induction calls generalizing q with
  | nil => exact Except.ok.inj hrun ▸ h
  | cons c rest ih =>
    obtain ⟨q₁, hcall, hrest⟩ := exists_call_of_callAll hrun
    exact ih (eq_after hcall ▸ h.after hcalls.1) (hcalls.next hcall) hrest

/-! ## What a tick needs -/

/-- A number that is outstanding names one frame, and a number in flight one transmission. -/
structure Unambiguous (q : SendQueue) : Prop where
  distinct : (q.outstanding.map Waiting.seq).Nodup
  latest : ∀ x ∈ q.schedule, ∀ f ∈ q.inFlight, x.seq = f.seq → x = f.entry

/-- The transmissions on the schedule are those of the frames in flight, and each number is theirs
alone. -/
theorem Regular.unambiguous {q : SendQueue} (h : q.Regular) : q.Unambiguous where
  distinct := h.distinct
  latest x hx f hf heq := by
    obtain ⟨g, hg, -, rfl⟩ := h.scheduled.live x hx
    rw [seq_injective h.scheduled.distinct hg hf heq]

end DatagramTunnel.Flight.SendQueue
