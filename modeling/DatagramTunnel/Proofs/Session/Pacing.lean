import DatagramTunnel.Proofs.Session.Greeting

/-!
# How far apart HELLOs are

All HELLOs of an endpoint share one record of the last of them.  So whatever made the endpoint say
the one before, it waits a whole interval before it repeats its HELLO, and half an interval before
it answers one.  `Spaced` carries this through a run together with the reason why the first HELLO is
the first.

Half an interval is a whole number of nanoseconds, and of a single nanosecond it is none.  Then a
late HELLO is answered at once, however many come: `greets_twice`.  With any longer interval the
HELLOs of a run go out at different instants, and `hellos_spaced` says that this is the only
exception.
-/

namespace DatagramTunnel.Session

open Flight Packet Wire

theorem Settings.helloInterval_pos {s : Settings} (h : s.validate = .ok ()) :
    0 < s.helloInterval := by
  have hrule := Settings.validate_eq_ok_iff.1 h
    (s.helloInterval != 0 && s.helloInterval ≤ s.helloTimeout, .invalidHelloTiming)
    (by simp [rules])
  rw [Bool.and_eq_true, bne_iff_ne] at hrule
  exact Nat.pos_of_ne_zero hrule.1

/-- The least time between a HELLO that is said in a phase and the one before it. -/
def Settings.helloGap (s : Settings) : Phase → Nat
  | .connecting => s.helloInterval
  | .established | .closing | .closed => s.helloInterval / 2

theorem Settings.helloGap_pos {s : Settings} (h : 2 ≤ s.helloInterval) (phase : Phase) :
    0 < s.helloGap phase := by
  have hhalf : 0 < s.helloInterval / 2 := Nat.div_pos h (by decide)
  cases phase with
  | connecting => exact Nat.lt_of_lt_of_le Nat.zero_lt_two h
  | _ => exact hhalf

/-- A HELLO that has been said. -/
structure Greeting where
  sentAt : Nat
  /-- The phase of the endpoint that said it. -/
  phase : Phase
  deriving DecidableEq, Repr

namespace Endpoint

variable {α σ : Type}

/-! ## The last HELLO -/

/-- What the endpoint remembers of the HELLOs `said`, in a run with calls at these instants. -/
structure Spaced (e : Endpoint α σ) (instants : List Nat) (said : List Greeting) : Prop where
  /-- The first HELLO starts the handshake, unless the peer has been faster. -/
  unstarted : e.phase = .connecting → e.handshakeStarted = none → e.lastHello = none
  unsaid : e.lastHello = none → said = []
  last : ∀ last, e.lastHello = some last → last ∈ instants ∧ ∀ g ∈ said, g.sentAt ≤ last
  spaced : said.Pairwise fun earlier later =>
    earlier.sentAt + e.settings.helloGap later.phase ≤ later.sentAt

namespace Spaced

variable {e e' : Endpoint α σ} {op : Operation} {instants : List Nat} {said : List Greeting}
  {now : Nat}

theorem start {settings : Settings} {token : Bytes} {transform : Transform σ}
    (h : e.New settings token transform) : Spaced e [] [] := by
  refine ⟨fun _ _ => h.lastHello_eq, fun _ => rfl, fun last hlast => ?_, .nil⟩
  rw [h.lastHello_eq] at hlast
  cases hlast

/-- If a HELLO is due, the one before is the gap away. -/
theorem sentAt_of_due (h : Spaced e instants said) (hordered : ∀ t ∈ instants, t ≤ now) {gap : Nat}
    (hdue : e.helloDue now gap = true) : ∀ g ∈ said, g.sentAt + gap ≤ now := by
  intro g hg
  cases hlast : e.lastHello with
  | none =>
    rw [h.unsaid hlast] at hg
    cases hg
  | some last =>
    obtain ⟨hmem, hle⟩ := h.last last hlast
    have hbefore := hordered last hmem
    have hearlier := hle g hg
    have hgap := (helloDue_iff hlast now gap).1 hdue
    omega

/-- Every HELLO keeps its distance. -/
theorem sentAt_of_greets (h : Spaced e instants said) (hordered : ∀ t ∈ instants, t ≤ now)
    (hgreets : Greets op now e e') :
    ∀ g ∈ said, g.sentAt + e.settings.helloGap e.phase ≤ now := by
  cases hgreets with
  | start phase first =>
    rw [h.unsaid (h.unstarted phase first)]
    exact fun _ hg => absurd hg List.not_mem_nil
  | retry phase _ due =>
    rw [phase]
    exact h.sentAt_of_due hordered due
  | answer up _ due =>
    rw [up]
    exact h.sentAt_of_due hordered due

end Spaced

/-! ## Every HELLO -/

variable [Add α] [Sub α] [Mul α] [Seconds α] {e₀ e e' : Endpoint α σ} {op : Operation}
  {answer : Answer}

/-- The HELLOs that a call leaves in the outbox, with the instant of the call. -/
def greetings (e : Endpoint α σ) (op : Operation) : List Greeting :=
  match e.perform op with
  | .ok (_, e') => (hellos (e.postedSince e')).map fun _ => ⟨op.instant?.getD 0, e.phase⟩
  | .error _ => []

theorem greetings_of_greets {now : Nat} (hperform : e.perform op = .ok (answer, e'))
    (h : Greets op now e e') : e.greetings op = [⟨now, e.phase⟩] := by
  rw [greetings, hperform]
  dsimp only
  rw [h.postedSince_eq, h.instant]
  simp [hellos]

theorem greetings_of_silent (hperform : e.perform op = .ok (answer, e')) (h : Silent e e') :
    e.greetings op = [] := by
  rw [greetings, hperform]
  dsimp only
  rw [h.hellos_postedSince, List.map_nil]

theorem Spaced.step {instants : List Nat} {said : List Greeting} (h : Spaced e instants said)
    (hdata : HoldsData e.queue)
    (hordered : (instants ++ op.instant?.toList).Pairwise (· ≤ ·))
    (hperform : e.perform op = .ok (answer, e')) :
    Spaced e' (instants ++ op.instant?.toList) (said ++ e.greetings op) := by
  have hsettings := (perform_outcome hperform).constants.1
  rcases perform_hello hdata hperform with ⟨now, hgreets⟩ | hsilent
  · have hinstant := hgreets.instant
    rw [hinstant, Option.toList_some] at hordered ⊢
    have hbefore : ∀ t ∈ instants, t ≤ now := fun t ht =>
      (List.pairwise_append.1 hordered).2.2 t ht now List.mem_cons_self
    have hgaps := h.sentAt_of_greets hbefore hgreets
    have hlast := hgreets.lastHello
    rw [greetings_of_greets hperform hgreets]
    refine ⟨?_, ?_, ?_, ?_⟩
    · intro hphase hnone
      cases hgreets with
      | start _ _ => cases hnone
      | retry _ started _ => exact absurd hnone started
      | answer up _ _ => exact nomatch up.symm.trans hphase
    · intro hnone
      exact nomatch hlast.symm.trans hnone
    · intro last hsome
      obtain rfl := Option.some.inj (hlast.symm.trans hsome)
      refine ⟨by simp, fun g hg => ?_⟩
      rcases List.mem_append.1 hg with hold | hnew
      · exact Nat.le_of_add_right_le (hgaps g hold)
      · rw [List.mem_singleton] at hnew
        exact Nat.le_of_eq (congrArg Greeting.sentAt hnew)
    · rw [hsettings]
      refine List.pairwise_append.2 ⟨h.spaced, List.pairwise_singleton _ _, fun g hg g' hg' => ?_⟩
      rw [List.mem_singleton] at hg'
      exact hg' ▸ hgaps g hg
  · rw [greetings_of_silent hperform hsilent, List.append_nil]
    refine ⟨?_, ?_, ?_, ?_⟩
    · rw [hsilent.lastHello, hsilent.handshakeStarted]
      exact fun hphase => h.unstarted (connecting_of_perform hperform hphase)
    · rw [hsilent.lastHello]
      exact h.unsaid
    · intro last hsome
      rw [hsilent.lastHello] at hsome
      obtain ⟨hmem, hle⟩ := h.last last hsome
      exact ⟨List.mem_append_left _ hmem, hle⟩
    · rw [hsettings]
      exact h.spaced

theorem spaced_run {settings : Settings} {token : Bytes} {transform : Transform σ} {secret : σ}
    {nonces : Nat → Nonce} {ops : List Operation} {answers : List Answer}
    (hcreate : create settings token transform secret nonces = .ok e₀)
    (hrun : e₀.performAll ops = .ok (answers, e))
    (hordered : (ops.filterMap Operation.instant?).Pairwise (· ≤ ·)) :
    e.settings = settings ∧
      Spaced e (ops.filterMap Operation.instant?) (e₀.history greetings ops) := by
  have hnew := create_new hcreate
  revert hordered
  refine performAll_induct_past (P := fun ops _ e =>
    (ops.filterMap Operation.instant?).Pairwise (· ≤ ·) → e.settings = settings ∧
      Spaced e (ops.filterMap Operation.instant?) (e₀.history greetings ops))
    (fun {ops answers e₁ e₂ op answer} hrun₁ ih hperform hordered => ?_)
    (fun _ => ⟨hnew.settings_eq, .start hnew⟩) hrun
  have hinstants : (ops ++ [op]).filterMap Operation.instant? =
      ops.filterMap Operation.instant? ++ op.instant?.toList := by
    rw [List.filterMap_append]
    cases op <;> rfl
  rw [hinstants] at hordered ⊢
  obtain ⟨hsettings, hspaced⟩ := ih (List.pairwise_append.1 hordered).1
  rw [history_concat greetings hrun₁]
  exact ⟨(perform_outcome hperform).constants.1.trans hsettings,
    hspaced.step (holdsData_run hcreate hrun₁) hordered hperform⟩

/-- Where the interval is a single nanosecond, a late HELLO is answered at the instant at which the
handshake started. -/
theorem greets_twice {settings : Settings} {token : Bytes} {transform : Transform σ}
    (h : e₀.New settings token transform) (hinterval : settings.helloInterval = 1) :
    ∃ ops answers e, e₀.performAll ops = .ok (answers, e) ∧
      (ops.filterMap Operation.instant?).Pairwise (· ≤ ·) ∧
        ¬ ((e₀.history greetings ops).map Greeting.sentAt).Nodup := by
  let hello : Bytes := (Frame.hello e₀.token).encode
  let e₁ : Endpoint α σ := { e₀ with handshakeStarted := some 0 }.sendHello 0
  let e₂ : Endpoint α σ := { e₁ with phase := .established }.notify .up
  have hconnect : e₀.perform (.connect 0) = .ok (.done, e₁) := by
    simp only [perform, connect, h.phase_eq, h.handshakeStarted_eq, e₁]
  have hrise : e₁.perform (.receive hello 0) = .ok (.done, e₂) := by
    have hheard : e₁.receive hello 0 = .ok e₂ := receive_hello (e := e₁) h.phase_eq 0
    rw [perform, hheard]
    rfl
  have hdue : e₂.helloDue 0 (e₂.settings.helloInterval / 2) = true := by
    have hlast : e₂.lastHello = some 0 := rfl
    have hsame : e₂.settings.helloInterval = 1 := (congrArg _ h.settings_eq).trans hinterval
    rw [hsame]
    exact (helloDue_iff hlast 0 _).2 (Nat.zero_le _)
  have hanswer : e₂.perform (.receive hello 0) = .ok (.done, e₂.sendHello 0) := by
    have hheard : e₂.receive hello 0 = .ok (if _ then e₂.sendHello 0 else e₂) :=
      receive_late_hello (e := e₂) rfl 0
    rw [if_pos hdue] at hheard
    rw [perform, hheard]
    rfl
  have hfirst := greetings_of_greets hconnect (.start h.phase_eq h.handshakeStarted_eq)
  have hlate := greetings_of_greets hanswer (.answer rfl (decode_hello e₀.token) hdue)
  refine ⟨[.connect 0, .receive hello 0, .receive hello 0], [.done, .done, .done],
    e₂.sendHello 0, ?_, by simp [Operation.instant?], ?_⟩
  · exact performAll_cons hconnect (performAll_cons hrise (performAll_cons hanswer rfl))
  · simp [history, hconnect, hrise, hanswer, hfirst, hlate]

/-- In every run with ordered instants an endpoint waits a whole interval before it repeats its
HELLO, and half an interval before it answers one, since whatever HELLO it said before.  The HELLOs
of every such run go out at different instants precisely if the interval is longer than a
nanosecond. -/
theorem hellos_spaced {settings : Settings} {token : Bytes} {transform : Transform σ} {secret : σ}
    {nonces : Nat → Nonce} (hcreate : create settings token transform secret nonces = .ok e₀) :
    (∀ ops answers e, e₀.performAll ops = .ok (answers, e) →
      (ops.filterMap Operation.instant?).Pairwise (· ≤ ·) →
        (e₀.history greetings ops).Pairwise fun earlier later =>
          earlier.sentAt + settings.helloGap later.phase ≤ later.sentAt) ∧
      ((∀ ops answers e, e₀.performAll ops = .ok (answers, e) →
        (ops.filterMap Operation.instant?).Pairwise (· ≤ ·) →
          ((e₀.history greetings ops).map Greeting.sentAt).Nodup) ↔
        2 ≤ settings.helloInterval) := by
  have hspaced : ∀ ops answers e, e₀.performAll ops = .ok (answers, e) →
      (ops.filterMap Operation.instant?).Pairwise (· ≤ ·) →
        (e₀.history greetings ops).Pairwise fun earlier later =>
          earlier.sentAt + settings.helloGap later.phase ≤ later.sentAt := by
    intro ops answers e hrun hordered
    obtain ⟨hsettings, hspaced⟩ := spaced_run hcreate hrun hordered
    exact hsettings ▸ hspaced.spaced
  refine ⟨hspaced, ?_, ?_⟩
  · intro hdistinct
    have hpos := Settings.helloInterval_pos (create_eq_ok hcreate).1
    refine Classical.byContradiction fun hshort => ?_
    obtain ⟨ops, answers, e, hrun, hordered, htwice⟩ :=
      greets_twice (create_new hcreate) (show settings.helloInterval = 1 by omega)
    exact htwice (hdistinct ops answers e hrun hordered)
  · intro hlong ops answers e hrun hordered
    refine List.pairwise_map.2 ((hspaced ops answers e hrun hordered).imp fun {g g'} hgap => ?_)
    have hpos := Settings.helloGap_pos hlong g'.phase
    omega

/-- Two HELLOs of the peer are answered in a run with a HELLO interval of three nanoseconds, a third
one comes too early, and so does the tick after the first HELLO. -/
theorem hellos_spaced_three : ∃ (nonces : Nat → Nonce) (e₀ e : Endpoint Rat Unit)
    (ops : List Operation) (answers : List Answer),
      create { helloInterval := 3 } [7] .plain () nonces = .ok e₀ ∧
        e₀.performAll ops = .ok (answers, e) ∧
        (e₀.history greetings ops).map Greeting.sentAt = [5, 8, 9, 10] ∧
        ((e₀.history greetings ops).map Greeting.sentAt).Nodup := by
  let hello : Bytes := (Frame.hello [7]).encode
  let ops : List Operation := [.connect 5, .tick 7, .tick 8, .receive hello 8, .receive hello 9,
    .receive hello 9, .receive hello 10]
  obtain ⟨e₀, hcreate, hrest⟩ := exists_of_any_toOption
    (show (blank { helloInterval := 3 } [7]).toOption.any (fun e₀ =>
      ((e₀.history greetings ops).map Greeting.sentAt == [5, 8, 9, 10]) &&
        (e₀.performAll ops).toOption.any fun _ => true) = true by decide +kernel)
  rw [Bool.and_eq_true, beq_iff_eq] at hrest
  obtain ⟨hlog, hrest⟩ := hrest
  obtain ⟨⟨answers, e⟩, hrun, -⟩ := exists_of_any_toOption hrest
  have hordered : (ops.filterMap Operation.instant?).Pairwise (· ≤ ·) := by decide
  exact ⟨_, e₀, e, ops, answers, hcreate, hrun, hlog,
    (hellos_spaced hcreate).2.2 (by decide) ops answers e hrun hordered⟩

/-- With a HELLO interval of one nanosecond three HELLOs go out at one instant, two of them by an
endpoint that is up. -/
theorem hellos_at_one_instant : ∃ (nonces : Nat → Nonce) (e₀ e : Endpoint Rat Unit)
    (answers : List Answer),
      create { helloInterval := 1 } [7] .plain () nonces = .ok e₀ ∧
        e₀.performAll [.connect 0, .receive (Frame.hello [7]).encode 0,
          .receive (Frame.hello [7]).encode 0, .receive (Frame.hello [7]).encode 0] =
            .ok (answers, e) ∧
        e₀.history greetings [.connect 0, .receive (Frame.hello [7]).encode 0,
          .receive (Frame.hello [7]).encode 0, .receive (Frame.hello [7]).encode 0] =
            [⟨0, .connecting⟩, ⟨0, .established⟩, ⟨0, .established⟩] := by
  let hello : Bytes := (Frame.hello [7]).encode
  let ops : List Operation := [.connect 0, .receive hello 0, .receive hello 0, .receive hello 0]
  obtain ⟨e₀, hcreate, hrest⟩ := exists_of_any_toOption
    (show (blank { helloInterval := 1 } [7]).toOption.any (fun e₀ =>
      (e₀.history greetings ops ==
          [⟨0, .connecting⟩, ⟨0, .established⟩, ⟨0, .established⟩]) &&
        (e₀.performAll ops).toOption.any fun _ => true) = true by decide +kernel)
  rw [Bool.and_eq_true, beq_iff_eq] at hrest
  obtain ⟨hlog, hrest⟩ := hrest
  obtain ⟨⟨answers, e⟩, hrun, -⟩ := exists_of_any_toOption hrest
  exact ⟨_, e₀, e, answers, hcreate, hrun, hlog⟩

end Endpoint

end DatagramTunnel.Session
