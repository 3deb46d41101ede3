import DatagramTunnel.Proofs.Packet.Ordering
import DatagramTunnel.Proofs.Session.Outcome

/-!
# Taking in a data frame

A data frame is offered to the window and answered (`offered`); then the frames whose turn has come
are read one after the other (`advanced`), and each may hand over a packet or end the connection.
`onData_induct` is the induction over these readings: what holds once the frame has been offered,
and is kept by each reading, holds in the end.  `pop?_onData` says that in the end no frame is left
whose turn has come.
-/

namespace DatagramTunnel.Session.Endpoint

open Flight Packet Wire

variable {α σ : Type}

/-- The endpoint after the window has judged a data frame, and the peer has been told. -/
def offered (e : Endpoint α σ) (f : Fragment) : Endpoint α σ :=
  let e' := { e with inlet := { e.inlet with window := (e.inlet.window.insert f).2 } }
  if (e.inlet.window.classify f.seq).acknowledged then
    (e'.count fun c => { c with acksSent := c.acksSent + 1 }).post (Frame.ack f.seq).encode
  else e'

/-- The endpoint when the assembler has read the frame that the window released. -/
def advanced (e : Endpoint α σ) (f : Fragment) (window : ReorderWindow) : Endpoint α σ :=
  { e with inlet := { window, assembler := (e.inlet.assembler.push f).2 } }

theorem onData_eq (e : Endpoint α σ) (f : Fragment) :
    e.onData f = drainInlet (e.inlet.window.insert f).2.held.length (e.offered f) := by
  have hjudged := ReorderWindow.insert_fst e.inlet.window f
  rw [offered, ← hjudged]
  rfl

theorem drainInlet_of_down {e : Endpoint α σ} (h : e.phase ≠ .established) (limit : Nat) :
    drainInlet limit e = e := by
  cases limit with
  | zero => rfl
  | succ limit => rw [drainInlet, if_neg h]

theorem established_of_drainInlet {e : Endpoint α σ} {limit : Nat}
    (h : (drainInlet limit e).phase = .established) : e.phase = .established := by
  by_cases hphase : e.phase = .established
  · exact hphase
  · rw [drainInlet_of_down hphase] at h
    exact h

theorem drainInlet_of_pop? {e : Endpoint α σ} (hup : e.phase = .established) {f : Fragment}
    {window : ReorderWindow} (hpop : e.inlet.window.pop? = some (f, window)) (limit : Nat) :
    drainInlet (limit + 1) e =
      drainInlet limit ((e.advanced f window).absorb (e.inlet.assembler.push f).1) := by
  rw [drainInlet, if_pos hup, hpop]
  rfl

/-- What every reading keeps, reading all of them keeps. -/
theorem drainInlet_induct {P : Endpoint α σ → Prop}
    (step : ∀ (e : Endpoint α σ) (f : Fragment) (window : ReorderWindow), P e →
      e.phase = .established → e.inlet.window.pop? = some (f, window) →
        P ((e.advanced f window).absorb (e.inlet.assembler.push f).1))
    (limit : Nat) {e : Endpoint α σ} (h : P e) : P (drainInlet limit e) := by
  induction limit generalizing e with
  | zero => exact h
  | succ limit ih =>
    by_cases hup : e.phase = .established
    · cases hpop : e.inlet.window.pop? with
      | none =>
        rw [drainInlet, if_pos hup, hpop]
        exact h
      | some released =>
        obtain ⟨f, window⟩ := released
        rw [drainInlet_of_pop? hup hpop]
        exact ih (step e f window h hup hpop)
    · rw [drainInlet_of_down hup]
      exact h

theorem onData_induct {P : Endpoint α σ → Prop} {e : Endpoint α σ} {f : Fragment}
    (step : ∀ (e : Endpoint α σ) (f : Fragment) (window : ReorderWindow), P e →
      e.phase = .established → e.inlet.window.pop? = some (f, window) →
        P ((e.advanced f window).absorb (e.inlet.assembler.push f).1))
    (h : P (e.offered f)) : P (e.onData f) := by
  rw [onData_eq]
  exact drainInlet_induct step _ h

/-- What neither a reading nor a move changes, a data frame changes only when it is offered. -/
theorem onData_induct_move {P : Endpoint α σ → Prop} {e : Endpoint α σ} {f : Fragment}
    (read : ∀ {e : Endpoint α σ} (f : Fragment) (window : ReorderWindow), P e →
      P (e.advanced f window))
    (move : ∀ {e e' : Endpoint α σ} {marks : List Mark}, P e → Move e marks e' → P e')
    (h : P (e.offered f)) : P (e.onData f) := by
  refine onData_induct (fun e f window hP _ _ => ?_) h
  obtain ⟨marks, hmove⟩ := absorb_move (e.advanced f window) (e.inlet.assembler.push f).1
  exact move (read f window hP) hmove

/-! ## The frame that arrives -/

@[simp] theorem offered_phase (e : Endpoint α σ) (f : Fragment) :
    (e.offered f).phase = e.phase := by
  unfold offered
  dsimp only
  split <;> rfl

@[simp] theorem offered_window (e : Endpoint α σ) (f : Fragment) :
    (e.offered f).inlet.window = (e.inlet.window.insert f).2 := by
  unfold offered
  dsimp only
  split <;> rfl

@[simp] theorem offered_assembler (e : Endpoint α σ) (f : Fragment) :
    (e.offered f).inlet.assembler = e.inlet.assembler := by
  unfold offered
  dsimp only
  split <;> rfl

@[simp] theorem offered_queue (e : Endpoint α σ) (f : Fragment) :
    (e.offered f).queue = e.queue := by
  unfold offered
  dsimp only
  split <;> rfl

theorem offered_outbox (e : Endpoint α σ) (f : Fragment) :
    (e.offered f).outbox = e.outbox ++
      if (e.inlet.window.classify f.seq).acknowledged then [(Frame.ack f.seq).encode] else [] := by
  unfold offered
  dsimp only
  split
  · rfl
  · rw [List.append_nil]

/-! ## While the connection stays up -/

/-- Settings, token and transform stay what they are. -/
theorem onData_constants (e : Endpoint α σ) (f : Fragment) :
    (e.onData f).settings = e.settings ∧ (e.onData f).token = e.token ∧
      (e.onData f).transform = e.transform := by
  apply onData_induct_move (P := fun e' =>
    e'.settings = e.settings ∧ e'.token = e.token ∧ e'.transform = e.transform)
  · exact fun _ _ h => h
  · rintro e₁ e₂ marks ⟨hsettings₁, htoken₁, htransform₁⟩ hmove
    obtain ⟨hsettings, htoken, htransform⟩ := hmove.constants
    exact ⟨hsettings.trans hsettings₁, htoken.trans htoken₁, htransform.trans htransform₁⟩
  · unfold offered
    dsimp only
    split <;> exact ⟨rfl, rfl, rfl⟩

theorem onData_established {e : Endpoint α σ} (hup : e.phase = .established) {f : Fragment}
    (hopen : (e.onData f).phase.isTerminal = false) : (e.onData f).phase = .established := by
  revert hopen
  apply onData_induct (P := fun e' => e'.phase.isTerminal = false → e'.phase = .established)
  · intro e₁ g window _ hup₁ _ hopen
    obtain ⟨marks, hmove⟩ := absorb_move (e₁.advanced g window) (e₁.inlet.assembler.push g).1
    exact hmove.established hup₁ hopen
  · intro _
    rw [offered_phase]
    exact hup

/-- A data frame does not touch what the endpoint sends itself. -/
theorem onData_data {e : Endpoint α σ} {f : Fragment}
    (hopen : (e.onData f).phase.isTerminal = false) :
    (e.onData f).splitter = e.splitter ∧ (e.onData f).queue = e.queue ∧
      (e.onData f).roundTrip = e.roundTrip := by
  revert hopen
  apply onData_induct (P := fun e' => e'.phase.isTerminal = false →
    e'.splitter = e.splitter ∧ e'.queue = e.queue ∧ e'.roundTrip = e.roundTrip)
  · intro e₁ g window h hup₁ _ hopen
    obtain ⟨marks, hmove⟩ := absorb_move (e₁.advanced g window) (e₁.inlet.assembler.push g).1
    obtain ⟨hsplitter, hqueue, hround, -⟩ := hmove.data hopen
    obtain ⟨hsplitter₁, hqueue₁, hround₁⟩ := h (isTerminal_of_established hup₁)
    exact ⟨hsplitter.trans hsplitter₁, hqueue.trans hqueue₁, hround.trans hround₁⟩
  · intro _
    unfold offered
    dsimp only
    split <;> exact ⟨rfl, rfl, rfl⟩

/-- What was posted before the readings is still there after them. -/
theorem onData_outbox_grows {e : Endpoint α σ} {f : Fragment}
    (hopen : (e.onData f).phase.isTerminal = false) :
    (e.offered f).outbox <+: (e.onData f).outbox := by
  revert hopen
  apply onData_induct (P := fun e' => e'.phase.isTerminal = false →
    (e.offered f).outbox <+: e'.outbox)
  · intro e₁ g window h hup₁ _ hopen
    obtain ⟨marks, hmove⟩ := absorb_move (e₁.advanced g window) (e₁.inlet.assembler.push g).1
    exact (h (isTerminal_of_established hup₁)).trans (hmove.outbox_grows hopen)
  · intro _
    exact List.prefix_rfl

/-- The readings go on until no frame is left whose turn has come: each takes one frame from those
held, so their number is a bound. -/
theorem pop?_drainInlet (limit : Nat) {e : Endpoint α σ}
    (hheld : e.inlet.window.held.length ≤ limit)
    (hup : (drainInlet limit e).phase = .established) :
    (drainInlet limit e).inlet.window.pop? = none := by
  induction limit generalizing e with
  | zero =>
    have hnil : e.inlet.window.held = [] := List.eq_nil_of_length_eq_zero (Nat.le_zero.1 hheld)
    refine ReorderWindow.pop?_eq_none_iff.2 fun g hg => ?_
    rw [drainInlet, hnil] at hg
    exact absurd hg List.not_mem_nil
  | succ limit ih =>
    by_cases hphase : e.phase = .established
    · cases hpop : e.inlet.window.pop? with
      | none =>
        rw [drainInlet, if_pos hphase, hpop]
        exact hpop
      | some released =>
        obtain ⟨f, window⟩ := released
        rw [drainInlet_of_pop? hphase hpop] at hup ⊢
        obtain ⟨marks, hmove⟩ := absorb_move (e.advanced f window) (e.inlet.assembler.push f).1
        generalize (e.advanced f window).absorb (e.inlet.assembler.push f).1 = e₁ at hup hmove ⊢
        have hup₁ : e₁.phase = .established := established_of_drainInlet hup
        have hinlet := (hmove.data (isTerminal_of_established hup₁)).2.2.2
        have hfewer := ReorderWindow.length_held_lt_of_pop? hpop
        have hheld₁ : e₁.inlet.window.held.length ≤ limit := by
          rw [hinlet]
          show window.held.length ≤ limit
          omega
        exact ih hheld₁ hup
    · exact absurd (established_of_drainInlet hup) hphase

/-- Once the frame has been taken in, none is left whose turn has come. -/
theorem pop?_onData {e : Endpoint α σ} {f : Fragment} (hup : (e.onData f).phase = .established) :
    (e.onData f).inlet.window.pop? = none := by
  rw [onData_eq] at hup ⊢
  have hheld : (e.offered f).inlet.window.held.length =
      (e.inlet.window.insert f).2.held.length := by rw [offered_window]
  exact pop?_drainInlet _ (Nat.le_of_eq hheld) hup

/-- No operation changes settings, token or transform. -/
theorem Outcome.constants [Add α] [Sub α] [Mul α] [Seconds α] {e e' : Endpoint α σ}
    {op : Operation} {answer : Answer} (h : Outcome e op answer e') :
    e'.settings = e.settings ∧ e'.token = e.token ∧ e'.transform = e.transform := by
  cases h with
  | aside move _ _ _ _ _ _ _ => exact move.constants
  | accept _ _ _ _ pump =>
    obtain ⟨timeout, -, rfl⟩ := pump_eq_ok pump
    exact ⟨rfl, rfl, rfl⟩
  | pulse _ move pump =>
    obtain ⟨timeout, -, rfl⟩ := pump_eq_ok pump
    exact move.constants
  | retire _ _ _ pump =>
    obtain ⟨timeout, -, rfl⟩ := pump_eq_ok pump
    exact ⟨rfl, rfl, rfl⟩
  | piece _ _ => exact onData_constants e _
  | transmit _ => exact ⟨rfl, rfl, rfl⟩
  | report _ => exact ⟨rfl, rfl, rfl⟩

/-- A connection that has ended does not come back, and one that is up stays up until it ends. -/
theorem Outcome.phase [Add α] [Sub α] [Mul α] [Seconds α] {e e' : Endpoint α σ}
    {op : Operation} {answer : Answer} (h : Outcome e op answer e')
    (hopen : e'.phase.isTerminal = false) :
    e.phase.isTerminal = false ∧ (e.phase = .established → e'.phase = .established) := by
  cases h with
  | aside move _ _ _ _ _ _ _ =>
    exact ⟨move.isTerminal hopen, fun hup => move.established hup hopen⟩
  | accept up _ _ _ pump =>
    obtain ⟨timeout, -, rfl⟩ := pump_eq_ok pump
    exact ⟨hopen, fun _ => up⟩
  | pulse up move pump =>
    obtain ⟨timeout, -, rfl⟩ := pump_eq_ok pump
    exact ⟨isTerminal_of_established up, fun _ => move.established up hopen⟩
  | retire up _ _ pump =>
    obtain ⟨timeout, -, rfl⟩ := pump_eq_ok pump
    exact ⟨hopen, fun _ => up⟩
  | piece up _ => exact ⟨isTerminal_of_established up, fun _ => onData_established up hopen⟩
  | transmit _ => exact ⟨hopen, fun hup => hup⟩
  | report _ => exact ⟨hopen, fun hup => hup⟩

end DatagramTunnel.Session.Endpoint
