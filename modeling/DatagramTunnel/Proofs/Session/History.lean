import DatagramTunnel.Proofs.Packet.Releases
import DatagramTunnel.Proofs.Session.Acts
import DatagramTunnel.Proofs.Session.Creation
import Mathlib.Data.List.Induction

/-!
# What an endpoint has taken in and read

`history what e ops` puts together what the calls of a run add to a record, where `what` says what
one call adds: `admits` are the data frames that the window takes in, and `reads` are those that it
releases to the assembler.  `performAll_induct_past` is the induction over runs for statements about
such records.

`window_run` carries what holds of a window and its past through a run, whatever arrives.  So
`recorded_run`: at any moment of any run the window is `Recorded` with the two histories.
-/

namespace DatagramTunnel.Session.Endpoint

open Flight Packet Wire

variable {α σ : Type}

/-! ## The frames that one call reads -/

/-- The data frame that a call brings, if the connection is up. -/
def arrives? (e : Endpoint α σ) : Operation → Option Fragment
  | .receive datagram _ => e.arriving? datagram
  | _ => none

/-- The frames that are read when up to `limit` of them may be. -/
def readings : Nat → Endpoint α σ → List Fragment
  | 0, _ => []
  | limit + 1, e =>
    if e.phase = .established then
      match e.inlet.window.pop? with
      | none => []
      | some (f, window) =>
        f :: readings limit ((e.advanced f window).absorb (e.inlet.assembler.push f).1)
    else []

/-- The data frames that a call hands to the assembler. -/
def reads (e : Endpoint α σ) (op : Operation) : List Fragment :=
  match e.arrives? op with
  | some f => readings (e.inlet.window.insert f).2.held.length (e.offered f)
  | none => []

variable {e e' : Endpoint α σ} {op : Operation} {f : Fragment}

theorem arrives?_ne_none {datagram : Bytes} (hup : e.phase = .established)
    (hframe : Frame.decode datagram = .ok (.data f)) (now : Nat) :
    e.arrives? (.receive datagram now) ≠ none := by
  have hsome : e.arrives? (.receive datagram now) = some f :=
    arriving?_eq_some_iff.2 ⟨hup, hframe⟩
  simp [hsome]

theorem reads_of_arrives (h : e.arrives? op = some f) :
    e.reads op = readings (e.inlet.window.insert f).2.held.length (e.offered f) := by
  simp only [reads, h]

theorem reads_of_none (h : e.arrives? op = none) : e.reads op = [] := by
  simp only [reads, h]

theorem admits_of_arrives (h : e.arrives? op = some f) :
    e.admits op = if e.inlet.window.classify f.seq = .accepted then [f] else [] := by
  cases op with
  | receive datagram now =>
    have harriving : e.arriving? datagram = some f := h
    simp only [admits, harriving]
  | _ => cases h

theorem admits_of_none (h : e.arrives? op = none) : e.admits op = [] := by
  cases op with
  | receive datagram now =>
    have harriving : e.arriving? datagram = none := h
    simp only [admits, harriving]
  | _ => rfl

/-- What every reading keeps, together with the frames read so far, reading all of them keeps. -/
theorem drainInlet_induct_past {P : List Fragment → Endpoint α σ → Prop}
    (step : ∀ {past : List Fragment} {e : Endpoint α σ} {f : Fragment} {window : ReorderWindow},
      P past e → e.phase = .established → e.inlet.window.pop? = some (f, window) →
        P (past ++ [f]) ((e.advanced f window).absorb (e.inlet.assembler.push f).1))
    (limit : Nat) {past : List Fragment} (h : P past e) :
    P (past ++ readings limit e) (drainInlet limit e) := by
  induction limit generalizing past e with
  | zero =>
    rw [readings, List.append_nil]
    exact h
  | succ limit ih =>
    by_cases hup : e.phase = .established
    · cases hpop : e.inlet.window.pop? with
      | none =>
        rw [readings, drainInlet, if_pos hup, if_pos hup, hpop, List.append_nil]
        exact h
      | some released =>
        obtain ⟨f, window⟩ := released
        have hnext := ih (step h hup hpop)
        rw [List.append_assoc] at hnext
        rw [readings, if_pos hup, hpop, drainInlet_of_pop? hup hpop]
        exact hnext
    · rw [readings, if_neg hup, drainInlet_of_down hup, List.append_nil]
      exact h

theorem onData_induct_past {P : List Fragment → Endpoint α σ → Prop}
    (harrives : e.arrives? op = some f)
    (step : ∀ {past : List Fragment} {e : Endpoint α σ} {f : Fragment} {window : ReorderWindow},
      P past e → e.phase = .established → e.inlet.window.pop? = some (f, window) →
        P (past ++ [f]) ((e.advanced f window).absorb (e.inlet.assembler.push f).1))
    {past : List Fragment} (h : P past (e.offered f)) : P (past ++ e.reads op) (e.onData f) := by
  rw [reads_of_arrives harrives, onData_eq]
  exact drainInlet_induct_past step _ h

/-- A frame that a call takes in came in a datagram. -/
theorem receive_of_mem_admits (h : f ∈ e.admits op) :
    ∃ datagram now, op = .receive datagram now ∧ Frame.decode datagram = .ok (.data f) := by
  cases op with
  | receive datagram now =>
    cases harriving : e.arriving? datagram with
    | none => simp [admits, harriving] at h
    | some g =>
      simp only [admits, harriving] at h
      split at h
      · rw [List.mem_singleton] at h
        subst h
        exact ⟨datagram, now, rfl, (arriving?_eq_some_iff.1 harriving).2⟩
      · cases h
  | _ => cases h

variable [Add α] [Sub α] [Mul α] [Seconds α]

/-- A call that brings a data frame has no other effect. -/
theorem perform_of_arrives {answer : Answer} (h : e.arrives? op = some f)
    (hperform : e.perform op = .ok (answer, e')) : answer = .done ∧ e' = e.onData f := by
  have hresult : e.perform op = .ok (.done, e.onData f) := by
    cases op with
    | receive datagram now =>
      obtain ⟨hup, hframe⟩ := arriving?_eq_some_iff.1 h
      simp only [perform, receive, hframe, onFrame, hup]
      rfl
    | _ => cases h
  exact Prod.mk.inj (Except.ok.inj (hperform.symm.trans hresult))

/-- Any other call leaves the inlet alone or empties it. -/
theorem Outcome.inlet_of_none {answer : Answer} (h : Outcome e op answer e')
    (hnone : e.arrives? op = none) :
    e'.inlet = e.inlet ∨
      e'.inlet = { window := e.inlet.window.clear, assembler := e.inlet.assembler.reset } := by
  cases h with
  | aside move _ _ _ _ _ _ _ => exact move.data_or_dropped.imp And.right And.right
  | accept _ _ _ _ pump =>
    obtain ⟨timeout, -, rfl⟩ := pump_eq_ok pump
    exact .inl rfl
  | pulse _ move pump =>
    obtain ⟨timeout, -, rfl⟩ := pump_eq_ok pump
    exact move.data_or_dropped.imp And.right And.right
  | retire _ _ _ pump =>
    obtain ⟨timeout, -, rfl⟩ := pump_eq_ok pump
    exact .inl rfl
  | piece up frame => exact absurd hnone (arrives?_ne_none up frame _)
  | transmit _ => exact .inl rfl
  | report _ => exact .inl rfl

/-! ## Runs and their past -/

/-- What the calls of a run add to a record, one after the other. -/
def history {β : Type} (what : Endpoint α σ → Operation → List β) (e : Endpoint α σ) :
    List Operation → List β
  | [] => []
  | op :: rest =>
    what e op ++
      match e.perform op with
      | .ok (_, e') => e'.history what rest
      | .error _ => []

theorem history_cons {β : Type} (what : Endpoint α σ → Operation → List β) {answer : Answer}
    (h : e.perform op = .ok (answer, e')) (rest : List Operation) :
    e.history what (op :: rest) = what e op ++ e'.history what rest := by
  rw [history, h]

/-- What a call adds to a record that depends on how it was answered. -/
def given {β : Type} (what : Endpoint α σ → Operation → Answer → List β) (e : Endpoint α σ)
    (op : Operation) : List β :=
  match e.perform op with
  | .ok (answer, _) => what e op answer
  | .error _ => []

theorem given_eq {β : Type} (what : Endpoint α σ → Operation → Answer → List β)
    {answer : Answer} (h : e.perform op = .ok (answer, e')) :
    given what e op = what e op answer := by
  rw [given, h]

/-- The last call of a run adds to the record of those before it. -/
theorem history_concat {β : Type} (what : Endpoint α σ → Operation → List β)
    {ops : List Operation} {answers : List Answer} (h : e.performAll ops = .ok (answers, e'))
    (op : Operation) : e.history what (ops ++ [op]) = e.history what ops ++ what e' op := by
  induction ops generalizing e answers with
  | nil =>
    obtain ⟨-, rfl⟩ := Prod.mk.inj (Except.ok.inj h)
    simp only [List.nil_append, history]
    cases e.perform op <;> simp
  | cons first rest ih =>
    obtain ⟨answer, e₁, others, hfirst, hothers, -⟩ := performAll_cons_cases h
    simp only [List.cons_append, history, hfirst, ih hothers, List.append_assoc]

/-- What is in the record of a run was added by one of its calls. -/
theorem exists_of_mem_history {β : Type} {what : Endpoint α σ → Operation → List β}
    {ops : List Operation} {x : β} (h : x ∈ e.history what ops) :
    ∃ op ∈ ops, ∃ e₁, x ∈ what e₁ op := by
  induction ops generalizing e with
  | nil => cases h
  | cons op rest ih =>
    rw [history] at h
    rcases List.mem_append.1 h with hfirst | hrest
    · exact ⟨op, List.mem_cons_self, e, hfirst⟩
    · split at hrest
      · obtain ⟨later, hlater, hmem⟩ := ih hrest
        exact ⟨later, List.mem_cons_of_mem op hlater, hmem⟩
      · cases hrest

/-- What every operation keeps, of the endpoint together with the calls made and the answers given
so far, holds throughout a run. -/
theorem performAll_induct_past {P : List Operation → List Answer → Endpoint α σ → Prop}
    (step : ∀ {ops : List Operation} {answers : List Answer} {e₁ e₂ : Endpoint α σ}
      {op : Operation} {answer : Answer}, e.performAll ops = .ok (answers, e₁) →
        P ops answers e₁ → e₁.perform op = .ok (answer, e₂) →
          P (ops ++ [op]) (answers ++ [answer]) e₂)
    (start : P [] [] e) {ops : List Operation} {answers : List Answer}
    (h : e.performAll ops = .ok (answers, e')) : P ops answers e' := by
  induction ops using List.reverseRecOn generalizing answers e' with
  | nil =>
    obtain ⟨rfl, rfl⟩ := Prod.mk.inj (Except.ok.inj h)
    exact start
  | append_singleton ops op ih =>
    obtain ⟨before, e₁, answer, hbefore, hperform, rfl⟩ := performAll_concat_cases h
    exact step hbefore (ih hbefore) hperform

/-! ## The window and its past -/

section Window

variable {P : ReorderWindow → List Fragment → List Fragment → Prop}
  {admitted released : List Fragment}

/-- What arrivals, releases and the end of the connection keep, of the window together with the
frames that it has taken in and those that it has released, every call keeps. -/
theorem window_step
    (insert : ∀ {w : ReorderWindow} {admitted released : List Fragment} (f : Fragment),
      P w admitted released →
        P (w.insert f).2 (admitted ++ if w.classify f.seq = .accepted then [f] else []) released)
    (pop : ∀ {w w' : ReorderWindow} {admitted released : List Fragment} {f : Fragment},
      P w admitted released → w.pop? = some (f, w') → P w' admitted (released ++ [f]))
    (clear : ∀ {w : ReorderWindow} {admitted released : List Fragment},
      P w admitted released → P w.clear admitted released)
    {answer : Answer} (h : P e.inlet.window admitted released)
    (hperform : e.perform op = .ok (answer, e')) :
    P e'.inlet.window (admitted ++ e.admits op) (released ++ e.reads op) := by
  cases harrives : e.arrives? op with
  | none =>
    rw [admits_of_none harrives, reads_of_none harrives, List.append_nil, List.append_nil]
    rcases (perform_outcome hperform).inlet_of_none harrives with hsame | hclear
    · rw [hsame]
      exact h
    · rw [hclear]
      exact clear h
  | some f =>
    obtain ⟨-, rfl⟩ := perform_of_arrives harrives hperform
    refine onData_induct_past
      (P := fun released e => P e.inlet.window (admitted ++ _) released) harrives
      (fun {past e₁ g window} h₁ _ hpop => ?_) ?_
    · obtain ⟨marks, hmove⟩ := absorb_move (e₁.advanced g window) (e₁.inlet.assembler.push g).1
      have hread := pop h₁ hpop
      rcases hmove.data_or_dropped with ⟨-, hsame⟩ | ⟨-, hclear⟩
      · rw [hsame]
        exact hread
      · rw [hclear]
        exact clear hread
    · rw [offered_window, admits_of_arrives harrives]
      exact insert f h

/-- The same along a run of a new endpoint. -/
theorem window_run
    (insert : ∀ {w : ReorderWindow} {admitted released : List Fragment} (f : Fragment),
      P w admitted released →
        P (w.insert f).2 (admitted ++ if w.classify f.seq = .accepted then [f] else []) released)
    (pop : ∀ {w w' : ReorderWindow} {admitted released : List Fragment} {f : Fragment},
      P w admitted released → w.pop? = some (f, w') → P w' admitted (released ++ [f]))
    (clear : ∀ {w : ReorderWindow} {admitted released : List Fragment},
      P w admitted released → P w.clear admitted released)
    {settings : Settings} {token : Bytes} {transform : Transform σ} {secret : σ}
    {nonces : Nat → Nonce} {e₀ : Endpoint α σ} {ops : List Operation} {answers : List Answer}
    (hcreate : create settings token transform secret nonces = .ok e₀)
    (start : P { size := settings.reorderWindow } [] [])
    (hrun : e₀.performAll ops = .ok (answers, e)) :
    P e.inlet.window (e₀.history admits ops) (e₀.history reads ops) := by
  refine performAll_induct_past
    (P := fun ops _ e => P e.inlet.window (e₀.history admits ops) (e₀.history reads ops))
    (fun hrun₁ ih hperform => ?_) ?_ hrun
  · rw [history_concat admits hrun₁, history_concat reads hrun₁]
    exact window_step insert pop clear ih hperform
  · rw [(create_new hcreate).inlet_eq]
    exact start

end Window

/-- In a run the window has taken in and released what the histories say. -/
theorem recorded_run {settings : Settings} {token : Bytes} {transform : Transform σ} {secret : σ}
    {nonces : Nat → Nonce} {e₀ : Endpoint α σ} {ops : List Operation} {answers : List Answer}
    (hcreate : create settings token transform secret nonces = .ok e₀)
    (hrun : e₀.performAll ops = .ok (answers, e)) :
    e.inlet.window.Recorded 0 (e₀.history admits ops) (e₀.history reads ops) :=
  window_run (P := fun w admitted released => w.Recorded 0 admitted released)
    (fun f h => h.insert f) (fun h hpop => h.pop hpop) (fun h => h.clear) hcreate
    (.new settings.reorderWindow 0) hrun

end DatagramTunnel.Session.Endpoint
