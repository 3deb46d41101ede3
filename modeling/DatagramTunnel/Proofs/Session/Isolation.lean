import DatagramTunnel.Proofs.Session.History
import DatagramTunnel.Proofs.Session.Likeness

/-!
# Raw pipes do not touch the stream

An operation that handles a raw datagram leaves an endpoint alike, and any other keeps two endpoints
alike and gives the same answer at both.  So of two runs that differ only in what they do with raw
datagrams, neither shows in the other: `raw_apart`.

The settings must say that raw payloads are not wrapped; otherwise they pass through the private
state of the transform, and what is wrong with one of them is a violation.
-/

namespace DatagramTunnel.Session

open Flight Packet Wire

namespace Endpoint

variable {α σ : Type} {e₁ e₂ : Endpoint α σ}

/-! ## Operations that handle raw datagrams -/

theorem exists_of_isPipe {datagram : Bytes} (h : isPipe datagram = true) :
    ∃ id payload, Frame.decode datagram = .ok (.pipe id payload) := by
  unfold isPipe at h
  split at h
  · rename_i id payload hframe
    exact ⟨id, payload, hframe⟩
  · cases h

variable {e e' : Endpoint α σ}

theorem alike_sendRaw (hplain : e.settings.transformRaw = false) (id : UInt8) (payload : Bytes) :
    Alike (e.sendRaw id payload).2 e := by
  unfold sendRaw
  split
  · exact rfl
  · rw [hplain]
    dsimp only
    split
    · exact rfl
    · rename_i hwrapped
      obtain rfl := Except.ok.inj hwrapped
      split
      · exact rfl
      · rename_i datagram pipes houtbound
        obtain ⟨-, rfl, rfl⟩ := outbound_eq_ok houtbound
        simp [Alike, withoutRaw, post]

theorem alike_onPipe (hplain : e.settings.transformRaw = false) (id : UInt8) (payload : Bytes) :
    Alike (e.onPipe id payload) e := by
  rw [onPipe, hplain]
  simp [Alike, withoutRaw, notify, Event.isRaw, Pipes.inbound]

theorem alike_transmit {datagram : Bytes} {rest : List Bytes}
    (houtbox : e.outbox = datagram :: rest) (hpipe : isPipe datagram = true) :
    Alike ({ e with outbox := rest }.count fun c => { c with datagramsSent := c.datagramsSent + 1 })
      e := by
  simp [Alike, withoutRaw, count, houtbox, hpipe]

theorem alike_report {event : Event} {rest : List Event} (hevents : e.events = event :: rest)
    (hraw : event.isRaw = true) : Alike { e with events := rest } e := by
  simp [Alike, withoutRaw, hevents, hraw]

variable {op : Operation}

/-- The call, unless it handles a raw datagram. -/
def ordinary (e : Endpoint α σ) (op : Operation) : List Operation :=
  if e.handlesRaw op then [] else [op]

theorem ordinary_of_raw (hraw : e.handlesRaw op = true) : e.ordinary op = [] := if_pos hraw

theorem ordinary_of_other (hother : e.handlesRaw op = false) : e.ordinary op = [op] := by
  simp [ordinary, hother]

variable [Add α] [Sub α] [Mul α] [Seconds α] {answer : Answer}

theorem receive_pipe (hplain : e.settings.transformRaw = false) {datagram : Bytes}
    (hpipe : isPipe datagram = true) (now : Nat) :
    ∃ e', e.receive datagram now = .ok e' ∧ Alike e' e := by
  obtain ⟨id, payload, hframe⟩ := exists_of_isPipe hpipe
  unfold receive
  split
  · exact ⟨e, rfl, rfl⟩
  · rw [hframe]
    dsimp only [onFrame]
    split
    · exact ⟨_, rfl, alike_onPipe hplain id payload⟩
    · exact ⟨e, rfl, rfl⟩

/-- What handles a raw datagram has a result, and does nothing else. -/
theorem perform_raw (hplain : e.settings.transformRaw = false) (hraw : e.handlesRaw op = true) :
    ∃ answer e', e.perform op = .ok (answer, e') ∧ Alike e' e := by
  cases op with
  | sendRaw id payload => exact ⟨_, _, rfl, alike_sendRaw hplain id payload⟩
  | receive datagram now =>
    obtain ⟨e', hreceive, halike⟩ := receive_pipe hplain hraw now
    exact ⟨.done, e', by rw [perform, hreceive]; rfl, halike⟩
  | pollTransmit =>
    cases houtbox : e.outbox with
    | nil => simp [handlesRaw, houtbox] at hraw
    | cons datagram rest =>
      have hpipe : isPipe datagram = true := by simpa [handlesRaw, houtbox] using hraw
      refine ⟨.datagram (some datagram), _, ?_, alike_transmit houtbox hpipe⟩
      rw [perform, pollTransmit, houtbox]
  | pollEvent =>
    cases hevents : e.events with
    | nil => simp [handlesRaw, hevents] at hraw
    | cons event rest =>
      have hnews : event.isRaw = true := by simpa [handlesRaw, hevents] using hraw
      refine ⟨.event (some event), _, ?_, alike_report hevents hnews⟩
      rw [perform, pollEvent, hevents]
  | _ => cases hraw

/-! ## Runs -/

/-- The call with its answer, unless it handles a raw datagram. -/
def dialogue (e : Endpoint α σ) (op : Operation) : List (Operation × Answer) :=
  given (fun e op answer => if e.handlesRaw op then [] else [(op, answer)]) e op

/-- The run has a result that ends alike, and the calls and answers in it that have nothing to do
with raw datagrams are these. -/
def Follows (last : Endpoint α σ) (said : List (Operation × Answer)) (e : Endpoint α σ)
    (ops : List Operation) : Prop :=
  ∃ answers e', e.performAll ops = .ok (answers, e') ∧ e.history dialogue ops = said ∧
    Alike last e'

variable {last : Endpoint α σ} {said : List (Operation × Answer)} {ops rest : List Operation}

theorem Follows.cons (hperform : e.perform op = .ok (answer, e'))
    (h : Follows last said e' rest) : Follows last (e.dialogue op ++ said) e (op :: rest) := by
  obtain ⟨answers, e'', hrun, rfl, halike⟩ := h
  exact ⟨answer :: answers, e'', performAll_cons hperform hrun, history_cons dialogue hperform rest,
    halike⟩

theorem dialogue_of_raw (hraw : e.handlesRaw op = true)
    (hperform : e.perform op = .ok (answer, e')) : e.dialogue op = [] := by
  rw [dialogue, given_eq _ hperform, if_pos hraw]

theorem dialogue_of_other (hother : e.handlesRaw op = false)
    (hperform : e.perform op = .ok (answer, e')) : e.dialogue op = [(op, answer)] := by
  rw [dialogue, given_eq _ hperform]
  simp [hother]

/-- A run in which every call handles a raw datagram. -/
theorem follows_of_raw (hplain : e.settings.transformRaw = false)
    (hraw : e.history ordinary ops = []) (halike : Alike last e) : Follows last [] e ops := by
  induction ops generalizing e with
  | nil => exact ⟨[], e, rfl, rfl, halike⟩
  | cons op rest ih =>
    cases hhandles : e.handlesRaw op with
    | false => simp [history, ordinary_of_other hhandles] at hraw
    | true =>
      obtain ⟨answer, e', hperform, hsame⟩ := perform_raw hplain hhandles
      rw [history_cons _ hperform, ordinary_of_raw hhandles] at hraw
      have hnext := ih (hsame.settings ▸ hplain) hraw (halike.trans hsame.symm)
      have hall := hnext.cons hperform
      rwa [dialogue_of_raw hhandles hperform] at hall

/-- A run in which, among calls that handle raw datagrams, the next other call is this one. -/
theorem follows_of_ordinary (hplain : e₂.settings.transformRaw = false) (h : Alike e₁ e₂)
    (hother : e₁.handlesRaw op = false) (hperform : e₁.perform op = .ok (answer, e'))
    {others : List Operation} (hsame : op :: others = e₂.history ordinary ops)
    (hnext : ∀ {e₂' : Endpoint α σ} {rest : List Operation}, Alike e' e₂' →
      others = e₂'.history ordinary rest → Follows last said e₂' rest) :
    Follows last ((op, answer) :: said) e₂ ops := by
  -- On the second run: what it does with raw datagrams before the call is passed over one by one.
  induction ops generalizing e₂ with
  | nil => cases hsame
  | cons first rest ih =>
    cases hhandles : e₂.handlesRaw first with
    | true =>
      obtain ⟨answer', e₂', hfirst, halike⟩ := perform_raw hplain hhandles
      rw [history_cons _ hfirst, ordinary_of_raw hhandles] at hsame
      have hall := (ih (halike.settings ▸ hplain) (h.trans halike.symm) hsame).cons hfirst
      rwa [dialogue_of_raw hhandles hfirst] at hall
    | false =>
      rw [history, ordinary_of_other hhandles] at hsame
      obtain ⟨rfl, hrest⟩ := List.cons.inj hsame
      have hboth := h.perform hother hhandles
      rw [hperform] at hboth
      cases hsecond : e₂.perform op with
      | error cause =>
        rw [hsecond] at hboth
        cases hboth
      | ok result =>
        obtain ⟨answer', e₂'⟩ := result
        rw [hsecond] at hboth hrest
        obtain ⟨rfl, halike⟩ := Prod.mk.inj (Except.ok.inj hboth)
        have hall := (hnext halike hrest).cons hsecond
        rwa [dialogue_of_other hhandles hsecond] at hall

/-- Runs of endpoints that are alike, with the same calls except for those that handle raw
datagrams, give the same answers to these calls and leave the endpoints alike. -/
theorem Alike.performAll (h : Alike e₁ e₂) (hplain : e₁.settings.transformRaw = false)
    {ops₁ ops₂ : List Operation} (hsame : e₁.history ordinary ops₁ = e₂.history ordinary ops₂)
    {answers : List Answer} (hrun : e₁.performAll ops₁ = .ok (answers, e')) :
    Follows e' (e₁.history dialogue ops₁) e₂ ops₂ := by
  -- On the first run; the second one moves only with calls that do not handle raw datagrams.
  induction ops₁ generalizing e₁ e₂ ops₂ answers with
  | nil =>
    obtain ⟨-, rfl⟩ := Prod.mk.inj (Except.ok.inj hrun)
    exact follows_of_raw (h.settings ▸ hplain) hsame.symm h
  | cons op rest ih =>
    obtain ⟨answer, e₃, others, hfirst, hothers, rfl⟩ := performAll_cons_cases hrun
    have hplain₃ : e₃.settings.transformRaw = false :=
      (perform_outcome hfirst).constants.1 ▸ hplain
    rw [history_cons _ hfirst] at hsame ⊢
    cases hhandles : e₁.handlesRaw op with
    | true =>
      obtain ⟨answer', e₃', hfirst', halike⟩ := perform_raw hplain hhandles
      obtain ⟨rfl, rfl⟩ := Prod.mk.inj (Except.ok.inj (hfirst.symm.trans hfirst'))
      rw [ordinary_of_raw hhandles] at hsame
      rw [dialogue_of_raw hhandles hfirst]
      exact ih (halike.trans h) hplain₃ hsame hothers
    | false =>
      rw [ordinary_of_other hhandles] at hsame
      rw [dialogue_of_other hhandles hfirst]
      exact follows_of_ordinary (h.settings ▸ hplain) h hhandles hfirst hsame
        fun halike hothers' => ih halike hplain₃ hothers' hothers

/-- If raw payloads are not wrapped, what handles a raw datagram has a result and leaves everything
else as it was, and any other operation gives the same answer at two endpoints that are alike and
leaves them alike.  So the measurements are the same but for those of raw datagrams; and of two runs
that differ only in calls that handle raw datagrams, the one has a result if the other has, with the
same answers to all other calls, and they leave the endpoints alike. -/
theorem raw_apart (h : Alike e₁ e₂) (hplain : e₁.settings.transformRaw = false) :
    (∀ op, e₁.handlesRaw op = true →
      ∃ answer e', e₁.perform op = .ok (answer, e') ∧ Alike e' e₁) ∧
      (∀ op, e₁.handlesRaw op = false → e₂.handlesRaw op = false →
        (e₁.perform op).map apart = (e₂.perform op).map apart) ∧
      e₁.nextTickInterval = e₂.nextTickInterval ∧
      e₁.statistics.map Statistics.withoutRaw = e₂.statistics.map Statistics.withoutRaw ∧
      ∀ {ops₁ ops₂ : List Operation} {answers₁ : List Answer} {e₁' : Endpoint α σ},
        e₁.history ordinary ops₁ = e₂.history ordinary ops₂ →
          e₁.performAll ops₁ = .ok (answers₁, e₁') →
            ∃ answers₂ e₂', e₂.performAll ops₂ = .ok (answers₂, e₂') ∧
              e₂.history dialogue ops₂ = e₁.history dialogue ops₁ ∧ Alike e₁' e₂' :=
  ⟨fun _ hraw => perform_raw hplain hraw, fun _ h₁ h₂ => h.perform h₁ h₂, h.nextTickInterval,
    h.statistics, fun hsame hrun => h.performAll hplain hsame hrun⟩

/-- A packet goes out between two raw datagrams, or alone. -/
theorem raw_apart_between : ∃ (nonces : Nat → Nonce) (e₀ e₁ e₂ : Endpoint Rat Unit)
    (answers₁ answers₂ : List Answer),
    create {} [1] .plain () nonces = .ok e₀ ∧
      e₀.performAll [.connect 0, .receive (Frame.hello [1]).encode 0, .pollTransmit, .send [5] 0,
        .pollTransmit, .pollEvent] = .ok (answers₁, e₁) ∧
      e₀.performAll [.connect 0, .receive (Frame.hello [1]).encode 0, .sendRaw 3 [9],
        .pollTransmit, .send [5] 0, .receive (Frame.pipe 4 [8]).encode 0, .sendRaw 3 [9],
        .pollTransmit, .pollTransmit, .pollEvent] = .ok (answers₂, e₂) ∧
      Alike e₁ e₂ := by
  let quiet : List Operation := [.connect 0, .receive (Frame.hello [1]).encode 0, .pollTransmit,
    .send [5] 0, .pollTransmit, .pollEvent]
  let busy : List Operation := [.connect 0, .receive (Frame.hello [1]).encode 0, .sendRaw 3 [9],
    .pollTransmit, .send [5] 0, .receive (Frame.pipe 4 [8]).encode 0, .sendRaw 3 [9],
    .pollTransmit, .pollTransmit, .pollEvent]
  obtain ⟨e₀, hcreate, hrest⟩ := exists_of_any_toOption
    (show (blank {} [1]).toOption.any (fun e₀ =>
      decide (e₀.history ordinary quiet = e₀.history ordinary busy ∧
        e₀.settings.transformRaw = false) && (e₀.performAll quiet).toOption.any fun _ => true) =
          true by decide +kernel)
  rw [Bool.and_eq_true, decide_eq_true_eq] at hrest
  obtain ⟨⟨hsame, hplain⟩, hrest⟩ := hrest
  obtain ⟨⟨answers₁, e₁⟩, hrun, -⟩ := exists_of_any_toOption hrest
  obtain ⟨answers₂, e₂, hrun', -, halike⟩ := (raw_apart rfl hplain).2.2.2.2 hsame hrun
  exact ⟨_, e₀, e₁, e₂, answers₁, answers₂, hcreate, hrun, hrun', halike⟩

end Endpoint

end DatagramTunnel.Session
