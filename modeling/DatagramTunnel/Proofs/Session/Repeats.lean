import DatagramTunnel.Proofs.Session.Backlog
import DatagramTunnel.Proofs.Session.Lifecycle
import DatagramTunnel.Proofs.Session.Recognition

/-!
# Runs that repeat datagrams

A datagram that is known again adds at most one acknowledgement to the outbox.  Nothing else of the
endpoint changes, and nothing that follows depends on it: `unsent` is what is left of an endpoint
without its outbox and the counts of the acknowledgements written and of the datagrams sent, and an
endpoint stands behind those as behind any other backlog.

So two runs may repeat what they like, and take the additional acknowledgements out of the outbox
when they like: `Matching` runs tell the application the same and put the same data frames into the
outbox.
-/

namespace DatagramTunnel.Session.Endpoint

open Flight Packet Wire

variable {α σ : Type} {e e' : Endpoint α σ} {op : Operation} {answer : Answer}
  {past : List Event}

/-! ## The outbox as a backlog -/

/-- The endpoint without what waits for the socket and the counts of that. -/
def unsent (e : Endpoint α σ) : Endpoint α σ :=
  { e with
    outbox := []
    counters := { e.counters with datagramsSent := 0, acksSent := 0 } }

/-- What waits for the socket, with the counts of that. -/
def unsentBacklog (e : Endpoint α σ) : Backlog where
  datagrams := e.outbox
  datagramsSent := e.counters.datagramsSent
  acksSent := e.counters.acksSent

theorem unsent_behind (h : e.phase.isTerminal = true → e.outbox = []) :
    e.unsent.behind e.unsentBacklog = e := by
  have houtbox : (bif e.phase.isTerminal then [] else e.outbox) = e.outbox := by
    cases hended : e.phase.isTerminal with
    | true => exact (h hended).symm
    | false => rfl
  simp [unsent, behind, unsentBacklog, houtbox]

theorem behind_unsentBacklog_unsent (e₁ : Endpoint α σ) :
    (e.behind e₁.unsentBacklog).unsent = e.unsent := by
  simp [unsent, behind, unsentBacklog]

variable [Add α] [Sub α] [Mul α] [Seconds α]

/-- The datagrams that a call adds to the outbox. -/
def emits (e : Endpoint α σ) (op : Operation) : List Bytes :=
  match e.perform op with
  | .ok (_, e') => e'.outbox.drop e.outbox.length
  | .error _ => []

theorem emits_eq (hperform : e.perform op = .ok (answer, e')) :
    e.emits op = e'.outbox.drop e.outbox.length := by
  rw [emits, hperform]

/-- What a call does can be seen on the endpoint without its outbox. -/
theorem Lived.perform_eq_ok_iff (h : e.Lived past) (hop : op ≠ .pollTransmit) :
    e.perform op = .ok (answer, e') ↔
      ∃ e₁, e.unsent.perform op = .ok (answer, e₁) ∧ e' = e₁.behind e.unsentBacklog := by
  have hwhole : e.unsent.behind e.unsentBacklog = e :=
    unsent_behind fun hended => (h.emptied hended).outbox
  have hbehind := perform_behind e.unsent e.unsentBacklog (fun h => absurd h hop) fun _ => rfl
  rw [hwhole] at hbehind
  rw [hbehind]
  cases e.unsent.perform op with
  | error cause => simp [Except.map]
  | ok result =>
    obtain ⟨answer', e₁⟩ := result
    simp [Except.map, eq_comm]

theorem Lived.emits_eq_outbox (h : e.Lived past) (hop : op ≠ .pollTransmit)
    (hperform : e.unsent.perform op = .ok (answer, e')) : e.emits op = e'.outbox := by
  have hwhole := (h.perform_eq_ok_iff hop).2 ⟨e', hperform, rfl⟩
  rw [emits_eq hwhole]
  cases hended : e'.phase.isTerminal with
  | true =>
    have houtbox := ((h.perform hwhole).emptied hended).outbox
    simp_all [behind]
  | false => simp [behind, unsentBacklog, hended]

/-- Two endpoints of which the same is left without their outboxes do the same. -/
theorem Lived.perform_of_unsent_eq {e₁ e₂ e₁' : Endpoint α σ} {past₁ past₂ : List Event}
    (h₁ : e₁.Lived past₁) (h₂ : e₂.Lived past₂) (hsame : e₁.unsent = e₂.unsent)
    (hop : op ≠ .pollTransmit) (hperform : e₁.perform op = .ok (answer, e₁')) :
    ∃ e₂', e₂.perform op = .ok (answer, e₂') ∧ e₁'.unsent = e₂'.unsent ∧
      e₁.emits op = e₂.emits op := by
  obtain ⟨e₃, hfirst, rfl⟩ := (h₁.perform_eq_ok_iff hop).1 hperform
  have hsecond : e₂.unsent.perform op = .ok (answer, e₃) := hsame ▸ hfirst
  refine ⟨_, (h₂.perform_eq_ok_iff hop).2 ⟨e₃, hsecond, rfl⟩, ?_, ?_⟩
  · rw [behind_unsentBacklog_unsent, behind_unsentBacklog_unsent]
  · rw [h₁.emits_eq_outbox hop hfirst, h₂.emits_eq_outbox hop hsecond]

/-- The socket takes a datagram, and nothing else happens. -/
theorem perform_pollTransmit (e : Endpoint α σ) :
    ∃ next e', e.perform .pollTransmit = .ok (.datagram next, e') ∧ e'.unsent = e.unsent ∧
      e.emits .pollTransmit = [] ∧ next.toList ++ e'.outbox = e.outbox := by
  cases houtbox : e.outbox with
  | nil =>
    have hperform : e.perform .pollTransmit = .ok (.datagram none, e) := by
      rw [perform, pollTransmit, houtbox]
    refine ⟨none, e, hperform, rfl, ?_, houtbox⟩
    rw [emits_eq hperform, List.drop_length]
  | cons datagram rest =>
    have hperform : e.perform .pollTransmit = .ok (.datagram (some datagram),
        { e with outbox := rest }.count fun c =>
          { c with datagramsSent := c.datagramsSent + 1 }) := by
      rw [perform, pollTransmit, houtbox]
    refine ⟨some datagram, _, hperform, rfl, ?_, rfl⟩
    rw [emits_eq hperform, houtbox]
    exact List.drop_of_length_le (Nat.le_succ rest.length)

/-- While the connection is open, what a call adds to the outbox is there or has been sent. -/
theorem Lived.outbox_perform (h : e.Lived past) (hperform : e.perform op = .ok (answer, e'))
    (hopen : e'.phase.isTerminal = false) :
    answer.sent ++ e'.outbox = e.outbox ++ e.emits op := by
  by_cases hop : op = .pollTransmit
  · subst hop
    obtain ⟨next, e₁, hpoll, -, hemits, houtbox⟩ := perform_pollTransmit e
    obtain ⟨rfl, rfl⟩ := Prod.mk.inj (Except.ok.inj (hperform.symm.trans hpoll))
    rw [hemits, List.append_nil]
    exact houtbox
  · have hsent : answer.sent = [] := by
      cases perform_deed hperform with
      | acts _ sent _ => exact sent
      | transmit _ => exact absurd rfl hop
      | report _ => rfl
      | shut _ _ => rfl
    obtain ⟨e₁, hbare, rfl⟩ := (h.perform_eq_ok_iff hop).1 hperform
    have hstill : e₁.phase.isTerminal = false := hopen
    rw [hsent, h.emits_eq_outbox hop hbare]
    simp [behind, unsentBacklog, hstill]

/-! ## Calls that a run may do without -/

/-- After this run the call is one too many: it brings a datagram again, or it looks for a datagram
that may wait for the socket. -/
inductive Surplus (e₀ : Endpoint α σ) (ops : List Operation) : Operation → Prop
  | data {datagram : Bytes} {f : Fragment} (admitted : Admitted e₀ ops datagram f) (now : Nat) :
    Surplus e₀ ops (.receive datagram now)
  | ack {datagram : Bytes} (retired : Retired e₀ ops datagram) (now : Nat) :
    Surplus e₀ ops (.receive datagram now)
  | poll : Surplus e₀ ops .pollTransmit

/-- The runs make the same calls, but for calls that are one too many. -/
inductive Matching (e₀ : Endpoint α σ) : List Operation → List Operation → Prop
  | nil : Matching e₀ [] []
  | both {ops₁ ops₂ : List Operation} (matching : Matching e₀ ops₁ ops₂) (op : Operation) :
    Matching e₀ (ops₁ ++ [op]) (ops₂ ++ [op])
  | left {ops₁ ops₂ : List Operation} {op : Operation} (matching : Matching e₀ ops₁ ops₂)
    (surplus : Surplus e₀ ops₁ op) : Matching e₀ (ops₁ ++ [op]) ops₂
  | right {ops₁ ops₂ : List Operation} {op : Operation} (matching : Matching e₀ ops₁ ops₂)
    (surplus : Surplus e₀ ops₂ op) : Matching e₀ ops₁ (ops₂ ++ [op])

/-- A run matches itself. -/
theorem Matching.refl (e₀ : Endpoint α σ) (ops : List Operation) : Matching e₀ ops ops := by
  induction ops using List.reverseRecOn with
  | nil => exact .nil
  | append_singleton ops op ih => exact ih.both op

/-- A frame that opens no connection is dropped while the connection is not up. -/
theorem receive_of_down (hdown : e.phase ≠ .established) {datagram : Bytes} {frame : Frame}
    (hframe : Frame.decode datagram = .ok frame) (hother : ∀ token, frame ≠ .hello token)
    (now : Nat) : e.receive datagram now = .ok e := by
  unfold receive
  rw [hframe]
  cases frame with
  | hello token => exact absurd rfl (hother token)
  | _ => simp [onFrame, hdown]

/-- A call that changes nothing adds nothing to the outbox. -/
theorem emits_of_idle {datagram : Bytes} {now : Nat} (h : e.receive datagram now = .ok e) :
    e.perform (.receive datagram now) = .ok (.done, e) ∧ e.emits (.receive datagram now) = [] := by
  have hperform : e.perform (.receive datagram now) = .ok (.done, e) := by
    rw [perform, h]
    rfl
  refine ⟨hperform, ?_⟩
  rw [emits_eq hperform, List.drop_length]

/-- A data frame that was taken in is acknowledged once more. -/
theorem Admitted.perform {e₀ : Endpoint α σ} {ops : List Operation} {answers : List Answer}
    {datagram : Bytes} {f : Fragment} (h : Admitted e₀ ops datagram f)
    (hrun : e₀.performAll ops = .ok (answers, e)) (hsettled : e.Settled)
    (hup : e.phase = .established) (now : Nat) :
    e.perform (.receive datagram now) = .ok (.done,
      { e with
        counters := { e.counters with acksSent := e.counters.acksSent + 1 }
        outbox := e.outbox ++ [(Frame.ack f.seq).encode] }) := by
  rw [Endpoint.perform, h.receive hrun hsettled hup now]
  rfl

/-- A call that is one too many has a result, and leaves nothing behind but an acknowledgement that
waits for the socket. -/
theorem Surplus.perform {e₀ : Endpoint α σ} {ops : List Operation} {answers : List Answer}
    (h : Surplus e₀ ops op) (hrun : e₀.performAll ops = .ok (answers, e)) (hsettled : e.Settled) :
    ∃ answer e', e.perform op = .ok (answer, e') ∧ answer.taken = [] ∧ e'.unsent = e.unsent ∧
      (e.emits op).filter carriesData = [] := by
  cases h with
  | @data datagram f admitted now =>
    by_cases hup : e.phase = .established
    · have hperform := admitted.perform hrun hsettled hup now
      have hplain : carriesData (Frame.ack f.seq).encode = false := carriesData_encode (by simp)
      refine ⟨.done, _, hperform, rfl, rfl, ?_⟩
      rw [emits_eq hperform]
      simp [hplain]
    · have hdown := receive_of_down hup admitted.decode_eq (by simp) now
      obtain ⟨hperform, hemits⟩ := emits_of_idle hdown
      exact ⟨.done, e, hperform, rfl, rfl, by rw [hemits]; rfl⟩
  | ack retired now =>
    obtain ⟨hperform, hemits⟩ := emits_of_idle (retired.receive hrun now)
    exact ⟨.done, e, hperform, rfl, rfl, by rw [hemits]; rfl⟩
  | poll =>
    obtain ⟨next, e', hperform, hsame, hemits, -⟩ := perform_pollTransmit e
    exact ⟨.datagram next, e', hperform, rfl, hsame, by rw [hemits]; rfl⟩

/-! ## Runs -/

section Runs

variable {settings : Settings} {token : Bytes} {transform : Transform σ} {secret : σ}
  {nonces : Nat → Nonce} {e₀ : Endpoint α σ} {ops : List Operation} {answers : List Answer}

theorem lived_run (hcreate : create settings token transform secret nonces = .ok e₀)
    (hrun : e₀.performAll ops = .ok (answers, e)) : e.Lived (answers.flatMap Answer.taken) :=
  (create_new hcreate).lived.run hrun

/-- While the connection is open, what has been put into the outbox has been sent or waits. -/
theorem emitted_run (hcreate : create settings token transform secret nonces = .ok e₀)
    (hrun : e₀.performAll ops = .ok (answers, e)) (hopen : e.phase.isTerminal = false) :
    answers.flatMap Answer.sent ++ e.outbox = e₀.history emits ops := by
  refine performAll_induct_past
    (P := fun ops answers e => e.phase.isTerminal = false →
      answers.flatMap Answer.sent ++ e.outbox = e₀.history emits ops)
    (fun hrun₁ ih hperform hopen₂ => ?_) (fun _ => (create_new hcreate).outbox_eq) hrun hopen
  have hopen₁ := ((perform_outcome hperform).phase hopen₂).1
  rw [history_concat emits hrun₁, ← ih hopen₁, List.flatMap_append, List.flatMap_singleton,
    List.append_assoc, List.append_assoc, (lived_run hcreate hrun₁).outbox_perform hperform hopen₂]

/-- A call of a run that is one too many shows only in what waits for the socket. -/
theorem Surplus.concat (h : Surplus e₀ ops op)
    (hcreate : create settings token transform secret nonces = .ok e₀)
    (hrun : e₀.performAll ops = .ok (answers, e)) :
    ∃ answer e', e.perform op = .ok (answer, e') ∧ e'.unsent = e.unsent ∧
      (answers ++ [answer]).flatMap Answer.taken = answers.flatMap Answer.taken ∧
      (e₀.history emits (ops ++ [op])).filter carriesData =
        (e₀.history emits ops).filter carriesData := by
  obtain ⟨answer, e', hperform, htaken, hsame, hdata⟩ :=
    h.perform hrun (settled_run hcreate hrun)
  refine ⟨answer, e', hperform, hsame, ?_, ?_⟩
  · simp [htaken]
  · rw [history_concat emits hrun, List.filter_append, hdata, List.append_nil]

/-- Of two matching runs the one has a result if the other has, and they come to the same. -/
theorem Matching.same {ops₁ ops₂ : List Operation} {answers₁ : List Answer} {e₁ : Endpoint α σ}
    (h : Matching e₀ ops₁ ops₂)
    (hcreate : create settings token transform secret nonces = .ok e₀)
    (hrun₁ : e₀.performAll ops₁ = .ok (answers₁, e₁)) :
    ∃ answers₂ e₂, e₀.performAll ops₂ = .ok (answers₂, e₂) ∧ e₁.unsent = e₂.unsent ∧
      answers₁.flatMap Answer.taken = answers₂.flatMap Answer.taken ∧
      (e₀.history emits ops₁).filter carriesData = (e₀.history emits ops₂).filter carriesData := by
  induction h generalizing answers₁ e₁ with
  | nil => exact ⟨answers₁, e₁, hrun₁, rfl, rfl, rfl⟩
  | @both ops₁ ops₂ _ op ih =>
    obtain ⟨before₁, e₁', answer, hbefore₁, hperform₁, rfl⟩ := performAll_concat_cases hrun₁
    obtain ⟨before₂, e₂', hbefore₂, hsame, htaken, hdata⟩ := ih hbefore₁
    by_cases hop : op = .pollTransmit
    · -- the two may hand different datagrams to the socket
      subst hop
      obtain ⟨answer₁, e₁'', hpoll₁, hsame₁, htaken₁, hdata₁⟩ :=
        (.poll : Surplus e₀ ops₁ .pollTransmit).concat hcreate hbefore₁
      obtain ⟨answer₂, e₂'', hpoll₂, hsame₂, htaken₂, hdata₂⟩ :=
        (.poll : Surplus e₀ ops₂ .pollTransmit).concat hcreate hbefore₂
      obtain ⟨rfl, rfl⟩ := Prod.mk.inj (Except.ok.inj (hperform₁.symm.trans hpoll₁))
      refine ⟨_, e₂'', performAll_concat hbefore₂ hpoll₂, ?_, ?_, ?_⟩
      · rw [hsame₁, hsame, hsame₂]
      · rw [htaken₁, htaken, htaken₂]
      · rw [hdata₁, hdata, hdata₂]
    · obtain ⟨e₂'', hperform₂, hsame', hemits⟩ := (lived_run hcreate hbefore₁).perform_of_unsent_eq
        (lived_run hcreate hbefore₂) hsame hop hperform₁
      refine ⟨_, e₂'', performAll_concat hbefore₂ hperform₂, hsame', ?_, ?_⟩
      · rw [List.flatMap_append, List.flatMap_append, htaken]
      · rw [history_concat emits hbefore₁, history_concat emits hbefore₂, List.filter_append,
          List.filter_append, hdata, hemits]
  | left _ surplus ih =>
    obtain ⟨before₁, e₁', answer, hbefore₁, hperform₁, rfl⟩ := performAll_concat_cases hrun₁
    obtain ⟨before₂, e₂, hrun₂, hsame, htaken, hdata⟩ := ih hbefore₁
    obtain ⟨answer', e₁'', hsurplus, hsame₁, htaken₁, hdata₁⟩ := surplus.concat hcreate hbefore₁
    obtain ⟨rfl, rfl⟩ := Prod.mk.inj (Except.ok.inj (hperform₁.symm.trans hsurplus))
    exact ⟨before₂, e₂, hrun₂, hsame₁.trans hsame, htaken₁.trans htaken, hdata₁.trans hdata⟩
  | right _ surplus ih =>
    obtain ⟨before₂, e₂', hbefore₂, hsame, htaken, hdata⟩ := ih hrun₁
    obtain ⟨answer, e₂, hsurplus, hsame₂, htaken₂, hdata₂⟩ := surplus.concat hcreate hbefore₂
    exact ⟨_, e₂, performAll_concat hbefore₂ hsurplus, hsame.trans hsame₂.symm,
      htaken.trans htaken₂.symm, hdata.trans hdata₂.symm⟩

/-- A datagram that comes again does no harm.  A data frame that was taken in is acknowledged once
more, if the connection is still up and the window has released fewer than half of all numbers
since: the acknowledgement joins the outbox and is counted, and nothing else changes.  An
acknowledgement that retired a frame changes nothing, if no frame after that one was given its
number.  So of two runs that differ only in such repetitions, and in when the socket takes
datagrams, the one has a result if the other has.  They leave the same endpoint but for the outbox
and the counts of written acknowledgements and of sent datagrams, hand the same events to the
application, and put the same data frames into the outbox, from where the socket takes them. -/
theorem repeats_harmless (hcreate : create settings token transform secret nonces = .ok e₀) :
    (∀ {ops : List Operation} {answers : List Answer} {e : Endpoint α σ} {datagram : Bytes}
      {f : Fragment}, e₀.performAll ops = .ok (answers, e) → e.phase = .established →
        Admitted e₀ ops datagram f → ∀ now, e.perform (.receive datagram now) = .ok (.done,
          { e with
            counters := { e.counters with acksSent := e.counters.acksSent + 1 }
            outbox := e.outbox ++ [(Frame.ack f.seq).encode] })) ∧
    (∀ {ops : List Operation} {answers : List Answer} {e : Endpoint α σ} {datagram : Bytes},
      e₀.performAll ops = .ok (answers, e) → Retired e₀ ops datagram →
        ∀ now, e.perform (.receive datagram now) = .ok (.done, e)) ∧
    ∀ {ops₁ ops₂ : List Operation} {answers₁ : List Answer} {e₁ : Endpoint α σ},
      Matching e₀ ops₁ ops₂ → e₀.performAll ops₁ = .ok (answers₁, e₁) →
        ∃ answers₂ e₂, e₀.performAll ops₂ = .ok (answers₂, e₂) ∧ e₁.unsent = e₂.unsent ∧
          answers₁.flatMap Answer.taken = answers₂.flatMap Answer.taken ∧
          e₁.events = e₂.events ∧
          (e₀.history emits ops₁).filter carriesData =
            (e₀.history emits ops₂).filter carriesData ∧
          (e₁.phase.isTerminal = false →
            (answers₁.flatMap Answer.sent ++ e₁.outbox).filter carriesData =
              (answers₂.flatMap Answer.sent ++ e₂.outbox).filter carriesData) := by
  refine ⟨fun hrun hup hadmitted now => hadmitted.perform hrun (settled_run hcreate hrun) hup now,
    fun hrun hretired now => (emits_of_idle (hretired.receive hrun now)).1,
    fun {ops₁ ops₂ answers₁ e₁} hmatch hrun₁ => ?_⟩
  obtain ⟨answers₂, e₂, hrun₂, hsame, htaken, hdata⟩ := hmatch.same hcreate hrun₁
  have hevents : e₁.unsent.events = e₂.unsent.events := congrArg Endpoint.events hsame
  have hphase : e₁.unsent.phase = e₂.unsent.phase := congrArg Endpoint.phase hsame
  refine ⟨answers₂, e₂, hrun₂, hsame, htaken, hevents, hdata, fun hopen₁ => ?_⟩
  have hopen₂ : e₂.phase.isTerminal = false :=
    (congrArg Phase.isTerminal hphase).symm.trans hopen₁
  rw [emitted_run hcreate hrun₁ hopen₁, emitted_run hcreate hrun₂ hopen₂, hdata]

end Runs

/-- A data frame and an acknowledgement come twice each. -/
theorem repeats_harmless_twice : ∃ (nonces : Nat → Nonce) (e₀ e₁ e₂ : Endpoint Rat Unit)
    (answers₁ answers₂ : List Answer),
    create {} [7] .plain () nonces = .ok e₀ ∧
      e₀.performAll [.connect 0, .receive (Frame.hello [7]).encode 0,
        .receive (Frame.data ⟨0, .only, [9]⟩).encode 1, .send [5] 1,
        .receive (Frame.ack 0).encode 2] = .ok (answers₁, e₁) ∧
      e₀.performAll [.connect 0, .receive (Frame.hello [7]).encode 0,
        .receive (Frame.data ⟨0, .only, [9]⟩).encode 1, .send [5] 1,
        .receive (Frame.ack 0).encode 2, .receive (Frame.data ⟨0, .only, [9]⟩).encode 3,
        .receive (Frame.ack 0).encode 4] = .ok (answers₂, e₂) ∧
      e₂ = { e₁ with
        counters := { e₁.counters with acksSent := e₁.counters.acksSent + 1 }
        outbox := e₁.outbox ++ [(Frame.ack 0).encode] } ∧
      e₁.unsent = e₂.unsent := by
  let f : Fragment := ⟨0, .only, [9]⟩
  let data : Bytes := (Frame.data f).encode
  let ack : Bytes := (Frame.ack 0).encode
  let early : List Operation := [.connect 0, .receive (Frame.hello [7]).encode 0]
  let later : List Operation := [.send [5] 1, .receive ack 2]
  have hdata : Frame.decode data = .ok (.data f) := Frame.decode_encode_of_fits trivial
  have hack : Frame.decode ack = .ok (.ack 0) := Frame.decode_encode_of_fits trivial
  obtain ⟨e₀, hcreate, hrest⟩ := exists_of_any_toOption
    (show (blank {} [7]).toOption.any (fun e₀ =>
      ((e₀.performAll early).toOption.any fun r => decide (r.2.phase = .established ∧
        (r.2.inlet.window.insert f).1 = .accepted ∧
        (r.2.history reads (.receive data 1 :: later)).length < 2 ^ 31)) &&
      ((e₀.performAll (early ++ [.receive data 1, .send [5] 1])).toOption.any fun r =>
        decide (r.2.phase = .established ∧ r.2.queue.isInFlight 0 = true ∧
          (∀ w ∈ r.2.queue.waiting, w.seq ≠ 0) ∧
          ∀ g ∈ r.2.history numbering [.receive ack 2, .receive data 3], g.seq ≠ 0)) &&
      (e₀.performAll (early ++ .receive data 1 :: later)).toOption.any fun r =>
        decide (r.2.phase = .established)) = true by decide +kernel)
  simp only [Bool.and_eq_true] at hrest
  obtain ⟨⟨hfirst, hsecond⟩, hthird⟩ := hrest
  obtain ⟨⟨before₁, w₁⟩, hearly, hchecks⟩ := exists_of_any_toOption hfirst
  obtain ⟨hup₁, haccepted, hmoved⟩ := of_decide_eq_true hchecks
  obtain ⟨⟨before₂, w₂⟩, hmiddle, hchecks⟩ := exists_of_any_toOption hsecond
  obtain ⟨hup₂, hflight, hwaiting, hfresh⟩ := of_decide_eq_true hchecks
  obtain ⟨⟨answers₁, e₁⟩, hrun₁, hchecks⟩ := exists_of_any_toOption hthird
  have hup : e₁.phase = .established := of_decide_eq_true hchecks
  have hadmitted : Admitted e₀ (early ++ .receive data 1 :: later) data f :=
    ⟨early, 1, later, before₁, w₁, rfl, hearly, hup₁, hdata, haccepted, hmoved⟩
  have hretired : Retired e₀ (early ++ .receive data 1 :: later ++ [.receive data 3]) ack :=
    ⟨_, 2, [.receive data 3], before₂, w₂, 0, rfl, hmiddle, hup₂, hack, hflight, hwaiting, hfresh⟩
  obtain ⟨hagain, hidle, hmatch⟩ := repeats_harmless hcreate
  have hknown := hagain hrun₁ hup hadmitted 3
  have hrun₂ := performAll_concat hrun₁ hknown
  have hrun₃ := performAll_concat hrun₂ (hidle hrun₂ hretired 4)
  have hmatching : Matching e₀ (early ++ .receive data 1 :: later)
      (early ++ .receive data 1 :: later ++ [.receive data 3] ++ [.receive ack 4]) :=
    ((Matching.refl e₀ _).right (.data hadmitted 3)).right (.ack hretired 4)
  obtain ⟨answers₂, e₂, hrun₂', hsame, -⟩ := hmatch hmatching hrun₁
  obtain ⟨rfl, rfl⟩ := Prod.mk.inj (Except.ok.inj (hrun₃.symm.trans hrun₂'))
  exact ⟨_, e₀, e₁, _, answers₁, _, hcreate, hrun₁, hrun₃, rfl, hsame⟩

end DatagramTunnel.Session.Endpoint
