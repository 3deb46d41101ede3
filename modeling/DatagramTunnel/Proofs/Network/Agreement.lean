import DatagramTunnel.Proofs.Network.Path
import DatagramTunnel.Proofs.Session.Greeting
import DatagramTunnel.Proofs.Wire.Canonical

/-!
# Agreement on the token

An endpoint says HELLO with its own token only, so on a path that forges nothing every HELLO that
arrives presents the token of the other end.  If the tokens differ, no HELLO can bring an endpoint
up, and whatever happens its application is told of nothing but a failure: `Estranged`.  If they
agree, no HELLO can end the handshake, and an endpoint that is up has heard the other one:
`Acquainted`.

Both are invariants of an endpoint together with the events that it has handed out, and rest on what
the calls bring.  `Introduced` is what the other end contributes to that.
-/

namespace DatagramTunnel.Session

open Flight Packet Wire

/-- The call brings a HELLO that presents this token. -/
def Operation.Brings (op : Operation) (token : Bytes) : Prop :=
  ∃ datagram now, op = .receive datagram now ∧ Frame.decode datagram = .ok (.hello token)

namespace Endpoint

variable {α σ : Type}

/-- The endpoint is not up, and of the events, those handed out before included, all tell of a
failed handshake. -/
structure Estranged (e : Endpoint α σ) (past : List Event) : Prop where
  down : e.phase ≠ .established
  told : ∀ event ∈ past ++ e.events, ∃ reason, event = .failed reason

/-- No event tells of another token, and the endpoint is up only if `heard`. -/
structure Acquainted (e : Endpoint α σ) (past : List Event) (heard : Prop) : Prop where
  told : Event.failed .tokenMismatch ∉ past ++ e.events
  up : e.phase = .established → heard

/-- The endpoint queues data frames only, and all its HELLOs, those sent before included, present
its token. -/
structure Introduced (e : Endpoint α σ) (sent : List Bytes) (token : Bytes) : Prop where
  data : HoldsData e.queue
  token_eq : e.token = token
  own : ∀ other ∈ hellos (sent ++ e.outbox), other = token

variable {e e' : Endpoint α σ} {op : Operation} {answer : Answer} {past : List Event}

theorem New.introduced {settings : Settings} {token : Bytes} {transform : Transform σ}
    (h : e.New settings token transform) : e.Introduced [] token := by
  refine ⟨h.holdsData, h.token_eq, ?_⟩
  rw [h.outbox_eq]
  exact fun _ hmem => absurd hmem List.not_mem_nil

theorem New.estranged {settings : Settings} {token : Bytes} {transform : Transform σ}
    (h : e.New settings token transform) : e.Estranged [] := by
  refine ⟨?_, ?_⟩
  · rw [h.phase_eq]
    exact nofun
  · rw [h.events_eq]
    exact fun _ hmem => absurd hmem List.not_mem_nil

theorem New.acquainted {settings : Settings} {token : Bytes} {transform : Transform σ}
    (h : e.New settings token transform) (heard : Prop) : e.Acquainted [] heard := by
  refine ⟨?_, ?_⟩
  · rw [h.events_eq]
    exact List.not_mem_nil
  · rw [h.phase_eq]
    exact nofun

/-- An endpoint that is not up refuses to send. -/
theorem Estranged.refuses [Add α] [Sub α] [Mul α] [Seconds α] (h : e.Estranged past) :
    (∀ packet now, ∃ cause, e.perform (.send packet now) = .ok (.refused cause, e)) ∧
      ∀ id payload, ∃ cause, e.perform (.sendRaw id payload) = .ok (.refused cause, e) := by
  cases hrefusal : e.refusal? with
  | none => exact absurd (refusal?_eq_none_iff.1 hrefusal) h.down
  | some cause =>
    refine ⟨fun packet now => ⟨cause, ?_⟩, fun id payload => ⟨cause, ?_⟩⟩
    · rw [perform, send, hrefusal]
      rfl
    · rw [perform, sendRaw, hrefusal]
      rfl

variable [Add α] [Sub α] [Mul α] [Seconds α]

/-! ## One act -/

/-- Without a HELLO that presents its token an endpoint does not come up. -/
theorem Estranged.act (h : e.Estranged past) (hno : ¬ op.Brings e.token) (hact : Act op e e') :
    e'.Estranged past := by
  have hextend : ∀ reason, ∀ event ∈ past ++ (e.events ++ [.failed reason]),
      ∃ reason, event = .failed reason := by
    intro reason event hmem
    rw [← List.append_assoc, List.mem_append, List.mem_singleton] at hmem
    exact hmem.elim (h.told event) fun heq => ⟨reason, heq⟩
  cases hact with
  | rise _ frame => exact absurd ⟨_, _, rfl, frame⟩ hno
  | @fail _ _ _ reason _ => exact ⟨nofun, hextend reason⟩
  | mismatch _ _ _ => exact ⟨nofun, hextend .tokenMismatch⟩
  | start _ _ | retry _ _ _ | drop _ | fault _ => exact ⟨h.down, h.told⟩
  | secret up | greet up | down up | expire up | ping up | packet up | raw up | offer up
  | advance up | answer up | heard up | retire up | enqueue up | pump _ up | launch up =>
    exact absurd up h.down

/-- Without a HELLO that presents another token an endpoint does not report one, and it comes up
only on a HELLO that presents its own. -/
theorem Acquainted.act {heard : Prop} (h : e.Acquainted past heard)
    (hown : ∀ token, op.Brings token → token = e.token ∧ heard) (hact : Act op e e') :
    e'.Acquainted past heard := by
  have hextend : ∀ event, event ≠ .failed .tokenMismatch →
      Event.failed .tokenMismatch ∉ past ++ (e.events ++ [event]) := by
    intro event hother hmem
    rw [← List.append_assoc, List.mem_append, List.mem_singleton] at hmem
    exact hmem.elim h.told fun heq => hother heq.symm
  cases hact with
  | rise _ frame => exact ⟨hextend .up nofun, fun _ => (hown _ ⟨_, _, rfl, frame⟩).2⟩
  | mismatch _ frame other => exact absurd (hown _ ⟨_, _, rfl, frame⟩).1 other
  | @fail _ _ _ reason other => exact ⟨hextend _ fun heq => other (Event.failed.inj heq), nofun⟩
  | @down _ _ _ reason _ => exact ⟨hextend (.down reason) nofun, nofun⟩
  | expire _ _ => exact ⟨hextend (.down .pongTimeout) nofun, nofun⟩
  | packet _ content => exact ⟨hextend (.packet content) nofun, h.up⟩
  | raw _ id content => exact ⟨hextend (.raw id content) nofun, h.up⟩
  | offer _ _ =>
    rw [offered_eq]
    exact ⟨h.told, h.up⟩
  | _ => exact ⟨h.told, h.up⟩

/-! ## One call -/

theorem Estranged.perform (h : e.Estranged past) (hno : ¬ op.Brings e.token)
    (hperform : e.perform op = .ok (answer, e')) : e'.Estranged (past ++ answer.taken) := by
  cases perform_deed hperform with
  | acts hacts _ taken =>
    rw [taken, List.append_nil]
    refine (hacts.induct (P := fun e' => e'.Estranged past ∧ e'.token = e.token)
      (fun ih hact => ?_) ⟨h, rfl⟩).1
    exact ⟨ih.1.act (ih.2 ▸ hno) hact, hact.constants.2.1.trans ih.2⟩
  | transmit _ =>
    exact ⟨h.down, by simpa [Answer.taken, count] using h.told⟩
  | report events => exact ⟨h.down, by simpa [Answer.taken, events] using h.told⟩
  | shut _ _ =>
    refine ⟨fun hup => ?_, by simpa [Answer.taken] using h.told⟩
    cases hup

theorem Acquainted.perform {heard : Prop} (h : e.Acquainted past heard)
    (hown : ∀ token, op.Brings token → token = e.token ∧ heard)
    (hperform : e.perform op = .ok (answer, e')) :
    e'.Acquainted (past ++ answer.taken) heard := by
  cases perform_deed hperform with
  | acts hacts _ taken =>
    rw [taken, List.append_nil]
    refine (hacts.induct (P := fun e' => e'.Acquainted past heard ∧ e'.token = e.token)
      (fun ih hact => ?_) ⟨h, rfl⟩).1
    exact ⟨ih.1.act (ih.2 ▸ hown) hact, hact.constants.2.1.trans ih.2⟩
  | transmit _ => exact ⟨by simpa [Answer.taken, count] using h.told, h.up⟩
  | report events => exact ⟨by simpa [Answer.taken, events] using h.told, h.up⟩
  | shut _ _ =>
    refine ⟨by simpa [Answer.taken] using h.told, fun hup => ?_⟩
    cases hup

theorem Introduced.perform {sent : List Bytes} {token : Bytes} (h : e.Introduced sent token)
    (hperform : e.perform op = .ok (answer, e')) : e'.Introduced (sent ++ answer.sent) token := by
  have houtcome := perform_outcome hperform
  refine ⟨(houtcome.acknowledgements h.data).1, houtcome.constants.2.1.trans h.token_eq, ?_⟩
  intro other hmem
  cases perform_deed hperform with
  | acts _ hsent _ =>
    rw [hsent, List.append_nil, hellos_append, List.mem_append] at hmem
    have hold : other ∈ hellos sent ∨ other ∈ hellos e.outbox → other = token := by
      intro hor
      exact h.own other (by simpa using hor)
    rcases perform_hello h.data hperform with ⟨now, hgreets⟩ | hsilent
    · rw [hgreets.outbox, hellos_append, List.mem_append, h.token_eq] at hmem
      rcases hmem with hmem | hmem | hmem
      · exact hold (.inl hmem)
      · exact hold (.inr hmem)
      · simpa [hellos] using hmem
    · exact hold (hmem.imp_right fun hlater => hsilent.hellos_outbox hlater)
  | transmit houtbox =>
    refine h.own other ?_
    rw [houtbox]
    simpa [Answer.sent, count] using hmem
  | report _ => exact h.own other (by simpa [Answer.sent] using hmem)
  | shut _ _ => exact h.own other (by simpa [Answer.sent] using hmem)

/-- An endpoint that is not up takes nothing for delivery. -/
theorem accepted_of_down (hdown : e.phase ≠ .established)
    (hperform : e.perform op = .ok (answer, e')) : op.accepted answer = [] := by
  cases perform_outcome hperform with
  | aside _ _ _ _ _ _ _ accepted => exact accepted
  | accept up _ _ _ _ => exact absurd up hdown
  | _ => rfl

end Endpoint

end DatagramTunnel.Session

namespace DatagramTunnel.Network

open Flight Session Wire

/-! ## What one party does -/

/-- What the application has been told, or is about to be told. -/
def Party.told {α σ : Type} (p : Party α σ) : List Event := p.taken ++ p.endpoint.events

section Party

variable {α σ : Type} [Add α] [Sub α] [Mul α] [Seconds α] {p p' : Party α σ} {op : Operation}

theorem introduced_step {token : Bytes} (h : p.endpoint.Introduced p.sent token)
    (hperform : p.perform op = .ok p') : p'.endpoint.Introduced p'.sent token := by
  obtain ⟨answer, endpoint, hcall, rfl⟩ := Party.exists_of_perform hperform
  exact h.perform hcall

theorem estranged_step (h : p.endpoint.Estranged p.taken ∧ p.accepted = [])
    (hno : ¬ op.Brings p.endpoint.token) (hperform : p.perform op = .ok p') :
    p'.endpoint.Estranged p'.taken ∧ p'.accepted = [] := by
  obtain ⟨answer, endpoint, hcall, rfl⟩ := Party.exists_of_perform hperform
  refine ⟨h.1.perform hno hcall, ?_⟩
  rw [h.2, Endpoint.accepted_of_down h.1.down hcall]
  rfl

theorem acquainted_step {heard : Prop} (h : p.endpoint.Acquainted p.taken heard)
    (hown : ∀ token, op.Brings token → token = p.endpoint.token ∧ heard)
    (hperform : p.perform op = .ok p') : p'.endpoint.Acquainted p'.taken heard := by
  obtain ⟨answer, endpoint, hcall, rfl⟩ := Party.exists_of_perform hperform
  exact h.perform hown hcall

/-- What a party has sent stays sent. -/
theorem sent_grows (hperform : p.perform op = .ok p') : p.sent <+: p'.sent := by
  obtain ⟨answer, endpoint, -, rfl⟩ := Party.exists_of_perform hperform
  exact List.prefix_append _ _

end Party

/-- A HELLO that the path can bring presents the token of the party that sent it. -/
theorem eq_of_brings {α σ : Type} {p : Party α σ} {token other : Bytes} {op : Operation}
    (h : p.endpoint.Introduced p.sent token) (hpermits : Permits p.sent op)
    (hbrings : op.Brings other) : other = token ∧ (Frame.hello token).encode ∈ p.sent := by
  obtain ⟨datagram, now, rfl, hframe⟩ := hbrings
  have hmem : datagram ∈ p.sent := hpermits
  have hown := h.own other (mem_hellos_iff.2 ⟨datagram, List.mem_append_left _ hmem, hframe⟩)
  rw [hown] at hframe
  rw [(Frame.decode_eq_ok_iff.1 hframe).1]
  exact ⟨hown, hmem⟩

/-! ## Every run of both -/

variable {α σ β τ : Type} [Add α] [Sub α] [Mul α] [Seconds α] [Add β] [Sub β] [Mul β] [Seconds β]
  {a : Endpoint α σ} {b : Endpoint β τ} {s : Path α σ β τ} {settings settings' : Settings}
  {token token' : Bytes} {transform : Transform σ} {transform' : Transform τ}

theorem Reachable.introduced (h : Reachable a b s) (ha : a.New settings token transform)
    (hb : b.New settings' token' transform') :
    s.near.endpoint.Introduced s.near.sent token ∧
      s.far.endpoint.Introduced s.far.sent token' := by
  induction h with
  | start => exact ⟨ha.introduced, hb.introduced⟩
  | step before act ih =>
    rcases Path.act_cases act with ⟨p, -, hperform, rfl⟩ | ⟨p, -, hperform, rfl⟩
    · exact ⟨introduced_step ih.1 hperform, ih.2⟩
    · exact ⟨ih.1, introduced_step ih.2 hperform⟩

theorem Reachable.estranged (h : Reachable a b s) (ha : a.New settings token transform)
    (hb : b.New settings' token' transform') (hother : token ≠ token') :
    (s.near.endpoint.Estranged s.near.taken ∧ s.near.accepted = []) ∧
      s.far.endpoint.Estranged s.far.taken ∧ s.far.accepted = [] := by
  induction h with
  | start => exact ⟨⟨ha.estranged, rfl⟩, hb.estranged, rfl⟩
  | step before act ih =>
    obtain ⟨hnear, hfar⟩ := before.introduced ha hb
    rcases Path.act_cases act with ⟨p, hpermits, hperform, rfl⟩ | ⟨p, hpermits, hperform, rfl⟩
    · refine ⟨estranged_step ih.1 (fun hbrings => ?_) hperform, ih.2⟩
      exact hother (hnear.token_eq.symm.trans (eq_of_brings hfar hpermits hbrings).1)
    · refine ⟨ih.1, estranged_step ih.2 (fun hbrings => ?_) hperform⟩
      exact hother (hfar.token_eq.symm.trans (eq_of_brings hnear hpermits hbrings).1).symm

theorem Reachable.acquainted (h : Reachable a b s) (ha : a.New settings token transform)
    (hb : b.New settings' token transform') :
    s.near.endpoint.Acquainted s.near.taken ((Frame.hello token).encode ∈ s.far.sent) ∧
      s.far.endpoint.Acquainted s.far.taken ((Frame.hello token).encode ∈ s.near.sent) := by
  induction h with
  | start => exact ⟨ha.acquainted _, hb.acquainted _⟩
  | step before act ih =>
    obtain ⟨hnear, hfar⟩ := before.introduced ha hb
    rcases Path.act_cases act with ⟨p, hpermits, hperform, rfl⟩ | ⟨p, hpermits, hperform, rfl⟩
    · refine ⟨acquainted_step ih.1 (fun other hbrings => ?_) hperform, ih.2.told, fun hup => ?_⟩
      · obtain ⟨rfl, hmem⟩ := eq_of_brings hfar hpermits hbrings
        exact ⟨hnear.token_eq.symm, hmem⟩
      · exact (sent_grows hperform).subset (ih.2.up hup)
    · refine ⟨⟨ih.1.told, fun hup => ?_⟩, acquainted_step ih.2 (fun other hbrings => ?_) hperform⟩
      · exact (sent_grows hperform).subset (ih.1.up hup)
      · obtain ⟨rfl, hmem⟩ := eq_of_brings hnear hpermits hbrings
        exact ⟨hfar.token_eq.symm, hmem⟩

/-- The application of this party has been told of nothing but a failure, and whatever it sends is
refused. -/
structure Party.Excluded (p : Party α σ) : Prop where
  told : ∀ event ∈ p.told, ∃ reason, event = .failed reason
  accepted : p.accepted = []
  refuses : ∀ packet now, ∃ cause,
    p.endpoint.perform (.send packet now) = .ok (.refused cause, p.endpoint)
  refusesRaw : ∀ id payload, ∃ cause,
    p.endpoint.perform (.sendRaw id payload) = .ok (.refused cause, p.endpoint)

/-- Two ends with different tokens never come up, whatever they do and whatever becomes of their
datagrams: neither emits an event that tells of anything but a failure, and neither accepts anything
to send.  Two ends with one token never report that the other one presented another, and an end that
is up is so because the other one has said HELLO. -/
theorem handshake_agreement {secret : σ} {secret' : τ} {nonces nonces' : Nat → Nonce}
    (ha : Endpoint.create settings token transform secret nonces = .ok a)
    (hb : Endpoint.create settings' token' transform' secret' nonces' = .ok b)
    (hreach : Reachable a b s) :
    (token ≠ token' → s.near.Excluded ∧ s.far.Excluded) ∧
      (token = token' →
        Event.failed .tokenMismatch ∉ s.near.told ∧ Event.failed .tokenMismatch ∉ s.far.told ∧
          (s.near.endpoint.phase = .established →
            (Frame.hello token).encode ∈ s.far.sent) ∧
          (s.far.endpoint.phase = .established →
            (Frame.hello token).encode ∈ s.near.sent)) := by
  have hnew := Endpoint.create_new ha
  have hnew' := Endpoint.create_new hb
  constructor
  · intro hother
    obtain ⟨⟨hnear, haccepted⟩, hfar, haccepted'⟩ := hreach.estranged hnew hnew' hother
    exact ⟨⟨hnear.told, haccepted, hnear.refuses.1, hnear.refuses.2⟩,
      ⟨hfar.told, haccepted', hfar.refuses.1, hfar.refuses.2⟩⟩
  · rintro rfl
    obtain ⟨hnear, hfar⟩ := hreach.acquainted hnew hnew'
    exact ⟨hnear.told, hfar.told, hnear.up, hfar.up⟩

/-- An end that has not been told to connect is up once it hears the other one, and two ends with
different tokens end each other's handshakes. -/
theorem handshake_agreement_first :
    (∃ (a b : Endpoint Rat Unit) (s : Path Rat Unit Rat Unit), Reachable a b s ∧
      s.near.endpoint.phase = .established ∧ s.near.sent = [] ∧
        (Frame.hello [7]).encode ∈ s.far.sent) ∧
      ∃ (a b : Endpoint Rat Unit) (s : Path Rat Unit Rat Unit), Reachable a b s ∧
        s.near.told = [.failed .tokenMismatch] ∧ s.near.Excluded ∧ s.far.Excluded := by
  constructor
  · obtain ⟨a, b, s, ha, hb, hreach, hs⟩ := Path.reachable_of_trial
      (p := fun s => s.near.endpoint.phase == .established && s.near.sent == [])
      (show (Path.trial {} {} [7] [(.far, .connect 0), (.far, .pollTransmit),
        (.near, .receive (Frame.hello [7]).encode 1)]).any _ = true by decide +kernel)
    rw [Bool.and_eq_true, beq_iff_eq, beq_iff_eq] at hs
    exact ⟨a, b, s, hreach, hs.1, hs.2, ((handshake_agreement ha hb hreach).2 rfl).2.2.1 hs.1⟩
  · have htrial : ((Endpoint.blank {} [7]).toOption.any fun a =>
      (Endpoint.blank {} [8]).toOption.any fun b =>
      (Path.run { near := { endpoint := a }, far := { endpoint := b } }
        [(.near, .connect 0), (.far, .connect 0), (.near, .pollTransmit), (.far, .pollTransmit),
          (.near, .receive (Frame.hello [8]).encode 1), (.near, .pollEvent),
          (.far, .receive (Frame.hello [7]).encode 1)]).any fun s =>
        s.near.told == [.failed .tokenMismatch]) = true := by decide +kernel
    simp only [Option.any_eq_true, beq_iff_eq] at htrial
    obtain ⟨a, ha, b, hb, s, hrun, htold⟩ := htrial
    have hreach : Reachable a b s := Reachable.start.run hrun
    have hagree := handshake_agreement (eq_ok_of_toOption ha) (eq_ok_of_toOption hb) hreach
    obtain ⟨hnear, hfar⟩ := hagree.1 (by decide)
    exact ⟨a, b, s, hreach, htold, hnear, hfar⟩

end DatagramTunnel.Network
