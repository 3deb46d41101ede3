import DatagramTunnel.Proofs.Session.History
import DatagramTunnel.Proofs.Session.Judging

/-!
# How many violations in a row end a connection

`incidents e op` are the faults and packets that a call would come to with no limit on the
violations.  Only a data frame or a raw datagram can come to anything; every other call is `Quiet`.
So each call keeps to the limit (`perform_ruled`), and `threshold_exact` says of any run that the
count of violations is the streak of the incidents so far, and that the connection goes down at the
fault that trips the limit and delivers nothing that comes after it.
-/

namespace DatagramTunnel.Session

open Flight Packet Wire

/-- The event hands over a packet, or says that there were too many violations. -/
def Event.isVerdict : Event → Bool
  | .packet _ | .down (.protocolViolations _) => true
  | .up | .failed _ | .raw _ _ => false
  | .down .pongTimeout | .down .socketClosed | .down .localClose => false

theorem Settings.maxProtocolViolations_pos {s : Settings} (h : s.validate = .ok ()) :
    0 < s.maxProtocolViolations := by
  have hrule := Settings.validate_eq_ok_iff.1 h
    (s.maxProtocolViolations != 0, .zeroViolationThreshold) (by simp [Settings.rules])
  exact Nat.pos_of_ne_zero (by simpa using hrule)

namespace Endpoint

variable {α σ : Type}

/-- The faults and packets that a call comes to if nothing stops it. -/
def incidents (e : Endpoint α σ) : Operation → List Mark
  | .receive datagram _ =>
    match e.phase, Frame.decode datagram with
    | .established, .ok (.data f) => openingAll e.transform e.secret (e.inlet.offer f).2.1
    | .established, .ok (.pipe _ payload) =>
      if e.settings.transformRaw then
        match (e.transform.unwrap e.secret payload).1 with
        | .ok _ => []
        | .error _ => [.fault]
      else []
    | _, _ => []
  | _ => []

variable {limit : Nat} {past marks early : List Mark} {e e' e'' : Endpoint α σ}

/-! ## What comes to nothing -/

/-- No violation is counted, no packet is handed over, and whatever ends the connection, it is not
the limit on violations. -/
structure Quiet (e e' : Endpoint α σ) : Prop where
  violations_eq : e'.violations = e.violations
  told : ∃ news, e'.events = e.events ++ news ∧ ∀ event ∈ news, event.isVerdict = false

namespace Quiet

theorem of_eq (hviolations : e'.violations = e.violations) (hevents : e'.events = e.events) :
    Quiet e e' :=
  ⟨hviolations, [], hevents.trans (List.append_nil _).symm, nofun⟩

theorem refl (e : Endpoint α σ) : Quiet e e := of_eq rfl rfl

/-- One event is added that is no verdict. -/
theorem of_event {event : Event} (hviolations : e'.violations = e.violations)
    (hevents : e'.events = e.events ++ [event]) (hmild : event.isVerdict = false) : Quiet e e' :=
  ⟨hviolations, [event], hevents, fun _ hmem => List.mem_singleton.1 hmem ▸ hmild⟩

/-- Only these parts of the endpoint matter that it begins with. -/
theorem congr (h : Quiet e e') (hviolations : e.violations = e''.violations)
    (hevents : e.events = e''.events) : Quiet e'' e' :=
  ⟨h.violations_eq.trans hviolations, hevents ▸ h.told⟩

end Quiet

theorem goDown_quiet (e : Endpoint α σ) {reason : Outage}
    (h : (Event.down reason).isVerdict = false) : Quiet e (e.goDown reason) := by
  unfold goDown
  split
  · exact .of_event rfl rfl h
  · exact .refl e

theorem fail_quiet (e : Endpoint α σ) (reason : HandshakeFailure) : Quiet e (e.fail reason) := by
  unfold fail
  split
  · exact .of_event rfl rfl rfl
  · exact .refl e

theorem close_quiet (e : Endpoint α σ) : Quiet e e.close := by
  unfold close
  split
  · exact fail_quiet e _
  · exact goDown_quiet e rfl
  · exact .refl e
  · exact .refl e

theorem socketClosed_quiet (e : Endpoint α σ) : Quiet e e.socketClosed := by
  unfold socketClosed
  split
  · exact fail_quiet e _
  · exact goDown_quiet e rfl
  · exact .refl e
  · exact .refl e

theorem connect_quiet {now : Nat} (h : e.connect now = .ok e') : Quiet e e' := by
  unfold connect at h
  split at h
  · split at h
    · exact Except.ok.inj h ▸ .of_eq rfl rfl
    · exact Except.ok.inj h ▸ .refl e
  · exact Except.ok.inj h ▸ .refl e
  · cases h
  · cases h

theorem onHello_quiet (e : Endpoint α σ) (token : Bytes) (now : Nat) :
    Quiet e (e.onHello token now) := by
  unfold onHello
  split
  · split
    · exact .of_event rfl rfl rfl
    · exact fail_quiet e _
  · split
    · split
      · exact .of_eq rfl rfl
      · exact .refl e
    · exact .of_eq rfl rfl
  · exact .refl e
  · exact .refl e

theorem sendRaw_quiet (e : Endpoint α σ) (id : UInt8) (payload : Bytes) :
    Quiet e (e.sendRaw id payload).2 := by
  unfold sendRaw
  split
  · exact .refl e
  · dsimp only
    split
    · exact .of_eq rfl rfl
    · split <;> exact .of_eq rfl rfl

section Arithmetic

variable [Mul α] [Seconds α] {now : Nat}

theorem pump_quiet (h : e.pump now = .ok e') : Quiet e e' := by
  obtain ⟨timeout, -, rfl⟩ := pump_eq_ok h
  exact .of_eq rfl rfl

theorem tick_quiet (h : e.tick now = .ok e') : Quiet e e' := by
  unfold tick at h
  split at h
  · rw [← Except.ok.inj h]
    unfold tickHandshake
    split
    · exact .refl e
    · split
      · exact fail_quiet e _
      · split
        · exact .of_eq rfl rfl
        · exact .refl e
  · dsimp only [tickEstablished] at h
    split at h
    · rw [← Except.ok.inj h]
      exact (goDown_quiet _ rfl).congr rfl rfl
    · exact (pump_quiet h).congr rfl rfl
    · exact (pump_quiet h).congr rfl rfl
  · exact Except.ok.inj h ▸ .refl e
  · exact Except.ok.inj h ▸ .refl e

theorem send_quiet {packet : Bytes} {result : Except TunnelError Unit}
    (h : e.send packet now = .ok (result, e')) : Quiet e e' := by
  rcases send_cases h with ⟨cause, -, rfl | ⟨secret, -, rfl⟩⟩ |
    ⟨wrapped, secret, -, -, -, -, -, hpump⟩
  · exact .refl _
  · exact .of_eq rfl rfl
  · exact (pump_quiet hpump).congr rfl rfl

variable [Add α] [Sub α]

theorem onAck_quiet {seq : UInt32} (h : e.onAck seq now = .ok e') : Quiet e e' := by
  unfold onAck at h
  split at h
  · exact Except.ok.inj h ▸ .refl e
  · exact (pump_quiet h).congr rfl rfl

end Arithmetic

/-! ## One call -/

/-- What a call does to an endpoint that has the marks `past` behind it, if it comes to `marks` when
nothing stops it, and adds the events `news`: the limit is not reached and everything is done, or
the connection ends at the fault that reaches it. -/
inductive Ruled (limit : Nat) (past marks : List Mark) (news : List Event) (e' : Endpoint α σ) :
    Prop
  | below (untripped : ∀ early, ¬ Trips limit past marks early)
    (silent : ∀ count, .down (.protocolViolations count) ∉ news)
    (packets : news.filterMap Event.content? = marks.filterMap Mark.content?)
    (tally : e'.phase.isTerminal = false →
      e'.violations = streak (past ++ marks) ∧ streak (past ++ marks) < limit)
  | reached (early : List Mark) (trips : Trips limit past marks early)
    (news_eq : news = packetsOf early ++ [.down (.protocolViolations limit)])
    (phase : e'.phase = .closing) (emptied : e'.Emptied)

/-- The count of an endpoint is its streak as long as it has not ended. -/
def Tallied (limit : Nat) (past : List Mark) (e : Endpoint α σ) : Prop :=
  e.phase.isTerminal = false → e.violations = streak past ∧ streak past < limit

theorem filterMap_packetsOf (marks : List Mark) :
    (packetsOf marks).filterMap Event.content? = marks.filterMap Mark.content? := by
  rw [packetsOf, List.filterMap_map]
  exact List.filterMap_some

theorem not_mem_packetsOf {event : Event} (h : event.content? = none) (marks : List Mark) :
    event ∉ packetsOf marks := by
  intro hmem
  obtain ⟨content, -, rfl⟩ := List.mem_map.1 hmem
  cases h

theorem Judged.ruled {secret : σ} (h : Judged limit past marks secret e e') :
    ∃ news, e'.events = e.events ++ news ∧ Ruled limit past marks news e' := by
  cases h with
  | calm up count below events _ =>
    refine ⟨_, events, .below (fun early htrips => ?_) (fun count => not_mem_packetsOf rfl marks)
      (filterMap_packetsOf marks) fun _ => ⟨count, below marks List.prefix_rfl⟩⟩
    have hbelow := below _ htrips.fault
    rw [← List.append_assoc, streak_concat_fault, htrips.full] at hbelow
    exact Nat.lt_irrefl _ hbelow
  | tripped early trips phase emptied events =>
    exact ⟨_, events.trans (List.append_assoc _ _ _), .reached early trips rfl phase emptied⟩

theorem not_trips_nil (early : List Mark) : ¬ Trips limit past [] early := by
  intro h
  simpa using List.prefix_nil.1 h.fault

theorem isVerdict_of_content {event : Event} (h : event.isVerdict = false) :
    event.content? = none ∧ ∀ count, event ≠ .down (.protocolViolations count) := by
  cases event with
  | packet content => cases h
  | down reason => exact ⟨rfl, fun count heq => by cases heq; cases h⟩
  | _ => exact ⟨rfl, nofun⟩

/-- What leaves the count alone and adds no verdict keeps the tally. -/
theorem ruled_of_mild {news : List Event} (htally : e.Tallied limit past)
    (hopen : e'.phase.isTerminal = false → e.phase.isTerminal = false)
    (hviolations : e'.violations = e.violations)
    (hmild : ∀ event ∈ news, event.isVerdict = false) : Ruled limit past [] news e' := by
  refine .below not_trips_nil (fun count hmem => ?_) ?_ fun h => ?_
  · exact (isVerdict_of_content (hmild _ hmem)).2 count rfl
  · exact List.filterMap_eq_nil_iff.2 fun event hmem => (isVerdict_of_content (hmild event hmem)).1
  · rw [hviolations, List.append_nil]
    exact htally (hopen h)

theorem Quiet.ruled (h : Quiet e e') (htally : e.Tallied limit past)
    (hopen : e'.phase.isTerminal = false → e.phase.isTerminal = false) :
    ∃ news, e'.events = e.events ++ news ∧ Ruled limit past [] news e' := by
  obtain ⟨hviolations, news, hevents, hmild⟩ := h
  exact ⟨news, hevents, ruled_of_mild htally hopen hviolations hmild⟩

/-- Only a datagram that arrives while the connection is up can come to anything. -/
theorem incidents_of_down (h : e.phase ≠ .established) (op : Operation) : e.incidents op = [] := by
  cases op with
  | receive datagram now =>
    dsimp only [incidents]
    split
    · exact absurd ‹_› h
    · exact absurd ‹_› h
    · rfl
  | _ => rfl

/-- A raw datagram that is not unwrapped is a fault. -/
theorem onPipe_ruled (h : e.Ready limit past) {datagram payload : Bytes} {id : UInt8} (now : Nat)
    (hframe : Frame.decode datagram = .ok (.pipe id payload)) :
    ∃ news, (e.onPipe id payload).events = e.events ++ news ∧
      Ruled limit past (e.incidents (.receive datagram now)) news (e.onPipe id payload) := by
  have htally : e.Tallied limit past := fun _ => ⟨h.count, h.below⟩
  have hopen := isTerminal_of_established h.up
  have hincidents : e.incidents (.receive datagram now) =
      if e.settings.transformRaw then
        match (e.transform.unwrap e.secret payload).1 with
        | .ok _ => []
        | .error _ => [.fault]
      else [] := by
    simp only [incidents, h.up, hframe]
  rw [hincidents]
  unfold onPipe
  by_cases hraw : e.settings.transformRaw = true
  · rw [if_pos hraw, if_pos hraw]
    generalize e.transform.unwrap e.secret payload = result
    obtain ⟨opened, secret⟩ := result
    cases opened with
    | ok content =>
      have hquiet : Quiet e ({ e with secret := secret, pipes := e.pipes.inbound }.notify
        (.raw id content)) := .of_event rfl rfl rfl
      exact hquiet.ruled htally fun _ => hopen
    | error cause =>
      have hready : Ready limit past { e with secret := secret } :=
        ⟨h.up, h.limit_eq, h.count, h.below⟩
      exact (violation_judged hready).ruled
  · rw [if_neg hraw, if_neg hraw]
    have hquiet : Quiet e ({ e with pipes := e.pipes.inbound }.notify (.raw id payload)) :=
      .of_event rfl rfl rfl
    exact hquiet.ruled htally fun _ => hopen

section Calls

variable [Add α] [Sub α] [Mul α] [Seconds α] {now : Nat} {op : Operation} {answer : Answer}

/-- A datagram that brings neither a data frame nor a raw payload is quiet. -/
theorem receive_calm {datagram : Bytes} (h : e.receive datagram now = .ok e')
    (hother : e.phase = .established → ∀ frame, Frame.decode datagram = .ok frame →
      (∀ f, frame ≠ .data f) ∧ ∀ id payload, frame ≠ .pipe id payload) : Quiet e e' := by
  unfold receive at h
  split at h
  · exact Except.ok.inj h ▸ .refl e
  · split at h
    · exact Except.ok.inj h ▸ .of_eq rfl rfl
    · rename_i frame hframe
      unfold onFrame at h
      split at h
      · exact Except.ok.inj h ▸ onHello_quiet e _ now
      · split at h
        · rename_i hup
          obtain ⟨hdata, hpipe⟩ := hother hup _ hframe
          split at h
          · exact Except.ok.inj h ▸ .refl e
          · exact Except.ok.inj h ▸ .of_eq rfl rfl
          · exact Except.ok.inj h ▸ .of_eq rfl rfl
          · exact onAck_quiet h
          · exact absurd rfl (hdata _)
          · exact absurd rfl (hpipe _ _)
        · exact Except.ok.inj h ▸ .refl e

theorem receive_ruled {datagram : Bytes} (hlimit : e.settings.maxProtocolViolations = limit)
    (htally : e.Tallied limit past) (h : e.receive datagram now = .ok e') :
    ∃ news, e'.events = e.events ++ news ∧
      Ruled limit past (e.incidents (.receive datagram now)) news e' := by
  have hopen := fun hopen => ((receive_outcome h).phase hopen).1
  by_cases hup : e.phase = .established
  · obtain ⟨hcount, hbelow⟩ := htally (isTerminal_of_established hup)
    have hready : e.Ready limit past := ⟨hup, hlimit, hcount, hbelow⟩
    cases hframe : Frame.decode datagram with
    | error cause =>
      have hnone : e.incidents (.receive datagram now) = [] := by simp [incidents, hframe]
      rw [hnone]
      exact (receive_calm h (by simp [hframe])).ruled htally hopen
    | ok frame =>
      cases frame with
      | data f =>
        have hmarks : e.incidents (.receive datagram now) =
            openingAll e.transform e.secret (e.inlet.offer f).2.1 := by
          simp only [incidents, hup, hframe]
        rw [receive_data hup hframe] at h
        obtain ⟨secret, hjudged⟩ := onData_judged hready f
        rw [hmarks, ← Except.ok.inj h]
        exact hjudged.ruled
      | pipe id payload =>
        rw [receive_established hup hframe] at h
        dsimp only [onFrame] at h
        rw [if_pos hup] at h
        exact Except.ok.inj h ▸ onPipe_ruled hready now hframe
      | _ =>
        have hnone : e.incidents (.receive datagram now) = [] := by simp [incidents, hframe]
        rw [hnone]
        exact (receive_calm h (by simp [hframe])).ruled htally hopen
  · rw [incidents_of_down hup]
    exact (receive_calm h fun hphase => absurd hphase hup).ruled htally hopen

/-- Every call keeps to the limit. -/
theorem perform_ruled (hlimit : e.settings.maxProtocolViolations = limit)
    (htally : e.Tallied limit past) (h : e.perform op = .ok (answer, e')) :
    ∃ news, answer.taken ++ e'.events = e.events ++ news ∧
      Ruled limit past (e.incidents op) news e' := by
  have hopen := fun hopen => ((perform_outcome h).phase hopen).1
  have hquiet : ∀ {e₁ : Endpoint α σ}, Quiet e e₁ → answer.taken = [] → e₁ = e' →
      ∃ news, answer.taken ++ e'.events = e.events ++ news ∧ Ruled limit past [] news e' := by
    rintro e₁ hquiet htaken rfl
    rw [htaken]
    exact hquiet.ruled htally hopen
  cases op with
  | connect now =>
    rw [perform] at h
    split at h
    · rename_i hconnect
      obtain ⟨rfl, rfl⟩ := Prod.mk.inj (Except.ok.inj h)
      exact hquiet (connect_quiet hconnect) rfl rfl
    · obtain ⟨rfl, rfl⟩ := Prod.mk.inj (Except.ok.inj h)
      exact hquiet (.refl e) rfl rfl
  | send packet now =>
    obtain ⟨⟨result, e₁⟩, hsend, hpair⟩ := bind_eq_ok h
    obtain ⟨rfl, rfl⟩ := Prod.mk.inj (Except.ok.inj hpair)
    exact hquiet (send_quiet hsend) (Answer.taken_ofResult result) rfl
  | sendRaw id payload =>
    obtain ⟨rfl, rfl⟩ := Prod.mk.inj (Except.ok.inj h)
    exact hquiet (sendRaw_quiet e id payload) (Answer.taken_ofResult _) rfl
  | receive datagram now =>
    obtain ⟨e₁, hreceive, hpair⟩ := bind_eq_ok h
    obtain ⟨rfl, rfl⟩ := Prod.mk.inj (Except.ok.inj hpair)
    exact receive_ruled hlimit htally hreceive
  | tick now =>
    obtain ⟨e₁, htick, hpair⟩ := bind_eq_ok h
    obtain ⟨rfl, rfl⟩ := Prod.mk.inj (Except.ok.inj hpair)
    exact hquiet (tick_quiet htick) rfl rfl
  | close =>
    obtain ⟨rfl, rfl⟩ := Prod.mk.inj (Except.ok.inj h)
    exact hquiet (close_quiet e) rfl rfl
  | socketClosed =>
    obtain ⟨rfl, rfl⟩ := Prod.mk.inj (Except.ok.inj h)
    exact hquiet (socketClosed_quiet e) rfl rfl
  | pollTransmit =>
    obtain ⟨rfl, rfl⟩ := Prod.mk.inj (Except.ok.inj h)
    refine hquiet ?_ rfl rfl
    split <;> exact .of_eq rfl rfl
  | pollEvent =>
    obtain ⟨rfl, rfl⟩ := Prod.mk.inj (Except.ok.inj h)
    have hpoll : e.pollEvent.2.violations = e.violations ∧
        (Answer.event e.pollEvent.1).taken ++ e.pollEvent.2.events = e.events := by
      unfold pollEvent
      split
      · rename_i hevents
        exact ⟨rfl, hevents.symm⟩
      · rename_i hevents
        dsimp only
        split <;> exact ⟨rfl, rfl⟩
    refine ⟨[], hpoll.2.trans (List.append_nil _).symm, ruled_of_mild htally hopen hpoll.1 ?_⟩
    intro event hmem
    exact absurd hmem List.not_mem_nil

end Calls

/-! ## Every run -/

/-- What holds of an endpoint that has the marks `past` behind it and has handed out the events
`taken`. -/
structure Reckoned (limit : Nat) (past : List Mark) (taken : List Event) (e : Endpoint α σ) :
    Prop where
  limit_eq : e.settings.maxProtocolViolations = limit
  tally : e.Tallied limit past
  packets : e.phase.isTerminal = false →
    (taken ++ e.events).filterMap Event.content? = past.filterMap Mark.content?
  reported : ∀ count, .down (.protocolViolations count) ∈ taken ++ e.events → count = limit

theorem New.reckoned {settings : Settings} {token : Bytes} {transform : Transform σ}
    (h : e.New settings token transform) (hvalid : settings.validate = .ok ()) :
    e.Reckoned settings.maxProtocolViolations [] [] := by
  refine ⟨congrArg _ h.settings_eq, fun _ => ?_, fun _ => ?_, fun count hmem => ?_⟩
  · exact ⟨h.violations_eq, Settings.maxProtocolViolations_pos hvalid⟩
  · rw [h.events_eq]
    rfl
  · rw [h.events_eq] at hmem
    exact absurd hmem List.not_mem_nil

section Runs

variable [Add α] [Sub α] [Mul α] [Seconds α] {settings : Settings} {token : Bytes}
  {transform : Transform σ} {secret : σ} {nonces : Nat → Nonce} {e₀ : Endpoint α σ}
  {ops : List Operation} {answers : List Answer} {op : Operation} {answer : Answer}

theorem Reckoned.perform {taken : List Event} (h : e.Reckoned limit past taken)
    (hperform : e.perform op = .ok (answer, e')) :
    e'.Reckoned limit (past ++ e.incidents op) (taken ++ answer.taken) := by
  have hout := perform_outcome hperform
  have hlimit : e'.settings.maxProtocolViolations = limit :=
    (congrArg _ hout.constants.1).trans h.limit_eq
  obtain ⟨news, hevents, hruled⟩ := perform_ruled h.limit_eq h.tally hperform
  have htold : taken ++ answer.taken ++ e'.events = taken ++ e.events ++ news := by
    rw [List.append_assoc, hevents, List.append_assoc]
  refine ⟨hlimit, ?_, fun hopen => ?_, fun count hmem => ?_⟩
  · cases hruled with
    | below _ _ _ tally => exact tally
    | reached _ _ _ phase _ => exact fun hopen => by simp [phase, Phase.isTerminal] at hopen
  · cases hruled with
    | below _ _ packets _ =>
      rw [htold, List.filterMap_append, h.packets (hout.phase hopen).1, packets,
        List.filterMap_append]
    | reached _ _ _ phase _ => simp [phase, Phase.isTerminal] at hopen
  · rw [htold] at hmem
    rcases List.mem_append.1 hmem with hold | hnew
    · exact h.reported count hold
    · cases hruled with
      | below _ silent _ _ => exact absurd hnew (silent count)
      | reached early _ news_eq _ _ =>
        rw [news_eq] at hnew
        rcases List.mem_append.1 hnew with hpacket | hlast
        · exact absurd hpacket (not_mem_packetsOf rfl early)
        · simpa using hlast

theorem reckoned_run (hcreate : create settings token transform secret nonces = .ok e₀)
    (hrun : e₀.performAll ops = .ok (answers, e)) :
    e.Reckoned settings.maxProtocolViolations (e₀.history incidents ops)
      (answers.flatMap Answer.taken) := by
  refine performAll_induct_past (P := fun ops answers e => e.Reckoned settings.maxProtocolViolations
    (e₀.history incidents ops) (answers.flatMap Answer.taken))
    (fun hrun₁ ih hperform => ?_)
    ((create_new hcreate).reckoned (create_eq_ok hcreate).1) hrun
  rw [history_concat incidents hrun₁, List.flatMap_append, List.flatMap_singleton]
  exact ih.perform hperform

/-- However datagrams arrive and whatever the transform does: as long as the connection is up, the
count of violations is the number of faults since the last packet was handed over, and below the
limit. A call makes the connection go down for violations exactly if it comes to the fault that is
the last one in a row that the limit admits; then the limit is what is reported, and of all that the
call would come to only what precedes that fault is handed over. Otherwise all of it is. -/
theorem threshold_exact (hcreate : create settings token transform secret nonces = .ok e₀)
    (hrun : e₀.performAll ops = .ok (answers, e)) :
    let limit := settings.maxProtocolViolations
    let past := e₀.history incidents ops
    (e.phase = .established →
        e.violations = streak past ∧ e.violations < limit ∧
          (answers.flatMap Answer.taken ++ e.events).filterMap Event.content? =
            past.filterMap Mark.content?) ∧
      (∀ count, .down (.protocolViolations count) ∈ answers.flatMap Answer.taken ++ e.events →
        count = limit) ∧
      ∀ op answer e', e.perform op = .ok (answer, e') →
        ∃ news, answer.taken ++ e'.events = e.events ++ news ∧
          ((∃ count, .down (.protocolViolations count) ∈ news) ↔
            ∃ early, Trips limit past (e.incidents op) early) ∧
          (∀ early, Trips limit past (e.incidents op) early →
            news = packetsOf early ++ [.down (.protocolViolations limit)] ∧
              e'.phase = .closing ∧ e'.Emptied) ∧
          ((∀ early, ¬ Trips limit past (e.incidents op) early) →
            news.filterMap Event.content? = (e.incidents op).filterMap Mark.content?) := by
  intro limit past
  have hreckoned := reckoned_run hcreate hrun
  refine ⟨fun hup => ?_, hreckoned.reported, fun op answer e' hperform => ?_⟩
  · have hopen := isTerminal_of_established hup
    obtain ⟨hcount, hbelow⟩ := hreckoned.tally hopen
    exact ⟨hcount, hcount ▸ hbelow, hreckoned.packets hopen⟩
  · obtain ⟨news, hevents, hruled⟩ := perform_ruled hreckoned.limit_eq hreckoned.tally hperform
    refine ⟨news, hevents, ?_⟩
    cases hruled with
    | below untripped silent packets _ =>
      refine ⟨?_, fun early htrips => absurd htrips (untripped early), fun _ => packets⟩
      exact ⟨fun ⟨count, hmem⟩ => absurd hmem (silent count),
        fun ⟨early, htrips⟩ => absurd htrips (untripped early)⟩
    | reached early trips news_eq phase emptied =>
      refine ⟨⟨fun _ => ⟨early, trips⟩, fun _ => ⟨limit, ?_⟩⟩, fun other htrips => ?_,
        fun huntripped => absurd trips (huntripped early)⟩
      · rw [news_eq]
        exact List.mem_append_right _ (List.mem_singleton_self _)
      · rw [htrips.unique trips]
        exact ⟨news_eq, phase, emptied⟩

end Runs

/-- Five frames are released by the first of them, which continues nothing. The limit of two is not
reached there, since a packet comes between this fault and the next, but with the third fault, and
the packet behind it is not handed over. -/
theorem threshold_exact_between : ∃ (nonces : Nat → Nonce) (e₀ e e' : Endpoint Rat Unit)
    (ops : List Operation) (answers : List Answer),
      create { maxProtocolViolations := 2 } [7] .plain () nonces = .ok e₀ ∧
        e₀.performAll ops = .ok (answers, e) ∧ e.phase = .established ∧
        e.perform (.receive (Frame.data ⟨0, .middle, [1]⟩).encode 0) = .ok (.done, e') ∧
        e'.events = e.events ++ [.packet [2], .down (.protocolViolations 2)] ∧ e'.Emptied := by
  let due : Operation := .receive (Frame.data ⟨0, .middle, [1]⟩).encode 0
  let marks : List Mark := [.fault, .packet [2], .fault, .fault, .packet [5]]
  obtain ⟨nonces, e₀, answers, e, hcreate, hrun, hend⟩ := exists_of_trial
    (p := fun r => r.2.phase == .established && r.2.violations == 0 &&
      r.2.incidents due == marks && (r.2.perform due).toOption.any fun _ => true)
    (show (trial { maxProtocolViolations := 2 } [7]
      [.connect 0, .receive (Frame.hello [7]).encode 0,
        .receive (Frame.data ⟨1, .only, [2]⟩).encode 0,
        .receive (Frame.data ⟨2, .middle, [3]⟩).encode 0,
        .receive (Frame.data ⟨3, .last, [4]⟩).encode 0,
        .receive (Frame.data ⟨4, .only, [5]⟩).encode 0]).any _ = true by decide +kernel)
  simp only [Bool.and_eq_true, beq_iff_eq] at hend
  obtain ⟨⟨⟨hup, hcount⟩, hmarks⟩, hnext⟩ := hend
  obtain ⟨⟨answer, e'⟩, hperform, -⟩ := exists_of_any_toOption hnext
  obtain ⟨hstreak, -, hcalls⟩ := threshold_exact hcreate hrun
  obtain ⟨news, hevents, -, hreached, -⟩ := hcalls due answer e' hperform
  obtain ⟨hzero, -, -⟩ := hstreak hup
  rw [hcount] at hzero
  generalize history incidents e₀ _ = past at hzero hreached
  have htrips : Trips 2 past marks ([.fault] ++ [.packet [2]] ++ [.fault]) := by
    refine ⟨by decide, ?_, below_append (below_append (below_singleton ?_ ?_)
      (below_singleton ?_ ?_)) (below_singleton ?_ ?_)⟩ <;>
        simp only [← List.append_assoc, streak_concat_fault, streak_concat_packet, ← hzero] <;>
        decide
  obtain ⟨rfl, -, hempty⟩ := hreached _ (hmarks ▸ htrips)
  obtain ⟨e₁, -, hpair⟩ := bind_eq_ok hperform
  obtain ⟨rfl, rfl⟩ := Prod.mk.inj (Except.ok.inj hpair)
  exact ⟨nonces, e₀, e, _, _, answers, hcreate, hrun, hup, hperform, hevents, hempty⟩

end Endpoint

end DatagramTunnel.Session
