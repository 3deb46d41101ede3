import DatagramTunnel.Proofs.Session.Acknowledging
import DatagramTunnel.Proofs.Session.Sending

/-!
# The books of an endpoint

Five parts of an endpoint know how far it has come: the counters, the splitter, the send queue, the
window and the two queues for the socket and for the application.  Each is changed by operations of
its own, and yet they agree.

`Books` says what the counters have to do with the frames that are numbered and with the datagrams
that have been put into the outbox; as long as the connection has not ended, nothing leaves the
outbox but what the socket takes.  Every act keeps the books, with one provision: no more frames are
numbered than there are numbers.  Beyond that two frames in flight could share a number, and the
second would take the place of the first.
-/

namespace DatagramTunnel.Session

open Flight Packet Wire

/-- Whether the datagram carries a data frame. -/
def carriesData (datagram : Bytes) : Bool :=
  match Frame.decode datagram with
  | .ok (.data _) => true
  | _ => false

theorem carriesData_waitingFor {f : Fragment} (h : f.position.Fits) :
    carriesData (waitingFor f).datagram = true := by
  simp [carriesData, decode_waitingFor h]

theorem carriesData_encode {frame : Frame} (h : ∀ f, frame ≠ .data f) :
    carriesData frame.encode = false := by
  unfold carriesData
  split
  · rename_i f hread
    exact absurd hread (Endpoint.decode_ne_data h f)
  · rfl

/-- The counters that follow the data frames and their acknowledgements. -/
structure Tally where
  framesSent : Nat
  retransmissions : Nat
  acksReceived : Nat
  acksSent : Nat

def Counters.tally (c : Counters) : Tally where
  framesSent := c.framesSent
  retransmissions := c.retransmissions
  acksReceived := c.acksReceived
  acksSent := c.acksSent

namespace Endpoint

variable {α σ : Type} {e e' : Endpoint α σ} {sent : List Bytes} {numbered : List Fragment}

/-- What the counters of an endpoint say that has numbered these frames and has handed these
datagrams to the socket. -/
structure Books (e : Endpoint α σ) (sent : List Bytes) (numbered : List Fragment) : Prop where
  /-- A numbered frame has been sent or waits. -/
  numbered : numbered.length = e.counters.framesSent + e.queue.waiting.length
  /-- A frame that has been sent is acknowledged or in flight. -/
  flight : e.counters.framesSent = e.counters.acksReceived + e.queue.inFlight.length
  data : e.counters.framesSent + e.counters.retransmissions =
    (sent ++ e.outbox).countP carriesData
  acks : e.counters.acksSent = (acknowledgements (sent ++ e.outbox)).length

/-- The endpoint sends what it has numbered, and the books are right until the connection ends. -/
structure Balanced (e : Endpoint α σ) (sent : List Bytes) (numbered : List Fragment) : Prop where
  sending : Sending e sent numbered
  books : e.phase.isTerminal = false → Books e sent numbered

/-! ## What keeps the books -/

namespace Books

/-- Only these parts of the endpoint matter. -/
theorem congr (h : Books e sent numbered) (houtbox : e'.outbox = e.outbox)
    (hqueue : e'.queue = e.queue) (htally : e'.counters.tally = e.counters.tally) :
    Books e' sent numbered := by
  have hframes : e'.counters.framesSent = e.counters.framesSent := congrArg Tally.framesSent htally
  have hagain : e'.counters.retransmissions = e.counters.retransmissions :=
    congrArg Tally.retransmissions htally
  have hacked : e'.counters.acksReceived = e.counters.acksReceived :=
    congrArg Tally.acksReceived htally
  have hacks : e'.counters.acksSent = e.counters.acksSent := congrArg Tally.acksSent htally
  refine ⟨?_, ?_, ?_, ?_⟩
  · rw [hframes, hqueue]
    exact h.numbered
  · rw [hframes, hacked, hqueue]
    exact h.flight
  · rw [hframes, hagain, houtbox]
    exact h.data
  · rw [hacks, houtbox]
    exact h.acks

/-- A frame besides the numbered ones and the acknowledgements is not counted. -/
theorem post (h : Books e sent numbered) {frame : Frame} (hdata : ∀ f, frame ≠ .data f)
    (hack : ∀ seq, frame ≠ .ack seq) : Books (e.post frame.encode) sent numbered := by
  refine ⟨h.numbered, h.flight, ?_, ?_⟩
  · show _ = (sent ++ (e.outbox ++ [frame.encode])).countP carriesData
    rw [← List.append_assoc, List.countP_append, List.countP_singleton, carriesData_encode hdata]
    exact h.data
  · show _ = (acknowledgements (sent ++ (e.outbox ++ [frame.encode]))).length
    rw [← List.append_assoc, acknowledgements_append]
    simp only [acknowledgements, List.filterMap_cons, List.filterMap_nil,
      acknowledged?_eq_none hack, List.append_nil]
    exact h.acks

/-- An acknowledgement is counted when it is written. -/
theorem acknowledge (h : Books e sent numbered) (seq : UInt32) :
    Books ((e.count fun c => { c with acksSent := c.acksSent + 1 }).post (Frame.ack seq).encode)
      sent numbered := by
  have hplain : carriesData (Frame.ack seq).encode = false := carriesData_encode nofun
  refine ⟨h.numbered, h.flight, ?_, ?_⟩
  · show _ = (sent ++ (e.outbox ++ [(Frame.ack seq).encode])).countP carriesData
    rw [← List.append_assoc, List.countP_append, List.countP_singleton, hplain]
    exact h.data
  · show e.counters.acksSent + 1 =
      (acknowledgements (sent ++ (e.outbox ++ [(Frame.ack seq).encode]))).length
    rw [← List.append_assoc, acknowledgements_append, List.length_append, h.acks]
    simp [acknowledgements]

/-- A packet that is queued adds its frames to those that wait. -/
theorem enqueuePacket (h : Books e sent numbered) (wrapped : Bytes) :
    Books (e.enqueuePacket wrapped) sent (numbered ++ e.splitter.fragments wrapped) := by
  refine ⟨?_, h.flight, h.data, h.acks⟩
  show (numbered ++ e.splitter.fragments wrapped).length = e.counters.framesSent +
    (e.queue.waiting ++ (e.splitter.fragments wrapped).map waitingFor).length
  rw [List.length_append, List.length_append, List.length_map, h.numbered, Nat.add_assoc]

/-- The socket takes a datagram. -/
theorem transmit (h : Books e sent numbered) {datagram : Bytes} {rest : List Bytes}
    (houtbox : e.outbox = datagram :: rest) (change : Counters → Counters)
    (htally : (change e.counters).tally = e.counters.tally) :
    Books ({ e with outbox := rest }.count change) (sent ++ [datagram]) numbered := by
  have hposted : (sent ++ [datagram]) ++ rest = sent ++ e.outbox := by
    rw [houtbox, List.append_assoc]
    rfl
  have hmiddle : Books { e with outbox := rest } (sent ++ [datagram]) numbered := by
    refine ⟨h.numbered, h.flight, ?_, ?_⟩
    · show _ = ((sent ++ [datagram]) ++ rest).countP carriesData
      rw [hposted]
      exact h.data
    · show _ = (acknowledgements ((sent ++ [datagram]) ++ rest)).length
      rw [hposted]
      exact h.acks
  exact hmiddle.congr rfl rfl htally

end Books

/-- What the send queue puts on the wire carries data and acknowledges nothing. -/
theorem Sending.datagrams_ticked (h : Sending e sent numbered) (now timeout : Nat) :
    (e.queue.ticked now timeout).1.datagrams.countP carriesData =
        (e.queue.ticked now timeout).1.datagrams.length ∧
      acknowledgements (e.queue.ticked now timeout).1.datagrams = [] := by
  have hdata : ∀ datagram ∈ (e.queue.ticked now timeout).1.datagrams,
      ∃ f, f.position.Fits ∧ datagram = (waitingFor f).datagram := by
    intro datagram hd
    obtain ⟨w, hw, rfl⟩ := (SendQueue.mem_outstanding_ticked e.queue now timeout).2 datagram hd
    obtain ⟨f, hf, rfl⟩ := h.mem_outstanding hw
    exact ⟨f, h.fits f hf, rfl⟩
  constructor
  · refine List.countP_eq_length.2 fun datagram hd => ?_
    obtain ⟨f, hfits, rfl⟩ := hdata datagram hd
    exact carriesData_waitingFor hfits
  · refine acknowledgements_eq_nil fun datagram hd => ?_
    obtain ⟨f, -, rfl⟩ := hdata datagram hd
    exact ⟨f, rfl⟩

/-- The send queue counts what it sends. -/
theorem Books.pumped (h : Books e sent numbered) (hsending : Sending e sent numbered)
    (hlen : numbered.length ≤ 2 ^ 32) (now timeout : Nat) :
    Books (e.pumped now timeout) sent numbered := by
  have hadm := SendQueue.admissible_of_nodup (hsending.nodup hlen)
  have hflight := hsending.scheduled.length_inFlight_ticked hadm now timeout
  have hwaiting := SendQueue.admitted_add_waiting_ticked e.queue now timeout
  have hcount := SendQueue.length_datagrams_ticked e.queue now timeout
  obtain ⟨hdata, hacks⟩ := hsending.datagrams_ticked now timeout
  refine ⟨?_, ?_, ?_, ?_⟩
  · have hbefore := h.numbered
    show numbered.length =
      e.counters.framesSent + (e.queue.ticked now timeout).1.admitted +
        (e.queue.ticked now timeout).2.waiting.length
    omega
  · have hbefore := h.flight
    show e.counters.framesSent + (e.queue.ticked now timeout).1.admitted =
      e.counters.acksReceived + (e.queue.ticked now timeout).2.inFlight.length
    omega
  · have hbefore := h.data
    show e.counters.framesSent + (e.queue.ticked now timeout).1.admitted +
        (e.counters.retransmissions + (e.queue.ticked now timeout).1.retransmitted) =
      (sent ++ (e.outbox ++ (e.queue.ticked now timeout).1.datagrams)).countP carriesData
    rw [← List.append_assoc, List.countP_append, hdata]
    omega
  · show e.counters.acksSent =
      (acknowledgements (sent ++ (e.outbox ++ (e.queue.ticked now timeout).1.datagrams))).length
    rw [← List.append_assoc, acknowledgements_append, hacks, List.append_nil]
    exact h.acks

/-- An acknowledgement that is counted retires one frame. -/
theorem Books.retire [Add α] [Sub α] [Mul α] [Seconds α] (h : Books e sent numbered)
    (hsending : Sending e sent numbered) {seq : UInt32} {sample now : Nat} {queue : SendQueue}
    (hack : e.queue.acknowledge? seq now = some (sample, queue)) :
    Books (e.retire sample queue) sent numbered := by
  have hone := hsending.scheduled.length_inFlight_acknowledge hack
  obtain ⟨-, -, hwaiting, -, -⟩ := hsending.scheduled.acknowledge hack
  refine ⟨?_, ?_, h.data, h.acks⟩
  · show numbered.length = e.counters.framesSent + queue.waiting.length
    rw [hwaiting]
    exact h.numbered
  · have hbefore := h.flight
    show e.counters.framesSent = e.counters.acksReceived + 1 + queue.inFlight.length
    omega

namespace Balanced

theorem congr (h : Balanced e sent numbered) (hsplitter : e'.splitter = e.splitter)
    (houtbox : e'.outbox = e.outbox) (hqueue : e'.queue = e.queue)
    (hsettings : e'.settings = e.settings) (htally : e'.counters.tally = e.counters.tally)
    (hphase : e'.phase = .connecting → e.phase = .connecting)
    (hopen : e'.phase.isTerminal = false → e.phase.isTerminal = false) :
    Balanced e' sent numbered :=
  ⟨h.sending.congr hsplitter houtbox hqueue hsettings hphase,
    fun hstill => (h.books (hopen hstill)).congr houtbox hqueue htally⟩

theorem post (h : Balanced e sent numbered) {frame : Frame} (hdata : ∀ f, frame ≠ .data f)
    (hack : ∀ seq, frame ≠ .ack seq) : Balanced (e.post frame.encode) sent numbered :=
  ⟨h.sending.post hdata, fun hopen => (h.books hopen).post hdata hack⟩

theorem finish (h : Balanced e sent numbered) (hopen : e.phase.isTerminal = false) {last : Event}
    (hother : last.content? = none) : Balanced (e.finish last) sent numbered :=
  ⟨h.sending.move (.finish hopen hother), nofun⟩

theorem pumped (h : Balanced e sent numbered) (hlen : numbered.length ≤ 2 ^ 32)
    (now timeout : Nat) : Balanced (e.pumped now timeout) sent numbered :=
  ⟨h.sending.pumped hlen now timeout,
    fun hopen => (h.books hopen).pumped h.sending hlen now timeout⟩

theorem offered (h : Balanced e sent numbered) (f : Fragment) :
    Balanced (e.offered f) sent numbered := by
  have hjudged : Balanced
      { e with inlet := { e.inlet with window := (e.inlet.window.insert f).2 } } sent numbered :=
    h.congr rfl rfl rfl rfl rfl id id
  unfold Endpoint.offered
  dsimp only
  split
  · refine ⟨?_, fun hopen => (hjudged.books hopen).acknowledge f.seq⟩
    refine Sending.post ?_ nofun
    exact hjudged.sending.congr rfl rfl rfl rfl id
  · exact hjudged

variable [Mul α] [Seconds α]

/-- A packet that is sent. -/
theorem send (h : Balanced e sent numbered) (hup : e.phase = .established) (secret : σ)
    {wrapped : Bytes} (hfits : wrapped.length ≤ e.settings.maxPacketSize)
    (hlen : (numbered ++ e.splitter.fragments wrapped).length ≤ 2 ^ 32) {now : Nat}
    (hpump : ({ e with secret := secret }.enqueuePacket wrapped).pump now = .ok e') :
    Balanced e' sent (numbered ++ e.splitter.fragments wrapped) := by
  obtain ⟨timeout, -, rfl⟩ := pump_eq_ok hpump
  have hasked : Balanced { e with secret := secret } sent numbered :=
    h.congr rfl rfl rfl rfl rfl id id
  have hqueued : Balanced ({ e with secret := secret }.enqueuePacket wrapped) sent
      (numbered ++ e.splitter.fragments wrapped) :=
    ⟨h.sending.accepted hup secret hfits, fun hopen => (hasked.books hopen).enqueuePacket wrapped⟩
  exact hqueued.pumped hlen now timeout

variable [Add α] [Sub α] {op : Operation}

theorem retire (h : Balanced e sent numbered) (hlen : numbered.length ≤ 2 ^ 32) {seq : UInt32}
    {sample now : Nat} {queue : SendQueue}
    (hack : e.queue.acknowledge? seq now = some (sample, queue)) :
    Balanced (e.retire sample queue) sent numbered :=
  ⟨h.sending.retire hlen hack, fun hopen => (h.books hopen).retire h.sending hack⟩

/-- One act of an operation that takes no packet. -/
theorem act (h : Balanced e sent numbered) (hlen : numbered.length ≤ 2 ^ 32)
    (hop : ∀ packet now, op ≠ .send packet now) (hact : Act op e e') :
    Balanced e' sent numbered := by
  cases hact with
  | enqueue _ _ => exact absurd rfl (hop _ _)
  | start _ _ | retry _ _ _ | greet _ _ _ =>
    refine Balanced.post ?_ nofun nofun
    exact h.congr rfl rfl rfl rfl rfl id id
  | rise phase _ =>
    exact h.congr rfl rfl rfl rfl rfl (fun _ => phase) (fun _ => isTerminal_of_connecting phase)
  | fail phase _ | mismatch phase _ _ => exact h.finish (isTerminal_of_connecting phase) rfl
  | down up _ => exact h.finish (isTerminal_of_established up) rfl
  | @expire now _ up _ =>
    have hwatch : Balanced { e with keepalive := (e.keepalive.tick now).2 } sent numbered :=
      h.congr rfl rfl rfl rfl rfl id id
    exact hwatch.finish (isTerminal_of_established up) rfl
  | ping _ _ | answer _ _ =>
    refine Balanced.post ?_ nofun nofun
    exact h.congr rfl rfl rfl rfl rfl id id
  | offer _ _ => exact h.offered _
  | retire _ _ known => exact h.retire hlen known
  | pump _ _ _ => exact h.pumped hlen _ _
  | launch _ outbound =>
    obtain ⟨-, rfl, rfl⟩ := outbound_eq_ok outbound
    refine Balanced.post ?_ nofun nofun
    exact h.congr rfl rfl rfl rfl rfl id id
  | _ => exact h.congr rfl rfl rfl rfl rfl id id

end Balanced

theorem New.balanced {settings : Settings} {token : Bytes} {transform : Transform σ}
    (h : e.New settings token transform) : Balanced e [] [] := by
  refine ⟨.start h, fun _ => ⟨?_, ?_, ?_, ?_⟩⟩
  · rw [h.counters_eq, h.queue_eq]
    rfl
  · rw [h.counters_eq, h.queue_eq]
    rfl
  · rw [h.counters_eq, h.outbox_eq]
    rfl
  · rw [h.counters_eq, h.outbox_eq]
    rfl

/-! ## What a call adds to the books -/

variable {op : Operation} {answer : Answer}

theorem numbers_eq_nil (hop : ∀ packet now, op ≠ .send packet now) (e : Endpoint α σ)
    (answer : Answer) : e.numbers op answer = [] ∧ op.accepted answer = [] := by
  cases op with
  | send packet now => exact absurd rfl (hop packet now)
  | _ => exact ⟨rfl, rfl⟩

variable [Add α] [Sub α] [Mul α] [Seconds α]

/-- The data frames that a call numbers. -/
def numbering (e : Endpoint α σ) (op : Operation) : List Fragment := given numbers e op

/-- The packet that a call takes for delivery. -/
def accepting (e : Endpoint α σ) (op : Operation) : List Bytes :=
  given (fun _ => Operation.accepted) e op

theorem Balanced.perform (h : Balanced e sent numbered)
    (hlen : (numbered ++ e.numbers op answer).length ≤ 2 ^ 32)
    (hperform : e.perform op = .ok (answer, e')) :
    Balanced e' (sent ++ answer.sent) (numbered ++ e.numbers op answer) := by
  by_cases hop : ∃ packet now, op = .send packet now
  · obtain ⟨packet, now, rfl⟩ := hop
    obtain ⟨⟨result, e₁⟩, hsend, hpair⟩ := bind_eq_ok hperform
    obtain ⟨rfl, rfl⟩ := Prod.mk.inj (Except.ok.inj hpair)
    rw [Answer.sent_ofResult, List.append_nil]
    rcases send_cases hsend with ⟨cause, rfl, rfl | ⟨secret, -, rfl⟩⟩ |
      ⟨wrapped, secret, rfl, hup, hwrap, -, hfits, hpump⟩
    · exact (List.append_nil numbered).symm ▸ h
    · exact (List.append_nil numbered).symm ▸ h.congr rfl rfl rfl rfl rfl id id
    · have hnumbers : e.numbers (.send packet now) (.ofResult (.ok ())) =
          e.splitter.fragments wrapped := numbers_send hwrap now
      rw [hnumbers] at hlen ⊢
      exact h.send hup secret hfits hlen hpump
  · have hother : ∀ packet now, op ≠ .send packet now :=
      fun packet now heq => hop ⟨packet, now, heq⟩
    rw [(numbers_eq_nil hother e answer).1, List.append_nil] at hlen ⊢
    cases perform_deed hperform with
    | acts acts nothing _ =>
      rw [nothing, List.append_nil]
      exact acts.induct (P := fun e => Balanced e sent numbered)
        (fun ih hact => ih.act hlen hother hact) h
    | transmit outbox =>
      refine ⟨?_, fun hopen => (h.books hopen).transmit outbox _ rfl⟩
      have hstep := h.sending.step_of_numbers_nil (.transmit outbox) rfl hlen
      exact hstep
    | report events =>
      exact (List.append_nil sent).symm ▸ h.congr rfl rfl rfl rfl rfl id id
    | shut phase _ =>
      refine (List.append_nil sent).symm ▸ h.congr rfl rfl rfl rfl rfl nofun nofun

/-! ## Packets -/

/-- The application is told of every packet that is counted as delivered. -/
theorem Act.delivered (h : Act op e e') :
    ∃ news, e'.events = e.events ++ news ∧
      e'.counters.packetsDelivered =
        e.counters.packetsDelivered + (news.filterMap Event.content?).length := by
  cases h with
  | rise _ _ => exact ⟨[.up], rfl, rfl⟩
  | @fail _ _ _ reason _ => exact ⟨[.failed reason], rfl, rfl⟩
  | mismatch _ _ _ => exact ⟨[.failed .tokenMismatch], rfl, rfl⟩
  | @down _ _ _ reason _ => exact ⟨[.down reason], rfl, rfl⟩
  | expire _ _ => exact ⟨[.down .pongTimeout], rfl, rfl⟩
  | packet _ content => exact ⟨[.packet content], rfl, rfl⟩
  | raw _ id content => exact ⟨[.raw id content], rfl, rfl⟩
  | @offer _ _ _ f _ _ =>
    refine ⟨[], ?_, ?_⟩ <;> unfold offered <;> dsimp only <;> split <;>
      simp [post, count]
  | _ => exact ⟨[], (List.append_nil _).symm, rfl⟩

theorem delivered_perform (hperform : e.perform op = .ok (answer, e')) {taken : List Event}
    (h : e.counters.packetsDelivered = ((taken ++ e.events).filterMap Event.content?).length) :
    e'.counters.packetsDelivered =
      (((taken ++ answer.taken) ++ e'.events).filterMap Event.content?).length := by
  cases perform_deed hperform with
  | acts acts _ nothing =>
    rw [nothing, List.append_nil]
    refine acts.induct (P := fun e => e.counters.packetsDelivered =
      ((taken ++ e.events).filterMap Event.content?).length) (fun {e₁ e₂} ih act => ?_) h
    obtain ⟨news, hnews, hmore⟩ := act.delivered
    simp only [hmore, ih, hnews, List.filterMap_append, List.length_append, Nat.add_assoc]
  | transmit _ =>
    refine h.trans ?_
    show _ = (((taken ++ []) ++ e.events).filterMap Event.content?).length
    rw [List.append_nil]
  | @report event rest events =>
    refine h.trans ?_
    show _ = (((taken ++ [event]) ++ rest).filterMap Event.content?).length
    rw [events, List.append_assoc]
    rfl
  | shut _ _ =>
    refine h.trans ?_
    show _ = (((taken ++ []) ++ e.events).filterMap Event.content?).length
    rw [List.append_nil]

/-- Only a packet that is taken is counted as sent. -/
theorem Act.packetsSent (h : Act op e e') (hop : ∀ packet now, op ≠ .send packet now) :
    e'.counters.packetsSent = e.counters.packetsSent := by
  cases h with
  | enqueue _ _ => exact absurd rfl (hop _ _)
  | offer _ _ =>
    unfold offered
    dsimp only
    split <;> rfl
  | _ => rfl

theorem packetsSent_perform (hperform : e.perform op = .ok (answer, e')) :
    e'.counters.packetsSent = e.counters.packetsSent + (op.accepted answer).length := by
  by_cases hop : ∃ packet now, op = .send packet now
  · obtain ⟨packet, now, rfl⟩ := hop
    obtain ⟨⟨result, e₁⟩, hsend, hpair⟩ := bind_eq_ok hperform
    obtain ⟨rfl, rfl⟩ := Prod.mk.inj (Except.ok.inj hpair)
    rcases send_cases hsend with ⟨cause, rfl, rfl | ⟨secret, -, rfl⟩⟩ |
      ⟨wrapped, secret, rfl, -, -, -, -, hpump⟩
    · rfl
    · rfl
    · obtain ⟨timeout, -, rfl⟩ := pump_eq_ok hpump
      rfl
  · have hother : ∀ packet now, op ≠ .send packet now :=
      fun packet now heq => hop ⟨packet, now, heq⟩
    rw [(numbers_eq_nil hother e answer).2]
    cases perform_deed hperform with
    | acts acts _ _ =>
      exact acts.induct (P := fun e' => e'.counters.packetsSent = e.counters.packetsSent)
        (fun ih act => (act.packetsSent hother).trans ih) rfl
    | transmit | report | shut => rfl

/-! ## Runs -/

/-- In a run that numbers no more frames than there are numbers the books are right. -/
theorem balanced_run {settings : Settings} {token : Bytes} {transform : Transform σ} {secret : σ}
    {nonces : Nat → Nonce} {e₀ : Endpoint α σ} {ops : List Operation} {answers : List Answer}
    (hcreate : create settings token transform secret nonces = .ok e₀)
    (hrun : e₀.performAll ops = .ok (answers, e))
    (hlen : (e₀.history numbering ops).length ≤ 2 ^ 32) :
    Balanced e (answers.flatMap Answer.sent) (e₀.history numbering ops) := by
  refine performAll_induct_past
    (P := fun ops answers e => (e₀.history numbering ops).length ≤ 2 ^ 32 →
      Balanced e (answers.flatMap Answer.sent) (e₀.history numbering ops))
    (fun {ops answers e₁ e₂ op answer} hrun₁ ih hperform hlen => ?_) (fun _ => ?_) hrun hlen
  · have hgiven : numbering e₁ op = e₁.numbers op answer := given_eq numbers hperform
    rw [history_concat numbering hrun₁, hgiven] at hlen ⊢
    rw [List.flatMap_append, List.flatMap_singleton]
    refine (ih ?_).perform hlen hperform
    rw [List.length_append] at hlen
    omega
  · exact (create_new hcreate).balanced

theorem delivered_run {settings : Settings} {token : Bytes} {transform : Transform σ} {secret : σ}
    {nonces : Nat → Nonce} {e₀ : Endpoint α σ} {ops : List Operation} {answers : List Answer}
    (hcreate : create settings token transform secret nonces = .ok e₀)
    (hrun : e₀.performAll ops = .ok (answers, e)) :
    e.counters.packetsDelivered =
      ((answers.flatMap Answer.taken ++ e.events).filterMap Event.content?).length := by
  refine performAll_induct_past
    (P := fun _ answers e => e.counters.packetsDelivered =
      ((answers.flatMap Answer.taken ++ e.events).filterMap Event.content?).length)
    (fun {ops answers e₁ e₂ op answer} _ ih hperform => ?_) ?_ hrun
  · rw [List.flatMap_append, List.flatMap_singleton]
    exact delivered_perform hperform ih
  · rw [(create_new hcreate).counters_eq, (create_new hcreate).events_eq]
    rfl

theorem packetsSent_run {settings : Settings} {token : Bytes} {transform : Transform σ} {secret : σ}
    {nonces : Nat → Nonce} {e₀ : Endpoint α σ} {ops : List Operation} {answers : List Answer}
    (hcreate : create settings token transform secret nonces = .ok e₀)
    (hrun : e₀.performAll ops = .ok (answers, e)) :
    e.counters.packetsSent = (e₀.history accepting ops).length := by
  refine performAll_induct_past
    (P := fun ops _ e => e.counters.packetsSent = (e₀.history accepting ops).length)
    (fun {ops answers e₁ e₂ op answer} hrun₁ ih hperform => ?_) ?_ hrun
  · have hgiven : accepting e₁ op = op.accepted answer := given_eq _ hperform
    rw [history_concat accepting hrun₁, hgiven, List.length_append, ← ih]
    exact packetsSent_perform hperform
  · rw [(create_new hcreate).counters_eq]
    rfl

/-- As long as the connection has not ended, and while there are more numbers than frames, the
counters agree with the queue, the splitter and the window, with the datagrams that have been put
into the outbox, with the packets that the application has been given or told of, and with those
that have been taken from it. -/
theorem counters_balance {settings : Settings} {token : Bytes} {transform : Transform σ}
    {secret : σ} {nonces : Nat → Nonce} {e₀ : Endpoint α σ} {ops : List Operation}
    {answers : List Answer} (hcreate : create settings token transform secret nonces = .ok e₀)
    (hrun : e₀.performAll ops = .ok (answers, e))
    (hfew : (e₀.history numbering ops).length < 2 ^ 32) (hopen : e.phase.isTerminal = false) :
    e.counters.framesSent = e.counters.acksReceived + e.queue.inFlight.length ∧
      e.splitter.nextSeq.toNat = e.counters.framesSent + e.queue.waiting.length ∧
      e.counters.framesSent + e.counters.retransmissions =
        (answers.flatMap Answer.sent ++ e.outbox).countP carriesData ∧
      e.counters.acksSent = (acknowledgements (answers.flatMap Answer.sent ++ e.outbox)).length ∧
      e.inlet.window.cursor = UInt32.ofNat (e₀.history reads ops).length ∧
      e.counters.packetsDelivered =
        ((answers.flatMap Answer.taken ++ e.events).filterMap Event.content?).length ∧
      e.counters.packetsSent = (e₀.history accepting ops).length := by
  have hbalanced := balanced_run hcreate hrun (Nat.le_of_lt hfew)
  have hbooks := hbalanced.books hopen
  refine ⟨hbooks.flight, ?_, hbooks.data, hbooks.acks, ?_, delivered_run hcreate hrun,
    packetsSent_run hcreate hrun⟩
  · rw [hbalanced.sending.next, ← hbooks.numbered]
    exact UInt32.toNat_ofNat_of_lt' hfew
  · rw [(recorded_run hcreate hrun).cursor_eq, UInt32.zero_add]

/-- Two packets of which one is acknowledged and the other is sent again, and one that arrives. -/
theorem counters_balance_crossed : ∃ (nonces : Nat → Nonce) (e₀ e : Endpoint Rat Unit)
    (ops : List Operation) (answers : List Answer),
    create {} [1] .plain () nonces = .ok e₀ ∧ e₀.performAll ops = .ok (answers, e) ∧
      e.phase = .established ∧ e.counters.framesSent = 2 ∧ e.queue.inFlight.length = 1 ∧
      (answers.flatMap Answer.sent ++ e.outbox).countP carriesData = 3 ∧
      (acknowledgements (answers.flatMap Answer.sent ++ e.outbox)).length = 1 ∧
      (e₀.history accepting ops).length = 2 := by
  let ops : List Operation := [.connect 0, .receive (Frame.hello [1]).encode 0, .send [5] 0,
    .pollTransmit, .send [6] 0, .receive (Frame.ack 0).encode 1000,
    .receive (Frame.data ⟨0, .only, [7]⟩).encode 2000, .tick 1000000000]
  obtain ⟨e₀, hcreate, hrest⟩ := exists_of_any_toOption
    (show (blank {} [1]).toOption.any (fun e₀ =>
      decide ((e₀.history numbering ops).length < 2 ^ 32) && (e₀.performAll ops).toOption.any
        fun result => decide (result.2.phase = .established ∧ result.2.counters.framesSent = 2 ∧
          result.2.counters.retransmissions = 1 ∧ result.2.counters.acksReceived = 1 ∧
          result.2.counters.acksSent = 1 ∧ result.2.counters.packetsSent = 2)) = true by
      decide +kernel)
  rw [Bool.and_eq_true, decide_eq_true_eq] at hrest
  obtain ⟨hfew, hrest⟩ := hrest
  obtain ⟨⟨answers, e⟩, hrun, hcounted⟩ := exists_of_any_toOption hrest
  obtain ⟨hup, hframes, hagain, hacked, hacks, hpackets⟩ := of_decide_eq_true hcounted
  obtain ⟨hflight, -, hdata, hback, -, -, hsends⟩ :=
    counters_balance hcreate hrun hfew (isTerminal_of_established hup)
  dsimp only at hframes hagain hacked hacks hpackets
  exact ⟨_, e₀, e, ops, answers, hcreate, hrun, hup, hframes, by omega, by omega, by omega,
    by omega⟩

end Endpoint

end DatagramTunnel.Session
