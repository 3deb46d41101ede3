import DatagramTunnel.Proofs.Session.Backlog
import DatagramTunnel.Proofs.Session.Greeting

/-!
# What an endpoint ignores

Much of what arrives is of no use to an endpoint: it is no frame, it comes before the handshake is
complete or after the connection has ended, it presents another token, or it acknowledges a frame
that is not in flight.  `Ignores` lists these cases.  Such a datagram leaves everything as it was,
except that some are counted as malformed, and the count stands behind nothing: an endpoint that has
counted more does the same as before (`perform_dropping`).

So any number of ignored datagrams may come besides a run, wherever they are ignored, and only the
count shows it: `ignored_without_trace`.
-/

namespace DatagramTunnel.Session

open Flight Packet Wire

/-- An item of a run to which datagrams are added. -/
inductive Item where
  /-- A call of the run. -/
  | call (op : Operation)
  /-- A datagram that comes besides. -/
  | extra (datagram : Bytes) (now : Nat)
  deriving DecidableEq, Repr

namespace Item

/-- The call that is made for the item. -/
def operation : Item → Operation
  | .call op => op
  | .extra datagram now => .receive datagram now

/-- The call, if it belongs to the run. -/
def call? : Item → Option Operation
  | .call op => some op
  | .extra _ _ => none

/-- The datagram, if it is an additional one. -/
def extra? : Item → Option Bytes
  | .call _ => none
  | .extra datagram _ => some datagram

/-- The answers to all items, given those to the calls of the run. -/
def weave : List Item → List Answer → List Answer
  | [], answers => answers
  | .call _ :: items, answer :: answers => answer :: weave items answers
  | .call _ :: _, [] => []
  | .extra _ _ :: items, answers => .done :: weave items answers

end Item

namespace Endpoint

variable {α σ : Type}

/-! ## Datagrams that are of no use -/

/-- The datagram is a HELLO with another token than that of the endpoint. -/
def Strange (e : Endpoint α σ) (datagram : Bytes) : Prop :=
  ∃ token ∈ presented? datagram, token ≠ e.token

/-- The endpoint has no use for the datagram: it is no frame, or no HELLO while the handshake is
under way, or a HELLO with another token when that is over, or it acknowledges what is not in
flight, or the connection has ended. -/
def Ignores (e : Endpoint α σ) (datagram : Bytes) : Prop :=
  (Frame.decode datagram).isOk = false ∨
    e.phase = .connecting ∧ presented? datagram = none ∨
    e.phase = .established ∧ e.Strange datagram ∨
    (∃ seq ∈ acknowledged? datagram, e.queue.isInFlight seq = false) ∨
    e.phase.isTerminal = true

/-- The datagram is one of those that are counted as malformed. -/
def Rejects (e : Endpoint α σ) (datagram : Bytes) : Prop :=
  e.phase.isTerminal = false ∧
    ((Frame.decode datagram).isOk = false ∨ e.phase = .established ∧ e.Strange datagram)

section Decidable

variable (e : Endpoint α σ) (datagram : Bytes)

instance : Decidable (e.Strange datagram) :=
  inferInstanceAs (Decidable (∃ token ∈ presented? datagram, token ≠ e.token))

instance : Decidable (e.Ignores datagram) := inferInstanceAs (Decidable (_ ∨ _))

instance : Decidable (e.Rejects datagram) := inferInstanceAs (Decidable (_ ∧ _))

end Decidable

/-- How many malformed datagrams the endpoint counts for this one. -/
def rejected (e : Endpoint α σ) (datagram : Bytes) : Nat := if e.Rejects datagram then 1 else 0

/-- The endpoint after it has counted so many malformed datagrams more. -/
def dropping (e : Endpoint α σ) (count : Nat) : Endpoint α σ :=
  e.count fun c => { c with malformedDropped := c.malformedDropped + count }

theorem dropping_dropping (e : Endpoint α σ) (first second : Nat) :
    (e.dropping first).dropping second = e.dropping (first + second) := by
  simp [dropping, count, Nat.add_assoc]

/-- Malformed datagrams that have been counted stand in front as part of a backlog. -/
theorem dropping_eq_behind (e : Endpoint α σ) (count : Nat) :
    e.dropping count = e.behind { malformedDropped := count } := by
  simp [dropping, Endpoint.count, behind, Nat.add_comm]

variable {e e' : Endpoint α σ} {datagram : Bytes} {frame : Frame}

theorem rejected_of_not (h : ¬ e.Rejects datagram) : e.rejected datagram = 0 := if_neg h

/-- A frame that is no HELLO is not counted as malformed. -/
theorem not_rejects_of_frame (hframe : Frame.decode datagram = .ok frame)
    (hother : presented? datagram = none) : ¬ e.Rejects datagram := by
  simp [Rejects, Strange, hframe, hother, Except.isOk, Except.toBool]

/-- A HELLO that is ignored is a strange one, unless the connection has ended. -/
theorem Ignores.strange (h : e.Ignores datagram) (hopen : e.phase.isTerminal = false)
    {token : Bytes} (hframe : Frame.decode datagram = .ok (.hello token)) :
    e.phase = .established ∧ token ≠ e.token := by
  have hpresented : presented? datagram = some token := presented?_eq_some_iff.2 hframe
  simpa [Ignores, Strange, hframe, hpresented, acknowledged?, hopen, Except.isOk,
    Except.toBool] using h

/-- Any other frame that an endpoint ignores while it is up acknowledges what is not in flight. -/
theorem Ignores.unknown (h : e.Ignores datagram) (hup : e.phase = .established)
    (hframe : Frame.decode datagram = .ok frame) (hother : presented? datagram = none) :
    ∃ seq, frame = .ack seq ∧ e.queue.isInFlight seq = false := by
  have hunknown : ∃ seq ∈ acknowledged? datagram, e.queue.isInFlight seq = false := by
    simpa [Ignores, Strange, hframe, hother, hup, Phase.isTerminal, Except.isOk,
      Except.toBool] using h
  obtain ⟨seq, hseq, hmissing⟩ := hunknown
  refine ⟨seq, ?_, hmissing⟩
  cases frame <;> simp_all [acknowledged?]

variable [Add α] [Sub α] [Mul α] [Seconds α]

/-- A frame that is ignored changes nothing, unless it is a HELLO. -/
theorem onFrame_of_ignores (h : e.Ignores datagram) (hframe : Frame.decode datagram = .ok frame)
    (hother : presented? datagram = none) (now : Nat) : e.onFrame frame now = .ok e := by
  have hhello : ∀ token, frame ≠ .hello token := by
    rintro token rfl
    simp [presented?, hframe] at hother
  by_cases hup : e.phase = .established
  · obtain ⟨seq, rfl, hmissing⟩ := h.unknown hup hframe hother
    have hnone : e.queue.acknowledge? seq now = none :=
      SendQueue.acknowledge?_eq_none_iff.2 hmissing
    simp [onFrame, onAck, hnone]
  · cases frame with
    | hello token => exact absurd rfl (hhello token)
    | _ => simp [onFrame, hup]

/-- A datagram that is ignored is counted as malformed, or not even that. -/
theorem receive_of_ignores (h : e.Ignores datagram) (now : Nat) :
    e.receive datagram now = .ok (e.dropping (e.rejected datagram)) := by
  cases hended : e.phase.isTerminal with
  | true =>
    have hkept : ¬ e.Rejects datagram := by simp [Rejects, hended]
    rw [receive, if_pos hended, rejected_of_not hkept]
    rfl
  | false =>
    have hopen : ¬ e.phase.isTerminal = true := by simp [hended]
    rw [receive, if_neg hopen]
    cases hframe : Frame.decode datagram with
    | error cause =>
      have hcounted : e.Rejects datagram := ⟨hended, .inl (by rw [hframe]; rfl)⟩
      rw [rejected, if_pos hcounted]
      rfl
    | ok frame =>
      cases hpresented : presented? datagram with
      | some token =>
        have hhello := presented?_eq_some_iff.1 hpresented
        obtain rfl : frame = .hello token := Except.ok.inj (hframe.symm.trans hhello)
        obtain ⟨hup, hother⟩ := h.strange hended hhello
        have hcounted : e.Rejects datagram := ⟨hended, .inr ⟨hup, token, hpresented, hother⟩⟩
        rw [rejected, if_pos hcounted]
        simp [onFrame, onHello, hup, hother, dropping]
      | none =>
        rw [rejected_of_not (not_rejects_of_frame hframe hpresented)]
        exact onFrame_of_ignores h hframe hpresented now

theorem perform_of_ignores (h : e.Ignores datagram) (now : Nat) :
    e.perform (.receive datagram now) = .ok (.done, e.dropping (e.rejected datagram)) := by
  rw [perform, receive_of_ignores h now]
  rfl

/-! ## Nothing depends on the count -/

/-- No call can tell how many malformed datagrams have been counted. -/
theorem perform_dropping (e : Endpoint α σ) (count : Nat) (op : Operation) :
    (e.dropping count).perform op = (e.perform op).map fun r => (r.1, r.2.dropping count) := by
  simp only [dropping_eq_behind]
  exact perform_behind e _ (fun _ => rfl) fun _ => rfl

/-- After its first call a run goes on from where that has led. -/
theorem performAll_cons_eq {op : Operation} {answer : Answer}
    (h : e.perform op = .ok (answer, e')) (rest : List Operation) :
    e.performAll (op :: rest) = (e'.performAll rest).map fun r => (answer :: r.1, r.2) := by
  rw [performAll, h]
  show (e'.performAll rest >>= fun r => .ok (answer :: r.1, r.2)) = _
  cases e'.performAll rest <;> rfl

theorem performAll_dropping (e : Endpoint α σ) (count : Nat) (ops : List Operation) :
    (e.dropping count).performAll ops =
      (e.performAll ops).map fun r => (r.1, r.2.dropping count) := by
  induction ops generalizing e with
  | nil => rfl
  | cons op rest ih =>
    have hfirst := perform_dropping e count op
    cases hperform : e.perform op with
    | error cause => simp only [performAll, hfirst, hperform]; rfl
    | ok result =>
      rw [hperform] at hfirst
      rw [performAll_cons_eq hfirst, performAll_cons_eq hperform, ih]
      cases result.2.performAll rest <;> rfl

/-! ## Runs to which datagrams are added -/

/-- Every additional datagram comes when the endpoint ignores it. -/
def ignoresExtras (e : Endpoint α σ) : List Item → Bool
  | [] => true
  | item :: rest =>
    item.extra?.all (fun datagram => decide (e.Ignores datagram)) &&
      match e.perform item.operation with
      | .ok (_, e') => e'.ignoresExtras rest
      | .error _ => true

/-- How many of the additional datagrams are counted as malformed. -/
def extraRejected (e : Endpoint α σ) : List Item → Nat
  | [] => 0
  | item :: rest =>
    item.extra?.elim 0 e.rejected +
      match e.perform item.operation with
      | .ok (_, e') => e'.extraRejected rest
      | .error _ => 0

/-- The additional datagrams of a run change the answers to its calls in nothing, and the endpoint
in the count of malformed ones alone. -/
theorem performAll_items {items : List Item} (h : e.ignoresExtras items = true) :
    e.performAll (items.map Item.operation) =
      (e.performAll (items.filterMap Item.call?)).map fun r =>
        (Item.weave items r.1, r.2.dropping (e.extraRejected items)) := by
  induction items generalizing e with
  | nil => rfl
  | cons item rest ih =>
    rw [ignoresExtras, Bool.and_eq_true] at h
    obtain ⟨hignored, hrest⟩ := h
    rw [extraRejected, List.map_cons]
    cases item with
    | call op =>
      show e.performAll (op :: rest.map Item.operation) =
        (e.performAll (op :: rest.filterMap Item.call?)).map _
      dsimp only [Item.operation] at hrest ⊢
      cases hperform : e.perform op with
      | error cause => simp only [performAll, hperform]; rfl
      | ok result =>
        rw [hperform] at hrest
        rw [performAll_cons_eq hperform, performAll_cons_eq hperform, ih hrest]
        simp only [Item.extra?, Option.elim_none, Nat.zero_add]
        cases result.2.performAll (rest.filterMap Item.call?) <;> rfl
    | extra datagram now =>
      have hperform := perform_of_ignores (of_decide_eq_true hignored) now
      show e.performAll (.receive datagram now :: rest.map Item.operation) =
        (e.performAll (rest.filterMap Item.call?)).map _
      dsimp only [Item.operation] at hrest ⊢
      rw [hperform] at hrest
      rw [performAll_cons_eq hperform, ih hrest, performAll_dropping, hperform]
      cases e.performAll (rest.filterMap Item.call?) with
      | error cause => rfl
      | ok result =>
        simp [Except.map, Item.weave, Item.extra?, dropping_dropping]

/-- A datagram that an endpoint ignores changes nothing, except that one which is no frame or
presents another token is counted as malformed while the connection has not ended.  So a run to
which such datagrams are added, wherever the endpoint ignores them, has a result if it has one
without them.  Its calls are answered the same, and it leads to the same endpoint but for the count,
on which nothing depends that the endpoint says of itself, except for the count itself. -/
theorem ignored_without_trace (e : Endpoint α σ) :
    (∀ datagram now, e.Ignores datagram → e.perform (.receive datagram now) =
      .ok (.done, if e.Rejects datagram then e.dropping 1 else e)) ∧
    (∀ items, e.ignoresExtras items = true → e.performAll (items.map Item.operation) =
      (e.performAll (items.filterMap Item.call?)).map fun r =>
        (Item.weave items r.1, r.2.dropping (e.extraRejected items))) ∧
    ∀ count, (e.dropping count).nextTickInterval = e.nextTickInterval ∧
      (e.dropping count).summary = e.summary ∧
      (e.dropping count).statistics = e.statistics.map fun s =>
        { s with malformedDropped := s.malformedDropped + count } := by
  refine ⟨fun datagram now h => ?_, fun items h => performAll_items h, fun count => ⟨rfl, rfl, ?_⟩⟩
  · rw [perform_of_ignores h now, rejected]
    split <;> rfl
  · have hround : (e.dropping count).roundTrip = e.roundTrip := rfl
    unfold statistics
    rw [hround]
    cases e.roundTrip.smoothed with
    | error cause => rfl
    | ok smoothed => cases e.roundTrip.timeout <;> rfl

/-- Eight datagrams are ignored in the course of a connection, and three of them are counted. -/
theorem ignored_without_trace_eight :
    let hello (token : Bytes) : Bytes := (Frame.hello token).encode
    let ack (seq : UInt32) : Bytes := (Frame.ack seq).encode
    let items : List Item := [.extra [] 0, .call (.connect 0), .extra (ack 0) 0,
      .call (.receive (hello [7]) 1), .extra (hello [8]) 1, .call (.send [5] 1), .extra (ack 3) 2,
      .call (.receive (ack 0) 3), .extra (ack 0) 3, .extra [200] 4, .call .close, .extra [] 5,
      .extra (hello [8]) 6]
    ∃ (nonces : Nat → Nonce) (e₀ e : Endpoint Rat Unit) (answers : List Answer),
      create {} [7] .plain () nonces = .ok e₀ ∧ e₀.ignoresExtras items = true ∧
        e₀.performAll (items.filterMap Item.call?) = .ok (answers, e) ∧
        e.counters.acksReceived = 1 ∧
        e₀.performAll (items.map Item.operation) =
          .ok (Item.weave items answers, e.dropping 3) := by
  intro hello ack items
  obtain ⟨e₀, hcreate, hrest⟩ := exists_of_any_toOption
    (show (blank {} [7]).toOption.any (fun e₀ =>
      (e₀.ignoresExtras items && e₀.extraRejected items == 3) &&
        (e₀.performAll (items.filterMap Item.call?)).toOption.any fun r =>
          r.2.counters.acksReceived == 1) = true by decide +kernel)
  simp only [Bool.and_eq_true, beq_iff_eq] at hrest
  obtain ⟨⟨hignored, hcount⟩, hrest⟩ := hrest
  obtain ⟨⟨answers, e⟩, hrun, hacks⟩ := exists_of_any_toOption hrest
  have hall := (ignored_without_trace e₀).2.1 items hignored
  rw [hrun, hcount] at hall
  exact ⟨_, e₀, e, answers, hcreate, hignored, hrun, beq_iff_eq.1 hacks, hall⟩

end Endpoint

end DatagramTunnel.Session
