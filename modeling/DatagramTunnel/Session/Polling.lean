import DatagramTunnel.Session.Endpoint

/-!
# Emptying the queues of an endpoint

Datagrams and events leave an endpoint one at a time. Here they are taken until there is none left:
`drainOutbox_fst` and `drainEvents_fst` say that this yields exactly what was queued.
-/

namespace DatagramTunnel.Session.Endpoint

variable {α σ : Type}

/-- Takes up to `limit` datagrams for the socket. -/
def takeDatagrams : Nat → Endpoint α σ → List Bytes × Endpoint α σ
  | 0, e => ([], e)
  | limit + 1, e =>
    match e.pollTransmit with
    | (none, e') => ([], e')
    | (some datagram, e') =>
      let (others, rest) := takeDatagrams limit e'
      (datagram :: others, rest)

/-- Takes every datagram for the socket. -/
def drainOutbox (e : Endpoint α σ) : List Bytes × Endpoint α σ := takeDatagrams e.outbox.length e

/-- Asks up to `limit` times for an event, and stops when there is none: the answers in order, of
which only the last may be empty. -/
def takeEvents : Nat → Endpoint α σ → List (Option Event) × Endpoint α σ
  | 0, e => ([], e)
  | limit + 1, e =>
    match e.pollEvent with
    | (none, e') => ([none], e')
    | (some event, e') =>
      let (others, rest) := takeEvents limit e'
      (some event :: others, rest)

/-- Takes every event and learns that there is no other, which closes a connection that is
closing. -/
def drainEvents (e : Endpoint α σ) : List Event × Endpoint α σ :=
  let (answers, rest) := takeEvents (e.events.length + 1) e
  (answers.filterMap id, rest)

theorem takeDatagrams_fst (limit : Nat) (e : Endpoint α σ) :
    (takeDatagrams limit e).1 = e.outbox.take limit := by
  induction limit generalizing e with
  | zero => simp [takeDatagrams]
  | succ limit ih =>
    cases h : e.outbox with
    | nil => simp [takeDatagrams, pollTransmit, h]
    | cons datagram rest => simp [takeDatagrams, pollTransmit, h, ih, count]

theorem drainOutbox_fst (e : Endpoint α σ) : e.drainOutbox.1 = e.outbox := by
  rw [drainOutbox, takeDatagrams_fst, List.take_length]

theorem takeEvents_fst (e : Endpoint α σ) :
    (takeEvents (e.events.length + 1) e).1 = e.events.map some ++ [none] := by
  generalize h : e.events = events
  induction events generalizing e with
  | nil => simp [takeEvents, pollEvent, h]
  | cons event rest ih =>
    have step : e.pollEvent = (some event, { e with events := rest }) := by simp [pollEvent, h]
    rw [List.length_cons, takeEvents, step]
    simp [ih { e with events := rest } rfl]

theorem drainEvents_fst (e : Endpoint α σ) : e.drainEvents.1 = e.events := by
  simp [drainEvents, takeEvents_fst, List.filterMap_append, List.filterMap_map]

end DatagramTunnel.Session.Endpoint
