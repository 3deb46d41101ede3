import DatagramTunnel.Session.Endpoint

/-!
# Runs of an endpoint

Whatever can be done to an endpoint is an `Operation`, and a run is a list of operations with the
answers they gave. A run has no result if one of its operations has none. `performAll_append` says
that a run in two parts is one run.
-/

namespace DatagramTunnel.Session

open Flight

/-- A call on an endpoint. Calls that can depend on the time carry the instant. -/
inductive Operation where
  | connect (now : Nat)
  | send (packet : Bytes) (now : Nat)
  | sendRaw (id : UInt8) (payload : Bytes)
  | receive (datagram : Bytes) (now : Nat)
  | tick (now : Nat)
  | close
  | socketClosed
  | pollTransmit
  | pollEvent
  deriving DecidableEq, Repr

/-- What a call returns. -/
inductive Answer where
  | done
  | refused (cause : TunnelError)
  | datagram (next : Option Bytes)
  | event (next : Option Event)

/-- The answer of a call that may be refused. -/
def Answer.ofResult : Except TunnelError Unit → Answer
  | .ok () => .done
  | .error cause => .refused cause

namespace Endpoint

variable {α σ : Type} [Add α] [Sub α] [Mul α] [Seconds α]

/-- Does one operation. A refused one leaves the endpoint as `send` and `sendRaw` say. -/
def perform (e : Endpoint α σ) : Operation → Except TimeError (Answer × Endpoint α σ)
  | .connect now =>
    match e.connect now with
    | .ok e' => .ok (.done, e')
    | .error cause => .ok (.refused cause, e)
  | .send packet now => do
    let (result, e') ← e.send packet now
    return (.ofResult result, e')
  | .sendRaw id payload =>
    let (result, e') := e.sendRaw id payload
    .ok (.ofResult result, e')
  | .receive datagram now => do return (.done, ← e.receive datagram now)
  | .tick now => do return (.done, ← e.tick now)
  | .close => .ok (.done, e.close)
  | .socketClosed => .ok (.done, e.socketClosed)
  | .pollTransmit =>
    let (next, e') := e.pollTransmit
    .ok (.datagram next, e')
  | .pollEvent =>
    let (next, e') := e.pollEvent
    .ok (.event next, e')

/-- Does operations one after the other. -/
def performAll (e : Endpoint α σ) :
    List Operation → Except TimeError (List Answer × Endpoint α σ)
  | [] => .ok ([], e)
  | op :: rest => do
    let (answer, e') ← e.perform op
    let (answers, e'') ← e'.performAll rest
    return (answer :: answers, e'')

theorem performAll_append (e : Endpoint α σ) (first second : List Operation) :
    e.performAll (first ++ second) = do
      let (answers, e') ← e.performAll first
      let (others, e'') ← e'.performAll second
      return (answers ++ others, e'') := by
  induction first generalizing e with
  | nil =>
    cases h : e.performAll second with
    | error cause => simp [performAll, h, bind, Except.bind]
    | ok result => simp [performAll, h, bind, Except.bind, pure, Except.pure]
  | cons op first ih =>
    simp only [List.cons_append, performAll]
    cases e.perform op with
    | error cause => rfl
    | ok result =>
      simp only [bind, Except.bind, pure, Except.pure] at ih ⊢
      rw [ih]
      cases h : result.2.performAll first with
      | error cause => rfl
      | ok here =>
        dsimp only
        cases here.2.performAll second <;> rfl

end Endpoint

end DatagramTunnel.Session
