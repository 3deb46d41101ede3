import DatagramTunnel.Bytes

/-!
# Payload transforms

A layer above the tunnel may wrap packets before they are sent and unwrap them on arrival, for
instance to encrypt them. A transform is a pair of such functions over a private state of its own;
either may refuse, and refusing may change the state too.
-/

namespace DatagramTunnel.Session

/-- Why a payload was not wrapped, or not unwrapped. -/
structure TransformError where
  reason : String
  deriving DecidableEq, Repr

def TransformError.message (e : TransformError) : String :=
  "payload transform failed: " ++ e.reason

/-- Wraps and unwraps payloads; `σ` is the private state. -/
structure Transform (σ : Type) where
  wrap : σ → Bytes → Except TransformError Bytes × σ
  unwrap : σ → Bytes → Except TransformError Bytes × σ

/-- A transform that keeps no state. -/
def Transform.stateless {σ : Type} (wrap unwrap : Bytes → Except TransformError Bytes) :
    Transform σ where
  wrap state payload := (wrap payload, state)
  unwrap state payload := (unwrap payload, state)

/-- The transform that changes nothing: payloads travel in the clear. -/
def Transform.plain {σ : Type} : Transform σ := .stateless .ok .ok

end DatagramTunnel.Session
