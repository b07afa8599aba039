import Mathlib.Data.List.Basic

/-!
# Diagnostic — the codes this daemon owns

`src/diagnostic.rs`: the four codes the daemon raises itself. Every other
code it reports is the Engine's, forwarded as a string.
-/

namespace NostdbServer

/-- A diagnostic code this crate raises. -/
inductive Code where
  | catalogInvalid
  | catalogVersionUnsupported
  | serverAlreadyRunning
  | serverProtocolUnsupported
  deriving DecidableEq, Repr

namespace Code

/-- The stable identifier a client matches on. -/
def asStr : Code → String
  | catalogInvalid => "CATALOG_INVALID"
  | catalogVersionUnsupported => "CATALOG_VERSION_UNSUPPORTED"
  | serverAlreadyRunning => "SERVER_ALREADY_RUNNING"
  | serverProtocolUnsupported => "SERVER_PROTOCOL_UNSUPPORTED"

/-- Whether the code reports a failure: all but the outcome of a start
that found a daemon. -/
def isFailure : Code → Bool
  | serverAlreadyRunning => false
  | _ => true

/-- A client that matches on the identifier matches on the code. -/
theorem asStr_injective : Function.Injective asStr := by
  intro a b h
  cases a <;> cases b <;> first | rfl | exact absurd h (by decide)

end Code

end NostdbServer
