import Mathlib.Tactic

/-!
# The billing lifecycle

`billing-lifecycle.machine.ts`: the states of a billing session and the transitions between them.
A transition that is not allowed is rejected without an error: the state stays.
-/

namespace VibemeetBackend.Billing

/-- `BillingLifecycleState`. -/
inductive Lifecycle where
  | init
  | starting
  | active
  | ending
  | settling
  | settled
  | failed
  | recovering
  | failedRecoverySettlement
  deriving DecidableEq

/-- `ALLOWED_TRANSITIONS`. -/
def allowedTransitions : Lifecycle → List Lifecycle
  | .init => [.starting, .active, .failed]
  | .starting => [.active, .ending, .failed, .recovering]
  | .active => [.ending, .recovering, .settling, .failed, .failedRecoverySettlement]
  | .recovering => [.active, .ending, .settling, .failed, .failedRecoverySettlement]
  | .ending => [.settling, .settled, .failed, .failedRecoverySettlement]
  | .settling => [.settled, .failed, .failedRecoverySettlement]
  | .settled => []
  | .failed => [.settling, .failedRecoverySettlement]
  | .failedRecoverySettlement => []

def transitionBillingState (src dst : Lifecycle) : Lifecycle × Bool :=
  if src = dst then (src, true)
  else if (allowedTransitions src).contains dst then (dst, true)
  else (src, false)

def isNonTerminalLifecycle (state : Option Lifecycle) : Bool :=
  state.getD .active != .settled && state.getD .active != .failed

end VibemeetBackend.Billing
