import Mathlib.Data.List.Infix

/-!
# Errors of guest calls

The error a guest call ends with, its classification as a trap or a guest
category, and the reasons a dead-letter record carries.
-/

namespace Wafer

/-- The `wasmtime::Trap` codes the runtime tells apart; every other code is `other`. -/
inductive Trap
  | memoryOutOfBounds
  | unreachableCodeReached
  | interrupt
  | outOfFuel
  | other (name : String)
  deriving DecidableEq, Repr

inductive WasmProcessError
  | badInput (message : String)
  | dependencyFailed (message : String)
  | processingFailed (message : String)
  | timedOut
  | unrecoverable (message : String)
  | trapped (code : Option Trap) (message : String)
  deriving DecidableEq, Repr

inductive TrapKind
  | memoryOutOfBounds
  | unreachable
  | interrupt
  | outOfFuel
  | memoryLimit
  | other
  deriving DecidableEq, Repr

inductive ErrorCategory
  | badInput
  | dependencyFailed
  | processingFailed
  | timedOut
  | unrecoverable
  deriving DecidableEq, Repr

def TrapKind.all : List TrapKind :=
  [.memoryOutOfBounds, .unreachable, .interrupt, .outOfFuel, .memoryLimit, .other]

def ErrorCategory.all : List ErrorCategory :=
  [.badInput, .dependencyFailed, .processingFailed, .timedOut, .unrecoverable]

/-- The text of a `memory.grow` refused by the store limits; such an error has no trap code. -/
def memoryLimitMarker : String := "forcing trap when growing memory"

namespace WasmProcessError

def toString : WasmProcessError → String
  | badInput message => "bad input: " ++ message
  | dependencyFailed message => "dependency failed: " ++ message
  | processingFailed message => "processing failed: " ++ message
  | timedOut => "timed out"
  | unrecoverable message => "unrecoverable: " ++ message
  | trapped _ message => "trapped: " ++ message

def isBudgetExhausted : WasmProcessError → Bool
  | trapped (some .interrupt) _ => true
  | trapped (some .outOfFuel) _ => true
  | _ => false

def trapKind : WasmProcessError → Option TrapKind
  | trapped (some .memoryOutOfBounds) _ => some .memoryOutOfBounds
  | trapped (some .unreachableCodeReached) _ => some .unreachable
  | trapped (some .interrupt) _ => some .interrupt
  | trapped (some .outOfFuel) _ => some .outOfFuel
  | trapped none message =>
    if memoryLimitMarker.toList <:+: message.toList then some .memoryLimit else some .other
  | trapped _ _ => some .other
  | _ => none

def guestCategory : WasmProcessError → Option ErrorCategory
  | badInput _ => some .badInput
  | dependencyFailed _ => some .dependencyFailed
  | processingFailed _ => some .processingFailed
  | timedOut => some .timedOut
  | unrecoverable _ => some .unrecoverable
  | trapped _ _ => none

/-- The errors after which the instance is rebuilt: traps and the guest's `unrecoverable`. -/
def condemns : WasmProcessError → Bool
  | trapped _ _ => true
  | unrecoverable _ => true
  | _ => false

/-- Every error is counted once: it has a trap kind or a guest category, never both. -/
theorem trapKind_isSome_iff (error : WasmProcessError) :
    error.trapKind.isSome = true ↔ error.guestCategory = none := by
  cases error with
  | trapped code message =>
    rcases code with _ | _ | _ | _ | _ <;> simp only [trapKind, guestCategory] <;>
      first | (split <;> simp) | simp
  | _ => simp [trapKind, guestCategory]

end WasmProcessError

inductive DlqReason
  | badInput
  | timedOut
  | retriesExhausted (maxRetries : Nat)
  | retryBufferFull
  | hotSwapDrain
  | shutdown
  | queueFull (edge : String)
  | trapped (kind : TrapKind)
  | unrecoverable
  | recoveryFailed
  deriving DecidableEq, Repr

end Wafer
