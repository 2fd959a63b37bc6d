import FailureOrchestrator.UntrustedRedaction
import FailureOrchestrator.Verification

namespace FailureOrchestrator

open Regex

/-! ## Output that is stored -/

def stepTailChars : Nat := 1500

def maxFeedbackChars : Nat := 4000

def tail (text : Str) (limit : Nat) : Str := if text.length ≤ limit then text else lastChars limit text

/-- `_step_record`; a step that did not run has neither code nor output. -/
structure StepRecord where
  command : Str
  ran : Bool
  returncode : Option Int := none
  outputTail : Option Str := none
  deriving DecidableEq, Repr

structure Feedback where
  attempt : Nat
  reason : Str
  output : Str
  deriving DecidableEq, Repr

section

variable [UnicodeData]

def stepTail : Option VerificationStep → Str
  | none => []
  | some step => lastChars stepTailChars (cleanUntrusted (strip step.output))

def stepRecord (step : Option VerificationStep) (display : Str) : StepRecord :=
  match step with
  | none => { command := display, ran := false }
  | some step =>
    { command := display, ran := true, returncode := some step.returncode, outputTail := some (stepTail (some step)) }

/-- `WorktreeSandbox._record`. -/
def recordFeedback (feedback : List Feedback) (attempt : Nat) (reason output : Str) : List Feedback :=
  feedback ++ [⟨attempt, reason, tail (cleanUntrusted output) maxFeedbackChars⟩]

end

section

variable [UnicodeData]

end

end FailureOrchestrator
