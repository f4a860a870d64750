/-!
# Reasons to refuse a pattern

A pattern that cannot be read is refused as a whole, with one cause and the place it was found,
counted in bytes from the start of the pattern.
-/

namespace Multitouch

/-- Groups are nested at most this deep. -/
def maxNesting : Nat := 128

/-- A pattern is unrolled to at most this many automaton states. -/
def maxStates : Nat := 100000

/-- Numbers in a pattern stay below this. -/
def numberLimit : Nat := UInt32.size

namespace Grammar

/-- What was missing from a repetition in braces. -/
inductive Missing where
  | number
  | close
  | commaOrClose
  deriving DecidableEq, Repr

/-- What was missing, in words. -/
def Missing.text : Missing → String
  | number => "expected unsigned integer"
  | close => "expected '\x7d'"
  | commaOrClose => "expected ',' or '\x7d'"

/-- Why a pattern is refused. -/
inductive Cause where
  /-- An action starts with another letter than a phase's; `lead` is the first byte of it. -/
  | unknownPhase (lead : Char)
  /-- The pattern ends where an action or a group is due. -/
  | missingItem
  /-- A phase's letter is not followed by a slot. -/
  | missingSlot
  /-- An action names slot zero. -/
  | zeroSlot
  /-- A number reaches the limit. -/
  | numberTooLarge
  /-- A target is not closed. -/
  | openTarget
  /-- A group is not closed. -/
  | openGroup
  /-- A group is closed that was never opened. -/
  | strayClose
  /-- A repetition in braces lacks a part. -/
  | malformedRepetition (missing : Missing)
  /-- A repetition asks for more than it allows. -/
  | invertedBounds (least most : Nat)
  /-- Groups are nested too deep. -/
  | nestingTooDeep
  /-- The pattern is unrolled to too many states. -/
  | tooManyStates
  deriving DecidableEq, Repr

/-- A cause in words. -/
def Cause.text : Cause → String
  | unknownPhase lead =>
    "expected action kind 'd', 'm' or 'u', got '" ++ String.singleton lead ++ "'"
  | missingItem => "expected action or group, got end of pattern"
  | missingSlot => "expected local input id after action kind"
  | zeroSlot => "local input id must be >= 1"
  | numberTooLarge => "number overflow in pattern"
  | openTarget => "unterminated target pattern, expected closing '/'"
  | openGroup => "unclosed group, expected ')'"
  | strayClose => "unexpected ')' without matching '('"
  | malformedRepetition missing => "malformed repetition modifier: " ++ missing.text
  | invertedBounds least most =>
    "repetition minimum " ++ toString least ++ " exceeds maximum " ++ toString most
  | nestingTooDeep => "groups nested deeper than " ++ toString maxNesting
  | tooManyStates => "pattern expands to more than " ++ toString maxStates ++ " states"

end Grammar

/-- Why and where a pattern is refused. -/
structure PatternError where
  cause : Grammar.Cause
  /-- Counted in bytes from the start of the pattern. -/
  position : Nat
  deriving DecidableEq, Repr

/-- What is read or refused is compared like its parts. -/
instance PatternError.decEqExcept {α : Type} [DecidableEq α] : DecidableEq (Except PatternError α)
  | .ok a, .ok b => decidable_of_iff (a = b) (by simp)
  | .ok _, .error _ => isFalse (by simp)
  | .error _, .ok _ => isFalse (by simp)
  | .error e, .error f => decidable_of_iff (e = f) (by simp)

/-- A refusal in words. -/
def PatternError.message (e : PatternError) : String :=
  "pattern error at position " ++ toString e.position ++ ": " ++ e.cause.text

end Multitouch
