import Multitouch.Expression

/-!
# The text of an expression

An expression is written the way it is read, with everything spelled out: every action shows its
target and its repetition, every group its repetition.  A repetition without a greatest number is
a star or a plus; one that starts above one cannot be written in a pattern and is shown with an
open bound.
-/

namespace Multitouch

/-- `*`, `+`, `{min,}` or `{min,max}`. -/
def Repetition.chars : Repetition → List Char
  | ⟨0, none⟩ => ['*']
  | ⟨1, none⟩ => ['+']
  | ⟨least, none⟩ => '{' :: Nat.toDigits 10 least ++ [',', '}']
  | ⟨least, some most⟩ => '{' :: Nat.toDigits 10 least ++ ',' :: Nat.toDigits 10 most ++ ['}']

/-- A repetition's text. -/
def Repetition.text (r : Repetition) : String :=
  String.ofList r.chars

/-- `KEY/TARGET/REPETITION`. -/
def Action.chars (a : Action) : List Char :=
  a.key.chars ++ '/' :: a.target.toList ++ '/' :: a.repetition.chars

namespace Expression

mutual

/-- Members of a group stand side by side, alternatives are parted by bars; a group's name is
not shown. -/
def chars : Expression → List Char
  | action a => a.chars
  | group _ body r => '(' :: sequenceChars body ++ ')' :: r.chars
  | options alternatives => optionsChars alternatives

/-- The members of a sequence, one after the other. -/
def sequenceChars : List Expression → List Char
  | [] => []
  | e :: es => e.chars ++ sequenceChars es

/-- Alternatives with bars between them. -/
def optionsChars : List Expression → List Char
  | [] => []
  | [e] => e.chars
  | e :: es => e.chars ++ '|' :: optionsChars es

end

/-- An expression's text. -/
def text (e : Expression) : String :=
  String.ofList e.chars

end Expression

end Multitouch
