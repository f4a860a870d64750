/-!
# Tags

Every state of an automaton is tagged with the group it belongs to: a step reports the tags of
the states it leaves, which tells what part of the gesture has advanced.  The whole pattern is a
group of its own, named `top`.
-/

namespace Multitouch

/-- The group a state belongs to. -/
inductive Tag where
  /-- The state a gesture starts in; it belongs to no group. -/
  | start
  /-- The state a gesture is complete in; it belongs to no group. -/
  | finish
  /-- A group with a name. -/
  | named (name : String)
  /-- A group without a name, numbered in the order the groups are opened. -/
  | numbered (n : Nat)
  deriving DecidableEq, Repr

namespace Tag

/-- The name of the group that is the whole pattern. -/
def topName : String := "top"

/-- The tag of the whole pattern. -/
def top : Tag := named topName

/-- A tag's text. -/
def text : Tag → String
  | start => "start"
  | finish => "end"
  | named name => name
  | numbered n => toString n

/-- Tags in order: the start, the end, names by their characters, numbers. -/
def le : Tag → Tag → Bool
  | start, _ => true
  | _, start => false
  | finish, _ => true
  | _, finish => false
  | named a, named b => decide (a ≤ b)
  | named _, numbered _ => true
  | numbered _, named _ => false
  | numbered m, numbered n => decide (m ≤ n)

end Tag

end Multitouch
