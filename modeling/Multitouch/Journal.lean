import Multitouch.Automaton.Build
import Multitouch.Recognizer.Observe
import Multitouch.Text.Quoted

/-!
# The journal

What happens while patterns are built and events are handled is recorded in lines of text, each
of a level of importance.  The lines are computed from the results, so that nothing else depends
on them.
-/

namespace Multitouch

/-- How important a line is. -/
inductive Level where
  | warn
  | debug
  | trace
  deriving DecidableEq, Repr

/-- A level's name. -/
def Level.text : Level → String
  | warn => "warn"
  | debug => "debug"
  | trace => "trace"

/-- A line of the journal. -/
structure Record where
  level : Level
  text : String
  deriving DecidableEq, Repr

namespace Journal

/-- A gesture by its number. -/
def gesture (n : Nat) : String :=
  "gesture#" ++ toString n

/-- An attempt by its number. -/
def attempt (n : Nat) : String :=
  "instance#" ++ toString n

/-- State numbers in brackets. -/
def states (ids : List Nat) : String :=
  "[" ++ ", ".intercalate (ids.map toString) ++ "]"

/-- An outcome in a word. -/
def outcome : Outcome → String
  | .accepted => "Accepted"
  | .rejected => "Rejected"

/-- What is recorded when a network has become an automaton: the texts that are no target
patterns, in the order they were met, and the sizes. -/
def built (N : Network) (A : Automaton) : List Record :=
  ((A.guards.filter (!·.valid)).map fun g =>
    ⟨.warn, "target pattern /" ++ g.source ++
      "/ is not a valid regex and will never match"⟩) ++
  [⟨.debug, "pruned gesture automaton: " ++ toString A.size ++ " of " ++ toString N.size ++
    " states reachable, " ++ toString A.groups ++ " groups"⟩]

/-- What is recorded when a pattern has become an automaton. -/
def compiled (pattern : String) (A : Automaton) : Record :=
  ⟨.debug, "compiled gesture " ++ Quoted.quote pattern ++ ": " ++ toString A.size ++
    " states, " ++ toString A.groups ++ " groups"⟩

/-- What is recorded when a gesture has got its number. -/
def registered (n : Nat) (A : Automaton) : Record :=
  ⟨.debug, "registered " ++ gesture n ++ " with " ++ toString A.size ++ " states"⟩

/-- What is recorded of a report. -/
def ofReport : Report → Record
  | .skipped g live =>
    ⟨.warn, gesture g ++ " not started: " ++ toString live ++ " instances already live"⟩
  | .created id g touch =>
    ⟨.debug, attempt id ++ " created for " ++ gesture g ++ " by touch " ++ toString touch⟩
  | .stepped id g x step =>
    ⟨.trace, attempt id ++ " (" ++ gesture g ++ "): " ++ x.key.text ++ "/" ++ x.target ++
      "/ -> " ++ states step.states⟩
  | .ended id g result =>
    ⟨.debug, attempt id ++ " (" ++ gesture g ++ ") terminated: " ++ outcome result⟩

/-- What is recorded when an attempt has been dropped. -/
def cancelled (id : Nat) : Record :=
  ⟨.debug, attempt id ++ " cancelled"⟩

/-- What is recorded when all attempts are dropped. -/
def dropped (live : Nat) : Record :=
  ⟨.debug, "dropping " ++ toString live ++ " live instances"⟩

end Journal

end Multitouch
