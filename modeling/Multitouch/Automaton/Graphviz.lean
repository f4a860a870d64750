import Multitouch.Automaton.Basic

/-!
# Automata as graphs

An automaton is drawn as a directed graph in the language of Graphviz: a line for each state,
labelled with its number and its tag and drawn with a double circle if it is final, and after it
a line for each way an edge leads from it.  Within labels backslashes and quotes are escaped.
-/

namespace Multitouch

/-- Text as it stands within a quoted label. -/
def Graphviz.escape : List Char → List Char
  | [] => []
  | c :: cs => if c = '\\' ∨ c = '"' then '\\' :: c :: escape cs else c :: escape cs

namespace State

/-- The line that draws a state. -/
def nodeLine (n : Nat) (s : State) : String :=
  "node[label=\"" ++ toString n ++ ":" ++ String.ofList (Graphviz.escape s.tag.text.toList) ++
    "\"" ++ (if s.final then ", shape=doublecircle" else "") ++ "] id" ++ toString n ++ "\n"

/-- The line that draws one way from a state. -/
def arrowLine (n : Nat) (e : Edge Guard) (dest : Nat) : String :=
  "id" ++ toString n ++ " -> id" ++ toString dest ++ " [label=\"" ++ e.key.text ++ "/" ++
    String.ofList (Graphviz.escape e.target.source.toList) ++ "/\"]\n"

/-- A state's line and the lines of all ways from it. -/
def lines (n : Nat) (s : State) : List String :=
  s.nodeLine n :: s.edges.flatMap fun e => e.dests.map (arrowLine n e)

end State

/-- An automaton's drawing. -/
def Automaton.graphviz (A : Automaton) : String :=
  "digraph \x7b\n" ++ String.join ((A.states.toList.mapIdx State.lines).flatten) ++ "\x7d\n"

end Multitouch
