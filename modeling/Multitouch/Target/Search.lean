import Multitouch.Target.Program
import Multitouch.Target.Reader
import Multitouch.Automaton.Basic

/-!
# Searching a target

A program is run on a target from all places at once: the search keeps the instructions with which
it goes on after a character, and starts the program anew before every character.  Each instruction
is visited at most once between two characters, so that the search takes time in proportion to the
lengths of the target and of the program.
-/

namespace Multitouch.Target

/-- The character is there and in the set. -/
def has (s : Charset) : Option Char → Bool
  | some c => s.contains c
  | none => false

/-- What stands beside a place is as it should be. -/
def Place.holds (p : Place) (before after : Option Char) : Bool :=
  match p with
  | textStart => before == none
  | textEnd => after == none
  | lineStart false => before == none || before == some '\n'
  | lineStart true =>
    before == none || before == some '\n' || before == some '\r' && after != some '\n'
  | lineEnd false => after == none || after == some '\n'
  | lineEnd true =>
    after == none || after == some '\r' || after == some '\n' && before != some '\r'
  | wordEdge w => has w before != has w after
  | noWordEdge w => has w before == has w after
  | wordStart w => !has w before && has w after
  | wordEnd w => has w before && !has w after
  | wordStartHalf w => !has w before
  | wordEndHalf w => !has w after

/-- The state of a search between two characters. -/
structure Search where
  /-- How many characters have been passed when an instruction was last visited, and one. -/
  visited : Array Nat
  /-- The instructions to go on with after the next character. -/
  passed : List Nat := []
  found : Bool := false

namespace Search

/-- Visits instructions between two characters, of which sets pass the second. -/
def visit (code : Array Instruction) (time : Nat) (before after : Option Char) :
    Nat → List Nat → Search → Search
  | _, [], s => s
  | 0, _, s => s
  | fuel + 1, n :: agenda, s =>
    if s.visited.getD n 0 = time then visit code time before after fuel agenda s
    else
      let s := { s with visited := s.visited.setIfInBounds n time }
      match code[n]? with
      | some (.set set next) =>
        visit code time before after fuel agenda
          (if has set after then { s with passed := next :: s.passed } else s)
      | some (.place p next) =>
        visit code time before after fuel
          (if p.holds before after then next :: agenda else agenda) s
      | some (.fork a b) => visit code time before after fuel (a :: b :: agenda) s
      | some .found => { s with found := true }
      | none => visit code time before after fuel agenda s

/-- Goes through the characters that are left, with `agenda` the instructions to go on with. -/
def run (l : Layout) (visited : Array Nat) (time : Nat) (before : Option Char)
    (agenda : List Nat) : List Char → Bool
  | [] => (enter none).found
  | c :: rest =>
    let s := enter (some c)
    s.found || run l s.visited (time + 1) (some c) s.passed rest
where
  /-- Visits all that can be reached before the next character.  An instruction puts at most two
  on the agenda. -/
  enter (after : Option Char) : Search :=
    visit l.code time before after (agenda.length + 2 * l.code.size + 2)
      (l.start :: agenda) { visited }

end Search

/-- The pattern occurs in the target. -/
def Layout.occursIn (l : Layout) (target : String) : Bool :=
  Search.run l (Array.replicate l.code.size 0) 1 none [] target.toList

end Multitouch.Target

namespace Multitouch

/-- The language of target patterns: a pattern matches the targets it occurs in. -/
def Dialect.search : Dialect := fun source =>
  (Target.Tree.read source.toList).map fun tree =>
    let l := tree.program
    fun target => l.occursIn target

end Multitouch
