import Multitouch.Text.Charset

/-!
# Target patterns as trees

A target pattern is made of sets of characters, of places that look at the characters beside
them, and of sequences, alternatives and repetitions.  All flags have been resolved: a set says
what it matches in full, a place says which words and lines it means.

`ofSet`, `inOrder`, `anyOf` and `repetition` build trees in a normal form, in which what says the
same in a shorter way has been replaced: a set of one character by a text, a sequence within a
sequence by its members, alternatives that are all sets by their union, and so on.  How much room
a pattern takes is said of its normal form.

Two things that do not decide what is matched are kept because parts that differ in them are not
the same: whether a set is one of Unicode, and whether a repetition is greedy.
-/

namespace Multitouch.Target

/-- A place in a target, told by the characters before and after it. -/
inductive Place where
  | textStart
  | textEnd
  /-- At the start of a line; with `carriage`, a carriage return ends lines too. -/
  | lineStart (carriage : Bool)
  | lineEnd (carriage : Bool)
  /-- Between a character of a word and another, or between two of a kind.  The set holds the
  characters of words. -/
  | wordEdge (word : Charset)
  | noWordEdge (word : Charset)
  | wordStart (word : Charset)
  | wordEnd (word : Charset)
  /-- Not after a character of a word, or not before one. -/
  | wordStartHalf (word : Charset)
  | wordEndHalf (word : Charset)
  deriving DecidableEq

/-- A target pattern. -/
inductive Tree where
  | empty
  /-- One character after the other. -/
  | text (cs : List Char)
  /-- A character of the set, which has been given in terms of Unicode or of bytes. -/
  | set (s : Charset) (unicode : Bool)
  | place (p : Place)
  /-- One part after the other. -/
  | sequence (members : List Tree)
  | choice (alternatives : List Tree)
  /-- At least `least` times and, where there is a `most`, at most that often; as often as possible
  if `greedy`. -/
  | repeated (body : Tree) (least : Nat) (most : Option Nat) (greedy : Bool)
  /-- A part in parentheses whose place in the target would be kept. -/
  | capture (body : Tree)

namespace Tree

mutual

/-- The tree has no room for a character. -/
def weightless : Tree → Bool
  | empty => true
  | text _ => false
  | set _ _ => false
  | place _ => true
  | sequence members => allWeightless members
  | choice alternatives => allWeightless alternatives
  | repeated body _ most _ => most.isSome && body.weightless
  | capture body => body.weightless

/-- None of the trees has room for a character. -/
def allWeightless : List Tree → Bool
  | [] => true
  | t :: ts => t.weightless && allWeightless ts

end

mutual

/-- The trees say the same in the same way.  What is captured is kept apart for every pair of
parentheses, so no two captures do. -/
def same : Tree → Tree → Bool
  | empty, empty => true
  | text cs, text ds => cs == ds
  | set s unicode, set t unicode' => s == t && unicode == unicode'
  | place p, place q => p == q
  | sequence ts, sequence us => sameAll ts us
  | choice ts, choice us => sameAll ts us
  | repeated t least most greedy, repeated u least' most' greedy' =>
    least == least' && most == most' && greedy == greedy' && t.same u
  | _, _ => false

/-- The trees are the same, one by one. -/
def sameAll : List Tree → List Tree → Bool
  | [], [] => true
  | t :: ts, u :: us => t.same u && sameAll ts us
  | _, _ => false

end

/-! ### Sets and sequences -/

/-- A character of the set. -/
def ofSet (s : Charset) (unicode : Bool) : Tree :=
  match s.ranges with
  | [] => set .empty false
  | [(a, b)] => if a = b then text [Char.ofNat a] else set s unicode
  | _ => set s unicode

/-- The parts that a tree stands for in a sequence. -/
def parts : Tree → List Tree
  | empty => []
  | sequence members => members
  | t => [t]

/-- Puts a part in front of others; texts side by side are one text. -/
def prepend (t : Tree) (ts : List Tree) : List Tree :=
  match t, ts with
  | text cs, text ds :: ts => text (cs ++ ds) :: ts
  | t, ts => t :: ts

/-- The trees one after the other. -/
def inOrder (ts : List Tree) : Tree :=
  match (ts.flatMap parts).foldr prepend [] with
  | [] => empty
  | [t] => t
  | ts => sequence ts

/-! ### Alternatives -/

/-- The trees among which a tree chooses. -/
def alternatives : Tree → List Tree
  | choice ts => ts
  | t => [t]

/-- The set of a single character. -/
def single? : Tree → Option Charset
  | text [c] => some (.single c)
  | _ => none

/-- The set that a tree stands for, if it has not been replaced by a text. -/
def set? : Tree → Option Charset
  | set s _ => some s
  | _ => none

/-- The members of a sequence. -/
def members? : Tree → Option (List Tree)
  | sequence ts => some ts
  | _ => none

/-- The number of trees that two lists begin with alike. -/
def agreement : List Tree → List Tree → Nat
  | t :: ts, u :: us => if t.same u then agreement ts us + 1 else 0
  | _, _ => 0

/-- Any of the trees.  Single characters become a set, and so do sets, but not the two mixed. -/
def among (ts : List Tree) : Tree :=
  match ts.flatMap alternatives with
  | [t] => t
  | ts =>
    match ts.mapM single? <|> ts.mapM set? with
    | some sets => ofSet (.ofRanges (sets.flatMap (·.ranges))) true
    | none => choice ts

/-- Any of the trees.  What all of several sequences begin with is put in front of the choice
between what follows. -/
def anyOf (ts : List Tree) : Tree :=
  match among ts with
  | choice ts =>
    match ts.mapM members? with
    | some (first :: rest) =>
      match (rest.map (agreement first)).foldl min first.length with
      | 0 => choice ts
      | shared =>
        inOrder (first.take shared ++ [among ((first :: rest).map (inOrder <| ·.drop shared))])
    | _ => choice ts
  | t => t

/-! ### Repetitions -/

/-- A repetition.  What has no room for a character need not occur more than once. -/
def repetition (body : Tree) (least : Nat) (most : Option Nat) (greedy : Bool) : Tree :=
  let (least, most) :=
    if body.weightless then (min least 1, some (min (most.getD 1) 1)) else (least, most)
  match most with
  | some 0 => empty
  | some 1 => if least = 1 then body else repeated body least most greedy
  | _ => repeated body least most greedy

end Tree

end Multitouch.Target
