import Multitouch.Target.Tree
import Multitouch.Text.Folding
import Multitouch.Text.Words

/-!
# Flags

Flags say how the parts of a target pattern that come after them are meant: whether case counts,
what ends a line, whether a dot matches line ends, whether classes go beyond the first 128
characters, and whether blanks between the parts are to be passed over.
-/

namespace Multitouch.Target

/-- How the parts of a target pattern are meant. -/
structure Flags where
  ignoreCase : Bool := false
  multiLine : Bool := false
  dotAll : Bool := false
  carriage : Bool := false
  unicode : Bool := true
  spaced : Bool := false
  /-- Repetitions are greedy if marked as lazy, and lazy otherwise. -/
  swapGreed : Bool := false

namespace Flags

/-- Switches the flag with the given letter. -/
def set (f : Flags) (letter : Char) (on : Bool) : Option Flags :=
  match letter with
  | 'i' => some { f with ignoreCase := on }
  | 'm' => some { f with multiLine := on }
  | 's' => some { f with dotAll := on }
  | 'R' => some { f with carriage := on }
  | 'u' => some { f with unicode := on }
  | 'x' => some { f with spaced := on }
  | 'U' => some { f with swapGreed := on }
  | _ => none

/-- The set with the characters it means when case is ignored. -/
def fold (f : Flags) (s : Charset) : Charset :=
  if f.ignoreCase then (if f.unicode then s.fold else s.foldLatin) else s

/-- What a negated set means.  Without Unicode it would match bytes that are no characters. -/
def negate (f : Flags) (s : Charset) : Option Charset :=
  if f.unicode then some s.compl else none

/-- A set or its negation. -/
def signed (f : Flags) (negated : Bool) (s : Charset) : Option Charset :=
  if negated then f.negate s else some s

/-- The decimal digits. -/
def digit (f : Flags) : Charset :=
  if f.unicode then .digits else .range 0x30 0x39

/-- The blanks. -/
def blank (f : Flags) : Charset :=
  if f.unicode then .blanks else ⟨[(0x9, 0xD), (0x20, 0x20)]⟩

/-- The characters of words. -/
def word (f : Flags) : Charset :=
  if f.unicode then .wordChars else ⟨[(0x30, 0x39), (0x41, 0x5A), (0x5F, 0x5F), (0x61, 0x7A)]⟩

/-- What a dot matches: anything, or anything that does not end a line. -/
def dot (f : Flags) : Option Charset :=
  f.negate (if f.dotAll then .empty
    else if f.carriage then ⟨[(0xA, 0xA), (0xD, 0xD)]⟩ else ⟨[(0xA, 0xA)]⟩)

/-- The start of what is looked at. -/
def startPlace (f : Flags) : Place :=
  if f.multiLine then .lineStart f.carriage else .textStart

/-- The end of what is looked at. -/
def endPlace (f : Flags) : Place :=
  if f.multiLine then .lineEnd f.carriage else .textEnd

/-- Passes over blanks, and over comments from a number sign to the end of the line. -/
def skip (comment : Bool) : List Char → List Char
  | [] => []
  | c :: rest =>
    if comment then skip (c != '\n') rest
    else if Charset.blanks.contains c then skip false rest
    else if c = '#' then skip true rest
    else c :: rest

/-- The text from the next part on. -/
def next (f : Flags) (text : List Char) : List Char :=
  if f.spaced then skip false text else text

/-- The character that the next part begins with, as far as ranges need to know it: one number
sign is passed over like a blank. -/
def peek (f : Flags) (text : List Char) : Option Char :=
  if f.spaced then
    match text.dropWhile Charset.blanks.contains with
    | '#' :: rest => (rest.dropWhile Charset.blanks.contains).head?
    | rest => rest.head?
  else text.head?

end Flags

/-- The classes of the first 128 characters that have a name within brackets. -/
def namedClass? : String → Option Charset
  | "alnum" => some ⟨[(0x30, 0x39), (0x41, 0x5A), (0x61, 0x7A)]⟩
  | "alpha" => some ⟨[(0x41, 0x5A), (0x61, 0x7A)]⟩
  | "ascii" => some ⟨[(0x0, 0x7F)]⟩
  | "blank" => some ⟨[(0x9, 0x9), (0x20, 0x20)]⟩
  | "cntrl" => some ⟨[(0x0, 0x1F), (0x7F, 0x7F)]⟩
  | "digit" => some ⟨[(0x30, 0x39)]⟩
  | "graph" => some ⟨[(0x21, 0x7E)]⟩
  | "lower" => some ⟨[(0x61, 0x7A)]⟩
  | "print" => some ⟨[(0x20, 0x7E)]⟩
  | "punct" => some ⟨[(0x21, 0x2F), (0x3A, 0x40), (0x5B, 0x60), (0x7B, 0x7E)]⟩
  | "space" => some ⟨[(0x9, 0xD), (0x20, 0x20)]⟩
  | "upper" => some ⟨[(0x41, 0x5A)]⟩
  | "word" => some ⟨[(0x30, 0x39), (0x41, 0x5A), (0x5F, 0x5F), (0x61, 0x7A)]⟩
  | "xdigit" => some ⟨[(0x30, 0x39), (0x41, 0x46), (0x61, 0x66)]⟩
  | _ => none

end Multitouch.Target
